import EcmaPrune.Analysis.PrimitiveType
import EcmaPrune.Proofs.Semantics.Typing

/-! The verdicts on the types of expressions are true. -/

namespace EcmaPrune

namespace PrimitiveType

/-- The type of value that a verdict names, if it names one. -/
def valueType? : PrimitiveType → Option ValueType
  | null => some .null
  | undefined => some .undefined
  | boolean => some .boolean
  | number => some .number
  | string => some .string
  | bigInt => some .bigInt
  | unknown | mixed => none

/-- Whether a verdict leaves room for a type: its own one, any primitive but symbols, or any. -/
def Allows (verdict : PrimitiveType) (t : ValueType) : Prop :=
  (verdict.isSpecific → verdict.valueType? = some t) ∧
    (verdict = mixed → t ≠ .object ∧ t ≠ .symbol)

@[simp] theorem allows_unknown (t : ValueType) : unknown.Allows t := by
  simp [Allows, isSpecific]

@[simp] theorem mixed_allows {t : ValueType} : mixed.Allows t ↔ t ≠ .object ∧ t ≠ .symbol := by
  simp [Allows, isSpecific]

/-- A specific verdict allows one type only. -/
theorem allows_specific {verdict : PrimitiveType} {t : ValueType} (specific : verdict.isSpecific) :
    verdict.Allows t ↔ verdict.valueType? = some t := by
  cases verdict <;> simp_all [Allows, isSpecific, valueType?]

/-- Only the verdict that knows nothing leaves room for objects and symbols. -/
theorem plain_of_allows {verdict : PrimitiveType} {t : ValueType} (known : verdict ≠ unknown)
    (allowed : verdict.Allows t) : t ≠ .object ∧ t ≠ .symbol := by
  cases verdict <;> cases t <;> simp_all [Allows, isSpecific, valueType?]

/-- What is known of two sources is known of a value from the left one. -/
theorem merge_allows_left {a b : PrimitiveType} {t : ValueType} (allowed : a.Allows t) :
    (a.merge b).Allows t := by
  unfold merge
  -- Nothing is claimed if either source is unknown.
  by_cases unsure : a = unknown ∨ b = unknown
  · rcases unsure with rfl | rfl <;> simp
  -- Two verdicts that agree are kept, and others leave any plain primitive.
  · by_cases same : a = b
    · simp_all
    · have := plain_of_allows (fun h => unsure (.inl h)) allowed
      simp_all

theorem merge_comm (a b : PrimitiveType) : a.merge b = b.merge a := by
  cases a <;> cases b <;> rfl

/-- What is known of two sources is known of a value from the right one. -/
theorem merge_allows_right {a b : PrimitiveType} {t : ValueType} (allowed : b.Allows t) :
    (a.merge b).Allows t :=
  merge_comm b a ▸ merge_allows_left allowed

/-- Conversion to a primitive gives a value of the type that a specific verdict names. -/
theorem valueType_of_convertsTo {verdict : PrimitiveType} {t p : ValueType}
    (specific : verdict.isSpecific) (allowed : verdict.Allows t) (converted : t.ConvertsTo p) :
    verdict.valueType? = some p := by
  -- A type that is named is not that of an object, so nothing is converted.
  have plain := plain_of_allows (by rintro rfl; simp [isSpecific] at specific) allowed
  rw [ValueType.eq_of_convertsTo converted plain.1]
  exact allowed.1 specific

/-- The verdict on a unary minus or complement allows what comes of any allowed operand. -/
theorem negated_allows {verdict : PrimitiveType} {t p result : ValueType}
    (allowed : verdict.Allows t) (converted : t.ConvertsTo p)
    (given : p.numeric? = some result) : verdict.negated.Allows result := by
  by_cases specific : verdict.isSpecific
  · -- The kind of number follows from the named type.
    have named := valueType_of_convertsTo specific allowed converted
    cases verdict <;> simp [valueType?] at named <;> subst named <;>
      simp_all [ValueType.numeric?, negated, Allows, isSpecific, valueType?]
  · -- Nothing is known of the operand, but the result is a number of some kind.
    rcases ValueType.numeric_result given with rfl | rfl <;>
      cases verdict <;> simp_all [negated, isSpecific]

/-- A specific verdict other than text or big integer names a type that converts to a number. -/
theorem numeric_of_valueType {verdict : PrimitiveType} {t : ValueType}
    (named : verdict.valueType? = some t) (notText : verdict ≠ string)
    (notBig : verdict ≠ bigInt) : t ≠ .string ∧ t.numeric? = some .number := by
  cases verdict <;> simp [valueType?] at named <;> subst named <;> simp_all [ValueType.numeric?]

/-- The verdict on a sum allows what comes of any allowed operands. -/
theorem sum_allows {a b : PrimitiveType} {s t p q result : ValueType} (left : a.Allows s)
    (right : b.Allows t) (leftConverted : s.ConvertsTo p) (rightConverted : t.ConvertsTo q)
    (added : p.sum? q = some result) : (a.sum b).Allows result := by
  have leftNamed : a.isSpecific → a.valueType? = some p :=
    fun specific => valueType_of_convertsTo specific left leftConverted
  have rightNamed : b.isSpecific → b.valueType? = some q :=
    fun specific => valueType_of_convertsTo specific right rightConverted
  -- The verdict is found in the order in which the cases exclude each other.
  unfold sum
  split
  · -- One side is a string, which makes the sum a concatenation.
    rename_i isText
    have isText : p = .string ∨ q = .string := by
      simp only [Bool.or_eq_true, beq_iff_eq] at isText
      rcases isText with rfl | rfl
      · exact .inl (Option.some.inj (leftNamed rfl)).symm
      · exact .inr (Option.some.inj (rightNamed rfl)).symm
    simp only [ValueType.sum?, isText, if_true, Option.ite_none_left_eq_some,
      Option.some.injEq] at added
    exact (allows_specific rfl).mpr (congrArg some added.2)
  split
  · -- Both sides are big integers.
    rename_i bothBig
    simp only [Bool.and_eq_true, beq_iff_eq] at bothBig
    rcases bothBig with ⟨rfl, rfl⟩
    cases Option.some.inj (leftNamed rfl)
    cases Option.some.inj (rightNamed rfl)
    exact (allows_specific rfl).mpr added
  split
  · -- Both sides have named types that convert to numbers.
    rename_i notText _ bothNumeric
    simp only [Bool.or_eq_true, beq_iff_eq, not_or] at notText
    simp only [Bool.and_eq_true, bne_iff_ne] at bothNumeric
    obtain ⟨⟨⟨leftSpecific, leftSmall⟩, rightSpecific⟩, rightSmall⟩ := bothNumeric
    have first := numeric_of_valueType (leftNamed leftSpecific) notText.1 leftSmall
    have second := numeric_of_valueType (rightNamed rightSpecific) notText.2 rightSmall
    simp only [ValueType.sum?, first.1, second.1, or_self, if_false,
      ValueType.arithmetic_eq_some, first.2, Option.some.injEq] at added
    exact (allows_specific rfl).mpr (congrArg some added.1)
  · -- Whatever the operands are, there is no sum that is an object or a symbol.
    rcases ValueType.sum_result added with rfl | rfl | rfl <;> simp

/-- The verdict on `??` allows the left value, which is only used if it is not nullish. -/
theorem orElse_allows_left {a b : PrimitiveType} {t : ValueType} (allowed : a.Allows t)
    (used : ¬t.IsNullish) : (a.orElse b).Allows t := by
  unfold ValueType.IsNullish at used
  cases a with
  | null | undefined =>
    -- The left side is always nullish, so it is never the result.
    have named := (allows_specific rfl).mp allowed
    simp_all [valueType?]
  | mixed =>
    simp only [orElse]
    split
    · simp
    · exact allowed
  | unknown => simp [orElse]
  | _ => exact allowed

/-- The verdict on `??` allows the right value, which is only used if the left may be nullish. -/
theorem orElse_allows_right {a b : PrimitiveType} {s t : ValueType} (left : a.Allows s)
    (used : s.IsNullish) (allowed : b.Allows t) : (a.orElse b).Allows t := by
  cases a with
  | null | undefined => exact allowed
  | mixed =>
    simp only [orElse, beq_iff_eq]
    split
    · simp
    · exact mixed_allows.mpr (plain_of_allows ‹b ≠ unknown› allowed)
  | unknown => simp [orElse]
  | _ =>
    -- The left side has a type that is never nullish.
    have named := (allows_specific rfl).mp left
    rcases used with rfl | rfl <;> simp [valueType?] at named

end PrimitiveType

namespace Expr

/-- The verdict on a unary operation allows what comes of an allowed operand. -/
theorem primitiveType_unary_allows {loc : Loc} {op : Operator} {value : Expr}
    {fromIdentifier : Bool} {s t : ValueType} (operand : value.primitiveType.Allows s)
    (gives : op.UnaryGives s t) :
    (unary loc op value fromIdentifier).primitiveType.Allows t := by
  cases op with
  | void | typeof | logicalNot =>
    exact (PrimitiveType.allows_specific rfl).mpr (congrArg some gives.symm)
  | unaryPlus => exact (PrimitiveType.allows_specific rfl).mpr (congrArg some gives.2.symm)
  | unaryNegation | bitwiseNot =>
    obtain ⟨p, converted, found⟩ := gives
    exact PrimitiveType.negated_allows operand converted found
  | prefixIncrement | prefixDecrement | postfixIncrement | postfixDecrement =>
    -- It is not known which kind of number is stepped.
    exact PrimitiveType.mixed_allows.mpr (Operator.plain_of_unaryGives gives)
  | _ => exact gives.elim

/-- The verdict on an operation on two values allows what comes of allowed operands. -/
theorem primitiveType_binary_allows {loc : Loc} {op : Operator} {left right : Expr}
    {s t result : ValueType} (first : left.primitiveType.Allows s)
    (second : right.primitiveType.Allows t) (gives : op.BinaryGives s t result) :
    (binary loc op left right).primitiveType.Allows result := by
  have plain := Operator.plain_of_binaryGives gives
  cases op with
  | strictEquality | strictInequality | equality | inequality =>
    exact (PrimitiveType.allows_specific rfl).mpr (congrArg some gives.symm)
  | lessThan | greaterThan | lessThanOrEqual | greaterThanOrEqual | instanceof | in_ =>
    exact (PrimitiveType.allows_specific rfl).mpr (congrArg some gives.2.symm)
  | addition =>
    obtain ⟨a, b, leftConverted, rightConverted, added⟩ := gives
    exact PrimitiveType.sum_allows first second leftConverted rightConverted added
  | assignmentAddition =>
    obtain ⟨a, b, leftConverted, rightConverted, added⟩ := gives
    simp only [primitiveType, beq_iff_eq]
    split
    · -- Only the right side is looked at, but it alone decides a concatenation.
      rename_i isText
      have := PrimitiveType.sum_allows first second leftConverted rightConverted added
      simpa [isText, PrimitiveType.sum] using this
    · exact PrimitiveType.mixed_allows.mpr plain
  | subtraction | multiplication | division | remainder | exponentiation | bitwiseAnd
  | bitwiseOr | bitwiseXor | bitwiseLeftShift | bitwiseRightShift | bitwiseUnsignedRightShift
  | assignmentSubtraction | assignmentMultiplication | assignmentDivision | assignmentRemainder
  | assignmentExponentiation | assignmentBitwiseAnd | assignmentBitwiseOr | assignmentBitwiseXor
  | assignmentBitwiseLeftShift | assignmentBitwiseRightShift
  | assignmentBitwiseUnsignedRightShift => exact PrimitiveType.mixed_allows.mpr plain
  | _ => exact gives.elim

/-- The verdict on the type of an expression leaves room for every type that its value may have. -/
theorem primitiveType_allows {e : Expr} {t : ValueType} (possible : e.MayBe t) :
    e.primitiveType.Allows t := by
  induction possible with
  | inlinedEnum _ ih => exact ih
  | yes _ _ _ _ ih => exact PrimitiveType.merge_allows_left ih
  | no _ _ _ _ ih => exact PrimitiveType.merge_allows_right ih
  | assignment _ ih => exact ih
  | unary _ gives ih => exact primitiveType_unary_allows ih gives
  | binary _ _ gives first second => exact primitiveType_binary_allows first second gives
  -- An operator that may result in its left operand allows what that is known to be.
  | @left _ op _ _ t _ keeps ih =>
    cases op with
    | logicalAnd | logicalOr => exact PrimitiveType.merge_allows_left ih
    | nullishCoalescing => exact PrimitiveType.orElse_allows_left ih keeps
    | assignmentLogicalAnd | assignmentLogicalOr | assignmentNullishCoalescing =>
      exact PrimitiveType.allows_unknown t
    | _ => exact keeps.elim
  -- The same holds of the right operand, where the left one lets it be the result.
  | @right _ op _ _ _ t _ takes _ first second =>
    cases op with
    | logicalAnd | logicalOr => exact PrimitiveType.merge_allows_right second
    | nullishCoalescing => exact PrimitiveType.orElse_allows_right first takes second
    | comma => exact second
    | assignmentLogicalAnd | assignmentLogicalOr | assignmentNullishCoalescing =>
      exact PrimitiveType.allows_unknown t
    | _ => exact takes.elim
  | _ =>
    -- Literals have the type of their kind, and of everything else nothing is claimed.
    simp [primitiveType, PrimitiveType.Allows, PrimitiveType.isSpecific,
      PrimitiveType.valueType?]

/-- Evaluation bears out the verdict on the type of an expression. -/
theorem eval_allows {W : Type} (host : Host W) (e : Expr) :
    (e.eval host).Always fun value => e.primitiveType.Allows value.type :=
  (eval_type host e).imp fun _ => primitiveType_allows

/-- An expression of a specific type evaluates to values of that type. -/
theorem eval_valueType {W : Type} (host : Host W) {e : Expr} {t : ValueType}
    (known : e.primitiveType.valueType? = some t) :
    (e.eval host).Always fun value => value.type = t := by
  refine (eval_allows host e).imp fun value allowed => ?_
  -- A verdict that names a type is a specific one.
  have specific : e.primitiveType.isSpecific := by
    cases verdict : e.primitiveType <;> simp_all [PrimitiveType.valueType?] <;> rfl
  exact Option.some.inj ((allowed.1 specific).symm.trans known)

/-- An expression that is known to produce primitives never produces an object. -/
theorem ne_object_of_producesPrimitive {e : Expr} {t : ValueType} (possible : e.MayBe t)
    (known : e.producesPrimitive) : t ≠ .object := by
  induction possible with
  | inlinedEnum _ ih => exact ih known
  | yes _ _ _ _ ih => exact ih (Bool.and_eq_true_iff.mp known).1
  | no _ _ _ _ ih => exact ih (Bool.and_eq_true_iff.mp known).2
  | assignment => simp [producesPrimitive] at known
  | unary _ gives => exact (Operator.plain_of_unaryGives gives).1
  | binary _ _ gives => exact (Operator.plain_of_binaryGives gives).1
  -- An operand that may be the result has to produce primitives itself.
  | @left _ op _ _ t _ keeps ih =>
    cases op with
    | logicalAnd | logicalOr | nullishCoalescing | assignmentLogicalAnd | assignmentLogicalOr
    | assignmentNullishCoalescing => exact ih (Bool.and_eq_true_iff.mp known).1
    | _ => exact keeps.elim
  | @right _ op _ _ _ t _ takes _ _ ih =>
    cases op with
    | logicalAnd | logicalOr | nullishCoalescing | assignmentLogicalAnd | assignmentLogicalOr
    | assignmentNullishCoalescing => exact ih (Bool.and_eq_true_iff.mp known).2
    | comma => exact ih known
    | _ => exact takes.elim
  | _ => simp [producesPrimitive] at known ⊢

/--
What is known of the type of an expression is true of every type that its value may have.

A specific verdict names that type, a mixed one excludes objects and symbols, and an expression said
to produce primitives does not produce an object.
-/
theorem knownType_sound {e : Expr} {t : ValueType} (possible : e.MayBe t) :
    (e.primitiveType.isSpecific → e.primitiveType.valueType? = some t) ∧
      (e.primitiveType = .mixed → t ≠ .object ∧ t ≠ .symbol) ∧
      (e.producesPrimitive → t ≠ .object) :=
  ⟨(primitiveType_allows possible).1, (primitiveType_allows possible).2,
    ne_object_of_producesPrimitive possible⟩

/-- The sum of a name and a string may be a string, and is known to be one. -/
theorem knownType_sound_concatenation :
    let sum := binary default .addition (identifier default default false false)
      (string default [])
    sum.MayBe .string ∧ sum.primitiveType.valueType? = some .string :=
  have possible := .binary (.identifier (t := .object)) .string
    ⟨.string, .string, ⟨by decide, .inl rfl⟩, ⟨by decide, .inr rfl⟩, rfl⟩
  ⟨possible, (knownType_sound possible).1 rfl⟩

end Expr

end EcmaPrune
