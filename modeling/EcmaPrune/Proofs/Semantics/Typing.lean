import EcmaPrune.Proofs.Analysis.ResultType
import EcmaPrune.Proofs.Semantics.EvalLaws
import EcmaPrune.Proofs.Tree.Parts

/-! Evaluation results in values of the types that results may have. -/

namespace EcmaPrune

variable {W : Type}

/-- The type of a number of either kind. -/
def Numeric.type : Numeric → ValueType
  | number _ => .number
  | bigInt _ => .bigInt

namespace Value

/-- A value that counts as true has a type that may. -/
theorem mayHold_type {value : Value} (holds : value.toBoolean) : value.type.MayHold := by
  cases value <;> simp_all [toBoolean, type, ValueType.MayHold]

/-- A value that counts as false has a type that may. -/
theorem mayFail_type {value : Value} (fails : ¬value.toBoolean) : value.type.MayFail := by
  cases value <;> simp_all [toBoolean, type, ValueType.MayFail]

/-- Whether a value is nullish is a matter of its type. -/
theorem isNullish_type {value : Value} : value.type.IsNullish ↔ value.isNullish := by
  cases value <;> simp [isNullish, type, ValueType.IsNullish]

end Value

namespace Host

variable (host : Host W)

/-- Only an object changes when it is converted to a primitive. -/
theorem toPrimitive_type (hint : Hint) (value : Value) :
    (host.toPrimitive hint value).Always fun p => value.type.ConvertsTo p.type := by
  cases value with
  | object identity =>
    -- The world may answer with anything, but an object again is a type error.
    refine Run.always_seq fun answer => ?_
    split
    · exact Run.always_abort _ _
    · refine Run.always_pure ⟨?_, .inl rfl⟩
      cases answer <;> simp_all [Value.isObject, Value.type]
  | _ => exact Run.always_pure ⟨by simp [Value.type], .inr rfl⟩

theorem numericOf_type (primitive : Value) :
    (host.numericOf primitive).Always fun n => primitive.type.numeric? = some n.type := by
  cases primitive with
  -- These two have no number, so the conversion throws.
  | symbol | object => exact Run.always_abort _ _
  | _ => exact Run.always_pure rfl

/-- Conversion to a number goes through a primitive. -/
theorem toNumeric_type (value : Value) :
    (host.toNumeric value).Always fun n =>
      ∃ p, value.type.ConvertsTo p ∧ p.numeric? = some n.type :=
  (host.toPrimitive_type .number value).bind fun p converted =>
    (host.numericOf_type p).imp fun _ found => ⟨p.type, converted, found⟩

/-- Symbols are the primitives that have no text. -/
theorem textOf_type (primitive : Value) :
    (host.textOf primitive).Always fun _ => primitive.type ≠ .symbol := by
  cases primitive with
  -- Objects are converted to primitives before, and symbols throw.
  | symbol | object => exact Run.always_abort _ _
  | _ => exact Run.always_pure (by simp [Value.type])

/-- Arithmetic has operands of one kind and a result of that kind. -/
theorem calculate_type (op : Operator) (m n : Numeric) :
    (host.calculate op m n).Always fun result =>
      result.type = m.type ∧ n.type = m.type ∧
        (op = .bitwiseUnsignedRightShift → m.type = .number) := by
  unfold calculate
  split
  · -- Two numbers, with a bitwise operator or another one.
    split <;> exact Run.always_pure (by simp [Value.type, Numeric.type])
  · -- Two big integers, which are not shifted without a sign and may have no result.
    split
    · exact Run.always_abort _ _
    · split
      · exact Run.always_pure (by simp_all [Value.type, Numeric.type])
      · exact Run.always_abort _ _
  · -- One of each kind throws.
    exact Run.always_abort _ _

/-- Arithmetic on the numbers of two values has a result of the type that their types say. -/
theorem arithmetic_type {op : Operator} {first second : Run W Numeric} {a b : ValueType → Prop}
    (left : first.Always fun m => ∃ p, a p ∧ p.numeric? = some m.type)
    (right : second.Always fun n => ∃ p, b p ∧ p.numeric? = some n.type) :
    (first >>= fun m => second >>= fun n => host.calculate op m n).Always fun result =>
      (∃ p q, a p ∧ b q ∧ p.arithmetic? q = some result.type) ∧
        (op = .bitwiseUnsignedRightShift → result.type = .number) := by
  refine left.bind fun m ⟨p, leftAllowed, leftFound⟩ =>
    right.bind fun n ⟨q, rightAllowed, rightFound⟩ =>
      (host.calculate_type op m n).imp fun result ⟨same, agree, shift⟩ => ?_
  -- The two numbers were of one kind, and the result is of that kind as well.
  rw [same]
  refine ⟨⟨p, q, leftAllowed, rightAllowed, ?_⟩, shift⟩
  exact ValueType.arithmetic_eq_some.mpr ⟨leftFound, agree ▸ rightFound⟩

theorem add_type (left right : Value) :
    (host.add left right).Always fun result =>
      Operator.addition.BinaryGives left.type right.type result.type := by
  refine (host.toPrimitive_type .default left).bind fun a leftConverted =>
    (host.toPrimitive_type .default right).bind fun b rightConverted => ?_
  split
  · -- Both sides have a text, so neither is a symbol.
    rename_i isText
    refine (host.textOf_type a).bind fun _ leftPlain =>
      (host.textOf_type b).bind fun _ rightPlain => Run.always_pure ?_
    refine ⟨a.type, b.type, leftConverted, rightConverted, ?_⟩
    rw [ValueType.sum?, if_pos isText, if_neg (by simp [leftPlain, rightPlain]), Value.type]
  · -- Both sides are numbers by now, and their sum is of their kind.
    rename_i notText
    refine (host.arithmetic_type (a := (· = a.type)) (b := (· = b.type))
      ((host.numericOf_type a).imp fun _ found => ⟨_, rfl, found⟩)
      ((host.numericOf_type b).imp fun _ found => ⟨_, rfl, found⟩)).imp ?_
    rintro result ⟨⟨_, _, rfl, rfl, found⟩, _⟩
    refine ⟨a.type, b.type, leftConverted, rightConverted, ?_⟩
    rw [ValueType.sum?, if_neg notText, found]

/-- Only primitives other than symbols have an order. -/
theorem orderOf_type (left right : Value) :
    (host.orderOf left right).Always fun _ => left.type ≠ .symbol ∧ right.type ≠ .symbol := by
  unfold orderOf
  split
  · exact Run.always_pure (by simp [Value.type])
  · exact Run.always_pure (by simp [Value.type])
  · exact Run.always_pure (by simp [Value.type])
  · -- All other pairs are compared as numbers, which symbols do not have.
    refine (host.numericOf_type left).bind fun m leftNumeric =>
      (host.numericOf_type right).bind fun n rightNumeric w value _ => ?_
    constructor <;> intro isSymbol <;> simp_all [ValueType.numeric?]

/-- Applying an operator gives what it makes of the types of its operands. -/
theorem applyBinary_type (op : Operator) (left right : Value) :
    (host.applyBinary op left right).Always fun result =>
      op.BinaryGives left.type right.type result.type := by
  cases op with
  | addition => exact host.add_type left right
  | subtraction | multiplication | division | remainder | exponentiation | bitwiseAnd
  | bitwiseOr | bitwiseXor | bitwiseLeftShift | bitwiseRightShift =>
    -- Only for a shift without a sign is more known than the kind of the operands.
    refine (host.arithmetic_type (host.toNumeric_type left) (host.toNumeric_type right)).imp ?_
    rintro result ⟨⟨p, q, converted⟩, _⟩
    exact ⟨p, q, converted⟩
  | bitwiseUnsignedRightShift =>
    refine (host.arithmetic_type (host.toNumeric_type left) (host.toNumeric_type right)).imp ?_
    rintro result ⟨⟨p, q, converted⟩, shift⟩
    exact ⟨⟨p, q, converted⟩, shift rfl⟩
  | strictEquality | strictInequality => exact Run.always_pure rfl
  | equality | inequality => exact Run.always_seq fun _ => Run.always_pure rfl
  | lessThan | greaterThan | lessThanOrEqual | greaterThanOrEqual =>
    exact (host.toPrimitive_type .number left).bind fun a leftConverted =>
      (host.toPrimitive_type .number right).bind fun b rightConverted =>
        (host.orderOf_type a b).bind fun _ plain =>
          Run.always_pure ⟨⟨a.type, b.type, leftConverted, rightConverted, plain⟩, rfl⟩
  | in_ | instanceof =>
    simp only [applyBinary]
    -- Both ask the object on the right, and what it answers is taken for its truth.
    split
    · rename_i isObject
      have isObject : right.type = .object := by
        cases right <;> simp_all [Value.isObject, Value.type]
      first
      | exact Run.always_seq fun _ => Run.always_seq fun _ => Run.always_pure ⟨isObject, rfl⟩
      | exact Run.always_seq fun _ => Run.always_pure ⟨isObject, rfl⟩
    · exact Run.always_abort _ _
  | _ => exact Run.always_abort _ _

/-- Applying an operator gives what it makes of the type of its operand. -/
theorem applyUnary_type (op : Operator) (value : Value) :
    (host.applyUnary op value).Always fun result => op.UnaryGives value.type result.type := by
  cases op with
  | void | typeof | logicalNot => exact Run.always_pure rfl
  | unaryPlus =>
    refine (host.toNumeric_type value).bind fun n ⟨p, converted, found⟩ => ?_
    cases n with
    -- A big integer is not turned into a number.
    | number => exact Run.always_pure ⟨⟨p, converted, found⟩, rfl⟩
    | bigInt => exact Run.always_abort _ _
  | unaryNegation | bitwiseNot =>
    refine (host.toNumeric_type value).bind fun n ⟨p, converted, found⟩ => ?_
    cases n <;> exact Run.always_pure ⟨p, converted, found⟩
  | _ => exact Run.always_abort _ _

/-- An increment or decrement has the type of the number that it starts from. -/
theorem stepped_type (op : Operator) (old : Numeric) :
    (host.stepped op old).Always fun new => new.type = old.type := by
  cases old <;> exact (host.calculate_type _ _ _).imp fun _ known => known.1

/-- What is known of the value of a place is known of the value that is read before changing it. -/
theorem always_of_access {β : Type} {target : Run W (Option Referent)} {known : Value → Prop}
    {holds : β → Prop} {abrupt : Abrupt} {next : Option Referent → Run W β}
    {change : Referent → Value → Run W β} (typed : (host.value target).Always known)
    (absent : next none = Run.abort abrupt)
    (present : ∀ referent, next (some referent) =
      host.resolve referent >>= fun place => host.loadResolved place >>= change place)
    (changed : ∀ place old, known old → (change place old).Always holds) :
    (target >>= next).Always holds := by
  intro w result ended
  -- A result says how far the run has come, step by step.
  obtain ⟨found, reached, ended⟩ := Run.result_of_bind ended
  cases found with
  | none =>
    -- Nothing can be changed where a chain was cut short.
    rw [absent] at ended
    cases ended
  | some referent =>
    rw [present] at ended
    obtain ⟨place, resolved, ended⟩ := Run.result_of_bind ended
    obtain ⟨old, loaded, ended⟩ := Run.result_of_bind ended
    refine changed place old (typed w old ?_) _ result ended
    -- Reading the whole target takes the same steps up to here.
    simp [value, settle, load, Run.bind_apply, reached, resolved, loaded]

theorem assignCompound_type {op : Operator} {target : Run W (Option Referent)}
    {operand : Run W Value} {first second : ValueType → Prop}
    (left : (host.value target).Always fun v => first v.type)
    (right : operand.Always fun v => second v.type) :
    (target >>= fun target => host.assignCompound op target operand).Always fun v =>
      ∃ s t, first s ∧ second t ∧ op.BinaryGives s t v.type :=
  host.always_of_access left rfl (fun _ => rfl) fun _ old leftKnown =>
    right.bind fun new rightKnown =>
      (host.applyBinary_type op old new).bind fun _ gives =>
        Run.always_seq fun _ => Run.always_pure ⟨_, _, leftKnown, rightKnown, gives⟩

theorem assignUnless_type {keeps : Value → Bool} {target : Run W (Option Referent)}
    {operand : Run W Value} {first second : Value → Prop}
    (left : (host.value target).Always first) (right : operand.Always second) :
    (target >>= fun target => host.assignUnless keeps target operand).Always fun v =>
      (keeps v ∧ first v) ∨ ∃ old, ¬keeps old ∧ first old ∧ second v := by
  refine host.always_of_access left rfl (fun _ => rfl) fun _ old known => ?_
  -- Either the old value was kept, or it made way for the operand.
  split
  · exact Run.always_pure (.inl ⟨‹_›, known⟩)
  · exact right.bind fun new rightKnown =>
      Run.always_seq fun _ => Run.always_pure (.inr ⟨old, ‹_›, known, rightKnown⟩)

theorem update_type {op : Operator} {target : Run W (Option Referent)} {known : ValueType → Prop}
    (typed : (host.value target).Always fun v => known v.type) :
    (target >>= host.update op).Always fun v =>
      ∃ s p, known s ∧ s.ConvertsTo p ∧ p.numeric? = some v.type := by
  refine host.always_of_access typed rfl (fun _ => rfl) fun _ old known => ?_
  refine (host.toNumeric_type old).bind fun n ⟨p, converted, found⟩ =>
    (host.stepped_type op n).bind fun new same => Run.always_seq fun _ => ?_
  -- The prefix forms result in the new number, the postfix forms in the old one.
  split
  · exact Run.always_pure ⟨_, p, known, converted, same ▸ found⟩
  · cases n <;> exact Run.always_pure ⟨_, p, known, converted, found⟩

end Host

namespace Expr

variable (host : Host W)

/-- An assignment to a place results in what is assigned. -/
theorem assignPlace_always {target : Run W (Option Referent)} {source : Run W Value}
    {known : Value → Prop} (typed : source.Always known) :
    (host.assignPlace target source).Always known := by
  refine Run.always_seq fun referent => ?_
  cases referent with
  | none => exact Run.always_abort _ _
  | some referent => exact typed.bind fun _ known => Run.always_seq fun _ => Run.always_pure known

/-- An assignment results in what is assigned, whatever the pattern does with it. -/
theorem assignFrom_always {target : Run W (Option Referent)} {source : Run W Value}
    {known : Value → Prop} (typed : source.Always known) {pattern : Expr}
    (plain : pattern.isDefaulted = false) :
    (pattern.assignFrom host target source).Always known := by
  unfold assignFrom
  split
  · exact typed.bind fun _ known =>
      Run.always_seq fun _ => Run.always_seq fun _ => Run.always_pure known
  · -- An object pattern throws on a nullish value, and results in any other one.
    refine typed.bind fun value known => ?_
    split
    · exact Run.always_abort _ _
    · exact Run.always_seq fun _ => Run.always_pure known
  · split
    · -- A target with a default was ruled out.
      simp_all [isDefaulted]
    · exact assignPlace_always host typed
  · exact assignPlace_always host typed

/-- Operations that are not applied to the values of both of their operands. -/
theorem eval_type_unapplied {loc : Loc} {op : Operator} {left right : Expr}
    (unapplied : op.takesValues = false)
    (first : (left.eval host).Always fun v => left.MayBe v.type)
    (second : (right.eval host).Always fun v => right.MayBe v.type) :
    ((binary loc op left right).eval host).Always fun v =>
      (binary loc op left right).MayBe v.type := by
  cases compound : op.compound? with
  -- A compound assignment has the type that its operator gives.
  | some base =>
    rw [eval_binary_compound host loc compound]
    refine (host.assignCompound_type first second).imp ?_
    rintro v ⟨s, t, leftKnown, rightKnown, gives⟩
    exact .binary leftKnown rightKnown (by cases op <;> cases compound <;> exact gives)
  | none =>
    cases op with
    | comma =>
      rw [eval_comma]
      exact first.bind fun _ known => second.imp fun _ => .right known trivial
    | logicalAnd =>
      rw [eval_and]
      refine first.bind fun a known => ?_
      -- The right side decides only if the left one holds.
      split
      · exact second.imp fun _ => .right known (Value.mayHold_type ‹_›)
      · exact Run.always_pure (.left known (Value.mayFail_type ‹_›))
    | logicalOr =>
      rw [eval_or]
      refine first.bind fun a known => ?_
      -- The right side decides only if the left one fails.
      split
      · exact Run.always_pure (.left known (Value.mayHold_type ‹_›))
      · exact second.imp fun _ => .right known (Value.mayFail_type ‹_›)
    | nullishCoalescing =>
      rw [eval_coalesce]
      refine first.bind fun a known => ?_
      -- The right side decides only in the place of a nullish value.
      split
      · exact second.imp fun _ => .right known (Value.isNullish_type.mpr ‹_›)
      · exact Run.always_pure (.left known (mt Value.isNullish_type.mp ‹_›))
    | assignment =>
      rw [eval_assignment]
      split
      · exact Run.always_abort _ _
      · rename_i plain
        exact (assignFrom_always host second (by simpa using plain)).imp fun _ => .assignment
    | assignmentLogicalAnd =>
      rw [eval_assignmentLogicalAnd]
      refine (host.assignUnless_type first second).imp ?_
      rintro v (⟨kept, known⟩ | ⟨old, taken, oldKnown, known⟩)
      · exact .left known (Value.mayFail_type (by simpa using kept))
      · exact .right oldKnown (Value.mayHold_type (by simpa using taken)) known
    | assignmentLogicalOr =>
      rw [eval_assignmentLogicalOr]
      refine (host.assignUnless_type first second).imp ?_
      rintro v (⟨kept, known⟩ | ⟨old, taken, oldKnown, known⟩)
      · exact .left known (Value.mayHold_type kept)
      · exact .right oldKnown (Value.mayFail_type taken) known
    | assignmentNullishCoalescing =>
      rw [eval_assignmentNullishCoalescing]
      refine (host.assignUnless_type first second).imp ?_
      rintro v (⟨kept, known⟩ | ⟨old, taken, oldKnown, known⟩)
      · exact .left known (mt Value.isNullish_type.mp (by simpa using kept))
      · exact .right oldKnown (Value.isNullish_type.mpr (by simpa using taken)) known
    | _ => simp_all [Operator.takesValues, Operator.compound?]

/-- Operations on one operand. -/
theorem eval_type_unary {loc : Loc} {op : Operator} {value : Expr} {fromIdentifier : Bool}
    (operand : (value.eval host).Always fun v => value.MayBe v.type) :
    ((unary loc op value fromIdentifier).eval host).Always fun v =>
      (unary loc op value fromIdentifier).MayBe v.type := by
  cases op with
  | prefixIncrement | prefixDecrement | postfixIncrement | postfixDecrement =>
    rw [eval_unary_update host loc (by simp)]
    refine (host.update_type operand).imp ?_
    rintro v ⟨s, p, known, converted, found⟩
    exact .unary known ⟨p, converted, found⟩
  | delete =>
    rw [eval_unary_delete]
    refine Run.always_seq fun referent => ?_
    -- What is deleted is a place or a value, and the answer is a boolean in any case.
    cases referent with
    | none => exact Run.always_pure .delete
    | some referent =>
      refine Run.always_seq fun place => ?_
      cases place with
      | value => exact Run.always_pure .delete
      | _ => exact Run.always_seq fun _ => Run.always_pure .delete
  | typeof =>
    cases bare : if fromIdentifier then value.identifierRef? else none with
    | none =>
      rw [eval_unary_typeof host loc bare]
      exact operand.bind fun a known => (host.applyUnary_type .typeof a).imp fun _ => .unary known
    | some ref =>
      obtain ⟨rfl, bare⟩ : fromIdentifier = true ∧ value.identifierRef? = some ref := by
        simpa using bare
      rw [eval_unary_typeof_identifier host loc bare]
      -- Whatever an identifier holds has a type.
      cases value <;> cases bare
      exact Run.always_inWorld fun _ => Run.always_pure (.unary (.identifier (t := .object)) rfl)
  | _ =>
    rw [eval_unary host loc rfl]
    exact operand.bind fun a known => (host.applyUnary_type _ a).imp fun _ => .unary known

/-- An expression evaluates to a value of one of the types that it may have. -/
theorem eval_type (e : Expr) : (e.eval host).Always fun v => e.MayBe v.type := by
  induction e using induction_on_parts with
  | step e ih =>
    cases e with
    | identifier | dot | index | call | new | this | importIdentifier | spread =>
      -- These may have any type.
      exact (Run.always_true _).imp fun _ _ => by constructor
    | null | undefined | missing | boolean | number | string | bigInt | importMeta =>
      simp only [eval_null, eval_undefined, eval_missing, eval_boolean, eval_number, eval_string,
        eval_bigInt, eval_importMeta]
      exact Run.always_pure (by constructor)
    | regExp | function | arrow =>
      simp only [eval_regExp, eval_function, eval_arrow]
      exact Run.always_inWorld fun _ => Run.always_pure (by constructor)
    | array | object | classExpr =>
      simp only [eval_array, eval_object, eval_classExpr]
      exact Run.always_seq fun _ => Run.always_inWorld fun _ => Run.always_pure (by constructor)
    | template loc tag head substitutions =>
      cases tag with
      | none =>
        rw [eval_template_untagged]
        exact Run.always_seq fun _ => Run.always_pure .template
      | some tag => exact (Run.always_true _).imp fun _ _ => .tagged
    | inlinedEnum loc value comment =>
      rw [eval_inlinedEnum]
      exact (ih value (by simp [parts])).imp fun _ => .inlinedEnum
    | conditional loc test yes no =>
      rw [eval_conditional]
      refine (ih test (by simp [parts])).bind fun first tested => ?_
      -- The branch that is taken agrees with the truth of the test.
      split
      · exact (ih yes (by simp [parts])).imp fun _ => .yes tested (Value.mayHold_type ‹_›)
      · exact (ih no (by simp [parts])).imp fun _ => .no tested (Value.mayFail_type ‹_›)
    | unary => exact eval_type_unary host (ih _ (by simp [parts]))
    | binary loc op left right =>
      have first := ih left (by simp [parts])
      have second := ih right (by simp [parts])
      cases applied : op.takesValues with
      | true =>
        rw [eval_binary host loc applied]
        exact first.bind fun a leftKnown => second.bind fun b rightKnown =>
          (host.applyBinary_type op a b).imp fun _ => .binary leftKnown rightKnown
      | false => exact eval_type_unapplied host applied first second

end Expr

end EcmaPrune
