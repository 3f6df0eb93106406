import EcmaPrune.Proofs.Semantics.Host

/-! The types that the results of expressions have in ECMAScript. -/

namespace EcmaPrune

namespace ValueType

/-- The types of the two values that stand for the absence of one. -/
def IsNullish (t : ValueType) : Prop := t = null ∨ t = undefined

/-- The types of which some value counts as true. -/
def MayHold (t : ValueType) : Prop := t ≠ null ∧ t ≠ undefined

/-- The types of which some value counts as false. -/
def MayFail (t : ValueType) : Prop := t ≠ symbol ∧ t ≠ object

/-- Conversion to a primitive, which for an object may give any primitive. -/
def ConvertsTo (t primitive : ValueType) : Prop :=
  primitive ≠ object ∧ (t = object ∨ primitive = t)

/-- The type of the number that a primitive converts to, if it converts to one. -/
def numeric? : ValueType → Option ValueType
  | bigInt => some bigInt
  | symbol | object => none
  | _ => some number

/-- The type of what arithmetic makes of two primitives; numbers and big integers do not mix. -/
def arithmetic? (a b : ValueType) : Option ValueType :=
  match a.numeric?, b.numeric? with
  | some m, some n => if m = n then some m else none
  | _, _ => none

/-- The type of the sum of two primitives, which is a concatenation if one is a string. -/
def sum? (a b : ValueType) : Option ValueType :=
  if a = string ∨ b = string then
    if a = symbol ∨ b = symbol then none else some string
  else arithmetic? a b

/-- A primitive converts to a primitive as it is. -/
theorem eq_of_convertsTo {t p : ValueType} (converted : t.ConvertsTo p) (plain : t ≠ .object) :
    p = t := by
  rcases converted with ⟨_, isObject | same⟩
  · exact absurd isObject plain
  · exact same

/-- A number of either kind is all that conversion to a number gives. -/
theorem numeric_result {p result : ValueType} (converted : p.numeric? = some result) :
    result = .number ∨ result = .bigInt := by
  cases p <;> simp_all [numeric?]

/-- The result of arithmetic has the type of both of its operands. -/
theorem arithmetic_eq_some {a b result : ValueType} :
    a.arithmetic? b = some result ↔ a.numeric? = some result ∧ b.numeric? = some result := by
  unfold arithmetic?
  -- Both have to convert to a number, and to numbers of one kind.
  cases a.numeric? with
  | none => simp
  | some m =>
    cases b.numeric? with
    | none => simp
    | some n =>
      -- With both kinds known, the result is there if they agree.
      by_cases same : m = n
      · simp [same]
      · simp only [same, if_false, reduceCtorEq, Option.some.injEq, false_iff]
        exact fun ⟨left, right⟩ => same (left.trans right.symm)

/-- The result of a sum is a number of either kind or a string. -/
theorem sum_result {a b result : ValueType} (added : a.sum? b = some result) :
    result = .number ∨ result = .bigInt ∨ result = .string := by
  unfold sum? at added
  -- A concatenation gives a string, and everything else is arithmetic.
  split at added
  · split at added <;> simp_all
  · exact (numeric_result (arithmetic_eq_some.mp added).1).imp_right .inl

end ValueType

namespace Operator

/-- The types of what an operator makes of the value of its operand. -/
def UnaryGives (op : Operator) (operand result : ValueType) : Prop :=
  match op with
  | void => result = .undefined
  | typeof => result = .string
  | logicalNot => result = .boolean
  -- A big integer never becomes a number by itself.
  | unaryPlus => (∃ p, operand.ConvertsTo p ∧ p.numeric? = some result) ∧ result = .number
  | unaryNegation | bitwiseNot | prefixIncrement | prefixDecrement | postfixIncrement
  | postfixDecrement => ∃ p, operand.ConvertsTo p ∧ p.numeric? = some result
  | _ => False

/-- The types of what an operator makes of the values of its two operands. -/
def BinaryGives (op : Operator) (left right result : ValueType) : Prop :=
  -- A compound assignment results in what it assigns.
  match op.compound?.getD op with
  | addition => ∃ a b, left.ConvertsTo a ∧ right.ConvertsTo b ∧ a.sum? b = some result
  | subtraction | multiplication | division | remainder | exponentiation | bitwiseAnd
  | bitwiseOr | bitwiseXor | bitwiseLeftShift | bitwiseRightShift =>
    ∃ a b, left.ConvertsTo a ∧ right.ConvertsTo b ∧ a.arithmetic? b = some result
  -- Big integers have no highest bit to shift zeros in at.
  | bitwiseUnsignedRightShift =>
    (∃ a b, left.ConvertsTo a ∧ right.ConvertsTo b ∧ a.arithmetic? b = some result) ∧
      result = .number
  | strictEquality | strictInequality | equality | inequality => result = .boolean
  | lessThan | greaterThan | lessThanOrEqual | greaterThanOrEqual =>
    (∃ a b, left.ConvertsTo a ∧ right.ConvertsTo b ∧ a ≠ .symbol ∧ b ≠ .symbol) ∧
      result = .boolean
  | in_ | instanceof => right = .object ∧ result = .boolean
  | _ => False

/-- Whether an operator may result in its left operand, if that has a value of a type. -/
def KeepsLeft (op : Operator) (t : ValueType) : Prop :=
  match op with
  | logicalAnd | assignmentLogicalAnd => t.MayFail
  | logicalOr | assignmentLogicalOr => t.MayHold
  | nullishCoalescing | assignmentNullishCoalescing => ¬t.IsNullish
  | _ => False

/-- Whether an operator may result in its right operand, if the left has a value of a type. -/
def TakesRight (op : Operator) (t : ValueType) : Prop :=
  match op with
  | logicalAnd | assignmentLogicalAnd => t.MayHold
  | logicalOr | assignmentLogicalOr => t.MayFail
  | nullishCoalescing | assignmentNullishCoalescing => t.IsNullish
  | comma => True
  | _ => False

/-- What an operator makes of its operand is never an object or a symbol. -/
theorem plain_of_unaryGives {op : Operator} {s t : ValueType} (gives : op.UnaryGives s t) :
    t ≠ .object ∧ t ≠ .symbol := by
  cases op with
  | void | typeof | logicalNot => cases gives; simp
  | unaryPlus => cases gives.2; simp
  | unaryNegation | bitwiseNot | prefixIncrement | prefixDecrement | postfixIncrement
  | postfixDecrement =>
    obtain ⟨p, _, found⟩ := gives
    rcases ValueType.numeric_result found with rfl | rfl <;> simp
  | _ => exact gives.elim

/-- What an operator makes of the values of both operands is never an object or a symbol. -/
theorem plain_of_binaryGives {op : Operator} {s t result : ValueType}
    (gives : op.BinaryGives s t result) : result ≠ .object ∧ result ≠ .symbol := by
  unfold BinaryGives at gives
  -- A compound assignment gives what its operator gives.
  cases base : op.compound?.getD op with
  | addition =>
    rw [base] at gives
    obtain ⟨a, b, _, _, added⟩ := gives
    rcases ValueType.sum_result added with rfl | rfl | rfl <;> simp
  | subtraction | multiplication | division | remainder | exponentiation | bitwiseAnd
  | bitwiseOr | bitwiseXor | bitwiseLeftShift | bitwiseRightShift =>
    rw [base] at gives
    obtain ⟨a, b, _, _, found⟩ := gives
    rcases ValueType.numeric_result (ValueType.arithmetic_eq_some.mp found).1 with rfl | rfl <;>
      simp
  | strictEquality | strictInequality | equality | inequality =>
    rw [base] at gives
    cases gives
    simp
  | bitwiseUnsignedRightShift | lessThan | greaterThan | lessThanOrEqual | greaterThanOrEqual
  | in_ | instanceof =>
    rw [base] at gives
    cases gives.2
    simp
  | _ => simp [base] at gives

end Operator

namespace Expr

/--
The types that the value of an expression may have.

Names, accesses and calls may have any. An operator has what ECMAScript makes of the types that its
operands may have, and nothing where that always throws.
-/
inductive MayBe : Expr → ValueType → Prop
  | null {loc : Loc} : MayBe (null loc) .null
  | undefined {loc : Loc} : MayBe (undefined loc) .undefined
  | missing {loc : Loc} : MayBe (missing loc) .undefined
  | boolean {loc : Loc} {value : Bool} : MayBe (boolean loc value) .boolean
  | number {loc : Loc} {value : Number} : MayBe (number loc value) .number
  | string {loc : Loc} {value : List UInt16} : MayBe (string loc value) .string
  | bigInt {loc : Loc} {literal : String} : MayBe (bigInt loc literal) .bigInt
  | regExp {loc : Loc} {text : String} : MayBe (regExp loc text) .object
  | function {loc : Loc} {func : Func} : MayBe (function loc func) .object
  | arrow {loc : Loc} {params : List BindingElement} {body : List Stmt}
      {isAsync prefersExpr : Bool} :
      MayBe (arrow loc params body isAsync prefersExpr) .object
  | classExpr {loc : Loc} {definition : Class} : MayBe (classExpr loc definition) .object
  | array {loc : Loc} {items : List Expr} : MayBe (array loc items) .object
  | object {loc : Loc} {properties : List Property} : MayBe (object loc properties) .object
  | importMeta {loc : Loc} : MayBe (importMeta loc) .object
  | this {loc : Loc} {t : ValueType} : MayBe (this loc) t
  | importIdentifier {loc : Loc} {ref : Ref} {t : ValueType} : MayBe (importIdentifier loc ref) t
  | identifier {loc : Loc} {ref : Ref} {isRemovable mustKeepInWith : Bool} {t : ValueType} :
      MayBe (identifier loc ref isRemovable mustKeepInWith) t
  | dot {loc : Loc} {target : Expr} {name : String} {link : ChainLink} {isRemovable : Bool}
      {t : ValueType} : MayBe (dot loc target name link isRemovable) t
  | index {loc : Loc} {target key : Expr} {link : ChainLink} {isRemovable : Bool}
      {t : ValueType} : MayBe (index loc target key link isRemovable) t
  | call {loc : Loc} {target : Expr} {args : List Expr} {link : ChainLink} {isPure : Bool}
      {kind : CallKind} {t : ValueType} : MayBe (call loc target args link isPure kind) t
  | new {loc : Loc} {target : Expr} {args : List Expr} {isPure : Bool} {t : ValueType} :
      MayBe (new loc target args isPure) t
  | spread {loc : Loc} {value : Expr} {t : ValueType} : MayBe (spread loc value) t
  | tagged {loc : Loc} {tag : Expr} {head : List UInt16} {substitutions : List TemplatePart}
      {t : ValueType} : MayBe (template loc (some tag) head substitutions) t
  | template {loc : Loc} {head : List UInt16} {substitutions : List TemplatePart} :
      MayBe (template loc none head substitutions) .string
  | inlinedEnum {loc : Loc} {value : Expr} {comment : String} {t : ValueType}
      (inside : MayBe value t) : MayBe (inlinedEnum loc value comment) t
  | yes {loc : Loc} {test yes no : Expr} {s t : ValueType} (tested : MayBe test s)
      (holds : s.MayHold) (branch : MayBe yes t) : MayBe (conditional loc test yes no) t
  | no {loc : Loc} {test yes no : Expr} {s t : ValueType} (tested : MayBe test s)
      (fails : s.MayFail) (branch : MayBe no t) : MayBe (conditional loc test yes no) t
  /-- What is deleted is a place, not a value. -/
  | delete {loc : Loc} {value : Expr} {fromIdentifier : Bool} :
      MayBe (unary loc .delete value fromIdentifier) .boolean
  | unary {loc : Loc} {op : Operator} {value : Expr} {fromIdentifier : Bool} {s t : ValueType}
      (operand : MayBe value s) (gives : op.UnaryGives s t) :
      MayBe (unary loc op value fromIdentifier) t
  | binary {loc : Loc} {op : Operator} {left right : Expr} {s t result : ValueType}
      (first : MayBe left s) (second : MayBe right t) (gives : op.BinaryGives s t result) :
      MayBe (binary loc op left right) result
  | left {loc : Loc} {op : Operator} {left right : Expr} {t : ValueType} (first : MayBe left t)
      (keeps : op.KeepsLeft t) : MayBe (binary loc op left right) t
  | right {loc : Loc} {op : Operator} {left right : Expr} {s t : ValueType}
      (first : MayBe left s) (takes : op.TakesRight s) (second : MayBe right t) :
      MayBe (binary loc op left right) t
  /-- What is assigned to is a place, not a value. -/
  | assignment {loc : Loc} {target value : Expr} {t : ValueType} (assigned : MayBe value t) :
      MayBe (binary loc .assignment target value) t

end Expr

end EcmaPrune
