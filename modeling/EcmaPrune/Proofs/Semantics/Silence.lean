import EcmaPrune.Proofs.Semantics.EvalLaws

/-! Computations that nobody sees, and the operations on primitives that are such computations. -/

namespace EcmaPrune

variable {W α β : Type}

namespace Run

/-- A computation that only has a result if it starts in a certain world. -/
def Silent (run : Run W α) (w : W) : Prop := ∃ value, run w = (pure value : Run W α) w

theorem silent_pure (value : α) (w : W) : (pure value : Run W α).Silent w := ⟨value, rfl⟩

theorem silent_inWorld {run : W → Run W α} {w : W} (silent : (run w).Silent w) :
    (inWorld run).Silent w :=
  silent

/-- A sequence is silent if its second part is, in the same world and after the same result. -/
theorem Silent.bind {first : Run W α} {next : α → Run W β} {w : W} (before : first.Silent w)
    (after : ∀ value, (first w).result = .ok value → (next value).Silent w) :
    (first >>= next).Silent w := by
  obtain ⟨value, same⟩ := before
  obtain ⟨result, known⟩ := after value (by rw [same]; rfl)
  exact ⟨result, by rw [bind_apply_of_pure same, known]⟩

/-- What is silent everywhere has no effects. -/
theorem ignored_of_silent {run : Run W α} (silent : ∀ w, run.Silent w) : run.ignored = pure () := by
  funext w
  obtain ⟨value, same⟩ := silent w
  exact bind_apply_of_pure same _

end Run

namespace Host

variable (host : Host W)

/-- A primitive is its own primitive. -/
theorem toPrimitive_of_primitive {value : Value} (primitive : value.type ≠ .object) (hint : Hint) :
    host.toPrimitive hint value = pure value := by
  cases value with
  | object => exact absurd rfl primitive
  | _ => rfl

/-- Every primitive but a symbol has a text, which is there without asking anybody. -/
theorem toText_silent {value : Value} (plain : value.type ≠ .object ∧ value.type ≠ .symbol)
    (w : W) : (host.toText value).Silent w := by
  -- Nothing has to be converted to a primitive first.
  rw [toText, host.toPrimitive_of_primitive plain.1, pure_bind]
  cases value with
  | object => exact absurd rfl plain.1
  | symbol => exact absurd rfl plain.2
  | _ => exact Run.silent_pure _ w

/-- A primitive other than a symbol names a property as it is. -/
theorem toKey_silent {value : Value} (plain : value.type ≠ .object ∧ value.type ≠ .symbol)
    (w : W) : (host.toKey value).Silent w := by
  -- A property is named by a symbol or by a text, and the text is there.
  have text := host.toText_silent plain w
  rw [toText, host.toPrimitive_of_primitive plain.1, pure_bind] at text
  rw [toKey, host.toPrimitive_of_primitive plain.1, pure_bind]
  cases value with
  | symbol => exact absurd rfl plain.2
  | _ => exact text.bind fun _ _ => Run.silent_pure _ w

/-- Primitives are compared as they are, or are converted to numbers without asking anybody. -/
theorem looseEq_of_primitive {left right : Value} (leftPrimitive : left.type ≠ .object)
    (rightPrimitive : right.type ≠ .object) :
    host.looseEq left right = pure (host.looseEqPrimitive left right) := by
  -- Only an object would be asked for a primitive.
  have isObject : ∀ value : Value, value.type ≠ .object → value.isObject = false := by
    intro value primitive
    cases value <;> first | rfl | exact absurd rfl primitive
  simp [looseEq, isObject left leftPrimitive, isObject right rightPrimitive]

/-- Only nullish values are loosely equal to null. -/
theorem looseEq_null_right (value : Value) :
    host.looseEq value .null = pure value.isNullish := by
  cases value <;> rfl

theorem looseEq_null_left (value : Value) :
    host.looseEq .null value = pure value.isNullish := by
  cases value <;> rfl

/-- Adding to a string converts the other side, whatever the string says. -/
theorem ignored_add_strings (value : Value) (a b : List UInt16) :
    (host.add value (.string a)).ignored = (host.add value (.string b)).ignored := by
  simp [add, toPrimitive, Value.type, textOf]

theorem ignored_strings_add (value : Value) (a b : List UInt16) :
    (host.add (.string a) value).ignored = (host.add (.string b) value).ignored := by
  simp [add, toPrimitive, Value.type, textOf]

/-- Adding two strings is not observable. -/
theorem ignored_add_two_strings (a b : List UInt16) :
    (host.add (.string a) (.string b)).ignored = pure () := by
  simp [add, toPrimitive, Value.type, textOf]

/-- Two numbers, two big integers or two strings have an order. -/
theorem orderOf_silent {left right : Value} {t : ValueType}
    (ordered : t = .number ∨ t = .bigInt ∨ t = .string) (leftType : left.type = t)
    (rightType : right.type = t) (w : W) : (host.orderOf left right).Silent w := by
  -- Values of one of these types are of the same constructor.
  rcases ordered with rfl | rfl | rfl <;> cases left <;> cases leftType <;> cases right <;>
    cases rightType <;> exact Run.silent_pure _ w

/-- What the comparison of two texts comes to. -/
def compareTexts (op : Operator) (a b : List UInt16) : Bool :=
  match op with
  | .strictEquality | .equality => a == b
  | .strictInequality | .inequality => a != b
  | _ => holdsFor op (some (compareOfLessAndEq a b))

@[simp] theorem compareTexts_strictEquality (a b : List UInt16) :
    compareTexts .strictEquality a b = (a == b) := rfl

@[simp] theorem compareTexts_equality (a b : List UInt16) :
    compareTexts .equality a b = (a == b) := rfl

@[simp] theorem compareTexts_strictInequality (a b : List UInt16) :
    compareTexts .strictInequality a b = (a != b) := rfl

@[simp] theorem compareTexts_inequality (a b : List UInt16) :
    compareTexts .inequality a b = (a != b) := rfl

/-- Texts are compared unit by unit. -/
theorem applyBinary_strings {op : Operator} (compares : op.isEquality || op.isRelational)
    (a b : List UInt16) :
    host.applyBinary op (.string a) (.string b) = pure (.boolean (compareTexts op a b)) := by
  -- Strict and loose equality of texts are the equality of their units.
  have same : (Value.string a).strictEq (.string b) = (a == b) := by
    rw [Bool.eq_iff_iff]
    simp [Value.strictEq]
  have looseSame : host.looseEq (.string a) (.string b) = pure (a == b) := congrArg pure same
  cases op with
  | strictEquality =>
    show pure (Value.boolean ((Value.string a).strictEq (.string b))) = _
    rw [same]
    rfl
  | strictInequality =>
    show pure (Value.boolean !((Value.string a).strictEq (.string b))) = _
    rw [same]
    rfl
  | equality | inequality =>
    show host.looseEq (.string a) (.string b) >>= _ = _
    rw [looseSame]
    rfl
  | lessThan | lessThanOrEqual | greaterThan | greaterThanOrEqual => rfl
  | _ => cases compares

end Host

end EcmaPrune
