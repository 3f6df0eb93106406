import EcmaPrune.Proofs.Rewrite.Chain
import EcmaPrune.Proofs.Semantics.Effects
import EcmaPrune.Rewrite.Discard

/-! Blanking the literals of a sum of which only the effects matter. -/

namespace EcmaPrune.Expr

variable {W : Type} (host : Host W) (loc : Loc)

/-- A literal at the end of a sum is dropped if the sum in front of it is a string already. -/
theorem blankStrings_addition_string (loc rightLoc : Loc) (left : Expr) (units : List UInt16) :
    (binary loc .addition left (string rightLoc units)).blankStrings =
      if left.blankStrings.2 then (left.blankStrings.1, true)
      else (binary loc .addition left.blankStrings.1 (emptyString rightLoc), true) := by
  rfl

/-- Any other operand stays. -/
theorem blankStrings_addition (loc : Loc) (left : Expr) {right : Expr}
    (other : ∀ rightLoc units, right ≠ string rightLoc units) :
    (binary loc .addition left right).blankStrings =
      (binary loc .addition left.blankStrings.1 right, left.blankStrings.2) := by
  cases right with
  | string rightLoc units => exact absurd rfl (other rightLoc units)
  | _ => rfl

/-- What is neither a literal nor a sum is left as it is. -/
theorem blankStrings_other {e : Expr} (notString : ∀ loc units, e ≠ string loc units)
    (notSum : ∀ loc left right, e ≠ binary loc .addition left right) :
    e.blankStrings = (e, false) := by
  rw [blankStrings]
  · exact notString
  · exact notSum

/-- What holds of literals, of sums whose left side has it, and of all else holds everywhere. -/
theorem induction_on_sum {motive : Expr → Prop}
    (literal : ∀ loc units, motive (string loc units))
    (addLiteral : ∀ loc left rightLoc units, motive left →
      motive (binary loc .addition left (string rightLoc units)))
    (add : ∀ loc left right, (∀ rightLoc units, right ≠ string rightLoc units) → motive left →
      motive (binary loc .addition left right))
    (other : ∀ e, (∀ loc units, e ≠ string loc units) →
      (∀ loc left right, e ≠ binary loc .addition left right) → motive e)
    (e : Expr) : motive e := by
  induction e using induction_on_parts with
  | step e ih =>
    cases e with
    | string loc units => exact literal loc units
    | binary loc op left right =>
      have leftHolds : motive left := ih left (by simp [parts])
      cases op with
      | addition =>
        cases right with
        | string rightLoc units => exact addLiteral loc left rightLoc units leftHolds
        | _ => exact add loc left _ (by simp) leftHolds
      | _ => exact other _ (by simp) (by simp)
    | _ => exact other _ (by simp) (by simp)

/-- A sum without a literal operand is left as it is. -/
theorem blankStrings_eq_self {e : Expr} (plain : e.blankStrings.2 = false) :
    e.blankStrings.1 = e := by
  induction e using induction_on_sum with
  | literal => cases plain
  | addLiteral loc left rightLoc units ih =>
    -- A sum with a literal at its end is known to concatenate.
    rw [blankStrings_addition_string] at plain
    split at plain <;> cases plain
  | add loc left right other ih =>
    rw [blankStrings_addition loc left other] at plain ⊢
    rw [ih plain]
  | other e notString notSum => rw [blankStrings_other notString notSum]

/-- A sum that is known to concatenate produces a string, with or without the literals in it. -/
theorem primitiveType_blankStrings {e : Expr} (concatenates : e.blankStrings.2) :
    e.primitiveType = .string ∧ e.blankStrings.1.primitiveType = .string := by
  induction e using induction_on_sum with
  | literal => exact ⟨rfl, rfl⟩
  | addLiteral loc left rightLoc units ih =>
    rw [blankStrings_addition_string]
    -- The literal is dropped if the left side is a string already, and otherwise left empty.
    refine ⟨by simp [primitiveType, PrimitiveType.sum], ?_⟩
    split
    · rename_i leftConcatenates
      exact (ih leftConcatenates).2
    · simp [primitiveType, PrimitiveType.sum, emptyString]
  | add loc left right other ih =>
    -- The left side makes it a concatenation, with its literals or without.
    rw [blankStrings_addition loc left other] at concatenates ⊢
    obtain ⟨before, after⟩ := ih concatenates
    simp [primitiveType, PrimitiveType.sum, before, after]
  | other e notString notSum =>
    rw [blankStrings_other notString notSum] at concatenates
    cases concatenates

/-- A sum that is known to concatenate strings is blanked to a sum, or to a literal. -/
theorem blankStrings_concatenation {e : Expr} (concatenates : e.blankStrings.2) :
    (∃ loc units, e.blankStrings.1 = string loc units) ∨
      ∃ loc left right, e.blankStrings.1 = binary loc .addition left right := by
  induction e using induction_on_sum with
  | literal loc units => exact .inl ⟨loc, [], rfl⟩
  | addLiteral loc left rightLoc units ih =>
    rw [blankStrings_addition_string]
    split
    · rename_i leftConcatenates
      exact ih leftConcatenates
    · exact .inr ⟨_, _, _, rfl⟩
  | add loc left right other ih =>
    rw [blankStrings_addition loc left other]
    exact .inr ⟨_, _, _, rfl⟩
  | other e notString notSum =>
    rw [blankStrings_other notString notSum] at concatenates
    cases concatenates

/-- Blanking the literals of a sum leaves none to be blanked. -/
theorem blankStrings_blankStrings (e : Expr) : e.blankStrings.1.blankStrings = e.blankStrings := by
  induction e using induction_on_sum with
  | literal => rfl
  | addLiteral loc left rightLoc units ih =>
    rw [blankStrings_addition_string]
    cases concatenates : left.blankStrings.2 with
    | true => simp [ih, Prod.ext_iff, concatenates]
    | false =>
      -- The empty literal that is left has to stay behind what is no string.
      simp [emptyString, blankStrings_addition_string, blankStrings_eq_self concatenates,
        concatenates]
  | add loc left right other ih =>
    rw [blankStrings_addition loc left other, blankStrings_addition loc _ other, ih]
  | other e notString notSum =>
    rw [blankStrings_other notString notSum]
    exact blankStrings_other notString notSum

/-- What is left of a sum is a sum again, of which all is left. -/
theorem discardSum_eq_some {loc : Loc} {left right rest : Expr}
    (found : discardSum (binary loc .addition left right) = some rest) :
    (∃ sumLoc first second, rest = binary sumLoc .addition first second) ∧
      discardSum rest = some rest := by
  have again := blankStrings_blankStrings (binary loc .addition left right)
  unfold discardSum at found
  split at found
  · cases found
  · rename_i blanked concatenates notLiteral blanks
    obtain rfl : blanked = rest := Option.some.inj found
    rw [blanks] at again
    obtain ⟨sumLoc, first, second, rfl⟩ :
        ∃ sumLoc first second, blanked = binary sumLoc .addition first second := by
      cases concatenates with
      | true =>
        have shape := blankStrings_concatenation (e := binary loc .addition left right)
          (by rw [blanks])
        rw [blanks] at shape
        rcases shape with ⟨literalLoc, units, rfl⟩ | isSum
        · exact absurd rfl (notLiteral literalLoc units rfl)
        · exact isSum
      | false =>
        have same := blankStrings_eq_self (e := binary loc .addition left right) (by rw [blanks])
        rw [blanks] at same
        exact ⟨loc, left, right, same⟩
    exact ⟨⟨sumLoc, first, second, rfl⟩, by rw [discardSum, again]⟩

/-- What is known to be a string evaluates to one. -/
theorem eval_string_of_primitiveType {e : Expr} (known : e.primitiveType = .string) :
    (e.eval host).Always fun value => ∃ units, value = .string units := by
  refine (eval_valueType host (t := .string) (by rw [known]; rfl)).imp fun value isString => ?_
  cases value with
  | string units => exact ⟨units, rfl⟩
  | _ => cases isString

/-- What runs of a sum besides its left side does not depend on a string there. -/
theorem effects_add_of_string {left : Expr} (known : left.primitiveType = .string)
    (right : Expr) :
    (binary loc .addition left right).effects host =
      left.effects host >>= fun _ =>
        right.eval host >>= fun value => (host.add (.string []) value).ignored := by
  -- The value of the left side is a string, and which one only shows in the result.
  rw [effects, eval_binary host loc rfl, Run.ignored_bind, effects, Run.ignored_seq]
  refine Run.bind_congr_of_always (eval_string_of_primitiveType host known) ?_
  rintro _ ⟨units, rfl⟩
  rw [Run.ignored_bind]
  congr 1
  funext value
  exact host.ignored_strings_add value units []

/-- Blanking the literals of a sum keeps what it converts. -/
theorem effects_blankStrings (e : Expr) :
    e.blankStrings.1.effects host = e.effects host := by
  induction e using induction_on_sum with
  | literal loc units =>
    show (emptyString loc).effects host = _
    simp [effects, emptyString]
  | addLiteral loc left rightLoc units ih =>
    rw [blankStrings_addition_string]
    split
    · -- A string is put behind another one, which does nothing.
      rename_i leftConcatenates
      have known := (primitiveType_blankStrings leftConcatenates).1
      rw [effects_add_of_string host loc known, eval_string, pure_bind,
        host.ignored_add_two_strings, bind_pure_unit]
      exact ih
    · rename_i leftPlain
      rw [blankStrings_eq_self (by simpa using leftPlain)]
      have plain : Operator.addition.takesValues := rfl
      simp only [effects, emptyString, eval_binary host loc plain, eval_string, pure_bind,
        Run.ignored_bind]
      congr 1
      funext value
      exact host.ignored_add_strings value [] units
  | add loc left right other ih =>
    rw [blankStrings_addition loc left other]
    cases concatenates : left.blankStrings.2 with
    | false => rw [blankStrings_eq_self concatenates]
    | true =>
      -- The left side is a string with or without its literals, and that is all that matters.
      obtain ⟨before, after⟩ := primitiveType_blankStrings concatenates
      rw [effects_add_of_string host loc before, effects_add_of_string host loc after, ih]
  | other e notString notSum => rw [blankStrings_other notString notSum]

/-- What is left of a sum runs as the sum does. -/
theorem effects_discardSum (e : Expr) : restEffects host (discardSum e) = e.effects host := by
  have same := effects_blankStrings host e
  unfold discardSum
  split
  · rename_i blanked
    rw [blanked] at same
    -- Evaluating a literal does nothing.
    rw [← same, effects, eval_string]
    rfl
  · rename_i blanked
    rw [blanked] at same
    exact same

end EcmaPrune.Expr
