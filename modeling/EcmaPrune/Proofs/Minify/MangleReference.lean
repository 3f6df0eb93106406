import EcmaPrune.Proofs.Minify.Mangle
import EcmaPrune.Proofs.Minify.MangleStep

/-! Which expressions name a place after they have been rewritten. -/

namespace EcmaPrune.Expr

variable {looseAllowed : Bool}

/-- A strict comparison stays a comparison or is decided. -/
theorem refersToValue_mangleStrict (loc : Loc) (op : Operator) (left right : Expr) :
    (mangleStrict looseAllowed loc op left right).value.refersToValue := by
  unfold mangleStrict
  split
  · rfl
  · split <;> rfl

/-- What refers to its value still does, unless another operand may take its place. -/
theorem refersToValue_mangled {e : Expr} (plain : e.refersToValue)
    (fixed : e.unwrapped.isCoalescing = false) : (e.mangled looseAllowed).refersToValue := by
  induction e using induction_on_parts with
  | step e ih =>
    cases e with
    | inlinedEnum loc value comment =>
      rw [mangled_inlinedEnum]
      exact ih value (by simp [parts]) plain fixed
    | identifier | dot | index | call => cases plain
    | template loc tag head substitutions =>
      cases tag with
      | none => simp [refersToValue]
      | some tag => cases plain
    | unary loc op value fromIdentifier =>
      by_cases negates : op = .logicalNot
      · subst negates
        rw [mangled_not]
        -- A folded negation is a boolean, so it does not name a place.
        cases folded : (value.mangled looseAllowed).negate? with
        | none => rfl
        | some negated =>
          refine refersToValue_of_primitiveType ?_
          rw [Option.getD_some, primitiveType_negate? folded]
          simp
      · rw [mangled_unary loc negates]
        rfl
    | binary loc op left right =>
      have notCoalescing : op ≠ .nullishCoalescing := by
        rintro rfl
        cases fixed
      by_cases strict : op = .strictEquality ∨ op = .strictInequality
      · rw [mangled_strict loc strict]
        exact refersToValue_mangleStrict loc op _ _
      · obtain ⟨notEqual, notUnequal⟩ := not_or.mp strict
        rw [mangled_binary loc notEqual notUnequal notCoalescing]
        rfl
    | function loc func =>
      obtain ⟨rewritten, same⟩ := mangled_function loc looseAllowed func
      rw [same]
      rfl
    | arrow loc params body isAsync prefersExpr =>
      obtain ⟨_, _, same⟩ := mangled_arrow loc looseAllowed params body isAsync prefersExpr
      rw [same]
      rfl
    | array | object | classExpr | spread | conditional | new => simp [refersToValue]
    | _ => rw [mangled_of_isLeaf rfl]; rfl

/-- A choice by nullishness names a place only if it has made way for an operand that does. -/
theorem isReference_mangleNullish (loc : Loc) (left right : Expr) :
    (mangleNullish loc left right).value.isReference ↔
      left.nullish? = some ⟨true, false⟩ ∧ right.isReference := by
  unfold mangleNullish
  split
  · rename_i hasEffects known
    -- What is known not to be nullish is a value.
    have notPlace := isReference_of_refersToValue (refersToValue_of_nullish? known)
    simp [known, notPlace]
  · rename_i known
    simp [known]
  · rename_i unknown
    simp only [Counted.value_unchanged, isReference, Bool.false_eq_true, false_iff, not_and]
    exact fun known => (unknown known).elim

/-- An expression names a place afterwards if it did before, or is a choice that has been made. -/
theorem isReference_mangled (e : Expr) :
    (e.mangled looseAllowed).isReference ↔ e.isReference ∨
      ∃ loc left right, e = binary loc .nullishCoalescing left right ∧
        (left.mangled looseAllowed).nullish? = some ⟨true, false⟩ ∧
        (right.mangled looseAllowed).isReference := by
  have notPlace : ∀ {e : Expr}, e.refersToValue → e.unwrapped.isCoalescing = false →
      (e.mangled looseAllowed).isReference = false :=
    fun plain fixed => isReference_of_refersToValue (refersToValue_mangled plain fixed)
  cases e with
  | identifier => rw [mangled_of_isLeaf rfl]; simp [isReference]
  | dot | index | call | inlinedEnum | template => simp [isReference]
  | binary loc op left right =>
    by_cases coalesces : op = .nullishCoalescing
    · subst coalesces
      rw [mangled_coalesce, isReference_mangleNullish]
      constructor
      · exact fun made => .inr ⟨loc, left, right, rfl, made⟩
      · rintro (before | ⟨_, _, _, same, made⟩)
        · cases before
        · cases same
          exact made
    · rw [notPlace rfl (by simp [unwrapped, isCoalescing, coalesces])]
      simp [isReference, coalesces]
  | _ => rw [notPlace rfl rfl]; simp [isReference]

/-- The operand of which it matters what it refers to stays in its position. -/
theorem referencePosition?_mangled {e t : Expr} (position : e.referencePosition? = some t) :
    (e.mangled looseAllowed).referencePosition? = some (t.mangled looseAllowed) := by
  cases e with
  | call => cases position; simp [referencePosition?]
  | template loc tag head substitutions =>
    obtain rfl : tag = some t := position
    simp [referencePosition?]
  | unary loc op value fromIdentifier =>
    simp only [referencePosition?] at position
    split at position
    · rename_i matters
      cases position
      -- Neither operator is the one that is folded.
      have other : op ≠ .logicalNot := by rcases matters with rfl | rfl <;> simp
      rw [mangled_unary loc other, referencePosition?, if_pos matters]
    · cases position
  | _ => cases position

/--
What stands in a position where places matter comes to name one only as a choice that is made.

A value there stays a value, except where the left side of `??` is known to be nullish without any
effects, and the right side names a place.
-/
theorem valuePosition_mangled {e t : Expr} (looseAllowed : Bool)
    (position : e.referencePosition? = some t) (value : t.isReference = false) :
    (e.mangled looseAllowed).referencePosition? = some (t.mangled looseAllowed) ∧
      ((t.mangled looseAllowed).isReference ↔
        ∃ loc left right, t = binary loc .nullishCoalescing left right ∧
          (left.mangled looseAllowed).nullish? = some ⟨true, false⟩ ∧
          (right.mangled looseAllowed).isReference) := by
  refine ⟨referencePosition?_mangled position, ?_⟩
  rw [isReference_mangled, value]
  simp

/-- The last operand of a sequence is called without a receiver, before and after. -/
theorem valuePosition_mangled_sequence :
    let name := identifier default default false false
    let sequence := binary default .comma (null default) (dot default name "b" .plain false)
    let e := call default sequence [] .plain false .normal
    e.referencePosition? = some sequence ∧ sequence.isReference = false ∧
      ((sequence.mangled true).isReference ↔
        ∃ loc left right, sequence = binary loc .nullishCoalescing left right ∧
          (left.mangled true).nullish? = some ⟨true, false⟩ ∧
          (right.mangled true).isReference) := by
  intro name sequence e
  have position : e.referencePosition? = some sequence := rfl
  exact ⟨position, rfl, (valuePosition_mangled true position rfl).2⟩

/-- A method that is chosen by nullishness gains a receiver, as the choice is made in its place. -/
theorem valuePosition_mangled_choice :
    let name := identifier default default false false
    let method := dot default name "b" .plain false
    let choice := binary default .nullishCoalescing (null default) method
    let e := call default choice [] .plain false .normal
    e.referencePosition? = some choice ∧ choice.isReference = false ∧
      (e.mangled false).referencePosition? = some method ∧ method.isReference := by
  intro name method choice e
  have made : choice.mangled false = method := by
    rw [mangled_coalesce, mangled_of_isLeaf rfl, mangled_dot, mangled_of_isLeaf rfl]
    rfl
  refine ⟨rfl, rfl, ?_, rfl⟩
  rw [referencePosition?_mangled rfl, made]

/-- The names that `typeof` looks up without reading them are the same afterwards. -/
theorem identifierRef?_mangled (looseAllowed : Bool) {e : Expr}
    (fixed : e.unwrapped.isCoalescing = false) :
    (e.mangled looseAllowed).identifierRef? = e.identifierRef? := by
  have unnamed : ∀ {e : Expr}, e.isReference = false → e.identifierRef? = none := by
    intro e value
    cases e <;> first | rfl | cases value
  cases e with
  | identifier => rw [mangled_of_isLeaf rfl]
  | dot | index => simp [identifierRef?]
  | binary loc op left right =>
    have before : (binary loc op left right).identifierRef? = none := rfl
    rw [before]
    refine unnamed (Bool.eq_false_iff.mpr fun named => ?_)
    obtain named | ⟨_, _, _, same, _⟩ := (isReference_mangled _).mp named
    · cases named
    · cases same
      cases fixed
  | _ =>
    refine (unnamed (Bool.eq_false_iff.mpr fun named => ?_)).trans (unnamed rfl).symm
    obtain named | ⟨_, _, _, same, _⟩ := (isReference_mangled _).mp named
    · cases named
    · cases same

end EcmaPrune.Expr
