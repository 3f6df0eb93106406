import EcmaPrune.Analysis.Truthiness
import EcmaPrune.Proofs.Semantics.Truth

/-! The verdicts on the truth of expressions without effects are true. -/

namespace EcmaPrune

variable {W : Type} (host : Host W)

/-- The name of a type is never empty. -/
theorem Host.units_typeName_ne_nil (value : Value) :
    Text.units (host.typeName value) ≠ [] :=
  (by decide : ∀ name ∈ Value.typeNames, Text.units name ≠ []) _ (Value.typeName_mem _ value)

namespace Expr

/-- Asking for the type of a name gives something true, and nobody sees it. -/
theorem truth_typeof_identifier {loc : Loc} {value : Expr} (bare : value.isIdentifier) :
    (unary loc .typeof value true).truth host = pure true := by
  obtain ⟨ref, known⟩ : ∃ ref, value.identifierRef? = some ref := by
    cases value <;> simp_all [isIdentifier, identifierRef?]
  rw [truth, eval_unary_typeof_identifier host loc known]
  -- In every world the answer is the name of some type.
  have named : ∀ w, (Value.string (Text.units (host.typeName (host.lookup ref w)))).toBoolean := by
    intro w
    simpa [Value.toBoolean] using host.units_typeName_ne_nil (host.lookup ref w)
  funext w
  show (pure (Value.toBoolean (.string _)) : Run W Bool) w = _
  rw [named w]

/-- A big integer literal that has a value is true unless the value is zero. -/
theorem truth_bigInt {loc : Loc} {literal : String} {zero : Bool}
    (found : BigInt.isZero? literal = some zero) :
    (bigInt loc literal).truth host = pure !zero := by
  obtain ⟨n, valued, rfl⟩ := Option.map_eq_some_iff.mp found
  -- The value is read off the digits of the literal.
  rw [truth_of_eval host (eval_bigInt host loc literal), valued]
  rfl

/-- A verdict on an expression without effects tells all that can be told of its truth. -/
theorem truth_of_verdict {e : Expr} {verdict : Verdict} (found : e.truth? = some verdict)
    (silent : verdict.hasEffects = false) : e.truth host = pure verdict.value := by
  fun_induction truth? e generalizing verdict with
  | case1 loc value comment ih => rw [truth_inlinedEnum, ih found silent]
  | case2 loc => cases found; exact truth_of_eval host (eval_null host loc)
  | case3 loc => cases found; exact truth_of_eval host (eval_undefined host loc)
  | case4 loc value => cases found; exact truth_boolean host loc value
  | case5 loc value => cases found; exact truth_of_eval host (eval_number host loc value)
  | case6 loc literal =>
    obtain ⟨zero, isZero, rfl⟩ := Option.map_eq_some_iff.mp found
    exact truth_bigInt host isZero
  | case7 loc value => cases found; exact truth_of_eval host (eval_string host loc value)
  | case8 loc func => cases found; exact truth_of_create host loc (eval_function host loc func)
  | case9 => cases found; exact truth_of_create host _ (eval_arrow host _ _ _ _ _)
  | case10 loc text => cases found; exact truth_of_create host loc (eval_regExp host loc text)
  | case15 loc value fromIdentifier =>
    -- Only a bare name is asked for its type without being read.
    split at found
    · rename_i bare
      obtain ⟨rfl, bare⟩ := Bool.and_eq_true_iff.mp bare
      cases found
      exact truth_typeof_identifier host bare
    · cases found
      cases silent
  | case16 loc value fromIdentifier ih =>
    obtain ⟨inner, known, rfl⟩ := Option.map_eq_some_iff.mp found
    rw [truth_not, ih known silent, Run.opposite_pure]
    rfl
  | case22 loc left right ih =>
    -- A sequence may always do something on its left side.
    obtain ⟨inner, _, rfl⟩ := Option.map_eq_some_iff.mp found
    cases silent
  | _ =>
    -- The other verdicts are on expressions that may do something, or there is none.
    cases found <;> cases silent

/-- Evaluation bears out the verdict on the truth of an expression. -/
theorem eval_toBoolean {e : Expr} {verdict : Verdict} (found : e.truth? = some verdict) :
    (e.eval host).Always fun value => value.toBoolean = verdict.value := by
  fun_induction truth? e generalizing verdict with
  | case1 loc value comment ih =>
    rw [eval_inlinedEnum]
    exact ih found
  | case2 | case3 | case4 | case5 | case7 =>
    cases found
    simp only [eval_null, eval_undefined, eval_boolean, eval_number, eval_string]
    exact Run.always_pure rfl
  | case6 loc literal =>
    obtain ⟨zero, isZero, rfl⟩ := Option.map_eq_some_iff.mp found
    obtain ⟨n, valued, rfl⟩ := Option.map_eq_some_iff.mp isZero
    rw [eval_bigInt, valued]
    exact Run.always_pure rfl
  | case8 | case9 | case10 =>
    cases found
    simp only [eval_function, eval_arrow, eval_regExp]
    exact Run.always_inWorld fun _ => Run.always_pure rfl
  | case11 | case12 | case13 =>
    -- Whatever happens while the object is built, it is one.
    cases found
    simp only [eval_object, eval_array, eval_classExpr]
    exact Run.always_seq fun _ => Run.always_inWorld fun _ => Run.always_pure rfl
  | case14 loc value fromIdentifier =>
    cases found
    rw [eval_unary host loc rfl]
    exact Run.always_seq fun _ => Run.always_pure rfl
  | case15 loc value fromIdentifier =>
    have isTrue : verdict.value = true := by
      split at found <;> cases found <;> rfl
    have named : ∀ v : Value, (Value.string (Text.units (host.typeName v))).toBoolean = true :=
      fun v => by simpa [Value.toBoolean] using host.units_typeName_ne_nil v
    rw [isTrue]
    -- The name is that of the type of what is stored, or of what the operand evaluates to.
    cases bare : if fromIdentifier then value.identifierRef? else none with
    | none =>
      rw [eval_unary_typeof host loc bare]
      exact Run.always_seq fun v => Run.always_pure (named v)
    | some ref =>
      obtain ⟨rfl, bare⟩ : fromIdentifier = true ∧ value.identifierRef? = some ref := by
        simpa using bare
      rw [eval_unary_typeof_identifier host loc bare]
      exact Run.always_inWorld fun _ => Run.always_pure (named _)
  | case16 loc value fromIdentifier ih =>
    obtain ⟨inner, known, rfl⟩ := Option.map_eq_some_iff.mp found
    rw [eval_unary host loc rfl]
    exact (ih known).bind fun v same => Run.always_pure (congrArg not same)
  | case18 loc left right hasEffects known ih =>
    cases found
    rw [eval_or]
    have onRight := ih known
    -- A true left side is the result itself.
    refine Run.always_seq fun first => ?_
    split
    · exact Run.always_pure ‹_›
    · exact onRight
  | case20 loc left right hasEffects known ih =>
    cases found
    rw [eval_and]
    have onRight := ih known
    -- A false left side is the result itself.
    refine Run.always_seq fun first => ?_
    split
    · exact onRight
    · exact Run.always_pure (Bool.eq_false_iff.mpr ‹_›)
  | case22 loc left right ih =>
    obtain ⟨inner, known, rfl⟩ := Option.map_eq_some_iff.mp found
    have onRight := ih known
    rw [eval_comma]
    exact Run.always_seq fun _ => onRight
  | case17 | case19 | case21 | case23 | case24 => cases found

end Expr

end EcmaPrune
