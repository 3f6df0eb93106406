import EcmaPrune.Analysis.Removable
import EcmaPrune.Proofs.Analysis.Nullishness
import EcmaPrune.Proofs.Analysis.Truthiness

/-!
What a verdict promises: evaluation bears it out, and an expression that is said to do nothing but
produce its value can be removed.
-/

namespace EcmaPrune.Expr

/--
Evaluation bears out the verdicts on the truth of an expression and on whether it is nullish.

A big integer literal whose text has no value is neither true nor false, but it is not nullish.
-/
theorem verdicts_sound {W : Type} (host : Host W) (e : Expr) :
    (∀ verdict ∈ e.truth?, (e.eval host).Always fun value => value.toBoolean = verdict.value) ∧
      (∀ verdict ∈ e.nullish?,
        (e.eval host).Always fun value => value.isNullish = verdict.value) ∧
      ∀ loc literal, BigInt.value? literal = none →
        (bigInt loc literal).truth? = none ∧
          (bigInt loc literal).nullish? = some (.pure false) := by
  refine ⟨fun _ found => eval_toBoolean host found, fun _ found => eval_isNullish host found, ?_⟩
  intro loc literal unreadable
  -- Being nullish does not depend on the value, as being zero does.
  simp [truth?, nullish?, BigInt.isZero?, unreadable]

/-- The last operand of a sequence decides both, and `zz` is no integer. -/
theorem verdicts_sound_sequence :
    let last := binary default .comma (identifier default default false false)
      (string default [97])
    ((last.eval (default : Host Unit)).Always fun value => value.toBoolean = true) ∧
      ((last.eval (default : Host Unit)).Always fun value => value.isNullish = false) ∧
      (bigInt default "zz").truth? = none ∧
      (bigInt default "zz").nullish? = some (.pure false) :=
  have sound := verdicts_sound (default : Host Unit)
    (binary default .comma (identifier default default false false) (string default [97]))
  ⟨sound.1 (.effectful true) rfl, sound.2.1 (.effectful false) rfl,
    sound.2.2 default "zz" (by decide)⟩

/-- A big integer literal without a value gets a verdict all the same: it is not nullish. -/
theorem nullish_bigInt_unreadable :
    ¬∀ loc literal, BigInt.value? literal = none →
      (bigInt loc literal).truth? = none ∧ (bigInt loc literal).nullish? = none := by
  intro silent
  cases (silent default "zz" (by decide)).2

/-- What is known to be true or false and does nothing else can be removed. -/
theorem isRemovable_of_truth? (unbound : Ref → Bool) {e : Expr} {value : Bool}
    (known : e.truth? = some (.pure value)) : e.isRemovable unbound := by
  fun_induction truth? e generalizing value with
  | case1 loc inner comment ih => exact ih known
  | case15 loc inner isBare =>
    -- The name of the type of an identifier does not depend on the identifier.
    split at known
    · rename_i bare
      simp [isRemovable, bare]
    · cases known
  | case16 loc inner isBare ih =>
    obtain ⟨verdict, found, negated⟩ := Option.map_eq_some_iff.mp known
    rcases verdict with ⟨truth, hasEffects⟩
    cases hasEffects with
    | false => exact ih found
    | true => cases negated
  | _ =>
    -- Left are literals and functions, and operations that are taken to do something.
    simp_all [isRemovable, Verdict.pure, Verdict.effectful, Verdict.withEffects]

/--
What is known to be nullish or not and does nothing else can be removed, up to types asked for.

A type that is marked as asked for of a name is taken to have no effects, whatever it is asked of.
-/
theorem isRemovable_of_nullish? (unbound : Ref → Bool) {e : Expr} {value : Bool}
    (known : e.nullish? = some (.pure value)) :
    e.isRemovable unbound = false ↔
      ∃ loc operand, e.unwrapped = unary loc .typeof operand true ∧
        operand.isIdentifier = false ∧ operand.isRemovable unbound = false := by
  induction e using induction_on_parts with
  | step e ih =>
    cases e with
    -- Neither of the two looks at the wrapper of a constant.
    | inlinedEnum loc inner comment => exact ih inner (by simp [parts]) known
    | unary loc op operand fromIdentifier =>
      cases op with
      | typeof =>
        cases fromIdentifier with
        | false => cases known
        | true =>
          -- The classifier still asks what the operand is, and if it can be removed.
          simp only [isRemovable, unwrapped, Bool.true_and, Bool.or_eq_false_iff]
          constructor
          · intro kept
            exact ⟨loc, operand, rfl, kept⟩
          · rintro ⟨_, _, same, kept⟩
            cases same
            exact kept
      | _ => cases known
    | binary loc op left right =>
      cases op with
      | comma =>
        -- A sequence is never said to do nothing, because of its left side.
        obtain ⟨inner, _, same⟩ := Option.map_eq_some_iff.mp known
        cases congrArg Verdict.hasEffects same
      | _ => cases known
    | null | undefined | boolean | number | string | bigInt | regExp | function | arrow =>
      simp [isRemovable, unwrapped]
    | _ => cases known

/--
An expression that a verdict says does nothing can be removed, with one exception.

The verdict on whether an expression is nullish takes the mark on `typeof` at its word, where the
operand may since have become something other than a name.
-/
theorem isRemovable_of_verdict (unbound : Ref → Bool) (e : Expr) (value : Bool) :
    (e.truth? = some (.pure value) → e.isRemovable unbound) ∧
      (e.nullish? = some (.pure value) →
        (e.isRemovable unbound = false ↔
          ∃ loc operand, e.unwrapped = unary loc .typeof operand true ∧
            operand.isIdentifier = false ∧ operand.isRemovable unbound = false)) :=
  ⟨isRemovable_of_truth? unbound, isRemovable_of_nullish? unbound⟩

/-- The literal `"a"` is true, not nullish and removable. -/
theorem isRemovable_of_verdict_string :
    (string default [97]).isRemovable (fun _ => false) ∧
      ¬∃ loc operand, (string default [97]).unwrapped = unary loc .typeof operand true ∧
        operand.isIdentifier = false ∧ operand.isRemovable (fun _ => false) = false :=
  ⟨(isRemovable_of_verdict (fun _ => false) (string default [97]) true).1 rfl,
    mt ((isRemovable_of_verdict (fun _ => false) (string default [97]) false).2 rfl).mpr
      (by decide)⟩

/-- Asking for the type of a call is said to do nothing if it is marked as asked of a name. -/
theorem nullish_typeof_call :
    let call := call default (identifier default default false false) [] .plain false .normal
    let asked := unary default .typeof call true
    asked.nullish? = some (.pure false) ∧ asked.isRemovable (fun _ => false) = false :=
  ⟨rfl, by decide⟩

end EcmaPrune.Expr
