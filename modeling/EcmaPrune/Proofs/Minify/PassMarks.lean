import EcmaPrune.Minify
import EcmaPrune.Proofs.Minify.WalkMarks

/-! No pass over a program makes up a mark or moves one. -/

namespace EcmaPrune

variable {α : Type} {f : Mark → Option α}

/-- An empty statement in the place of one that vanishes has no marks. -/
theorem readings_getD_empty (s : Option Stmt) (loc : Loc) :
    readings f (s.getD (.empty loc)).visits = readings f (Stmt.visitsOption s) := by
  cases s <;> simp [Stmt.visits, Stmt.visitsOption]

/-- What is read off statements in turn is read off all of them. -/
theorem readings_visitsList_append (first second : List Stmt) :
    readings f (Stmt.visitsList (first ++ second)) =
      readings f (Stmt.visitsList first) ++ readings f (Stmt.visitsList second) := by
  induction first with
  | nil => rfl
  | cons s rest ih => simp [Stmt.visitsList, ih]

/-- A statement that stays is put in front of the others. -/
theorem readings_toList_append (s : Option Stmt) (others : List Stmt) :
    readings f (Stmt.visitsList (s.toList ++ others)) =
      readings f (Stmt.visitsOption s) ++ readings f (Stmt.visitsList others) := by
  cases s <;> simp [Stmt.visitsList, Stmt.visitsOption]

section Statements

variable {cx : DiscardContext}

/-- What is left of an expression statement is left of its value. -/
theorem readings_trimExprStmt (reads : IsReading f)
    (forgets : cx.chainsSupported → ForgetsLinks f) (loc : Loc) (value : Expr) (isGlue : Bool) :
    (readings f (Stmt.visitsOption (trimExprStmt cx loc value isGlue).value)).Sublist
      (value.marks f) := by
  have kept := Expr.optionMarks_discard reads forgets value
  unfold trimExprStmt
  split
  · exact List.nil_sublist _
  · split
    · exact List.nil_sublist _
    · rename_i rest found
      rw [found] at kept
      simpa [Stmt.visitsOption, Stmt.visits] using kept

-- The equations of both recursions are worked out once, for all the proofs below.
attribute [local simp] Stmt.trim Stmt.trimList Stmt.trimOption Stmt.trimListOption Catch.trimOption

attribute [local simp] Stmt.visits Stmt.visitsList Stmt.visitsOption Stmt.visitsListOption
  Catch.visitsOption

mutual

theorem Stmt.readings_trim (reads : IsReading f)
    (forgets : cx.chainsSupported → ForgetsLinks f) :
    (s : Stmt) → (readings f (Stmt.visitsOption (s.trim cx).value)).Sublist (readings f s.visits)
  | .expr loc value isGlue => by
    simpa using readings_trimExprStmt reads forgets loc value isGlue
  | .block loc body => by simpa using Stmt.readings_trimList reads forgets body
  | .ifElse loc test yes no => by
    simpa [readings_getD_empty] using
      (Stmt.readings_trim reads forgets yes).append (Stmt.readings_trimOption reads forgets no)
  | .whileLoop loc test body => by
    simpa [readings_getD_empty] using Stmt.readings_trim reads forgets body
  | .doWhile loc body test => by
    simpa [readings_getD_empty] using
      (Stmt.readings_trim reads forgets body).append (List.Sublist.refl (test.marks f))
  | .label loc name stmt => by
    simpa [readings_getD_empty] using Stmt.readings_trim reads forgets stmt
  | .withObject loc value body => by
    simpa [readings_getD_empty] using Stmt.readings_trim reads forgets body
  | .tryCatch loc body handler finalizer => by
    simpa using (Stmt.readings_trimList reads forgets body).append
      ((Catch.readings_trimOption reads forgets handler).append
        (Stmt.readings_trimListOption reads forgets finalizer))
  | .breakTo .. | .classDecl .. | .continueTo .. | .debugger .. | .empty .. | .exportClause ..
  | .exportDefaultClass .. | .exportDefaultExpr .. | .exportDefaultFunction .. | .exportFrom ..
  | .function .. | .importFrom .. | .localDecl .. | .returnValue .. | .throwValue .. => by
    rw [Stmt.trim]
    · simp only [Counted.value_pure, Stmt.visitsOption]
      exact List.Sublist.refl _
    all_goals
      intros
      contradiction

theorem Stmt.readings_trimList (reads : IsReading f)
    (forgets : cx.chainsSupported → ForgetsLinks f) :
    (body : List Stmt) → (readings f (Stmt.visitsList (Stmt.trimList cx body).value)).Sublist
      (readings f (Stmt.visitsList body))
  | [] => by simp
  | s :: rest => by
    simpa [readings_toList_append] using
      (Stmt.readings_trim reads forgets s).append (Stmt.readings_trimList reads forgets rest)

theorem Stmt.readings_trimOption (reads : IsReading f)
    (forgets : cx.chainsSupported → ForgetsLinks f) :
    (s : Option Stmt) → (readings f (Stmt.visitsOption (Stmt.trimOption cx s).value)).Sublist
      (readings f (Stmt.visitsOption s))
  | none => by simp
  | some s => by simpa [readings_getD_empty] using Stmt.readings_trim reads forgets s

theorem Stmt.readings_trimListOption (reads : IsReading f)
    (forgets : cx.chainsSupported → ForgetsLinks f) :
    (body : Option (List Stmt)) →
      (readings f (Stmt.visitsListOption (Stmt.trimListOption cx body).value)).Sublist
        (readings f (Stmt.visitsListOption body))
  | none => by simp
  | some body => by simpa using Stmt.readings_trimList reads forgets body

theorem Catch.readings_trimOption (reads : IsReading f)
    (forgets : cx.chainsSupported → ForgetsLinks f) :
    (handler : Option Catch) →
      (readings f (Catch.visitsOption (Catch.trimOption cx handler).value)).Sublist
        (readings f (Catch.visitsOption handler))
  | none => by simp
  | some ⟨binding, body⟩ => by
    simpa using (List.Sublist.refl (readings f (Binding.visitsOption binding))).append
      (Stmt.readings_trimList reads forgets body)

end

/-- Directives stay in front of what is left of the statements behind them. -/
theorem readings_trimBody (reads : IsReading f) (forgets : cx.chainsSupported → ForgetsLinks f)
    (body : List Stmt) :
    (readings f (Stmt.visitsList (Stmt.trimBody cx body).value)).Sublist
      (readings f (Stmt.visitsList body)) := by
  -- Directives come first, and are left as they are.
  have split : readings f (Stmt.visitsList body) =
      readings f (Stmt.visitsList (body.takeWhile Stmt.isDirective)) ++
        readings f (Stmt.visitsList (body.dropWhile Stmt.isDirective)) := by
    rw [← readings_visitsList_append, List.takeWhile_append_dropWhile]
  have trimmed := Stmt.readings_trimList reads forgets (body.dropWhile Stmt.isDirective)
  rw [split, Stmt.trimBody, Counted.value_bind, Counted.value_pure, readings_visitsList_append]
  exact (List.Sublist.refl _).append trimmed

end Statements

section Walks

variable (reads : IsReading f)
include reads

/-- A walk that rewrites no expression by itself keeps what its other rewritings keep. -/
theorem keepsMarks_of_unchanged {w : Walk} (idle : w.leave = Counted.unchanged)
    (body : ∀ rewrite ∈ w.body, ∀ body, (readings f (Stmt.visitsList (rewrite body).value)).Sublist
      (readings f (Stmt.visitsList body)))
    (test : ∀ rewrite ∈ w.test, ∀ e, ((rewrite e).value.marks f).Sublist (e.marks f)) :
    w.KeepsMarks f where
  reads := reads
  body := body
  test := test
  leave _ := by rw [idle]; exact List.Sublist.refl _
  nullish _ comes := by rwa [idle] at comes
  string _ comes := by rwa [idle] at comes

/-- The walk on which bodies are reduced keeps marks if reducing them does. -/
theorem keepsMarks_trimming {cx : DiscardContext} {depth : Nat}
    (inner : ∀ body, (readings f (Stmt.visitsList (trimBodies cx depth body).value)).Sublist
      (readings f (Stmt.visitsList body))) :
    Walk.KeepsMarks { Walk.idle with body := some fun body => trimBodies cx depth body } f := by
  refine keepsMarks_of_unchanged reads rfl ?_ ?_
  · rintro rewrite ⟨rfl⟩ body
    exact inner body
  · rintro rewrite ⟨⟩

/-- Reducing the bodies of a program makes up no mark and moves none. -/
theorem readings_trimBodies {cx : DiscardContext} (forgets : cx.chainsSupported → ForgetsLinks f)
    (depth : Nat) (body : List Stmt) :
    (readings f (Stmt.visitsList (trimBodies cx depth body).value)).Sublist
      (readings f (Stmt.visitsList body)) := by
  induction depth generalizing body with
  | zero => exact List.Sublist.refl _
  | succ depth ih =>
    -- The bodies inside are reduced one level less deep.
    have keeps := keepsMarks_trimming reads ih
    exact (Stmt.readings_walkList keeps _).trans (readings_trimBody reads forgets body)

/-- Rewriting the conditions of a program makes up no mark and moves none. -/
theorem keepsMarks_conditionWalk (depth : Nat) : (conditionWalk depth).KeepsMarks f := by
  induction depth with
  | zero =>
    refine keepsMarks_of_unchanged reads rfl ?_ ?_
    · rintro rewrite ⟨⟩
    · rintro rewrite ⟨⟩
  | succ depth ih =>
    refine keepsMarks_of_unchanged reads rfl ?_ ?_
    · rintro rewrite ⟨⟩
    · -- The conditions inside are rewritten one level less deep.
      rintro rewrite ⟨rfl⟩ e
      exact (Expr.marks_walk ih _).trans (Expr.marks_simplifyCondition reads e)

end Walks

section Mangling

namespace Expr

/-- What is nullish without any effects comes down to nothing else. -/
theorem comesToNullish_of_nullish? {e : Expr} (known : e.nullish? = some ⟨true, false⟩) :
    e.comesToNullish := by
  induction e using induction_on_parts with
  | step e ih =>
    cases e with
    | inlinedEnum loc value comment => exact ih value (by simp [parts]) known
    | null | undefined => rfl
    | unary loc op value fromIdentifier =>
      -- An operation may always do something, or it is not nullish.
      cases op with
      | typeof => simp only [nullish?] at known; split at known <;> cases known
      | _ => cases known
    | binary loc op left right =>
      cases op with
      | comma =>
        obtain ⟨inner, _, same⟩ := Option.map_eq_some_iff.mp known
        cases congrArg Verdict.hasEffects same
      | _ => cases known
    | _ => cases known

/-- What comes down to `null` or `undefined` is not known to be anything else. -/
theorem nullish?_of_comesToNullish {e : Expr} (comes : e.comesToNullish) {hasEffects : Bool} :
    e.nullish? ≠ some ⟨false, hasEffects⟩ := by
  fun_induction comesToNullish e with
  | case1 | case2 => simp [nullish?, Verdict.pure]
  | case3 loc value comment ih => exact ih comes
  | case4 => simp [nullish?]
  | case5 => cases comes

/-- The type of what comes down to a literal is the type of the literal. -/
theorem primitiveType_of_comesToNullish {e : Expr} (comes : e.comesToNullish) :
    e.primitiveType = .null ∨ e.primitiveType = .undefined := by
  fun_induction comesToNullish e with
  | case1 => exact .inl rfl
  | case2 => exact .inr rfl
  | case3 loc value comment ih => exact ih comes
  | case4 loc left right leftIh rightIh =>
    obtain ⟨leftComes, rightComes⟩ := Bool.and_eq_true_iff.mp comes
    -- The left operand is nullish, so the type is that of the right one.
    have chosen : (binary loc .nullishCoalescing left right).primitiveType =
        right.primitiveType := by
      rcases leftIh leftComes with type | type <;> simp [primitiveType, PrimitiveType.orElse, type]
    rw [chosen]
    exact rightIh rightComes
  | case5 => cases comes

theorem primitiveType_of_comesToString {e : Expr} (comes : e.comesToString) :
    e.primitiveType = .string := by
  fun_induction comesToString e with
  | case1 => rfl
  | case2 loc left right leftIh rightIh =>
    rcases Bool.or_eq_true_iff.mp comes with onLeft | onRight
    · simp [primitiveType, PrimitiveType.orElse, leftIh onLeft]
    · obtain ⟨leftComes, rightComes⟩ := Bool.and_eq_true_iff.mp onRight
      rcases primitiveType_of_comesToNullish leftComes with type | type <;>
        simp [primitiveType, PrimitiveType.orElse, type, rightIh rightComes]
  | case3 => cases comes

/-- What is a boolean comes down to nothing else. -/
theorem comesToNothing_of_boolean {e : Expr} (isBoolean : e.primitiveType = .boolean) :
    e.comesToNullish = false ∧ e.comesToString = false := by
  constructor
  · refine Bool.eq_false_iff.mpr fun comes => ?_
    rcases primitiveType_of_comesToNullish comes with type | type <;> simp [type] at isBoolean
  · refine Bool.eq_false_iff.mpr fun comes => ?_
    simp [primitiveType_of_comesToString comes] at isBoolean

end Expr

/-- What rewriting makes of an expression, unless it leaves it as it is. -/
inductive Mangles (looseAllowed : Bool) : Expr → Expr → Prop
  | decided {loc : Loc} {op : Operator} {left right : Expr} (value : Bool) :
    Mangles looseAllowed (.binary loc op left right) (.boolean loc value)
  | loosened {loc : Loc} {op : Operator} {left right : Expr} :
    looseAllowed → op = .strictEquality ∨ op = .strictInequality →
    Mangles looseAllowed (.binary loc op left right) (.binary loc op.loosened left right)
  | left {loc : Loc} {left right : Expr} {hasEffects : Bool} :
    left.nullish? = some ⟨false, hasEffects⟩ →
    Mangles looseAllowed (.binary loc .nullishCoalescing left right) left
  | right {loc : Loc} {left right : Expr} :
    left.nullish? = some ⟨true, false⟩ →
    Mangles looseAllowed (.binary loc .nullishCoalescing left right) right
  | negated {loc : Loc} {value negated : Expr} {fromIdentifier : Bool} :
    value.negate? = some negated →
    Mangles looseAllowed (.unary loc .logicalNot value fromIdentifier) negated

/-- Rewriting an expression does one of these, or nothing. -/
theorem mangleExpr_cases (looseAllowed : Bool) (e : Expr) :
    (mangleExpr looseAllowed e).value = e ∨
      Mangles looseAllowed e (mangleExpr looseAllowed e).value := by
  unfold mangleExpr
  split
  · split
    · rename_i strict
      simp only [Bool.or_eq_true, beq_iff_eq] at strict
      unfold mangleStrict
      split
      · exact .inr (.decided _)
      · split
        · rename_i allowed
          exact .inr (.loosened (Bool.and_eq_true_iff.mp allowed).1 strict)
        · exact .inl rfl
    · split
      · rename_i loc op left right _ isChoice
        obtain rfl : op = .nullishCoalescing := by simpa using isChoice
        unfold mangleNullish
        split
        · rename_i known
          exact .inr (.left known)
        · rename_i known
          exact .inr (.right known)
        · exact .inl rfl
      · exact .inl rfl
  · split
    · rename_i loc op value fromIdentifier isNot
      obtain rfl : op = .logicalNot := by simpa using isNot
      split
      · rename_i found
        exact .inr (.negated found)
      · exact .inl rfl
    · exact .inl rfl
  · exact .inl rfl

/-- Rewriting single expressions makes up no mark, if the reading leaves out loose comparisons. -/
theorem keepsMarks_mangling (reads : IsReading f) {looseAllowed : Bool}
    (loosens : looseAllowed → f .looseEquality = none) :
    (Walk.mangling looseAllowed).KeepsMarks f where
  reads := reads
  body := by rintro rewrite ⟨⟩
  test := by rintro rewrite ⟨⟩
  leave e := by
    rcases mangleExpr_cases looseAllowed e with same | step
    · simp only [Walk.mangling_leave, same, List.Sublist.refl]
    · rw [Walk.mangling_leave]
      generalize (mangleExpr looseAllowed e).value = rewritten at step
      cases step with
      | decided value => simp [reads.other]
      | loosened allowed strict =>
        rename_i loc op left right
        have loose : f (Expr.binary loc op.loosened left right).mark = none := by
          rcases strict with rfl | rfl <;> exact loosens allowed
        rw [Expr.marks_binary, Expr.marks_binary, loose]
        exact List.sublist_append_right _ _
      -- The operand that is left has the marks of one side.
      | left known =>
        rw [Expr.marks_binary]
        exact (List.sublist_append_left _ _).trans (List.sublist_append_right _ _)
      | right known =>
        rw [Expr.marks_binary]
        exact (List.sublist_append_right _ _).trans (List.sublist_append_right _ _)
      | negated found =>
        rw [Expr.marks_unary]
        exact (Expr.marks_negate? reads found).trans (List.sublist_append_right _ _)
  nullish e := by
    intro comes
    rcases mangleExpr_cases looseAllowed e with same | step
    · rwa [Walk.mangling_leave, same] at comes
    · rw [Walk.mangling_leave] at comes
      generalize (mangleExpr looseAllowed e).value = rewritten at step comes
      cases step with
      | decided value => cases comes
      | loosened allowed strict => rcases strict with rfl | rfl <;> cases comes
      | left known => exact absurd known (Expr.nullish?_of_comesToNullish comes)
      | right known =>
        exact Bool.and_eq_true_iff.mpr ⟨Expr.comesToNullish_of_nullish? known, comes⟩
      | negated found =>
        simp [(Expr.comesToNothing_of_boolean (Expr.primitiveType_negate? found)).1] at comes
  string e := by
    intro comes
    rcases mangleExpr_cases looseAllowed e with same | step
    · rwa [Walk.mangling_leave, same] at comes
    · rw [Walk.mangling_leave] at comes
      generalize (mangleExpr looseAllowed e).value = rewritten at step comes
      cases step with
      | decided value => cases comes
      | loosened allowed strict => rcases strict with rfl | rfl <;> cases comes
      | left known => exact Bool.or_eq_true_iff.mpr (.inl comes)
      | right known =>
        refine Bool.or_eq_true_iff.mpr (.inr ?_)
        exact Bool.and_eq_true_iff.mpr ⟨Expr.comesToNullish_of_nullish? known, comes⟩
      | negated found =>
        simp [(Expr.comesToNothing_of_boolean (Expr.primitiveType_negate? found)).2] at comes

end Mangling

section Minify

variable {options : MinifyOptions} (unbound : Ref → Bool) (reads : IsReading f)
  (forgets : options.optionalChainSupported → ForgetsLinks f)
  (loosens : options.mangleStrictEquality → f .looseEquality = none)
include reads forgets loosens

theorem readings_minifyOnce (program : List Stmt) :
    (readings f (Stmt.visitsList (minifyOnce options unbound program).value)).Sublist
      (readings f (Stmt.visitsList program)) := by
  let cx : DiscardContext := ⟨options.optionalChainSupported, unbound⟩
  have trimmed : (readings f (Stmt.visitsList (trimProgram cx program).value)).Sublist
      (readings f (Stmt.visitsList program)) := readings_trimBodies reads forgets _ program
  have simplified := fun depth body =>
    Stmt.readings_walkList (keepsMarks_conditionWalk reads depth) body
  have mangled := fun body => Stmt.readings_walkList (keepsMarks_mangling reads loosens) body
  -- The three walks of a pass come one after another.
  exact ((mangled _).trans (simplified _ _)).trans trimmed

/-- However often a program is gone over, no mark is made up or moved. -/
theorem readings_minifyUpTo (passes : Nat) (program : List Stmt) :
    (readings f (Stmt.visitsList (minifyUpTo options unbound passes program).1)).Sublist
      (readings f (Stmt.visitsList program)) := by
  induction passes generalizing program with
  | zero => exact List.Sublist.refl _
  | succ passes ih =>
    have once := readings_minifyOnce unbound reads forgets loosens program
    rw [minifyUpTo]
    dsimp only
    split
    · exact (ih _).trans once
    · exact once

end Minify

end EcmaPrune
