import EcmaPrune.Minify
import EcmaPrune.Proofs.Minify.WalkHonest
import EcmaPrune.Proofs.Rewrite.DiscardCanonical

/-! Every pass over a program counts a change exactly where it makes one. -/

namespace EcmaPrune

open Counted

namespace Counted

variable {α : Type} {same : α → α}

/-- A rewriting that is counted may make anything, as long as equal trees become equal. -/
theorem IsHonest.rewritten {whole : α} (made : α) :
    IsHonest same whole (.rewritten made) (.rewritten (same made)) :=
  ⟨rfl, nofun⟩

/-- So may one that is counted as a removal. -/
theorem IsHonest.removed {whole : α} (made : α) :
    IsHonest same whole ⟨made, .oneRemoved⟩ ⟨same made, .oneRemoved⟩ :=
  ⟨rfl, nofun⟩

end Counted

/-- Comparing expressions is comparing their canonical forms. -/
theorem Expr.same_canonical (e e' : Expr) : e.canonical.same e'.canonical = e.same e' := by
  rw [Bool.eq_iff_iff, Expr.same_iff, Expr.same_iff, e.canonical_canonical,
    e'.canonical_canonical]

/-- A rewriting that compares its result with what it was given counts what differs. -/
theorem Counted.IsHonest.compared {β : Type} {same : β → β} (whole : Expr → β) (made e : Expr)
    (result : Expr → β) (onResult : ∀ e, same (result e) = whole e.canonical) :
    IsHonest same (whole e.canonical)
      ⟨result made, if made.same e then .zero else .oneRewrite⟩
      ⟨whole made.canonical, if made.canonical.same e.canonical then .zero else .oneRewrite⟩ := by
  constructor
  · rw [onResult, Expr.same_canonical]
  · intro none
    -- Nothing is counted only if the comparison finds no difference.
    cases equal : made.same e with
    | true => rw [onResult, (Expr.same_iff made e).mp equal]
    | false => simp [equal, Tally.zero, Tally.oneRewrite] at none

section

variable (cx : DiscardContext)

theorem Expr.isMissing_canonical (e : Expr) : e.canonical.isMissing = e.isMissing := by
  cases e <;> rfl

theorem Stmt.loc_canonical (s : Stmt) : s.canonical.loc = default := by
  cases s <;> rfl

theorem Stmt.isDirective_canonical (s : Stmt) : s.canonical.isDirective = s.isDirective := by
  cases s with
  | expr loc value isGlue => cases value <;> rfl
  | _ => rfl

theorem honest_trimExprStmt (loc : Loc) (value : Expr) (isGlue : Bool) :
    IsHonest Stmt.canonicalOption (some (.expr default value.canonical isGlue))
      (trimExprStmt cx loc value isGlue) (trimExprStmt cx default value.canonical isGlue) := by
  rw [trimExprStmt, trimExprStmt, Expr.isMissing_canonical, Expr.discard_canonical]
  split
  · exact .removed none
  · cases value.discard cx with
    | none => exact .removed none
    | some rest =>
      exact .compared (fun e => some (Stmt.expr default e isGlue)) rest value
        (fun e => some (Stmt.expr loc e isGlue)) fun _ => rfl

/-- A branch that vanishes is still there, but empty. -/
theorem Stmt.getD_canonicalOption (kept : Option Stmt) (loc : Loc) :
    (Stmt.canonicalOption kept).getD (.empty default) = (kept.getD (.empty loc)).canonical := by
  cases kept <;> rfl

mutual

/-- Reducing a statement is honest about what it changes. -/
theorem Stmt.honest_trim : (s : Stmt) →
    IsHonest Stmt.canonicalOption (some s.canonical) (s.trim cx) (s.canonical.trim cx)
  | .expr loc value isGlue => honest_trimExprStmt cx loc value isGlue
  | .block loc body => by
    rw [Stmt.canonical, Stmt.trim, Stmt.trim]
    refine .bind (fun body => some (Stmt.block default body)) (Stmt.honest_trimList body)
      fun body => ?_
    exact .pure (some (Stmt.block loc body))
  | .ifElse loc test yes no => by
    -- A branch that vanishes leaves an empty statement, which is at the position of the branch.
    rw [Stmt.canonical, Stmt.trim, Stmt.trim, yes.loc_canonical]
    refine .bind (fun kept => some (Stmt.ifElse default test.canonical (kept.getD (.empty default))
      (Stmt.canonicalOption no))) yes.honest_trim fun kept => ?_
    rw [Stmt.getD_canonicalOption kept yes.loc]
    refine .bind (fun no => some (Stmt.ifElse default test.canonical
      (kept.getD (.empty yes.loc)).canonical no)) (Stmt.honest_trimOption no) fun no => ?_
    exact .pure (some (Stmt.ifElse loc test (kept.getD (.empty yes.loc)) no))
  | .whileLoop loc test body => by
    rw [Stmt.canonical, Stmt.trim, Stmt.trim, body.loc_canonical]
    refine .bind (fun kept => some (Stmt.whileLoop default test.canonical
      (kept.getD (.empty default)))) body.honest_trim fun kept => ?_
    rw [Stmt.getD_canonicalOption kept body.loc]
    exact .pure (some (Stmt.whileLoop loc test (kept.getD (.empty body.loc))))
  | .doWhile loc body test => by
    rw [Stmt.canonical, Stmt.trim, Stmt.trim, body.loc_canonical]
    refine .bind (fun kept => some (Stmt.doWhile default (kept.getD (.empty default))
      test.canonical)) body.honest_trim fun kept => ?_
    rw [Stmt.getD_canonicalOption kept body.loc]
    exact .pure (some (Stmt.doWhile loc (kept.getD (.empty body.loc)) test))
  | .label loc name stmt => by
    rw [Stmt.canonical, Stmt.trim, Stmt.trim, stmt.loc_canonical]
    refine .bind (fun kept => some (Stmt.label default name (kept.getD (.empty default))))
      stmt.honest_trim fun kept => ?_
    rw [Stmt.getD_canonicalOption kept stmt.loc]
    exact .pure (some (Stmt.label loc name (kept.getD (.empty stmt.loc))))
  | .withObject loc value body => by
    rw [Stmt.canonical, Stmt.trim, Stmt.trim, body.loc_canonical]
    refine .bind (fun kept => some (Stmt.withObject default value.canonical
      (kept.getD (.empty default)))) body.honest_trim fun kept => ?_
    rw [Stmt.getD_canonicalOption kept body.loc]
    exact .pure (some (Stmt.withObject loc value (kept.getD (.empty body.loc))))
  | .tryCatch loc body handler finalizer => by
    rw [Stmt.canonical, Stmt.trim, Stmt.trim]
    refine .bind (fun body => some (Stmt.tryCatch default body (Catch.canonicalOption handler)
      (Stmt.canonicalListOption finalizer))) (Stmt.honest_trimList body) fun body => ?_
    refine .bind (fun handler => some (Stmt.tryCatch default (Stmt.canonicalList body) handler
      (Stmt.canonicalListOption finalizer))) (Catch.honest_trimOption handler) fun handler => ?_
    refine .bind (fun finalizer => some (Stmt.tryCatch default (Stmt.canonicalList body)
      (Catch.canonicalOption handler) finalizer)) (Stmt.honest_trimListOption finalizer)
      fun finalizer => ?_
    exact .pure (some (Stmt.tryCatch loc body handler finalizer))
  | .breakTo .. | .classDecl .. | .continueTo .. | .debugger _ | .empty _ | .exportClause ..
  | .exportDefaultClass .. | .exportDefaultExpr .. | .exportDefaultFunction .. | .exportFrom ..
  | .function .. | .importFrom .. | .localDecl .. | .returnValue .. | .throwValue .. =>
    .pure (some _)

theorem Stmt.honest_trimList : (body : List Stmt) →
    IsHonest Stmt.canonicalList (Stmt.canonicalList body) (Stmt.trimList cx body)
      (Stmt.trimList cx (Stmt.canonicalList body))
  | [] => .pure []
  | s :: rest => by
    rw [Stmt.canonicalList, Stmt.trimList, Stmt.trimList]
    refine .bind (fun kept => kept.toList ++ Stmt.canonicalList rest) s.honest_trim
      fun kept => ?_
    refine .bind ((Stmt.canonicalOption kept).toList ++ ·) (Stmt.honest_trimList rest)
      fun others => ?_
    -- A statement that vanishes from a list leaves nothing there, in either of the lists.
    have together : (Stmt.canonicalOption kept).toList ++ Stmt.canonicalList others =
        Stmt.canonicalList (kept.toList ++ others) := by
      cases kept <;> rfl
    rw [together]
    exact .pure (kept.toList ++ others)

theorem Stmt.honest_trimOption : (s : Option Stmt) →
    IsHonest Stmt.canonicalOption (Stmt.canonicalOption s) (Stmt.trimOption cx s)
      (Stmt.trimOption cx (Stmt.canonicalOption s))
  | none => .pure none
  | some s => by
    rw [Stmt.canonicalOption, Stmt.trimOption, Stmt.trimOption, s.loc_canonical]
    refine .bind (fun kept => some (kept.getD (.empty default))) s.honest_trim fun kept => ?_
    rw [Stmt.getD_canonicalOption kept s.loc]
    exact .pure (some (kept.getD (.empty s.loc)))

theorem Stmt.honest_trimListOption : (body : Option (List Stmt)) →
    IsHonest Stmt.canonicalListOption (Stmt.canonicalListOption body)
      (Stmt.trimListOption cx body) (Stmt.trimListOption cx (Stmt.canonicalListOption body))
  | none => .pure none
  | some body => by
    rw [Stmt.canonicalListOption, Stmt.trimListOption, Stmt.trimListOption]
    refine .bind some (Stmt.honest_trimList body) fun body => ?_
    exact .pure (some body)

theorem Catch.honest_trimOption : (handler : Option Catch) →
    IsHonest Catch.canonicalOption (Catch.canonicalOption handler)
      (Catch.trimOption cx handler) (Catch.trimOption cx (Catch.canonicalOption handler))
  | none => .pure none
  | some ⟨binding, body⟩ => by
    rw [Catch.canonicalOption, Catch.trimOption, Catch.trimOption]
    refine .bind (fun body => some (Catch.mk (Binding.canonicalOption binding) body))
      (Stmt.honest_trimList body) fun body => ?_
    exact .pure (some (Catch.mk binding body))

end

theorem Stmt.canonicalList_append (first second : List Stmt) :
    Stmt.canonicalList (first ++ second) =
      Stmt.canonicalList first ++ Stmt.canonicalList second := by
  simp only [Stmt.canonicalList_eq_map, List.map_append]

/-- Reducing a body behind its directives is honest about what it changes. -/
theorem Stmt.honest_trimBody (body : List Stmt) :
    IsHonest Stmt.canonicalList (Stmt.canonicalList body) (Stmt.trimBody cx body)
      (Stmt.trimBody cx (Stmt.canonicalList body)) := by
  -- Equal bodies have as many directives at their front, so both are cut at the same place.
  have sameDirectives : Stmt.isDirective ∘ Stmt.canonical = Stmt.isDirective :=
    funext Stmt.isDirective_canonical
  have front : (Stmt.canonicalList body).takeWhile Stmt.isDirective =
      Stmt.canonicalList (body.takeWhile Stmt.isDirective) := by
    simp only [Stmt.canonicalList_eq_map, List.takeWhile_map, sameDirectives]
  have back : (Stmt.canonicalList body).dropWhile Stmt.isDirective =
      Stmt.canonicalList (body.dropWhile Stmt.isDirective) := by
    simp only [Stmt.canonicalList_eq_map, List.dropWhile_map, sameDirectives]
  have whole : Stmt.canonicalList body =
      Stmt.canonicalList (body.takeWhile Stmt.isDirective) ++
        Stmt.canonicalList (body.dropWhile Stmt.isDirective) := by
    rw [← Stmt.canonicalList_append, List.takeWhile_append_dropWhile]
  rw [Stmt.trimBody, Stmt.trimBody, front, back, whole]
  refine .bind (Stmt.canonicalList (body.takeWhile Stmt.isDirective) ++ ·)
    (Stmt.honest_trimList cx (body.dropWhile Stmt.isDirective)) fun kept => ?_
  rw [← Stmt.canonicalList_append]
  exact .pure (body.takeWhile Stmt.isDirective ++ kept)

/-- So is reducing the bodies inside the result, at each depth. -/
theorem honest_trimBodies (depth : Nat) (body : List Stmt) :
    IsHonest Stmt.canonicalList (Stmt.canonicalList body) (trimBodies cx depth body)
      (trimBodies cx depth (Stmt.canonicalList body)) := by
  -- A body inside is left to the same reduction one level down, which is what `ih` is about.
  induction depth generalizing body with
  | zero => exact .pure body
  | succ depth ih =>
    have walkHonest : Walk.IsHonest
        { Walk.idle with body := some fun inner => trimBodies cx depth inner } :=
      { body := fun rewrite found body => by cases found; exact ih body
        test := nofun
        leave := fun e => .pure e }
    exact .bind (fun body => body) (Stmt.honest_trimBody cx body) fun trimmed =>
      Stmt.honest_walkList walkHonest trimmed

/-- Equal programs are reduced to the same depth. -/
theorem honest_trimProgram (program : List Stmt) :
    IsHonest Stmt.canonicalList (Stmt.canonicalList program) (trimProgram cx program)
      (trimProgram cx (Stmt.canonicalList program)) := by
  rw [trimProgram, trimProgram, Stmt.length_visitsList_canonicalList]
  exact honest_trimBodies cx _ program

end

theorem honest_simplifyTest (e : Expr) :
    IsHonest Expr.canonical e.canonical (simplifyTest e) (simplifyTest e.canonical) := by
  rw [simplifyTest, simplifyTest, Expr.simplifyCondition_canonical]
  exact .compared (fun e => e) e.simplifyCondition e (fun e => e) fun _ => rfl

/-- Rewriting conditions is honest about what it changes, at each depth. -/
theorem honest_conditionWalk (depth : Nat) : (conditionWalk depth).IsHonest := by
  induction depth with
  | zero =>
    exact { body := nofun, test := nofun, leave := fun e => .pure e }
  | succ depth ih =>
    refine { body := nofun, test := fun rewrite found e => ?_, leave := fun e => .pure e }
    cases found
    exact .bind (fun e => e) (honest_simplifyTest e) fun simplified =>
      Expr.honest_walk ih simplified

theorem honest_simplifyConditions (program : List Stmt) :
    IsHonest Stmt.canonicalList (Stmt.canonicalList program) (simplifyConditions program)
      (simplifyConditions (Stmt.canonicalList program)) := by
  rw [simplifyConditions, simplifyConditions, Stmt.length_visitsList_canonicalList]
  exact Stmt.honest_walkList (honest_conditionWalk _) program

theorem honest_mangleStrict (looseAllowed : Bool) (loc : Loc) (op : Operator)
    (left right : Expr) :
    IsHonest Expr.canonical (.binary default op left.canonical right.canonical)
      (mangleStrict looseAllowed loc op left right)
      (mangleStrict looseAllowed default op left.canonical right.canonical) := by
  -- Both questions about the operands have the same answers for equal operands.
  rw [mangleStrict, mangleStrict, Expr.constantEq?_canonical, Expr.strictMayBeLoose_canonical]
  split
  · exact .rewritten (Expr.boolean loc _)
  · split
    · exact .rewritten (Expr.binary loc op.loosened left right)
    · exact .pure (Expr.binary loc op left right)

theorem honest_mangleNullish (loc : Loc) (left right : Expr) :
    IsHonest Expr.canonical (.binary default .nullishCoalescing left.canonical right.canonical)
      (mangleNullish loc left right)
      (mangleNullish default left.canonical right.canonical) := by
  rw [mangleNullish, mangleNullish, Expr.nullish?_canonical]
  split
  · exact .rewritten left
  · exact .rewritten right
  · exact .pure (Expr.binary loc .nullishCoalescing left right)

/-- Rewriting a single expression is honest about what it changes. -/
theorem honest_mangleExpr (looseAllowed : Bool) (e : Expr) :
    IsHonest Expr.canonical e.canonical (mangleExpr looseAllowed e)
      (mangleExpr looseAllowed e.canonical) := by
  cases e with
  | binary loc op left right =>
    rw [Expr.canonical, mangleExpr, mangleExpr]
    split
    · exact honest_mangleStrict looseAllowed loc op left right
    · split
      · rename_i isNullish
        obtain rfl : op = .nullishCoalescing := beq_iff_eq.mp isNullish
        exact honest_mangleNullish loc left right
      · exact .pure (Expr.binary loc op left right)
  | unary loc op value fromIdentifier =>
    rw [Expr.canonical, mangleExpr, mangleExpr, Expr.negate?_canonical]
    split
    · cases value.negate? with
      | some negated => exact .rewritten negated
      | none => exact .pure (Expr.unary loc op value fromIdentifier)
    · exact .pure (Expr.unary loc op value fromIdentifier)
  | _ => exact .pure _

theorem honest_mangleProgram (looseAllowed : Bool) (program : List Stmt) :
    IsHonest Stmt.canonicalList (Stmt.canonicalList program)
      (mangleProgram looseAllowed program)
      (mangleProgram looseAllowed (Stmt.canonicalList program)) := by
  have walkHonest : Walk.IsHonest { Walk.idle with leave := mangleExpr looseAllowed } :=
    { body := nofun, test := nofun, leave := honest_mangleExpr looseAllowed }
  exact Stmt.honest_walkList walkHonest program

/-- Going over a program once is honest about what it changes. -/
theorem honest_minifyOnce (options : MinifyOptions) (unbound : Ref → Bool)
    (program : List Stmt) :
    IsHonest Stmt.canonicalList (Stmt.canonicalList program) (minifyOnce options unbound program)
      (minifyOnce options unbound (Stmt.canonicalList program)) := by
  refine .bind (fun body => body) (honest_trimProgram _ program) fun trimmed => ?_
  refine .bind (fun body => body) (honest_simplifyConditions trimmed) fun simplified => ?_
  exact honest_mangleProgram options.mangleStrictEquality simplified

end EcmaPrune
