import EcmaPrune.Minify.Walk
import EcmaPrune.Rewrite.Condition
import EcmaPrune.Tree.Same
import EcmaPrune.Tree.Visit

/-! The conditions of a program, rewritten where only their truth is asked for. -/

namespace EcmaPrune

/-- Rewrites one condition; a change of positions alone does not count. -/
def simplifyTest (e : Expr) : Counted Expr :=
  ⟨e.simplifyCondition, if e.simplifyCondition.same e then .zero else .oneRewrite⟩

/-- Rewrites each condition and then those inside the result, down to a given depth. -/
def conditionWalk : Nat → Walk
  | 0 => .idle
  | depth + 1 =>
    { Walk.idle with
      test := some fun e => do
        let simplified ← simplifyTest e
        simplified.walk (conditionWalk depth) }

/-- Rewrites all conditions of a program, which are nested no deeper than its walk is long. -/
def simplifyConditions (program : List Stmt) : Counted (List Stmt) :=
  Stmt.walkList (conditionWalk ((Stmt.visitsList program).length + 1)) program

end EcmaPrune
