import EcmaPrune.Minify.Walk
import EcmaPrune.Rewrite.Discard
import EcmaPrune.Tree.Same
import EcmaPrune.Tree.Visit

/-! Expression statements reduced to what must run, and removed if nothing must. -/

namespace EcmaPrune

/-- A statement that is only a string, which means something at the start of a body. -/
def Stmt.isDirective : Stmt → Bool
  | .expr _ (.string ..) _ => true
  | _ => false

/-- Whether nothing is left of an expression. -/
def Expr.isMissing : Expr → Bool
  | .missing _ => true
  | _ => false

/-- Reduces an expression statement, which vanishes if nothing has to run. -/
def trimExprStmt (cx : DiscardContext) (loc : Loc) (value : Expr) (isGlue : Bool) :
    Counted (Option Stmt) :=
  if value.isMissing then ⟨none, .oneRemoved⟩
  else match value.discard cx with
    | none => ⟨none, .oneRemoved⟩
    | some rest =>
      ⟨some (.expr loc rest isGlue), if rest.same value then .zero else .oneRewrite⟩

mutual

/-- Reduces the statements in a statement; functions in it are left for later. -/
def Stmt.trim (cx : DiscardContext) : Stmt → Counted (Option Stmt)
  | .expr loc value isGlue => trimExprStmt cx loc value isGlue
  | .block loc body => do return some (.block loc (← Stmt.trimList cx body))
  | .ifElse loc test yes no => do
    return some (.ifElse loc test ((← yes.trim cx).getD (.empty yes.loc))
      (← Stmt.trimOption cx no))
  | .whileLoop loc test body => do
    return some (.whileLoop loc test ((← body.trim cx).getD (.empty body.loc)))
  | .doWhile loc body test => do
    return some (.doWhile loc ((← body.trim cx).getD (.empty body.loc)) test)
  | .label loc name stmt => do
    return some (.label loc name ((← stmt.trim cx).getD (.empty stmt.loc)))
  | .withObject loc value body => do
    return some (.withObject loc value ((← body.trim cx).getD (.empty body.loc)))
  | .tryCatch loc body handler finalizer => do
    return some (.tryCatch loc (← Stmt.trimList cx body) (← Catch.trimOption cx handler)
      (← Stmt.trimListOption cx finalizer))
  | s => pure (some s)

/-- Reduces statements in turn and leaves out those that vanish. -/
def Stmt.trimList (cx : DiscardContext) : List Stmt → Counted (List Stmt)
  | [] => pure []
  | s :: rest => do
    let kept ← s.trim cx
    let others ← Stmt.trimList cx rest
    return kept.toList ++ others

/-- Reduces an `else` branch; one that vanishes is still there, but empty. -/
def Stmt.trimOption (cx : DiscardContext) : Option Stmt → Counted (Option Stmt)
  | none => pure none
  | some s => do return some ((← s.trim cx).getD (.empty s.loc))

/-- Reduces a statement list that may be absent. -/
def Stmt.trimListOption (cx : DiscardContext) :
    Option (List Stmt) → Counted (Option (List Stmt))
  | none => pure none
  | some body => do return some (← Stmt.trimList cx body)

/-- Reduces the body of a handler. -/
def Catch.trimOption (cx : DiscardContext) : Option Catch → Counted (Option Catch)
  | none => pure none
  | some ⟨binding, body⟩ => do return some ⟨binding, ← Stmt.trimList cx body⟩

end

/-- Reduces the statements of a body behind the directives it starts with. -/
def Stmt.trimBody (cx : DiscardContext) (body : List Stmt) : Counted (List Stmt) := do
  return body.takeWhile Stmt.isDirective ++
    (← Stmt.trimList cx (body.dropWhile Stmt.isDirective))

/-- Reduces a body and then the bodies inside the result, down to a given depth. -/
def trimBodies (cx : DiscardContext) : Nat → List Stmt → Counted (List Stmt)
  | 0, body => pure body
  | depth + 1, body => do
    let trimmed ← Stmt.trimBody cx body
    Stmt.walkList { Walk.idle with body := some (fun inner => trimBodies cx depth inner) } trimmed

/-- Reduces all bodies of a program, which are nested no deeper than its walk is long. -/
def trimProgram (cx : DiscardContext) (program : List Stmt) : Counted (List Stmt) :=
  trimBodies cx ((Stmt.visitsList program).length + 1) program

end EcmaPrune
