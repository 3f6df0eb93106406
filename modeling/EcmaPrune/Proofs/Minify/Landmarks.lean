import EcmaPrune.Proofs.Minify.PassMarks

/-! Minifying a program neither duplicates nor reorders nor invents what may have effects. -/

namespace EcmaPrune

/-- An expression that reads a name or a property, calls something or makes a function or class. -/
inductive Landmark where
  | identifier (ref : Ref)
  | importIdentifier (ref : Ref)
  | dot (name : String)
  | index
  | call
  | new
  | function
  | arrow
  | classExpr
deriving DecidableEq, Repr

/-- The landmark that an expression is. -/
def Expr.landmark? : Expr → Option Landmark
  | identifier _ ref _ _ => some (.identifier ref)
  | importIdentifier _ ref => some (.importIdentifier ref)
  | dot _ _ name _ _ => some (.dot name)
  | index .. => some .index
  | call .. => some .call
  | new .. => some .new
  | function .. => some .function
  | arrow .. => some .arrow
  | classExpr .. => some .classExpr
  | _ => none

/-- The landmarks of a program, in the order in which a walk enters them. -/
def landmarks (program : List Stmt) : List Landmark :=
  (Stmt.visitsList program).filterMap fun
    | .enter e => e.landmark?
    | _ => none

/-- The reading of marks that keeps landmarks. -/
def Mark.landmark? : Mark → Option Landmark
  | identifier ref => some (.identifier ref)
  | importIdentifier ref => some (.importIdentifier ref)
  | dot name _ => some (.dot name)
  | index _ => some .index
  | call _ => some .call
  | new => some .new
  | function => some .function
  | arrow => some .arrow
  | classExpr => some .classExpr
  | looseEquality | coalescing _ | other => none

theorem isReading_landmark? : IsReading Mark.landmark? where
  other := rfl
  coalescing := rfl

theorem forgetsLinks_landmark? : ForgetsLinks Mark.landmark? where
  dot _ _ _ := rfl
  index _ _ := rfl
  call _ _ := rfl

/-- Landmarks are read off marks. -/
theorem Expr.landmark?_mark (e : Expr) : e.mark.landmark? = e.landmark? := by
  cases e with
  | binary loc op left right => cases op <;> rfl
  | _ => rfl

theorem readings_landmark? (program : List Stmt) :
    readings Mark.landmark? (Stmt.visitsList program) = landmarks program := by
  refine congrArg (List.filterMap · _) (funext fun visit => ?_)
  cases visit with
  | enter e => exact e.landmark?_mark
  | _ => rfl

/--
The landmarks of a minified program are some of those of the program, in the same order.

So no expression that may have effects is duplicated, reordered or invented, whatever the target of
minification is and however often the program is gone over.
-/
theorem landmarks_minify (options : MinifyOptions) (unbound : Ref → Bool) (program : List Stmt) :
    (landmarks (minify options unbound program).1).Sublist (landmarks program) := by
  rw [← readings_landmark?, ← readings_landmark?]
  exact readings_minifyUpTo unbound isReading_landmark? (fun _ => forgetsLinks_landmark?)
    (fun _ => rfl) options.passes program

end EcmaPrune
