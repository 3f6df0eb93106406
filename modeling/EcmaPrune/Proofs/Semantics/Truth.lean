import EcmaPrune.Proofs.Semantics.EvalLaws

/-! The truth of expressions, read off one constructor at a time. -/

namespace EcmaPrune

variable {W : Type}

namespace Run

/-- Goes on with a second condition if the first one comes out as given, and stops otherwise. -/
def shortCircuit (goesOn : Bool) (first second : Run W Bool) : Run W Bool := do
  let holds ← first
  if holds = goesOn then second else pure holds

/-- The opposite of a condition. -/
def opposite (run : Run W Bool) : Run W Bool := not <$> run

@[simp] theorem opposite_pure (value : Bool) :
    (pure value : Run W Bool).opposite = pure !value := by
  simp [opposite]

@[simp] theorem opposite_opposite (run : Run W Bool) : run.opposite.opposite = run := by
  simp [opposite]

@[simp] theorem opposite_bind {α : Type} (first : Run W α) (next : α → Run W Bool) :
    (first >>= next).opposite = first >>= fun value => (next value).opposite := by
  simp [opposite]

/-- A condition that is negated decides the other way. -/
theorem bind_opposite {α : Type} (first : Run W Bool) (next : Bool → Run W α) :
    first.opposite >>= next = first >>= fun value => next !value := by
  simp [opposite]

/-- Short circuits nest to either side. -/
theorem shortCircuit_assoc (goesOn : Bool) (first second third : Run W Bool) :
    shortCircuit goesOn (shortCircuit goesOn first second) third =
      shortCircuit goesOn first (shortCircuit goesOn second third) := by
  simp only [shortCircuit, bind_assoc]
  congr
  funext holds
  -- A first condition that stops the inner circuit stops the outer one as well.
  by_cases same : holds = goesOn <;> simp [same]

/-- What runs before a short circuit runs before its first condition. -/
theorem shortCircuit_bind {α : Type} (goesOn : Bool) (before : Run W α)
    (first : α → Run W Bool) (second : Run W Bool) :
    shortCircuit goesOn (before >>= first) second =
      before >>= fun value => shortCircuit goesOn (first value) second := by
  simp [shortCircuit]

/-- A second condition that would only repeat the first one is not needed. -/
theorem shortCircuit_pure (goesOn : Bool) (first : Run W Bool) :
    shortCircuit goesOn first (pure goesOn) = first := by
  unfold shortCircuit
  -- Without the second condition the first one is followed by nothing.
  conv => rhs; rw [← bind_pure first]
  congr
  funext holds
  by_cases same : holds = goesOn <;> simp [same]

end Run

namespace Expr

variable (host : Host W) (loc : Loc)

/-- The truth of an expression comes with its effects. -/
@[simp] theorem ignored_truth (e : Expr) : (e.truth host).ignored = e.effects host := by
  simp [truth, effects]

/-- An expression with a fixed value has a fixed truth. -/
theorem truth_of_eval {e : Expr} {value : Value} (fixed : e.eval host = pure value) :
    e.truth host = pure value.toBoolean := by
  simp [truth, fixed]

/-- An object that a literal creates is true, and nobody sees it being created. -/
theorem truth_of_create {e : Expr} (creates : e.eval host = host.create loc) :
    e.truth host = pure true := by
  rw [truth, creates]
  rfl

@[simp] theorem truth_boolean (value : Bool) : (boolean loc value).truth host = pure value :=
  truth_of_eval host (eval_boolean host loc value)

@[simp] theorem truth_inlinedEnum (value : Expr) (comment : String) :
    (inlinedEnum loc value comment).truth host = value.truth host := by
  simp [truth]

@[simp] theorem truth_not (value : Expr) (fromIdentifier : Bool) :
    (unary loc .logicalNot value fromIdentifier).truth host = (value.truth host).opposite := by
  -- The value is turned into a boolean and that into its opposite.
  rw [truth, eval_unary host loc rfl]
  show Value.toBoolean <$> (value.eval host >>= fun v => pure (.boolean !v.toBoolean)) = _
  simp only [truth, Run.opposite, bind_pure_comp, Functor.map_map]
  rfl

@[simp] theorem truth_comma (left right : Expr) :
    (binary loc .comma left right).truth host =
      left.eval host >>= fun _ => right.truth host := by
  simp [truth]

/-- A logical operation goes on if the left side does not decide it. -/
theorem truth_logical {op : Operator} (isAndOr : op.isAndOr) (left right : Expr) :
    (binary loc op left right).truth host =
      Run.shortCircuit (op == .logicalAnd) (left.truth host) (right.truth host) := by
  -- The two operations differ in the truth with which they go on.
  obtain rfl | rfl : op = .logicalAnd ∨ op = .logicalOr := by
    simpa [Operator.isAndOr] using isAndOr
  all_goals
    simp only [truth, eval_and, eval_or, map_bind, Run.shortCircuit, bind_map_left]
    congr
    funext value
    cases held : value.toBoolean <;> simp [held]

@[simp] theorem truth_conditional (test yes no : Expr) :
    (conditional loc test yes no).truth host =
      test.truth host >>= fun holds => if holds then yes.truth host else no.truth host := by
  simp only [truth, eval_conditional, map_bind, bind_map_left]
  congr
  funext value
  split <;> rfl

end Expr

end EcmaPrune
