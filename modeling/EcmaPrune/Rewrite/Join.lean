import EcmaPrune.Tree.NodeCount

/-! Joining expressions by an operator that nests to the left. -/

namespace EcmaPrune.Expr

/-- The sequence of two expressions, standing where the first one stands. -/
def comma (a b : Expr) : Expr := binary a.loc .comma a b

/-- The sequence of the expressions that are there, if any are. -/
def sequence (exprs : List (Option Expr)) : Option Expr :=
  match exprs.reduceOption with
  | [] => none
  | first :: rest => some (rest.foldl comma first)

/-- Rewrites the last operand of the sequences at the root, leaving the others in front of it. -/
def rewriteLast (f : Expr → Expr) : Expr → Expr
  | binary loc .comma left right => binary loc .comma left (rewriteLast f right)
  | e => f e

/--
Continues a chain of one operator with the operands of a second expression, in order.

Operands nested to the right are taken one by one, so that the chain nests to the left. Each
operation is built by `combine`, which may fold it.
-/
def joinOnto (combine : Loc → Operator → Expr → Expr → Expr) (op : Operator) :
    Expr → Expr → Expr
  | binary loc op' left right, chain =>
    if op' = op then
      joinOnto combine op right (rewriteLast (fun last => joinOnto combine op left last) chain)
    else combine chain.loc op chain (binary loc op' left right)
  | last, chain => combine chain.loc op chain last

/-- Joins two expressions, keeping a sequence at the front out of the operation. -/
def joinBy (combine : Loc → Operator → Expr → Expr → Expr) (op : Operator) (a b : Expr) : Expr :=
  rewriteLast (joinOnto combine op b) a

/-- Joins two expressions by an operation that is not folded. -/
def join (op : Operator) (a b : Expr) : Expr := joinBy binary op a b

/-- The assignment of a value to a target. -/
def assign (target value : Expr) : Expr := binary target.loc .assignment target value

/-- The statement of an assignment. -/
def assignStmt (target value : Expr) : Stmt :=
  .expr (assign target value).loc (assign target value) false

/-- Rewriting the last operand adds to a sequence at most what it adds to the operand. -/
theorem nodeCount_rewriteLast {f : Expr → Expr} {added : Nat}
    (bounded : ∀ e, (f e).nodeCount ≤ e.nodeCount + added) (a : Expr) :
    (rewriteLast f a).nodeCount ≤ a.nodeCount + added := by
  fun_induction rewriteLast f a with
  -- A sequence keeps its left side and its own node.
  | case1 loc left right ih => simp; omega
  | case2 e => exact bounded e

/-- Joining adds one node at most, if combining does. -/
theorem nodeCount_joinOnto {combine : Loc → Operator → Expr → Expr → Expr} {op : Operator}
    (bounded : ∀ loc a b, (combine loc op a b).nodeCount ≤ a.nodeCount + b.nodeCount + 1)
    (b chain : Expr) :
    (joinOnto combine op b chain).nodeCount ≤ chain.nodeCount + (b.nodeCount + 1) := by
  fun_induction joinOnto combine op b chain with
  | case1 loc left right chain leftBound rightBound =>
    -- The node that is taken apart makes room for the one that the left part adds.
    have inner : (rewriteLast (fun last => joinOnto combine op left last) chain).nodeCount ≤
        chain.nodeCount + (left.nodeCount + 1) := nodeCount_rewriteLast leftBound chain
    simp
    omega
  | case2 loc op' left right chain different =>
    have := bounded chain.loc chain (binary loc op' left right)
    omega
  | case3 last chain plain =>
    have := bounded chain.loc chain last
    omega

/-- Joining two expressions adds one node at most, if combining does. -/
theorem nodeCount_joinBy {combine : Loc → Operator → Expr → Expr → Expr} {op : Operator}
    (bounded : ∀ loc a b, (combine loc op a b).nodeCount ≤ a.nodeCount + b.nodeCount + 1)
    (a b : Expr) :
    (joinBy combine op a b).nodeCount ≤ a.nodeCount + (b.nodeCount + 1) :=
  nodeCount_rewriteLast (nodeCount_joinOnto bounded b) a

end EcmaPrune.Expr
