import EcmaPrune.Rewrite.Join

/-! Joining expressions by an operator strings the operands of its chain together, in order. -/

namespace EcmaPrune.Expr

/-- The operands of a chain of one operator, however it is nested; what is no chain is its own. -/
def leaves (op : Operator) : Expr → List Expr
  | binary loc op' left right =>
    if op' = op then left.leaves op ++ right.leaves op else [binary loc op' left right]
  | e => [e]

/-- Several expressions evaluated in turn, of which the last one gives the value. -/
def isSequence : Expr → Bool
  | binary _ .comma _ _ => true
  | _ => false

/-- An operation of the given operator. -/
def isOperation (op : Operator) : Expr → Bool
  | binary _ op' _ _ => op' = op
  | _ => false

/-- The operands in front of the last one of a sequence, each with the place of its comma. -/
def front : Expr → List (Loc × Expr)
  | binary loc .comma left right => (loc, left) :: right.front
  | _ => []

/-- The operand of a sequence that gives its value; what is no sequence is its own. -/
def lastOperand : Expr → Expr
  | binary _ .comma _ right => right.lastOperand
  | e => e

/-- The sequence of an expression behind others. -/
def behind (operands : List (Loc × Expr)) (e : Expr) : Expr :=
  operands.foldr (fun operand rest => binary operand.1 .comma operand.2 rest) e

/-- What holds of several expressions and passes to sequences holds of their sequence. -/
theorem forall_mem_sequence {holds : Expr → Prop}
    (closed : ∀ a b, holds a → holds b → holds (comma a b)) {rests : List (Option Expr)}
    (each : ∀ rest ∈ rests, ∀ e ∈ rest, holds e) : ∀ e ∈ sequence rests, holds e := by
  have present : ∀ e ∈ rests.reduceOption, holds e := by
    intro e member
    obtain ⟨rest, held, rfl⟩ := List.mem_filterMap.mp member
    exact each _ held e rfl
  intro e found
  unfold sequence at found
  split at found
  · cases found
  · rename_i first others split
    cases found
    rw [split] at present
    obtain ⟨here, later⟩ := List.forall_mem_cons.mp present
    -- The sequence is put together from the left.
    exact List.foldlRecOn others comma here fun a aHolds b member =>
      closed a b aHolds (later b member)

/-- What is no sequence is its own last operand. -/
theorem rewriteLast_eq (f : Expr → Expr) {e : Expr} (single : e.isSequence = false) :
    rewriteLast f e = f e := by
  fun_cases rewriteLast f e with
  | case1 loc left right => cases single
  | case2 e => rfl

theorem isSequence_lastOperand (e : Expr) : e.lastOperand.isSequence = false := by
  -- The operands are followed to the right until one is no sequence.
  fun_induction lastOperand e with
  | case1 loc left right ih => exact ih
  | case2 e single =>
    unfold isSequence
    split
    · exact absurd rfl (single _ _ _)
    · rfl

/-- Rewriting the last operand leaves the others in front of it. -/
theorem rewriteLast_eq_behind (f : Expr → Expr) (e : Expr) :
    rewriteLast f e = behind e.front (f e.lastOperand) := by
  -- The last operand is found by the recursion that rewrites it.
  fun_induction rewriteLast f e with
  | case1 loc left right ih => exact congrArg (binary loc .comma left) ih
  | case2 e single =>
    rw [front.eq_2 e single, lastOperand.eq_2 e single]
    rfl

/-- A sequence is its last operand behind the others. -/
theorem behind_front (e : Expr) : behind e.front e.lastOperand = e := by
  fun_induction front e with
  | case1 loc left right ih => exact congrArg (binary loc .comma left) ih
  | case2 e single =>
    rw [lastOperand.eq_2 e single]
    rfl

section

variable {combine : Loc → Operator → Expr → Expr → Expr} {op : Operator}

/-- A chain is strung together from its start and further operands, each operation combined. -/
def strung (combine : Loc → Operator → Expr → Expr → Expr) (op : Operator) (start : Expr)
    (operands : List Expr) : Expr :=
  operands.foldl (fun chain operand => combine chain.loc op chain operand) start

theorem strung_append (start : Expr) (first second : List Expr) :
    strung combine op start (first ++ second) =
      strung combine op (strung combine op start first) second :=
  List.foldl_append

/-- Combining operations that make no sequence string together no sequence. -/
theorem isSequence_strung
    (single : ∀ loc a b, a.isSequence = false → (combine loc op a b).isSequence = false)
    {start : Expr} (startSingle : start.isSequence = false) (operands : List Expr) :
    (strung combine op start operands).isSequence = false := by
  induction operands generalizing start with
  | nil => exact startSingle
  | cons operand rest ih => exact ih (single _ _ _ startSingle)

/-- Joining onto a chain strings the operands of the second chain onto it. -/
theorem joinOnto_eq_strung
    (single : ∀ loc a b, a.isSequence = false → (combine loc op a b).isSequence = false)
    (b : Expr) {chain : Expr} (chainSingle : chain.isSequence = false) :
    joinOnto combine op b chain = strung combine op chain (b.leaves op) := by
  fun_induction joinOnto combine op b chain with
  | case1 loc left right chain leftIh rightIh =>
    -- The chain is no sequence, so the operands on the left go to its end.
    have onLeft := (rewriteLast_eq (fun last => joinOnto combine op left last) chainSingle).trans
      (leftIh chain chainSingle)
    rw [rightIh (onLeft ▸ isSequence_strung single chainSingle _), onLeft, leaves, if_pos rfl,
      strung_append]
  | case2 loc op' left right chain different => rw [leaves, if_neg different]; rfl
  | case3 last chain plain =>
    have alone : last.leaves op = [last] := by
      cases last with
      | binary loc op' left right => exact absurd rfl (plain loc op' left right)
      | _ => rfl
    rw [alone]
    rfl

/-- Joining strings the operands of the second expression onto the last one of the first. -/
theorem joinBy_eq_behind
    (single : ∀ loc a b, a.isSequence = false → (combine loc op a b).isSequence = false)
    (a b : Expr) :
    joinBy combine op a b = behind a.front (strung combine op a.lastOperand (b.leaves op)) := by
  -- The last operand is no sequence, so nothing is kept out of the operations on it any more.
  rw [joinBy, rewriteLast_eq_behind, joinOnto_eq_strung single b (isSequence_lastOperand a)]

end

section

variable {op : Operator}

/-- What is no operation is its own only operand. -/
theorem leaves_of_not_isOperation {e : Expr} (leaf : e.isOperation op = false) :
    e.leaves op = [e] := by
  unfold isOperation at leaf
  unfold leaves
  split <;> simp_all

/-- Operands are found by going through operations as far as there are any. -/
theorem isOperation_of_mem_leaves {e leaf : Expr} (member : leaf ∈ e.leaves op) :
    leaf.isOperation op = false := by
  fun_induction leaves op e with
  | case1 loc left right leftIh rightIh =>
    exact (List.mem_append.mp member).elim leftIh rightIh
  | case2 loc op' left right different =>
    rw [List.mem_singleton.mp member]
    exact decide_eq_false different
  | case3 e plain =>
    rw [List.mem_singleton.mp member]
    unfold isOperation
    split
    · exact absurd rfl (plain _ _ _ _)
    · rfl

/-- What is strung onto a chain comes behind the operands of the chain. -/
theorem leaves_strung {operands : List Expr}
    (each : ∀ operand ∈ operands, operand.isOperation op = false) (start : Expr) :
    (strung binary op start operands).leaves op = start.leaves op ++ operands := by
  -- The chain grows by an operand at a time, so the induction is from any start.
  induction operands generalizing start with
  | nil => exact (List.append_nil _).symm
  | cons operand rest ih =>
    obtain ⟨here, later⟩ := List.forall_mem_cons.mp each
    have added : (binary start.loc op start operand).leaves op = start.leaves op ++ [operand] := by
      rw [leaves, if_pos rfl, leaves_of_not_isOperation here]
    change (strung binary op (binary start.loc op start operand) rest).leaves op = _
    rw [ih later, added, List.append_assoc, List.singleton_append]

/-- An operation other than a sequence is none. -/
theorem isSequence_binary (other : op ≠ .comma) (loc : Loc) (a b : Expr) :
    (binary loc op a b).isSequence = false := by
  cases op with
  | comma => exact absurd rfl other
  | _ => rfl

/--
Joining folds the operands of the second expression to the left onto the last operand of the first.

The operands are those that are no operations of the operator themselves, in their order. None of
them gets lost or doubled, as they are what the chain has behind the operands that it began with.
-/
theorem join_eq_behind (other : op ≠ .comma) (a b : Expr) :
    let chain :=
      (b.leaves op).foldl (fun chain leaf => binary chain.loc op chain leaf) a.lastOperand
    (behind a.front a.lastOperand = a ∧ a.lastOperand.isSequence = false) ∧
      (∀ leaf ∈ b.leaves op, leaf.isOperation op = false) ∧
      join op a b = behind a.front chain ∧
      chain.leaves op = a.lastOperand.leaves op ++ b.leaves op :=
  have single : ∀ loc a b, a.isSequence = false → (binary loc op a b).isSequence = false :=
    fun loc a b _ => isSequence_binary other loc a b
  have leaf : ∀ leaf ∈ b.leaves op, leaf.isOperation op = false :=
    fun _ member => isOperation_of_mem_leaves member
  ⟨⟨behind_front a, isSequence_lastOperand a⟩, leaf, joinBy_eq_behind single a b,
    leaves_strung leaf a.lastOperand⟩

/-- `x, y` and `z && (x && y)` are joined to `x, ((y && z) && x) && y`. -/
theorem join_eq_behind_comma :
    let name (n : UInt32) : Expr := identifier (.point n.toNat) ⟨n⟩ false false
    let and (a b : Expr) : Expr := binary a.loc .logicalAnd a b
    Operator.logicalAnd ≠ .comma ∧
      join .logicalAnd (comma (name 1) (name 2)) (and (name 3) (and (name 1) (name 2))) =
        comma (name 1) (and (and (and (name 2) (name 3)) (name 1)) (name 2)) :=
  ⟨by decide, (join_eq_behind (by decide) _ _).2.2.1⟩

end

end EcmaPrune.Expr
