import EcmaPrune.Proofs.Tree.Parts
import EcmaPrune.Rewrite.Discard

/-! What discarding an expression discards in its turn, and the induction along it. -/

namespace EcmaPrune.Expr

/-- The value of an arrow function with nothing but one, which stands for a call of it. -/
def calledValue? : Expr → Option Expr
  | arrow _ [] [.expr _ value _] _ _ => some value
  | arrow _ [] [.returnValue _ (some value)] _ _ => some value
  | _ => none

/-- What discarding an expression discards in its turn; a condition is rewritten before. -/
def discarded : Expr → List Expr
  | array _ items => items
  | object _ properties => properties.flatMap fun p => p.key :: p.value.toList
  | template _ none _ parts => parts.map TemplatePart.value
  | conditional _ test yes no => [test.simplifyCondition, yes, no]
  | unary _ _ value _ | inlinedEnum _ value _ => [value]
  | binary _ _ left right => [left, right, left.simplifyCondition]
  | call _ target args _ _ _ => target.calledValue?.toList ++ args
  | new _ _ args _ => args
  | _ => []

/--
All that discarding may do about a call that is not marked as pure.

The call stays, nothing is left of it, its arrow function makes way for the value in it, or an
asynchronous one returns the value.
-/
theorem discard_call_cases (cx : DiscardContext) (loc : Loc) (target : Expr) (args : List Expr)
    (link : ChainLink) (kind : CallKind) :
    (call loc target args link false kind).discard cx =
        some (call loc target args link false kind) ∨
      (call loc target args link false kind).discard cx = none ∨
      (∃ value ∈ target.calledValue?,
        (call loc target args link false kind).discard cx = value.discard cx) ∨
      ∃ arrowLoc stmtLoc value isGlue prefersExpr,
        target = arrow arrowLoc [] [.expr stmtLoc value isGlue] true prefersExpr ∧ args = [] ∧
          (call loc target args link false kind).discard cx =
            some (returnFromArrow loc arrowLoc stmtLoc value link kind) := by
  rw [discard.eq_def]
  dsimp only
  rw [if_neg (by simp)]
  split
  · split
    · exact .inr (.inl rfl)
    · exact .inl rfl
  · exact .inr (.inl rfl)
  · exact .inr (.inr (.inl ⟨_, rfl, rfl⟩))
  · exact .inr (.inr (.inr ⟨_, _, _, _, _, rfl, rfl, rfl⟩))
  · exact .inr (.inl rfl)
  · exact .inr (.inr (.inl ⟨_, rfl, rfl⟩))
  · exact .inl rfl

theorem nodeCount_lt_of_calledValue? {target value : Expr}
    (called : target.calledValue? = some value) : value.nodeCount < target.nodeCount := by
  unfold calledValue? at called
  split at called
  -- The arrow function counts as a node of its own around its value.
  · cases called
    simp
  · cases called
    simp
  · cases called

/-- What is discarded in turn is smaller. -/
theorem nodeCount_lt_of_mem_discarded {e part : Expr} (member : part ∈ e.discarded) :
    part.nodeCount < e.nodeCount := by
  cases e with
  | array loc items =>
    have : part.nodeCount ≤ nodeCountList items := nodeCount_le_of_mem member
    rw [nodeCount_array]
    omega
  | object loc properties =>
    obtain ⟨p, held, isPart⟩ := List.mem_flatMap.mp member
    rw [nodeCount_object]
    rcases List.mem_cons.mp isPart with rfl | isValue
    · have := Property.nodeCount_key_le_of_mem held
      omega
    · have := Property.nodeCount_value_le_of_mem held (Option.mem_toList.mp isValue)
      omega
  | template loc tag head parts =>
    cases tag with
    | some tag => cases member
    | none =>
      obtain ⟨part, held, rfl⟩ := List.mem_map.mp member
      have := TemplatePart.nodeCount_le_of_mem held
      rw [nodeCount_template_untagged]
      omega
  | conditional loc test yes no =>
    have noLarger := nodeCount_simplifyCondition test
    rw [nodeCount_conditional]
    simp only [discarded, List.mem_cons, List.not_mem_nil, or_false] at member
    rcases member with rfl | rfl | rfl <;> omega
  | unary loc op value fromIdentifier =>
    rw [List.mem_singleton.mp member, nodeCount_unary]
    omega
  | inlinedEnum loc value comment =>
    rw [List.mem_singleton.mp member, nodeCount_inlinedEnum]
    omega
  | binary loc op left right =>
    have noLarger := nodeCount_simplifyCondition left
    rw [nodeCount_binary]
    simp only [discarded, List.mem_cons, List.not_mem_nil, or_false] at member
    rcases member with rfl | rfl | rfl <;> omega
  | call loc target args link isPure kind =>
    rw [nodeCount_call]
    rcases List.mem_append.mp member with isValue | isArg
    · have := nodeCount_lt_of_calledValue? (Option.mem_toList.mp isValue)
      omega
    · have := nodeCount_le_of_mem isArg
      omega
  | new loc target args isPure =>
    have : part.nodeCount ≤ nodeCountList args := nodeCount_le_of_mem member
    rw [nodeCount_new]
    omega
  | _ => cases member

/-- What holds of an expression if it holds of all that is discarded in turn holds everywhere. -/
theorem induction_on_discarded {motive : Expr → Prop}
    (step : ∀ e, (∀ part ∈ e.discarded, motive part) → motive e) (e : Expr) : motive e :=
  step e fun part _ => induction_on_discarded step part
termination_by e.nodeCount
decreasing_by exact nodeCount_lt_of_mem_discarded ‹part ∈ e.discarded›

end EcmaPrune.Expr
