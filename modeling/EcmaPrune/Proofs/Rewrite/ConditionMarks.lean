import EcmaPrune.Proofs.Rewrite.ConditionRemovable
import EcmaPrune.Proofs.Tree.Marks

/-! Rewriting conditions and inserting optional chains make up no mark and move none. -/

namespace EcmaPrune

variable {α : Type}

/-- A reading of marks that leaves out whatever rewriting may make up. -/
structure IsReading (f : Mark → Option α) : Prop where
  other : f .other = none
  coalescing : f (.coalescing false) = none

/-- A reading that does not tell what part a link plays in an optional chain. -/
structure ForgetsLinks (f : Mark → Option α) : Prop where
  dot (name : String) (link link' : ChainLink) : f (.dot name link) = f (.dot name link')
  index (link link' : ChainLink) : f (.index link) = f (.index link')
  call (link link' : ChainLink) : f (.call link) = f (.call link')

namespace Expr

variable {f : Mark → Option α}

section

variable (reads : IsReading f)
include reads

/-- A connective adds nothing to what is read off its operands. -/
theorem marks_connective {op : Operator} (connective : op = .comma ∨ op.isAndOr) (loc : Loc)
    (left right : Expr) :
    (binary loc op left right).marks f = left.marks f ++ right.marks f := by
  have plain : (binary loc op left right).mark = .other := by
    rcases connective with rfl | isAndOr
    · rfl
    · cases op with
      | logicalAnd | logicalOr => rfl
      | _ => cases isAndOr
  rw [marks_binary, plain, reads.other]
  rfl

/-- Negating an expression keeps what is read off it, or puts a literal in its place. -/
theorem marks_negate? {e negated : Expr} (found : e.negate? = some negated) :
    (negated.marks f).Sublist (e.marks f) := by
  fun_induction negate? e generalizing negated with
  | case5 loc literal =>
    obtain ⟨zero, _, rfl⟩ := Option.map_eq_some_iff.mp found
    simp [reads.other]
  | case10 loc value comment ih => simpa [reads.other] using ih found
  | case11 => cases found; simp [reads.other]
  | case13 loc op left right other opposed =>
    cases found
    -- A loose comparison stays a loose one.
    have sameMark : (binary loc other left right).mark = (binary loc op left right).mark := by
      cases op <;> cases opposed <;> rfl
    simp only [marks_binary, sameMark, List.Sublist.refl]
  | case14 loc op left right plain isComma ih =>
    cases found
    obtain rfl : op = .comma := by simpa using isComma
    rw [marks_connective reads (.inl rfl), marks_connective reads (.inl rfl)]
    refine (List.Sublist.refl _).append ?_
    -- Only the last operand of a sequence is negated.
    cases inner : right.negate? with
    | none => simp [reads.other]
    | some shorter => exact ih inner
  | case12 | case15 | case16 => cases found
  | _ =>
    -- What is left are literals, whose negation is a literal.
    cases found
    simp [reads.other]

theorem marks_negateCondition (e : Expr) : (e.negateCondition.marks f).Sublist (e.marks f) := by
  unfold negateCondition
  split
  · simp [reads.other]
  · unfold negate
    cases found : e.negate? with
    | none => simp [reads.other]
    | some negated => exact marks_negate? reads found

theorem marks_logicalCondition {op : Operator} (isAndOr : op.isAndOr) (loc : Loc)
    (left right : Expr) :
    ((logicalCondition loc op left right).marks f).Sublist (left.marks f ++ right.marks f) := by
  rcases logicalCondition_cases loc op left right with ⟨dropped, _⟩ | kept
  · rw [dropped]
    exact List.sublist_append_left _ _
  · simp only [kept, marks_connective reads (.inr isAndOr), List.Sublist.refl]

/-- What is done to the end of a sequence adds behind what is read off the sequence. -/
theorem marks_rewriteLast {g : Expr → Expr} {added : List α}
    (atEnd : ∀ e, ((g e).marks f).Sublist (e.marks f ++ added)) (e : Expr) :
    ((rewriteLast g e).marks f).Sublist (e.marks f ++ added) := by
  fun_induction rewriteLast g e with
  | case1 loc left right ih =>
    rw [marks_connective reads (.inl rfl), marks_connective reads (.inl rfl), List.append_assoc]
    exact (List.Sublist.refl _).append ih
  | case2 e => exact atEnd e

section

variable {combine : Loc → Operator → Expr → Expr → Expr} {op : Operator}
  (combined : ∀ loc a b, ((combine loc op a b).marks f).Sublist (a.marks f ++ b.marks f))
include combined

theorem marks_joinOnto (b chain : Expr) :
    ((joinOnto combine op b chain).marks f).Sublist (chain.marks f ++ b.marks f) := by
  fun_induction joinOnto combine op b chain with
  | case1 loc left right chain leftIh rightIh =>
    have onLeft := marks_rewriteLast reads leftIh chain
    have inOrder : (chain.marks f ++ left.marks f ++ right.marks f).Sublist
        (chain.marks f ++ (binary loc op left right).marks f) := by
      rw [marks_binary, List.append_assoc]
      exact (List.Sublist.refl _).append (List.sublist_append_right _ _)
    exact rightIh.trans ((onLeft.append (List.Sublist.refl _)).trans inOrder)
  | case2 => exact combined _ _ _
  | case3 => exact combined _ _ _

theorem marks_joinBy (a b : Expr) :
    ((joinBy combine op a b).marks f).Sublist (a.marks f ++ b.marks f) :=
  marks_rewriteLast reads (marks_joinOnto reads combined b) a

end

/-- A choice keeps the order of its test and its branches, whichever way it is written. -/
theorem marks_chooseCondition (loc : Loc) (test yes no : Expr) :
    ((chooseCondition loc test yes no).marks f).Sublist
      (test.marks f ++ yes.marks f ++ no.marks f) := by
  have toYes := List.sublist_append_left (test.marks f ++ yes.marks f) (no.marks f)
  have toNo : (test.marks f ++ no.marks f).Sublist (test.marks f ++ yes.marks f ++ no.marks f) :=
    (List.sublist_append_left _ _).append (List.Sublist.refl _)
  have negated := marks_negateCondition reads test
  have joined : ∀ {op : Operator} (_ : op.isAndOr) (a b : Expr),
      ((joinBy logicalCondition op a b).marks f).Sublist (a.marks f ++ b.marks f) :=
    fun isAndOr => marks_joinBy reads (marks_logicalCondition reads isAndOr)
  unfold chooseCondition
  split
  · exact (joined rfl _ _).trans toNo
  · exact (joined rfl _ _).trans ((negated.append (List.Sublist.refl _)).trans toNo)
  · exact (joined rfl _ _).trans ((negated.append (List.Sublist.refl _)).trans toYes)
  · exact (joined rfl _ _).trans toYes
  · simp [reads.other]

/-- Rewriting a condition makes up no mark and moves none. -/
theorem marks_simplifyCondition (e : Expr) :
    (e.simplifyCondition.marks f).Sublist (e.marks f) := by
  fun_induction simplifyCondition e with
  | case1 loc value fromIdentifier ih =>
    refine ((marks_negateCondition reads _).trans ih).trans ?_
    simp [reads.other]
  | case3 loc op left right asks isInequality ih =>
    -- The zero that is compared with is dropped.
    refine ih.trans ?_
    rw [marks_binary]
    exact (List.sublist_append_left _ _).trans (List.sublist_append_right _ _)
  | case4 loc op left right asks isEquality ih =>
    refine ((marks_negateCondition reads _).trans ih).trans ?_
    rw [marks_binary]
    exact (List.sublist_append_left _ _).trans (List.sublist_append_right _ _)
  | case5 loc op left right asks isAndOr leftIh rightIh =>
    rw [marks_connective reads (.inr isAndOr)]
    exact (marks_logicalCondition reads isAndOr loc _ _).trans (leftIh.append rightIh)
  | case7 loc test yes no testIh yesIh noIh =>
    refine (marks_chooseCondition reads loc _ _ _).trans ?_
    rw [marks_conditional, reads.other]
    exact (testIh.append yesIh).append noIh
  | case2 | case6 | case8 => exact List.Sublist.refl _

end

/-- Making a chain optional changes no more than the parts that its links play. -/
theorem marks_insertChain? (forgets : ForgetsLinks f) {e guard chain : Expr}
    (found : e.insertChain? guard = some chain) : chain.marks f = e.marks f := by
  fun_induction insertChain? e guard generalizing chain with
  | case1 loc target name link isRemovable looksAlike =>
    cases found
    rw [marks_dot, marks_dot, forgets.dot name .start link]
  | case2 loc target name link isRemovable different ih =>
    obtain ⟨inner, foundInner, rfl⟩ := Option.map_eq_some_iff.mp found
    rw [marks_dot, marks_dot, forgets.dot name link.behindStart link, ih foundInner]
  | case3 loc target key link isRemovable looksAlike =>
    cases found
    rw [marks_index, marks_index, forgets.index .start link]
  | case4 loc target key link isRemovable different ih =>
    obtain ⟨inner, foundInner, rfl⟩ := Option.map_eq_some_iff.mp found
    rw [marks_index, marks_index, forgets.index link.behindStart link, ih foundInner]
  | case5 loc target args link isPure kind looksAlike =>
    cases found
    rw [marks_call, marks_call, forgets.call .start link]
  | case6 loc target args link isPure kind different ih =>
    obtain ⟨inner, foundInner, rfl⟩ := Option.map_eq_some_iff.mp found
    rw [marks_call, marks_call, forgets.call link.behindStart link, ih foundInner]
  | case7 => cases found

end Expr

end EcmaPrune
