import EcmaPrune.Proofs.Rewrite.ConditionNormal
import EcmaPrune.Proofs.Rewrite.DiscardRemovable

/-! Of what is left of a discarded expression, all is left when it is discarded in its turn. -/

namespace EcmaPrune.Expr

/-- A call that is marked as pure, of which only the arguments have to run. -/
def isPureCall : Expr → Bool
  | call _ _ _ _ isPure _ => isPure
  | _ => false

/-- A function that is written out. -/
def isFunctionLiteral : Expr → Bool
  | function .. | arrow .. => true
  | _ => false

/-- An expression of which all is left when it is discarded. -/
structure IsResidue (cx : DiscardContext) (e : Expr) : Prop where
  stays : e.discard cx = some e
  /-- A chain that is inserted in a call leaves its mark, so there must be none. -/
  notPure : e.isPureCall = false

-- The equations of the recursion are worked out once, for all the proofs below.
attribute [local simp] discard

variable {cx : DiscardContext}

/-- What stays as it is leaves a residue. -/
theorem isResidue_of_stays {e : Expr} (stays : e.discard cx = some e)
    (notPure : e.isPureCall = false) : ∀ rest ∈ e.discard cx, rest.IsResidue cx := by
  intro rest found
  cases stays.symm.trans found
  exact ⟨stays, notPure⟩

/-! ### Sequences -/

theorem isResidue_comma {a b : Expr} (first : a.IsResidue cx) (second : b.IsResidue cx) :
    (comma a b).IsResidue cx where
  stays := by
    -- Discarding a sequence puts what is left of both operands in sequence.
    rw [comma, discard, first.stays, second.stays]
    rfl
  notPure := rfl

/-- A sequence of residues is one. -/
theorem isResidue_sequence {rests : List (Option Expr)}
    (each : ∀ rest ∈ rests, ∀ e ∈ rest, e.IsResidue cx) :
    ∀ e ∈ sequence rests, e.IsResidue cx :=
  forall_mem_sequence (fun _ _ => isResidue_comma) each

/-- A sequence of what is left of each item of a list is a residue. -/
theorem isResidue_sequence_map {α : Type} {items : List α} {rest : α → Option Expr}
    (each : ∀ item ∈ items, ∀ e ∈ rest item, e.IsResidue cx) :
    ∀ e ∈ sequence (items.map rest), e.IsResidue cx := by
  refine isResidue_sequence fun r member => ?_
  obtain ⟨item, held, rfl⟩ := List.mem_map.mp member
  exact each item held

/-! ### Array and object literals -/

theorem isResidue_spread (loc : Loc) (value : Expr) : (spread loc value).IsResidue cx where
  stays := by rw [discard]
  notPure := rfl

/-- An array literal that spreads stays if its items do. -/
theorem isResidue_array (loc : Loc) {items : List Expr} (spreads : items.any isSpread)
    (each : ∀ item ∈ items, item.IsResidue cx) : (array loc items).IsResidue cx where
  stays := by
    -- No item is lost and none changes, so neither does the list.
    have kept : items.filterMap (fun item => item.discard cx) = items := by
      rw [List.filterMap_congr fun item member => (each item member).stays, List.filterMap_some]
    rw [discard, if_pos spreads, kept]
  notPure := rfl

theorem isResidue_discard_array (loc : Loc) {items : List Expr}
    (each : ∀ item ∈ items, ∀ rest ∈ item.discard cx, rest.IsResidue cx) :
    ∀ rest ∈ (array loc items).discard cx, rest.IsResidue cx := by
  intro rest found
  rw [discard] at found
  split at found
  · rename_i spreads
    cases found
    refine isResidue_array loc ?_ fun rest member => ?_
    · -- A spread item is left as it is.
      obtain ⟨item, held, isSpread⟩ := List.any_eq_true.mp spreads
      cases item with
      | spread itemLoc value =>
        exact List.any_eq_true.mpr
          ⟨_, List.mem_filterMap.mpr ⟨_, held, (isResidue_spread itemLoc value).stays⟩, rfl⟩
      | _ => cases isSpread
    · obtain ⟨item, held, left⟩ := List.mem_filterMap.mp member
      exact each item held rest left
  -- Without one, the items are put in sequence.
  · exact isResidue_sequence_map each rest found

/-- Arguments leave an array that spreads or what is left of them. -/
theorem isResidue_discardArgs {args : List Expr}
    (each : ∀ arg ∈ args, ∀ rest ∈ arg.discard cx, rest.IsResidue cx) :
    ∀ rest ∈ sequence (args.map fun arg =>
      match arg.spreadArgument? with
      | some kept => some kept
      | none => arg.discard cx), rest.IsResidue cx := by
  refine isResidue_sequence_map fun arg member rest found => ?_
  cases arg with
  | spread loc value =>
    -- The array around it holds nothing but the spread argument.
    cases found
    exact isResidue_array loc rfl (List.forall_mem_singleton.mpr (isResidue_spread loc value))
  | _ => exact each _ member rest found

theorem trimProperty_spread {p : Property} (isSpread : p.kind == .spread) (rest : Option Expr) :
    trimProperty p rest = some p := by
  unfold trimProperty
  rw [if_pos isSpread]

/-- A member that is trimmed cannot be trimmed any more. -/
theorem trimProperty_trimmed {p q : Property}
    (value : ∀ rest ∈ p.value.bind (discard cx), rest.IsResidue cx)
    (trimmed : trimProperty p (p.value.bind (discard cx)) = some q) :
    trimProperty q (q.value.bind (discard cx)) = some q := by
  unfold trimProperty at trimmed
  split at trimmed
  · rename_i isSpread
    cases trimmed
    exact trimProperty_spread isSpread _
  · rename_i notSpread
    split at trimmed
    · -- The value is what is left of a value, so all of it is left again.
      rename_i rest left
      cases trimmed
      have stays := (value rest left).stays
      simp only [trimProperty, if_neg notSpread, Option.bind_some, stays]
    · split at trimmed
      · rename_i computed
        cases trimmed
        -- Nothing is left of the zero that was put in, so it is put in again.
        have gone : (number p.key.loc .zero).discard cx = none := by rw [discard]
        simp only [trimProperty, if_neg notSpread, Option.bind_some, gone, if_pos computed]
      · cases trimmed

/-- A key of a type that is not known is added to an empty literal, which then stays. -/
theorem isResidue_discardKey {key : Expr} {rest : Option Expr}
    (each : ∀ e ∈ rest, e.IsResidue cx) : ∀ e ∈ discardKey key rest, e.IsResidue cx := by
  intro e found
  unfold discardKey at found
  split at found
  · rename_i unknown
    cases found
    have unknown : key.primitiveType = .unknown := by simpa using unknown
    -- What concatenates strings would be known to be a string.
    have plain : key.blankStrings.2 = false := by
      refine Bool.eq_false_iff.mpr fun concatenates => ?_
      rw [(primitiveType_blankStrings concatenates).1] at unknown
      cases unknown
    refine ⟨?_, rfl⟩
    rw [discard, discardSum, emptyString, blankStrings_addition_string,
      blankStrings_eq_self plain, plain]
    rfl
  · exact each e found

theorem isResidue_discard_object (loc : Loc) {properties : List Property}
    (key : ∀ p ∈ properties, p.isComputed → ∀ rest ∈ p.key.discard cx, rest.IsResidue cx)
    (value : ∀ p ∈ properties, ∀ rest ∈ p.value.bind (discard cx), rest.IsResidue cx) :
    ∀ rest ∈ (object loc properties).discard cx, rest.IsResidue cx := by
  intro rest found
  rw [discard_object] at found
  split at found
  · rename_i spreads
    cases found
    refine ⟨?_, rfl⟩
    have again : ((properties.filterMap fun p => trimProperty p (p.value.bind (discard cx))).any
        fun p => p.kind == .spread) := by
      -- A spread member is left as it is.
      obtain ⟨p, held, isSpread⟩ := List.any_eq_true.mp spreads
      exact List.any_eq_true.mpr
        ⟨p, List.mem_filterMap.mpr ⟨p, held, trimProperty_spread isSpread _⟩, isSpread⟩
    rw [discard_object, if_pos again]
    -- The members that are there have been trimmed, and trimming them once more keeps each.
    refine congrArg (fun kept => some (object loc kept)) ?_
    rw [List.filterMap_congr (g := some), List.filterMap_some]
    intro q member
    obtain ⟨p, held, trimmed⟩ := List.mem_filterMap.mp member
    exact trimProperty_trimmed (value p held) trimmed
  · refine isResidue_sequence (fun r member => ?_) rest found
    -- What stands in the sequence comes from the key of one member or from its value.
    obtain ⟨p, held, isRest⟩ := List.mem_flatMap.mp member
    simp only [List.mem_cons, List.not_mem_nil, or_false] at isRest
    rcases isRest with rfl | rfl
    · split
      · exact isResidue_discardKey (key p held ‹_›)
      · simp
    · exact value p held

/-! ### Templates and sums -/

/-- Substitutions of unknown types stay together. -/
theorem discardParts_of_unknown {parts : List TemplatePart} (pending : List TemplatePart)
    {rest : Expr → Option Expr}
    (bare : ∀ part ∈ parts, part.value.primitiveType = .unknown ∧ part.tail = []) :
    discardParts pending (parts.map fun part => (part, rest part.value)) =
      [bareTemplate (pending ++ parts)] := by
  -- Each substitution joins the pending ones, so the induction is for any that are pending.
  induction parts generalizing pending with
  | nil => simp [discardParts]
  | cons part parts ih =>
    obtain ⟨⟨unknown, noText⟩, others⟩ := List.forall_mem_cons.mp bare
    rcases part with ⟨value, tail⟩
    cases noText
    rw [List.map_cons, discardParts, if_pos (by simpa using unknown), ih _ others,
      List.append_assoc, List.singleton_append]

theorem isResidue_bareTemplate {parts : List TemplatePart}
    (bare : ∀ part ∈ parts, part.value.primitiveType = .unknown ∧ part.tail = []) :
    ∀ e ∈ bareTemplate parts, e.IsResidue cx := by
  intro e found
  cases parts with
  | nil => cases found
  | cons first rest =>
    cases found
    refine ⟨?_, rfl⟩
    -- All substitutions end up in one template, which stands where the first of them does.
    rw [discard, discardParts_of_unknown [] bare]
    rfl

theorem isResidue_discardParts {parts : List (TemplatePart × Option Expr)}
    {pending : List TemplatePart}
    (bare : ∀ part ∈ pending, part.value.primitiveType = .unknown ∧ part.tail = [])
    (each : ∀ part ∈ parts, ∀ e ∈ part.2, e.IsResidue cx) :
    ∀ rest ∈ discardParts pending parts, ∀ e ∈ rest, e.IsResidue cx := by
  fun_induction discardParts pending parts with
  | case1 pending => exact List.forall_mem_singleton.mpr (isResidue_bareTemplate bare)
  | case2 pending part rest parts unknown ih =>
    -- The text behind the substitution is dropped as it becomes pending.
    refine ih (List.forall_mem_append.mpr ⟨bare, ?_⟩) (List.forall_mem_cons.mp each).2
    exact List.forall_mem_singleton.mpr ⟨by simpa using unknown, rfl⟩
  | case3 pending part rest parts known ih =>
    -- The pending ones make a template of their own, and none is pending any more.
    obtain ⟨now, later⟩ := List.forall_mem_cons.mp each
    exact List.forall_mem_cons.mpr ⟨isResidue_bareTemplate bare,
      List.forall_mem_cons.mpr ⟨now, ih (by simp) later⟩⟩

theorem isResidue_discardSum (loc : Loc) (left right : Expr) :
    ∀ rest ∈ discardSum (binary loc .addition left right), rest.IsResidue cx := by
  intro rest found
  obtain ⟨⟨_, _, _, rfl⟩, stays⟩ := discardSum_eq_some found
  exact ⟨by rw [discard, stays], rfl⟩

/-! ### Calls and chains -/

/-- A call of anything else than a function that is written out stays, if it is not pure. -/
theorem isResidue_call (loc : Loc) {target : Expr} (args : List Expr) (link : ChainLink)
    (kind : CallKind) (notLiteral : target.isFunctionLiteral = false) :
    (call loc target args link false kind).IsResidue cx where
  stays := by
    refine (discard.eq_def cx _).trans ?_
    dsimp only
    rw [if_neg (by simp)]
    -- Only functions that are written out are taken apart.
    cases target with
    | function | arrow => cases notLiteral
    | _ => rfl
  notPure := rfl

theorem isResidue_discard_call (loc : Loc) {target : Expr} {args : List Expr} (link : ChainLink)
    (isPure : Bool) (kind : CallKind)
    (each : ∀ arg ∈ args, ∀ rest ∈ arg.discard cx, rest.IsResidue cx)
    (called : ∀ value ∈ target.calledValue?, ∀ rest ∈ value.discard cx, rest.IsResidue cx) :
    ∀ rest ∈ (call loc target args link isPure kind).discard cx, rest.IsResidue cx := by
  intro rest found
  cases isPure with
  | true =>
    -- Of a pure call only the arguments are left, so what is left is no call.
    rw [discard_call_pure] at found
    exact isResidue_discardArgs each rest found
  | false =>
    rcases discard_call_cases cx loc target args link kind with
      stays | gone | ⟨value, isValue, same⟩ | ⟨_, _, _, _, _, _, _, returned⟩
    · exact isResidue_of_stays stays rfl rest found
    · cases gone.symm.trans found
    · exact called value isValue rest (same.symm.trans found)
    · -- An asynchronous function that returns its value is not taken apart.
      cases returned.symm.trans found
      exact ⟨discard.eq_def cx _, rfl⟩

theorem isResidue_dot {loc : Loc} {target : Expr} {name : String} {link : ChainLink}
    {isRemovable : Bool} :
    (dot loc target name link isRemovable).IsResidue cx ↔ isRemovable = false :=
  ⟨fun residue => by simpa using residue.stays, fun kept => ⟨by simp [kept], rfl⟩⟩

theorem isResidue_index {loc : Loc} {target key : Expr} {link : ChainLink} {isRemovable : Bool} :
    (index loc target key link isRemovable).IsResidue cx ↔
      (isRemovable && key.isRemovable cx.unbound) = false :=
  ⟨fun residue => by simpa using residue.stays, fun kept => ⟨by simpa using kept, rfl⟩⟩

/-- A chain that takes in a test stays if what it is inserted in does. -/
theorem isResidue_insertChain? {e guard chain : Expr} {ref : Ref}
    (named : guard.identifierRef? = some ref) (inserted : e.insertChain? guard = some chain)
    (residue : e.IsResidue cx) : chain.IsResidue cx := by
  cases e with
  | dot loc target name link isRemovable =>
    -- Whether an access is annotated does not depend on the part it plays in a chain.
    have kept := isResidue_dot.mp residue
    rw [insertChain?] at inserted
    split at inserted
    · cases inserted
      exact isResidue_dot.mpr kept
    · obtain ⟨inner, _, rfl⟩ := Option.map_eq_some_iff.mp inserted
      exact isResidue_dot.mpr kept
  | index loc target key link isRemovable =>
    have kept := isResidue_index.mp residue
    rw [insertChain?] at inserted
    split at inserted
    · cases inserted
      exact isResidue_index.mpr kept
    · obtain ⟨inner, _, rfl⟩ := Option.map_eq_some_iff.mp inserted
      exact isResidue_index.mpr kept
  | call loc target args link isPure kind =>
    obtain rfl : isPure = false := residue.notPure
    rw [insertChain?] at inserted
    split at inserted
    · -- The target is a name, perhaps as an inlined constant.
      rename_i alike
      cases inserted
      refine isResidue_call loc args .start kind ?_
      have isName := (unwrapped_of_looksLike named alike).1
      cases target with
      | function | arrow => cases isName
      | _ => rfl
    · -- The target is a link itself, with the test further inside.
      obtain ⟨inner, found, rfl⟩ := Option.map_eq_some_iff.mp inserted
      refine isResidue_call loc args _ kind ?_
      have isLink := (isLink_of_insertChain? found).2
      cases inner with
      | function | arrow => cases isLink
      | _ => rfl
  | _ => cases inserted

/-! ### Choices -/

section

variable {loc : Loc} {guard : Expr} (normal : guard.IsNormalCondition)
  (bound : ∀ part ∈ guard.parts, ∀ ref ∈ part.typeofRef?, cx.unbound ref = false)
include normal bound

/-- A logical operation behind a normal condition stays, or the chain does that it becomes. -/
theorem isResidue_logicalOrChain {op : Operator} (isAndOr : op.isAndOr) {right : Expr}
    (residue : right.IsResidue cx) : (logicalOrChain cx loc op guard right).IsResidue cx := by
  rcases logicalOrChain_cases cx loc op guard right with same | ⟨_, name, found, inserted⟩
  · rw [same]
    refine ⟨?_, rfl⟩
    -- The condition neither changes nor guards anything, so the operation is built once more.
    rw [discard_logical cx loc isAndOr, simplifyCondition_of_isNormalCondition normal,
      isGuardedBy_eq_false_of_bound bound, residue.stays, ← same]
    rfl
  · -- The condition is gone, as the chain has taken it in.
    obtain ⟨_, ref, _, rfl, _⟩ := eq_of_nullGuard? found
    exact isResidue_insertChain? rfl inserted residue

theorem isResidue_conditional {yes no : Expr} (yesResidue : yes.IsResidue cx)
    (noResidue : no.IsResidue cx) : (conditional loc guard yes no).IsResidue cx where
  stays := by
    -- The condition is normal and guards nothing, and all is left of both branches.
    simp only [discard, simplifyCondition_of_isNormalCondition normal,
      isGuardedBy_eq_false_of_bound bound, yesResidue.stays, noResidue.stays]
    rfl
  notPure := rfl

end

theorem isResidue_discard_logical (loc : Loc) {op : Operator} (isAndOr : op.isAndOr)
    {left right : Expr} (normal : left.simplifyCondition.IsNormalCondition)
    (bound : ∀ part ∈ left.simplifyCondition.parts, ∀ ref ∈ part.typeofRef?,
      cx.unbound ref = false)
    (leftRests : ∀ rest ∈ left.simplifyCondition.discard cx, rest.IsResidue cx)
    (rightRests : ∀ rest ∈ right.discard cx, rest.IsResidue cx) :
    ∀ rest ∈ (binary loc op left right).discard cx, rest.IsResidue cx := by
  intro rest found
  rw [discard_logical cx loc isAndOr, isGuardedBy_eq_false_of_bound bound,
    if_neg (by simp)] at found
  cases kept : right.discard cx with
  -- Nothing depends on the condition any more, so it is discarded like anything else.
  | none => exact leftRests rest (by simpa [kept] using found)
  | some right =>
    rw [kept] at found
    cases found
    exact isResidue_logicalOrChain normal bound isAndOr (rightRests right kept)

theorem isResidue_discard_conditional (loc : Loc) {test yes no : Expr}
    (normal : test.simplifyCondition.IsNormalCondition)
    (bound : ∀ part ∈ test.simplifyCondition.parts, ∀ ref ∈ part.typeofRef?,
      cx.unbound ref = false)
    (testRests : ∀ rest ∈ test.simplifyCondition.discard cx, rest.IsResidue cx)
    (yesRests : ∀ rest ∈ yes.discard cx, rest.IsResidue cx)
    (noRests : ∀ rest ∈ no.discard cx, rest.IsResidue cx) :
    ∀ rest ∈ (conditional loc test yes no).discard cx, rest.IsResidue cx := by
  intro rest found
  simp only [discard, isGuardedBy_eq_false_of_bound bound, Bool.false_eq_true, if_false] at found
  -- Which of the branches leave anything decides what becomes of the choice.
  cases yesKept : yes.discard cx with
  | none =>
    cases noKept : no.discard cx with
    | none => exact testRests rest (by simpa [yesKept, noKept] using found)
    | some no =>
      simp only [yesKept, noKept] at found
      cases found
      exact isResidue_logicalOrChain normal bound rfl (noRests no noKept)
  | some yes =>
    cases noKept : no.discard cx with
    | none =>
      simp only [yesKept, noKept] at found
      cases found
      exact isResidue_logicalOrChain normal bound rfl (yesRests yes yesKept)
    | some no =>
      simp only [yesKept, noKept] at found
      cases found
      exact isResidue_conditional normal bound (yesRests yes yesKept) (noRests no noKept)

theorem isResidue_discard_unary (loc : Loc) {op : Operator} {value : Expr} {fromIdentifier : Bool}
    (rests : ∀ rest ∈ value.discard cx, rest.IsResidue cx) :
    ∀ rest ∈ (unary loc op value fromIdentifier).discard cx, rest.IsResidue cx := by
  cases op with
  | void | logicalNot =>
    -- The operand runs all the same, and its value does not matter.
    rw [discard]
    exact rests
  | typeof =>
    rw [discard]
    split
    · simp
    · exact rests
  | _ => exact isResidue_of_stays (by simp) rfl

theorem isResidue_discard_binary (loc : Loc) {op : Operator} (other : op.isAndOr = false)
    {left right : Expr} (leftRests : ∀ rest ∈ left.discard cx, rest.IsResidue cx)
    (rightRests : ∀ rest ∈ right.discard cx, rest.IsResidue cx) :
    ∀ rest ∈ (binary loc op left right).discard cx, rest.IsResidue cx := by
  have inOrder : ∀ rest ∈ sequence [left.discard cx, right.discard cx], rest.IsResidue cx :=
    isResidue_sequence (List.forall_mem_cons.mpr
      ⟨leftRests, List.forall_mem_singleton.mpr rightRests⟩)
  cases op with
  | logicalAnd | logicalOr => cases other
  | comma | strictEquality | strictInequality =>
    rw [discard]
    exact inOrder
  | equality | inequality =>
    by_cases quiet : (left.producesPrimitive && right.producesPrimitive) ||
        left.strictMayBeLoose right
    · rw [discard, if_pos quiet]
      exact inOrder
    · exact isResidue_of_stays (by rw [discard, if_neg quiet]) rfl
  | nullishCoalescing =>
    intro rest found
    cases kept : right.discard cx with
    | none =>
      rw [discard, kept] at found
      exact leftRests rest found
    | some right =>
      -- The left side is kept with its value, so it is not discarded.
      rw [discard, kept] at found
      simp only [logicalOrChain_nullishCoalescing] at found
      cases found
      refine ⟨?_, rfl⟩
      rw [discard, (rightRests right kept).stays]
      simp only [logicalOrChain_nullishCoalescing]
  | addition =>
    rw [discard]
    exact isResidue_discardSum loc left right
  | _ => exact isResidue_of_stays (by simp) rfl

/-! ### All expressions -/

/-- Rewriting conditions asks for no types. -/
theorem conditionSafe_typesBound (unbound : Ref → Bool) :
    ConditionSafe fun e => ∀ ref ∈ e.typeofRef?, unbound ref = false := by
  constructor <;> intros <;> simp_all [typeofRef?]

theorem mem_visits_of_calledValue? {target value : Expr}
    (called : target.calledValue? = some value) {visit : Visit} (inside : visit ∈ value.visits) :
    visit ∈ target.visits := by
  unfold calledValue? at called
  split at called <;> cases called <;>
    simp [visits, visitsOption, Stmt.visitsList, Stmt.visits, inside]

/-- What rewriting conditions keeps holds of every node of what is discarded in turn. -/
theorem EveryNode.discarded {holds : Expr → Prop} (safe : ConditionSafe holds) {e part : Expr}
    (all : e.EveryNode holds) (member : part ∈ e.discarded) : part.EveryNode holds := by
  have rewritten : ∀ test ∈ e.parts, test.simplifyCondition.EveryNode holds :=
    fun test isPart => safe.everyNode.simplifyCondition (all.part isPart)
  cases e with
  | array | unary | inlinedEnum => exact all.part member
  | object loc properties =>
    obtain ⟨p, held, isPart⟩ := List.mem_flatMap.mp member
    exact all.inside (mem_visits_object held (by simpa using isPart))
  | template loc tag head parts =>
    cases tag with
    | none => exact all.part (List.mem_append_right _ member)
    | some tag => cases member
  | conditional loc test yes no =>
    simp only [Expr.discarded, List.mem_cons, List.not_mem_nil, or_false] at member
    rcases member with rfl | rfl | rfl
    · exact rewritten test (by simp [parts])
    · exact all.part (by simp [parts])
    · exact all.part (by simp [parts])
  | binary loc op left right =>
    simp only [Expr.discarded, List.mem_cons, List.not_mem_nil, or_false] at member
    rcases member with rfl | rfl | rfl
    · exact all.part (by simp [parts])
    · exact all.part (by simp [parts])
    · exact rewritten left (by simp [parts])
  | call loc target args link isPure kind =>
    rcases List.mem_append.mp member with isValue | isArg
    · exact (all.part List.mem_cons_self).inside
        (mem_visits_of_calledValue? (Option.mem_toList.mp isValue))
    · exact all.part (List.mem_cons_of_mem _ isArg)
  | new loc target args isPure => exact all.part (List.mem_cons_of_mem _ member)
  | _ => cases member

/-- What is left of a discarded expression is a residue. -/
theorem isResidue_discard {e : Expr}
    (all : e.EveryNode fun node => node.inlinesLiteral ∧
      ∀ ref ∈ node.typeofRef?, cx.unbound ref = false) :
    ∀ rest ∈ e.discard cx, rest.IsResidue cx := by
  have safe := conditionSafe_inlinesLiteral.and (conditionSafe_typesBound cx.unbound)
  induction e using induction_on_discarded with
  | step e ih =>
    have inside : ∀ part ∈ e.discarded, ∀ rest ∈ part.discard cx, rest.IsResidue cx :=
      fun part member => ih part member (all.discarded safe member)
    -- A part that is rewritten as a condition is normal then, and guards nothing.
    have normal : ∀ test ∈ e.parts, test.simplifyCondition.IsNormalCondition :=
      fun test isPart => isNormalCondition_simplifyCondition
        ((all.part isPart).throughout.imp fun _ => And.left)
    have bound : ∀ test ∈ e.parts, ∀ part ∈ test.simplifyCondition.parts,
        ∀ ref ∈ part.typeofRef?, cx.unbound ref = false := fun test isPart part member =>
      ((safe.everyNode.simplifyCondition (all.part isPart)).part member).here.2
    cases e with
    | null | undefined | missing | boolean | number | bigInt | string | this | regExp | function
    | arrow | importMeta | importIdentifier =>
      rw [discard]
      simp
    | inlinedEnum loc value comment =>
      rw [discard]
      exact inside value (by simp [Expr.discarded])
    | identifier | dot | index | classExpr =>
      -- What is annotated, bound or quiet is dropped, and anything else stays.
      intro rest found
      have stays := found
      rw [discard] at stays
      split at stays
      · cases stays
      · cases stays
        exact ⟨found, rfl⟩
    | spread loc value => exact isResidue_of_stays (isResidue_spread loc value).stays rfl
    | array loc items => exact isResidue_discard_array loc inside
    | object loc properties =>
      refine isResidue_discard_object loc (fun p held _ => inside p.key ?_)
        fun p held rest found => ?_
      · exact List.mem_flatMap.mpr ⟨p, held, List.mem_cons_self⟩
      · obtain ⟨value, isValue, left⟩ := Option.bind_eq_some_iff.mp found
        exact inside value (List.mem_flatMap.mpr
          ⟨p, held, List.mem_cons_of_mem _ (Option.mem_toList.mpr isValue)⟩) rest left
    | template loc tag head substitutions =>
      cases tag with
      | some tag => exact isResidue_of_stays (by rw [discard]) rfl
      | none =>
        rw [discard]
        refine isResidue_sequence (isResidue_discardParts (by simp) fun pair member => ?_)
        obtain ⟨part, held, rfl⟩ := List.mem_map.mp member
        exact inside part.value (List.mem_map_of_mem held)
    | call loc target args link isPure kind =>
      exact isResidue_discard_call loc link isPure kind
        (fun arg member => inside arg (List.mem_append_right _ member))
        fun value called => inside value (List.mem_append_left _ (Option.mem_toList.mpr called))
    | new loc target args isPure =>
      cases isPure with
      | true =>
        rw [discard, if_pos rfl]
        exact isResidue_discardArgs inside
      | false => exact isResidue_of_stays (by rw [discard, if_neg (by simp)]) rfl
    | conditional loc test yes no =>
      exact isResidue_discard_conditional loc (normal test (by simp [parts]))
        (bound test (by simp [parts])) (inside _ (by simp [Expr.discarded]))
        (inside yes (by simp [Expr.discarded])) (inside no (by simp [Expr.discarded]))
    | unary loc op value fromIdentifier =>
      exact isResidue_discard_unary loc (inside value (by simp [Expr.discarded]))
    | binary loc op left right =>
      have rightRests := inside right (by simp [Expr.discarded])
      cases connective : op.isAndOr with
      | true =>
        exact isResidue_discard_logical loc connective (normal left (by simp [parts]))
          (bound left (by simp [parts])) (inside _ (by simp [Expr.discarded])) rightRests
      | false =>
        exact isResidue_discard_binary loc connective (inside left (by simp [Expr.discarded]))
          rightRests

/--
Discarding what is left of a discarded expression leaves all of it.

Constants that are inlined must be literals, as for conditions. Types must be asked only of names
that something declares: what is left of a branch may be a name that the condition in front of it
shows to be there, although the branch as a whole was more than that.
-/
theorem discard_idempotent (cx : DiscardContext) {e : Expr}
    (literals : e.EveryNode fun node => node.inlinesLiteral)
    (typesBound : e.EveryNode fun node => ∀ ref ∈ node.typeofRef?, cx.unbound ref = false) :
    ∀ rest ∈ e.discard cx, rest.discard cx = some rest :=
  fun rest found => (isResidue_discard (literals.and typesBound) rest found).stays

/-- A test against null becomes part of a chain, and the chain stays. -/
theorem discard_idempotent_chain :
    let name := identifier default default false false
    let test := binary default .inequality name (null default)
    let e := conditional default test (dot default name "x" .plain false) (null default)
    let cx : DiscardContext := ⟨true, fun _ => false⟩
    let chain := dot default name "x" .start false
    e.EveryNode (fun node => node.inlinesLiteral) ∧
      e.EveryNode (fun node => ∀ ref ∈ node.typeofRef?, cx.unbound ref = false) ∧
      e.discard cx = some chain ∧ chain.discard cx = some chain := by
  intro name test e cx chain
  have literals : e.EveryNode fun node => node.inlinesLiteral := by
    simp [EveryNode, visits, inlinesLiteral, e, test, name]
  have typesBound : e.EveryNode fun node => ∀ ref ∈ node.typeofRef?, cx.unbound ref = false :=
    fun _ _ _ _ => rfl
  have left : e.discard cx = some chain := by
    simp only [e, discard]
    rfl
  exact ⟨literals, typesBound, left, discard_idempotent cx literals typesBound chain left⟩

end EcmaPrune.Expr
