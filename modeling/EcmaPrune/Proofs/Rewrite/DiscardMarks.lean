import EcmaPrune.Proofs.Rewrite.ConditionMarks
import EcmaPrune.Proofs.Rewrite.Discarded

/-!
Discarding an expression makes up no mark and moves none.

What must still run of an expression is read off it as a part of what was read off the whole.
-/

namespace EcmaPrune

variable {α : Type}

/-- Lists of which each shrinks stay in order when they are strung together. -/
theorem sublist_flatMap {β : Type} {items : List β} {less more : β → List α}
    (each : ∀ item ∈ items, (less item).Sublist (more item)) :
    (items.flatMap less).Sublist (items.flatMap more) := by
  induction items with
  | nil => exact List.Sublist.refl _
  | cons item rest ih =>
    rw [List.flatMap_cons, List.flatMap_cons]
    exact (each item List.mem_cons_self).append
      (ih fun later member => each later (List.mem_cons_of_mem _ member))

/-- Lists that are partly left out stay in order when the others are strung together. -/
theorem sublist_flatMap_filterMap {β γ : Type} {items : List β} {kept : β → Option γ}
    {less : γ → List α} {more : β → List α}
    (each : ∀ item ∈ items, ((kept item).elim [] less).Sublist (more item)) :
    ((items.filterMap kept).flatMap less).Sublist (items.flatMap more) := by
  induction items with
  | nil => exact List.Sublist.refl _
  | cons item rest ih =>
    have now := each item List.mem_cons_self
    have later := ih fun item member => each item (List.mem_cons_of_mem _ member)
    rw [List.flatMap_cons]
    cases found : kept item with
    | none =>
      rw [List.filterMap_cons_none found]
      exact later.trans (List.sublist_append_right _ _)
    | some left =>
      rw [List.filterMap_cons_some found, List.flatMap_cons]
      rw [found] at now
      exact now.append later

namespace Expr

variable {f : Mark → Option α}

/-- A choice that becomes an optional chain leaves out its test, which looks like the target. -/
theorem marks_logicalOrChain {cx : DiscardContext} (forgets : cx.chainsSupported → ForgetsLinks f)
    (loc : Loc) (op : Operator) (left right : Expr) :
    ((logicalOrChain cx loc op left right).marks f).Sublist
      ((binary loc op left right).marks f) := by
  rcases logicalOrChain_cases cx loc op left right with same | ⟨supported, guard, _, inserted⟩
  · rw [same]
  · rw [marks_insertChain? (forgets supported) inserted, marks_binary]
    exact (List.sublist_append_right _ _).trans (List.sublist_append_right _ _)

section Steps

variable (reads : IsReading f)
include reads

/-- A sequence has the marks of what is there of its operands. -/
theorem optionMarks_sequence (rests : List (Option Expr)) :
    optionMarks f (sequence rests) = rests.flatMap (optionMarks f) := by
  have joined : ∀ (first : Expr) (others : List Expr),
      (others.foldl comma first).marks f = first.marks f ++ others.flatMap (marks f) := by
    intro first others
    induction others generalizing first with
    | nil => simp
    | cons next others ih =>
      rw [List.foldl_cons, ih, comma, marks_connective reads (.inl rfl)]
      simp
  have present : rests.reduceOption.flatMap (marks f) = rests.flatMap (optionMarks f) := by
    induction rests with
    | nil => rfl
    | cons rest others ih =>
      cases rest with
      | none => exact ih
      | some e => exact congrArg (e.marks f ++ ·) ih
  rw [← present, sequence]
  cases rests.reduceOption with
  | nil => rfl
  | cons first others => simp [joined]

theorem optionMarks_sequence_map {β : Type} {items : List β} {rest : β → Option Expr}
    {whole : β → List α}
    (each : ∀ item ∈ items, (optionMarks f (rest item)).Sublist (whole item)) :
    (optionMarks f (sequence (items.map rest))).Sublist (items.flatMap whole) := by
  rw [optionMarks_sequence reads, List.flatMap_map]
  exact sublist_flatMap each

/-- Blanking a literal changes no mark, and leaving it out leaves out none. -/
theorem marks_blankStrings (e : Expr) : (e.blankStrings.1.marks f).Sublist (e.marks f) := by
  have sum : ∀ loc left right, (binary loc .addition left right).marks f =
      left.marks f ++ right.marks f := by
    intro loc left right
    rw [marks_binary, show (binary loc .addition left right).mark = .other from rfl, reads.other]
    rfl
  induction e using induction_on_sum with
  | literal loc units => simp [blankStrings, emptyString]
  | addLiteral loc left rightLoc units ih =>
    rw [blankStrings_addition_string]
    split
    · exact ih.trans (sum _ _ _ ▸ List.sublist_append_left _ _)
    · rw [sum, sum]
      exact ih.append (by simp [emptyString])
  | add loc left right other ih =>
    rw [blankStrings_addition loc left other, sum, sum]
    exact ih.append (List.Sublist.refl _)
  | other e notString notSum =>
    simp only [blankStrings_other notString notSum, List.Sublist.refl]

theorem optionMarks_discardSum (e : Expr) :
    (optionMarks f (discardSum e)).Sublist (e.marks f) := by
  have blanked := marks_blankStrings reads e
  unfold discardSum
  split
  · exact List.nil_sublist _
  · rename_i found
    rwa [found] at blanked

/-- What is left of substitutions stays in their order, also where templates take some in. -/
theorem marks_discardParts (pending : List TemplatePart)
    {parts : List (TemplatePart × Option Expr)}
    (each : ∀ part ∈ parts, (optionMarks f part.2).Sublist (part.1.value.marks f)) :
    ((discardParts pending parts).flatMap (optionMarks f)).Sublist
      ((pending.flatMap fun part => part.value.marks f) ++
        parts.flatMap fun part => part.1.value.marks f) := by
  have bare : ∀ pending : List TemplatePart, optionMarks f (bareTemplate pending) =
      pending.flatMap fun part => part.value.marks f := by
    intro pending
    cases pending with
    | nil => rfl
    | cons first rest => simp [bareTemplate, reads.other]
  fun_induction discardParts pending parts with
  | case1 pending => simp [bare]
  | case2 pending part rest parts unknown ih =>
    -- The substitution joins the pending ones.
    simpa using ih fun part member => each part (List.mem_cons_of_mem _ member)
  | case3 pending part rest parts known ih =>
    have now := each (part, rest) List.mem_cons_self
    have later := ih fun part member => each part (List.mem_cons_of_mem _ member)
    rw [List.flatMap_cons, List.flatMap_cons, List.flatMap_cons, bare]
    exact (List.Sublist.refl _).append (now.append (by simpa using later))

theorem marks_trimProperty {p kept : Property} {rest : Option Expr}
    (value : (optionMarks f rest).Sublist (optionMarks f p.value))
    (trimmed : trimProperty p rest = some kept) : (kept.marks f).Sublist (p.marks f) := by
  unfold trimProperty at trimmed
  split at trimmed
  · cases trimmed
    exact List.Sublist.refl _
  · split at trimmed
    · cases trimmed
      exact ((List.Sublist.refl _).append value).append (List.Sublist.refl _)
    · split at trimmed
      · -- The value that a computed key is left with has no mark.
        cases trimmed
        refine ((List.Sublist.refl _).append ?_).append (List.Sublist.refl _)
        simp [reads.other]
      · cases trimmed

theorem optionMarks_discardKey {key : Expr} {rest : Option Expr}
    (kept : (optionMarks f rest).Sublist (key.marks f)) :
    (optionMarks f (discardKey key rest)).Sublist (key.marks f) := by
  unfold discardKey
  split
  · simp [emptyString, mark, reads.other]
  · exact kept

end Steps

-- The equations of the recursion are worked out once, for all the proofs below.
attribute [local simp] discard

section

variable {cx : DiscardContext} (loc : Loc)

/-- What is read off an arrow function with one statement is read off the value of that. -/
theorem marks_arrow_single (stmtLoc : Loc) (value : Expr) (isGlue isAsync prefersExpr : Bool) :
    (arrow loc [] [.expr stmtLoc value isGlue] isAsync prefersExpr).marks f =
        (f .arrow).toList ++ value.marks f ∧
      (arrow loc [] [.returnValue stmtLoc (some value)] isAsync prefersExpr).marks f =
        (f .arrow).toList ++ value.marks f := by
  simp [BindingElement.visitsList, Stmt.visitsList, Stmt.visits]

/-- What is read off the value of an arrow function is read off the function. -/
theorem marks_calledValue? {target value : Expr} (called : target.calledValue? = some value) :
    (value.marks f).Sublist (target.marks f) := by
  unfold calledValue? at called
  split at called
  · cases called
    rw [(marks_arrow_single _ _ _ _ _ _).1]
    exact List.sublist_append_right _ _
  · cases called
    rw [(marks_arrow_single _ _ _ false _ _).2]
    exact List.sublist_append_right _ _
  · cases called

variable (reads : IsReading f)
include reads

theorem optionMarks_discard_array {items : List Expr}
    (inside : ∀ item ∈ items, (optionMarks f (item.discard cx)).Sublist (item.marks f)) :
    (optionMarks f ((array loc items).discard cx)).Sublist ((array loc items).marks f) := by
  rw [discard, marks_array, reads.other]
  split
  · -- The literal stays with what is left of its items.
    rw [optionMarks_some, marks_array, reads.other]
    refine sublist_flatMap_filterMap fun item member => ?_
    have kept := inside item member
    cases left : item.discard cx with
    | none => exact List.nil_sublist _
    | some rest => rwa [left] at kept
  · exact optionMarks_sequence_map reads inside

theorem optionMarks_discard_object {properties : List Property}
    (key : ∀ p ∈ properties, (optionMarks f (p.key.discard cx)).Sublist (p.key.marks f))
    (value : ∀ p ∈ properties,
      (optionMarks f (p.value.bind (discard cx))).Sublist (optionMarks f p.value)) :
    (optionMarks f ((object loc properties).discard cx)).Sublist
      ((object loc properties).marks f) := by
  rw [discard_object, marks_object, reads.other]
  split
  · -- The literal stays with its members trimmed.
    rw [optionMarks_some, marks_object, reads.other]
    refine sublist_flatMap_filterMap fun p member => ?_
    cases trimmed : trimProperty p (p.value.bind (discard cx)) with
    | none => exact List.nil_sublist _
    | some q => exact marks_trimProperty reads (value p member) trimmed
  · -- Each member leaves what is left of its key and then what is left of its value.
    rw [optionMarks_sequence reads, List.flatMap_assoc]
    refine sublist_flatMap fun p member => ?_
    have keyKept : (optionMarks f (if p.isComputed then discardKey p.key (p.key.discard cx)
        else none)).Sublist (p.key.marks f) := by
      split
      · exact optionMarks_discardKey reads (key p member)
      · exact List.nil_sublist _
    rw [List.flatMap_cons, List.flatMap_cons, List.flatMap_nil, List.append_nil]
    exact (keyKept.append (value p member)).trans (List.sublist_append_left _ _)

theorem optionMarks_discard_template {head : List UInt16} {parts : List TemplatePart}
    (inside : ∀ part ∈ parts,
      (optionMarks f (part.value.discard cx)).Sublist (part.value.marks f)) :
    (optionMarks f ((template loc none head parts).discard cx)).Sublist
      ((template loc none head parts).marks f) := by
  rw [discard, optionMarks_sequence reads, marks_template, reads.other, optionMarks_none]
  have inOrder := @marks_discardParts _ _ reads []
    (parts.map fun part => (part, part.value.discard cx)) (by simpa using inside)
  simpa [List.flatMap_map] using inOrder

theorem optionMarks_discard_unary {op : Operator} {value : Expr} {fromIdentifier : Bool}
    (inside : (optionMarks f (value.discard cx)).Sublist (value.marks f)) :
    (optionMarks f ((unary loc op value fromIdentifier).discard cx)).Sublist
      ((unary loc op value fromIdentifier).marks f) := by
  rw [marks_unary, reads.other]
  cases op with
  | void | logicalNot =>
    rw [discard]
    exact inside
  | typeof =>
    rw [discard]
    split
    · exact List.nil_sublist _
    · exact inside
  | _ => simp [reads.other]

theorem optionMarks_discardArgs {args : List Expr}
    (inside : ∀ arg ∈ args, (optionMarks f (arg.discard cx)).Sublist (arg.marks f)) :
    (optionMarks f (sequence (args.map fun arg =>
      match arg.spreadArgument? with
      | some kept => some kept
      | none => arg.discard cx))).Sublist (args.flatMap (marks f)) := by
  refine optionMarks_sequence_map reads fun arg member => ?_
  split
  · rename_i kept spreads
    -- A spread argument is put into an array.
    cases arg with
    | spread loc value =>
      cases spreads
      simp [reads.other]
    | _ => cases spreads
  · exact inside arg member

theorem optionMarks_discard_call {target : Expr} {args : List Expr} {link : ChainLink}
    {isPure : Bool} {kind : CallKind}
    (inside : ∀ arg ∈ args, (optionMarks f (arg.discard cx)).Sublist (arg.marks f))
    (body : ∀ value ∈ target.calledValue?,
      (optionMarks f (value.discard cx)).Sublist (value.marks f)) :
    (optionMarks f ((call loc target args link isPure kind).discard cx)).Sublist
      ((call loc target args link isPure kind).marks f) := by
  cases isPure with
  | true =>
    rw [discard_call_pure, marks_call]
    exact ((optionMarks_discardArgs reads inside).trans (List.sublist_append_right _ _)).trans
      (List.sublist_append_right _ _)
  | false =>
    rcases discard_call_cases cx loc target args link kind with
      stays | gone | ⟨value, called, same⟩ |
        ⟨arrowLoc, stmtLoc, value, isGlue, prefersExpr, rfl, rfl, returned⟩
    · rw [stays]
      exact List.Sublist.refl _
    · rw [gone]
      exact List.nil_sublist _
    · rw [same, marks_call]
      have part := (body value called).trans (marks_calledValue? called)
      exact (part.trans (List.sublist_append_left _ _)).trans (List.sublist_append_right _ _)
    · -- The value of an asynchronous function is still awaited.
      rw [returned]
      simp only [optionMarks_some, returnFromArrow, marks_call, List.Sublist.refl,
        (marks_arrow_single _ _ _ false _ _).2, (marks_arrow_single _ _ _ _ _ _).1]

variable (forgets : cx.chainsSupported → ForgetsLinks f)
include forgets

theorem optionMarks_discard_binary {op : Operator} {left right : Expr}
    (onLeft : (optionMarks f (left.discard cx)).Sublist (left.marks f))
    (onRight : (optionMarks f (right.discard cx)).Sublist (right.marks f))
    (onGuard : (optionMarks f (left.simplifyCondition.discard cx)).Sublist (left.marks f)) :
    (optionMarks f ((binary loc op left right).discard cx)).Sublist
      ((binary loc op left right).marks f) := by
  have operands : (left.marks f ++ right.marks f).Sublist ((binary loc op left right).marks f) := by
    rw [marks_binary]
    exact List.sublist_append_right _ _
  have toLeft := (List.sublist_append_left (left.marks f) (right.marks f)).trans operands
  have pair : (optionMarks f (sequence [left.discard cx, right.discard cx])).Sublist
      ((binary loc op left right).marks f) := by
    rw [optionMarks_sequence reads]
    simpa using (onLeft.append onRight).trans operands
  cases op with
  | comma | strictEquality | strictInequality =>
    rw [discard]
    exact pair
  | equality | inequality =>
    rw [discard]
    split
    · exact pair
    · exact List.Sublist.refl _
  | logicalAnd | logicalOr =>
    rw [discard_logical cx loc rfl]
    split
    · rename_i rest found
      have restMarks : (rest.marks f).Sublist (right.marks f) := by
        split at found
        · cases found
        · rwa [found] at onRight
      refine (marks_logicalOrChain forgets loc _ _ _).trans ?_
      rw [marks_connective reads (.inr rfl), marks_connective reads (.inr rfl)]
      exact (marks_simplifyCondition reads left).append restMarks
    · exact onGuard.trans toLeft
  | nullishCoalescing =>
    rw [discard]
    split
    · rename_i rest found
      rw [found] at onRight
      refine (marks_logicalOrChain forgets loc _ _ _).trans ?_
      -- The left side, by which the operation is marked, stays as it is.
      rw [marks_binary, marks_binary]
      exact (List.Sublist.refl _).append ((List.Sublist.refl _).append onRight)
    · exact onLeft.trans toLeft
  | addition =>
    rw [discard]
    exact optionMarks_discardSum reads _
  | _ =>
    rw [discard]
    exact List.Sublist.refl _
    all_goals
      intro same
      cases same

theorem optionMarks_discard_conditional {test yes no : Expr}
    (onGuard : (optionMarks f (test.simplifyCondition.discard cx)).Sublist (test.marks f))
    (onYes : (optionMarks f (yes.discard cx)).Sublist (yes.marks f))
    (onNo : (optionMarks f (no.discard cx)).Sublist (no.marks f)) :
    (optionMarks f ((conditional loc test yes no).discard cx)).Sublist
      ((conditional loc test yes no).marks f) := by
  have guard := marks_simplifyCondition reads test
  have rest : ∀ {branch e : Expr} {spared : Bool},
      (optionMarks f (branch.discard cx)).Sublist (branch.marks f) →
      (if spared then none else branch.discard cx) = some e →
      (e.marks f).Sublist (branch.marks f) := by
    intro branch e spared kept found
    split at found
    · cases found
    · rwa [found] at kept
  have toYes := List.sublist_append_left (test.marks f ++ yes.marks f) (no.marks f)
  have toNo : (test.marks f ++ no.marks f).Sublist (test.marks f ++ yes.marks f ++ no.marks f) :=
    (List.sublist_append_left _ _).append (List.Sublist.refl _)
  rw [discard, marks_conditional, reads.other]
  split
  · exact (onGuard.trans (List.sublist_append_left _ _)).trans toYes
  · rename_i noFound
    refine (marks_logicalOrChain forgets loc _ _ _).trans ?_
    rw [marks_connective reads (.inr rfl)]
    exact (guard.append (rest onNo noFound)).trans toNo
  · rename_i yesFound noFound
    refine (marks_logicalOrChain forgets loc _ _ _).trans ?_
    rw [marks_connective reads (.inr rfl)]
    exact (guard.append (rest onYes yesFound)).trans toYes
  · rename_i yesFound noFound
    rw [optionMarks_some, marks_conditional, reads.other]
    exact (guard.append (rest onYes yesFound)).append (rest onNo noFound)

end

/--
Discarding makes up no mark and moves none.

Only where engines know optional chains may the parts that links play in them change.
-/
theorem optionMarks_discard (reads : IsReading f) {cx : DiscardContext}
    (forgets : cx.chainsSupported → ForgetsLinks f) (e : Expr) :
    (optionMarks f (e.discard cx)).Sublist (e.marks f) := by
  induction e using induction_on_discarded with
  | step e ih =>
    cases e with
    | null | undefined | missing | boolean | number | bigInt | string | this | regExp | function
    | arrow | importMeta | importIdentifier =>
      rw [discard]
      exact List.nil_sublist _
    | identifier | dot | index | classExpr =>
      rw [discard]
      split
      · exact List.nil_sublist _
      · exact List.Sublist.refl _
    | spread =>
      rw [discard]
      exact List.Sublist.refl _
    | inlinedEnum loc value comment =>
      rw [discard, marks_inlinedEnum, reads.other]
      exact ih value (by simp [discarded])
    | array loc items => exact optionMarks_discard_array loc reads ih
    | object loc properties =>
      refine optionMarks_discard_object loc reads (fun p held => ih p.key ?_) fun p held => ?_
      · exact List.mem_flatMap.mpr ⟨p, held, List.mem_cons_self⟩
      · cases there : p.value with
        | none => exact List.nil_sublist _
        | some value => exact ih value (List.mem_flatMap.mpr ⟨p, held, by simp [there]⟩)
    | template loc tag head parts =>
      cases tag with
      | some tag =>
        rw [discard]
        exact List.Sublist.refl _
      | none =>
        exact optionMarks_discard_template loc reads fun part held =>
          ih part.value (List.mem_map_of_mem held)
    | conditional loc test yes no =>
      -- A condition is rewritten before it is discarded, and has no more marks then.
      have onGuard := ih test.simplifyCondition (by simp [discarded])
      exact optionMarks_discard_conditional loc reads forgets
        (onGuard.trans (marks_simplifyCondition reads test)) (ih yes (by simp [discarded]))
        (ih no (by simp [discarded]))
    | unary loc op value fromIdentifier =>
      exact optionMarks_discard_unary loc reads (ih value (by simp [discarded]))
    | binary loc op left right =>
      have onGuard := ih left.simplifyCondition (by simp [discarded])
      exact optionMarks_discard_binary loc reads forgets (ih left (by simp [discarded]))
        (ih right (by simp [discarded])) (onGuard.trans (marks_simplifyCondition reads left))
    | call loc target args link isPure kind =>
      refine optionMarks_discard_call loc reads (fun arg member => ih arg ?_)
        fun value called => ih value ?_
      · exact List.mem_append_right _ member
      · exact List.mem_append_left _ (Option.mem_toList.mpr called)
    | new loc target args isPure =>
      rw [discard]
      split
      · refine (optionMarks_discardArgs reads ih).trans ?_
        rw [marks_new]
        exact (List.sublist_append_right _ _).trans (List.sublist_append_right _ _)
      · exact List.Sublist.refl _

end Expr

end EcmaPrune
