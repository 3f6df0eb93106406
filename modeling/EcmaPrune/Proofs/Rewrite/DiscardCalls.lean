import EcmaPrune.Proofs.Rewrite.DiscardParts
import EcmaPrune.Proofs.Rewrite.Discarded

/-!
Discarding comes to an end: conditions do not grow when they are rewritten, so whatever discarding
calls itself for has fewer nodes than the expression it is called for.
-/

namespace EcmaPrune.Expr

/-- Says what is left of the expressions that discarding calls itself for, or gives no answer. -/
abbrev Answers := Expr → Option (Option Expr)

section

variable (cx : DiscardContext) (answer : Answers)

/-- Asks for what is left of a branch, unless the guard has shown that it can be read. -/
def askBranch (guard : Expr) (onYes : Bool) (branch : Expr) : Option (Option Expr) :=
  if branch.isGuardedBy guard onYes cx.unbound then some none else answer branch

/-- Asks for what is left of a value, if there is one. -/
def askValue : Option Expr → Option (Option Expr)
  | none => some none
  | some value => answer value

/-- Asks for what is left of a computed key that is converted without anybody seeing it. -/
def askKey (p : Property) : Option (Option Expr) :=
  if !p.isComputed then some none
  else if p.key.primitiveType == .unknown then some (discardKey p.key none)
  else answer p.key

/-- Asks for what is left of the substitutions whose conversion nobody sees. -/
def askParts (parts : List TemplatePart) : Option (Option Expr) := do
  let rests ← parts.mapM fun part =>
    if part.value.primitiveType == .unknown then some (part, none)
    else (answer part.value).map (part, ·)
  return sequence (discardParts [] rests)

/-- Asks for what is left of the members of an object literal. -/
def askMembers (loc : Loc) (properties : List Property) : Option (Option Expr) :=
  if properties.any fun p => p.kind == .spread then do
    let kept ← properties.mapM fun p =>
      if p.kind == .spread then some (some p) else (askValue answer p.value).map (trimProperty p)
    return some (object loc kept.reduceOption)
  else do
    let rests ← properties.mapM fun p => do
      return [← askKey answer p, ← askValue answer p.value]
    return sequence rests.flatten

/-- Asks for what is left of arguments, of which those that are spread are put into an array. -/
def askArgs (args : List Expr) : Option (Option Expr) := do
  let rests ← args.mapM fun arg => answer (if arg.isSpread then array arg.loc [arg] else arg)
  return sequence rests

/-- Asks for what is left of both sides of an operation. -/
def askBoth (left right : Expr) : Option (Option Expr) := do
  return sequence [← answer left, ← answer right]

/-- Asks for what is left of an operation. -/
def askOperation (loc : Loc) (op : Operator) (left right : Expr) : Option (Option Expr) :=
  match op with
  | .strictEquality | .strictInequality | .comma => askBoth answer left right
  | .equality | .inequality =>
    if (left.producesPrimitive && right.producesPrimitive) || left.strictMayBeLoose right then
      askBoth answer left right
    else some (some (binary loc op left right))
  | .logicalAnd | .logicalOr => do
    let guard := left.simplifyCondition
    match ← askBranch cx answer guard (op == .logicalAnd) right with
    | some right => return some (logicalOrChain cx loc op guard right)
    | none => answer guard
  | .nullishCoalescing => do
    match ← answer right with
    | some right => return some (logicalOrChain cx loc op left right)
    | none => answer left
  | .addition => some (discardSum (binary loc op left right))
  | _ => some (some (binary loc op left right))

/-- Asks for what is left of the value in the arrow function that a call runs. -/
def askCall (loc : Loc) (target : Expr) (args : List Expr) (link : ChainLink) (kind : CallKind) :
    Option (Option Expr) :=
  match target, args with
  | function _ func, [] =>
    some (if func.params.isEmpty && func.body.isEmpty then none
      else some (call loc target args link false kind))
  | arrow _ [] [] _ _, [] => some none
  | arrow _ [] [.expr _ value _] false _, [] => answer value
  | arrow arrowLoc [] [.expr stmtLoc value _] true _, [] =>
    some (some (returnFromArrow loc arrowLoc stmtLoc value link kind))
  | arrow _ [] [.returnValue _ none] false _, [] => some none
  | arrow _ [] [.returnValue _ (some value)] false _, [] => answer value
  | _, _ => some (some (call loc target args link false kind))

/--
One call of the discarding, with the calls of itself left to someone who answers them.

It calls itself in the order of evaluation and only where it needs the answer. Without one of the
answers it has no result.
-/
def discardBy (e : Expr) : Option (Option Expr) :=
  match e with
  | inlinedEnum _ value _ => answer value
  | null _ | undefined _ | missing _ | boolean .. | number .. | bigInt .. | string .. | this _
  | regExp .. | function .. | arrow .. | importMeta _ | importIdentifier .. => some none
  | dot _ _ _ _ isRemovable => some (if isRemovable then none else some e)
  | index _ _ key _ isRemovable =>
    some (if isRemovable && key.isRemovable cx.unbound then none else some e)
  | identifier _ ref isRemovable mustKeepInWith =>
    some (if !mustKeepInWith && (isRemovable || !cx.unbound ref) then none else some e)
  | classExpr _ definition =>
    some (if definition.isRemovable cx.unbound then none else some e)
  | template _ none _ parts => askParts answer parts
  | array loc items => do
    let rests ← items.mapM answer
    return if items.any isSpread then some (array loc rests.reduceOption) else sequence rests
  | object loc properties => askMembers answer loc properties
  | conditional loc test yes no => do
    let guard := test.simplifyCondition
    match ← askBranch cx answer guard true yes, ← askBranch cx answer guard false no with
    | none, none => answer guard
    | none, some no => return some (logicalOrChain cx loc .logicalOr guard no)
    | some yes, none => return some (logicalOrChain cx loc .logicalAnd guard yes)
    | some yes, some no => return some (conditional loc guard yes no)
  | unary _ op value fromIdentifier =>
    match op with
    | .void | .logicalNot => answer value
    | .typeof => if fromIdentifier && value.isIdentifier then some none else answer value
    | _ => some (some e)
  | binary loc op left right => askOperation cx answer loc op left right
  | call loc target args link isPure kind =>
    if isPure then askArgs answer args else askCall answer loc target args link kind
  | new _ _ args isPure => if isPure then askArgs answer args else some (some e)
  | spread .. | template _ (some _) _ _ => some (some e)

end

/-- Discarding with calls of itself that are nested at most to the given depth. -/
def discardWithin (cx : DiscardContext) : Nat → Answers
  | 0, _ => none
  | depth + 1, e => discardBy cx (discardWithin cx depth) e

/-- Discarding the expression calls itself for the part, as it has no result without the answer. -/
def CallsItselfFor (cx : DiscardContext) (part e : Expr) : Prop :=
  ∃ answer : Answers, answer part = none ∧
    (∀ other, other ≠ part → answer other = some (other.discard cx)) ∧ discardBy cx answer e = none

section

variable {cx : DiscardContext} {answer : Answers}

/-- If each item has its answer, then all of them have. -/
theorem mapM_eq_some_map {α β : Type} {f : α → Option β} {g : α → β} {items : List α}
    (each : ∀ item ∈ items, f item = some (g item)) : items.mapM f = some (items.map g) := by
  induction items with
  | nil => rfl
  | cons item rest ih =>
    obtain ⟨here, later⟩ := List.forall_mem_cons.mp each
    rw [List.mapM_cons, here, ih later]
    rfl

theorem reduceOption_map_eq_filterMap {α β : Type} (f : α → Option β) (items : List α) :
    (items.map f).reduceOption = items.filterMap f :=
  List.filterMap_map

theorem askBranch_eq {branch : Expr} (answered : answer branch = some (branch.discard cx))
    (guard : Expr) (onYes : Bool) :
    askBranch cx answer guard onYes branch =
      some (if branch.isGuardedBy guard onYes cx.unbound then none else branch.discard cx) := by
  rw [askBranch]
  split
  · rfl
  · exact answered

theorem askValue_eq {value : Option Expr}
    (answered : ∀ e ∈ value, answer e = some (e.discard cx)) :
    askValue answer value = some (value.bind (discard cx)) := by
  cases value with
  | none => rfl
  | some value => exact answered value rfl

theorem askKey_eq {p : Property} (answered : answer p.key = some (p.key.discard cx)) :
    askKey answer p =
      some (if p.isComputed then discardKey p.key (p.key.discard cx) else none) := by
  rw [askKey]
  cases p.isComputed with
  | false => rfl
  | true =>
    rw [if_neg (by simp), if_pos rfl]
    split
    · -- A key of an unknown type is converted as it is.
      rename_i unknown
      rw [discardKey, discardKey, if_pos unknown, if_pos unknown]
    · rename_i known
      rw [answered, discardKey, if_neg known]

/-- What is left of a substitution of an unknown type is not asked for. -/
theorem discardParts_unasked (rest : TemplatePart → Option Expr) (parts : List TemplatePart)
    (pending : List TemplatePart) :
    discardParts pending
        (parts.map fun part =>
          (part, if part.value.primitiveType == .unknown then none else rest part)) =
      discardParts pending (parts.map fun part => (part, rest part)) := by
  -- Such a substitution joins the pending ones, whatever is left of it.
  induction parts generalizing pending with
  | nil => rfl
  | cons part parts ih =>
    simp only [List.map_cons, discardParts, ih]
    split <;> rfl

theorem askParts_eq {parts : List TemplatePart} (loc : Loc) (head : List UInt16)
    (answered : ∀ part ∈ parts, answer part.value = some (part.value.discard cx)) :
    askParts answer parts = some ((template loc none head parts).discard cx) := by
  have each : ∀ part ∈ parts,
      (if part.value.primitiveType == .unknown then some (part, none)
        else (answer part.value).map (part, ·)) =
      some (part,
        if part.value.primitiveType == .unknown then none else part.value.discard cx) := by
    intro part member
    split
    · rfl
    · rw [answered part member]
      rfl
  rw [askParts, mapM_eq_some_map each, discard]
  have unasked := discardParts_unasked (fun part => part.value.discard cx) parts []
  exact congrArg (some <| sequence ·) unasked

theorem askMembers_eq {properties : List Property} (loc : Loc)
    (keys : ∀ p ∈ properties, answer p.key = some (p.key.discard cx))
    (values : ∀ p ∈ properties, ∀ e ∈ p.value, answer e = some (e.discard cx)) :
    askMembers answer loc properties = some ((object loc properties).discard cx) := by
  rw [askMembers, discard_object]
  split
  · -- A spread member stays whatever is left of its value, so it is not asked for.
    have each : ∀ p ∈ properties,
        (if p.kind == .spread then some (some p)
          else (askValue answer p.value).map (trimProperty p)) =
        some (trimProperty p (p.value.bind (discard cx))) := by
      intro p member
      split
      · rename_i isSpread
        unfold trimProperty
        rw [if_pos isSpread]
      · rw [askValue_eq (values p member)]
        rfl
    rw [mapM_eq_some_map each]
    exact congrArg (some <| some <| object loc ·) (reduceOption_map_eq_filterMap ..)
  · have each : ∀ p ∈ properties,
        (do return [← askKey answer p, ← askValue answer p.value] : Option (List (Option Expr))) =
        some [if p.isComputed then discardKey p.key (p.key.discard cx) else none,
          p.value.bind (discard cx)] := by
      intro p member
      rw [askKey_eq (keys p member), askValue_eq (values p member)]
      rfl
    rw [mapM_eq_some_map each]
    rfl

theorem askArgs_eq {args : List Expr}
    (answered : ∀ arg ∈ args, answer arg = some (arg.discard cx))
    (wrapped : ∀ arg ∈ args, arg.isSpread →
      answer (array arg.loc [arg]) = some ((array arg.loc [arg]).discard cx)) :
    askArgs answer args =
      some (sequence (args.map fun arg =>
        match arg.spreadArgument? with
        | some kept => some kept
        | none => arg.discard cx)) := by
  have each : ∀ arg ∈ args,
      answer (if arg.isSpread then array arg.loc [arg] else arg) =
        some (match arg.spreadArgument? with
          | some kept => some kept
          | none => arg.discard cx) := by
    intro arg member
    cases arg with
    | spread loc value =>
      -- The array is kept because of the spread, which is kept as well.
      have kept : (spread loc value).discard cx = some (spread loc value) := by rw [discard]
      refine (wrapped _ member rfl).trans (congrArg some ?_)
      rw [discard, if_pos (by rfl), List.filterMap_cons_some kept]
      rfl
    | _ => exact answered _ member
  rw [askArgs, mapM_eq_some_map each]
  rfl

theorem askBoth_eq {left right : Expr} (onLeft : answer left = some (left.discard cx))
    (onRight : answer right = some (right.discard cx)) :
    askBoth answer left right = some (sequence [left.discard cx, right.discard cx]) := by
  rw [askBoth, onLeft, onRight]
  rfl

theorem askOperation_eq {left right : Expr} (loc : Loc) (op : Operator)
    (onLeft : answer left = some (left.discard cx))
    (onRight : answer right = some (right.discard cx))
    (onGuard : answer left.simplifyCondition = some (left.simplifyCondition.discard cx)) :
    askOperation cx answer loc op left right = some ((binary loc op left right).discard cx) := by
  have both := askBoth_eq onLeft onRight
  cases op with
  | comma | strictEquality | strictInequality =>
    rw [discard]
    exact both
  | equality | inequality =>
    rw [discard, askOperation]
    split
    · exact both
    · rfl
  | logicalAnd | logicalOr =>
    rw [discard_logical cx loc rfl, askOperation, askBranch_eq onRight]
    -- The condition is asked for only if nothing is left of what it decides about.
    generalize (if right.isGuardedBy _ _ _ then none else right.discard cx) = rest
    cases rest with
    | none => exact onGuard
    | some rest => rfl
  | nullishCoalescing =>
    rw [discard, askOperation, onRight]
    cases right.discard cx with
    | none => exact onLeft
    | some rest => rfl
  | addition =>
    rw [discard]
    rfl
  | _ =>
    rw [discard]
    · rfl
    all_goals simp

theorem askCall_eq {target : Expr} {args : List Expr} (loc : Loc) (link : ChainLink)
    (kind : CallKind)
    (answered : ∀ value ∈ target.calledValue?, answer value = some (value.discard cx)) :
    askCall answer loc target args link kind =
      some ((call loc target args link false kind).discard cx) := by
  cases args with
  | cons arg args =>
    rw [discard_call_cons]
    unfold askCall
    split <;> first | rfl | contradiction
  | nil =>
    rw [discard.eq_def]
    dsimp only
    rw [if_neg Bool.false_ne_true]
    unfold askCall
    cases target with
    | function funcLoc func => rfl
    | arrow arrowLoc params statements isAsync prefersExpr =>
      -- Only an arrow function without parameters and with at most one statement is opened.
      rcases params with _ | ⟨param, params⟩
      · rcases statements with _ | ⟨first, _ | ⟨second, others⟩⟩
        · rfl
        · cases first with
          | expr stmtLoc value isGlue =>
            cases isAsync with
            | false => exact answered value rfl
            | true => rfl
          | returnValue stmtLoc value =>
            cases value with
            | none => cases isAsync <;> rfl
            | some value =>
              cases isAsync with
              | false => exact answered value rfl
              | true => rfl
          | _ => rfl
        · cases first with
          | returnValue stmtLoc value => cases value <;> rfl
          | _ => rfl
      · rfl
    | _ => rfl

/-- An argument that is put into an array is still smaller than the call. -/
theorem nodeCount_array_singleton_le {arg : Expr} {args : List Expr} (member : arg ∈ args)
    (loc : Loc) : (array loc [arg]).nodeCount ≤ nodeCountList args + 1 := by
  have single : nodeCountList [arg] = arg.nodeCount := by
    simp [nodeCountList, visitsList, nodeCount]
  rw [nodeCount_array, single]
  exact Nat.succ_le_succ (nodeCount_le_of_mem member)

/-- With answers for all smaller expressions a call of the discarding has its result. -/
theorem discardBy_eq_some {e : Expr}
    (answered : ∀ part : Expr, part.nodeCount < e.nodeCount →
      answer part = some (part.discard cx)) :
    discardBy cx answer e = some (e.discard cx) := by
  -- All it calls itself for is smaller, and so is an argument in an array of its own.
  have within : ∀ part ∈ e.discarded, answer part = some (part.discard cx) :=
    fun part member => answered part (nodeCount_lt_of_mem_discarded member)
  cases e with
  | null | undefined | missing | boolean | number | bigInt | string | this | regExp | function
  | arrow | importMeta | importIdentifier | spread | identifier | dot | index | classExpr =>
    rw [discard]
    rfl
  | inlinedEnum loc value comment =>
    rw [discard]
    exact within value (by simp [discarded])
  | array loc items =>
    have rests : items.mapM answer = some (items.map (discard cx)) := mapM_eq_some_map within
    rw [discard, discardBy, rests, ← reduceOption_map_eq_filterMap]
    rfl
  | object loc properties =>
    exact askMembers_eq loc
      (fun p held => within p.key (List.mem_flatMap.mpr ⟨p, held, List.mem_cons_self⟩))
      fun p held value there => within value (List.mem_flatMap.mpr ⟨p, held, by simp_all⟩)
  | template loc tag head parts =>
    cases tag with
    | some tag =>
      rw [discard]
      rfl
    | none =>
      exact askParts_eq loc head fun part held => within part.value (List.mem_map_of_mem held)
  | conditional loc test yes no =>
    rw [discard, discardBy, askBranch_eq (within yes (by simp [discarded])),
      askBranch_eq (within no (by simp [discarded]))]
    generalize (if yes.isGuardedBy _ _ _ then none else yes.discard cx) = yesRest
    generalize (if no.isGuardedBy _ _ _ then none else no.discard cx) = noRest
    rcases yesRest with _ | yesRest <;> rcases noRest with _ | noRest
    · exact within test.simplifyCondition (by simp [discarded])
    all_goals rfl
  | unary loc op value fromIdentifier =>
    have inside := within value (by simp [discarded])
    cases op with
    | void | logicalNot =>
      rw [discard]
      exact inside
    | typeof =>
      rw [discard, discardBy]
      split
      · rfl
      · exact inside
    | _ =>
      rw [discard]
      · rfl
      all_goals simp
  | binary loc op left right =>
    exact askOperation_eq loc op (within left (by simp [discarded]))
      (within right (by simp [discarded])) (within left.simplifyCondition (by simp [discarded]))
  | call loc target args link isPure kind =>
    cases isPure with
    | true =>
      rw [discard_call_pure]
      refine askArgs_eq (fun arg member => within arg (List.mem_append_right _ member))
        fun arg member _ => answered _ ?_
      have := nodeCount_array_singleton_le member arg.loc
      have := target.nodeCount_pos
      rw [nodeCount_call]
      omega
    | false =>
      exact askCall_eq loc link kind fun value called =>
        within value (List.mem_append_left _ (Option.mem_toList.mpr called))
  | new loc target args isPure =>
    cases isPure with
    | true =>
      rw [discard]
      refine askArgs_eq within fun arg member _ => answered _ ?_
      have := nodeCount_array_singleton_le member arg.loc
      have := target.nodeCount_pos
      rw [nodeCount_new]
      omega
    | false =>
      rw [discard]
      rfl

end

/-- Calls of itself that are nested as deep as the expression has nodes are all that is needed. -/
theorem discardWithin_eq_some (cx : DiscardContext) {e : Expr} {depth : Nat}
    (deep : e.nodeCount ≤ depth) : discardWithin cx depth e = some (e.discard cx) := by
  induction depth generalizing e with
  | zero => exact absurd e.nodeCount_pos (Nat.not_lt.mpr deep)
  | succ depth ih =>
    -- What it calls itself for is smaller by a node at least, as the depth is by one.
    exact discardBy_eq_some fun part smaller =>
      ih (Nat.le_of_lt_succ (Nat.lt_of_lt_of_le smaller deep))

/-- An expression that is called for is smaller than the one that cannot do without it. -/
theorem nodeCount_lt_of_callsItselfFor {cx : DiscardContext} {part e : Expr}
    (calls : CallsItselfFor cx part e) : part.nodeCount < e.nodeCount := by
  obtain ⟨answer, _, others, stuck⟩ := calls
  refine Nat.not_le.mp fun noSmaller => ?_
  -- Every smaller expression is another one, so all the answers are there.
  have result : discardBy cx answer e = some (e.discard cx) :=
    discardBy_eq_some fun other smaller =>
      others other fun same => absurd smaller (Nat.not_lt.mpr (same ▸ noSmaller))
  rw [result] at stuck
  cases stuck

/--
Rewriting a condition does not make it larger, and therefore discarding comes to an end.

Each call of itself is for an expression of fewer nodes, rewritten conditions included, so that
there is no endless chain of them, and as many calls as there are nodes are enough for the result.
-/
theorem discard_wellFounded (cx : DiscardContext) (e : Expr) :
    e.simplifyCondition.nodeCount ≤ e.nodeCount ∧
      (∀ part, CallsItselfFor cx part e → part.nodeCount < e.nodeCount) ∧
      WellFounded (CallsItselfFor cx) ∧
      discardWithin cx e.nodeCount e = some (e.discard cx) :=
  ⟨nodeCount_simplifyCondition e, fun _ => nodeCount_lt_of_callsItselfFor,
    Subrelation.wf nodeCount_lt_of_callsItselfFor (measure nodeCount).wf,
    discardWithin_eq_some cx (Nat.le_refl _)⟩

/-- Discarding `(x | 0) == 0 ? 0 : 0` calls itself for `!(x | 0)`, which is no part of it. -/
theorem discard_wellFounded_negated :
    let cx : DiscardContext := ⟨true, fun _ => false⟩
    let zero : Expr := number .unknown .zero
    let bits : Expr := binary .unknown .bitwiseOr (identifier .unknown ⟨0⟩ false false) zero
    let e : Expr := conditional .unknown (binary .unknown .equality bits zero) zero zero
    let negated : Expr := unary .unknown .logicalNot bits false
    CallsItselfFor cx negated e ∧ negated.nodeCount < e.nodeCount := by
  intro cx zero bits e negated
  have rewritten : (binary .unknown .equality bits zero).simplifyCondition = negated := by rfl
  have calls : CallsItselfFor cx negated e := by
    classical
    -- Everything has its answer but the rewritten condition.
    let answer : Answers := fun other => if other = negated then none else some (other.discard cx)
    have unanswered : answer negated = none := if_pos rfl
    have others : ∀ other, other ≠ negated → answer other = some (other.discard cx) :=
      fun _ different => if_neg different
    refine ⟨answer, unanswered, others, ?_⟩
    have branch : answer zero = some (zero.discard cx) := others zero (by simp [zero, negated])
    have gone : zero.discard cx = none := by rw [discard]
    -- Nothing is left of the branches, so the condition is all that is asked for in the end.
    rw [discardBy, askBranch_eq branch, askBranch_eq branch, gone, ite_self, ite_self, rewritten]
    exact unanswered
  exact ⟨calls, (discard_wellFounded cx e).2.1 negated calls⟩

end EcmaPrune.Expr
