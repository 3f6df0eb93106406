import EcmaPrune.Proofs.Rewrite.Discarded

/-! Where discarding an expression gets, and the branches it decides about on the way. -/

namespace EcmaPrune

/-- A branch that runs if a test comes out in one way. -/
structure Branch where
  test : Expr
  /-- Whether the branch runs if the test holds. -/
  onYes : Bool
  value : Expr

namespace Branch

variable (cx : DiscardContext) (b : Branch)

/-- Whether the branch only reads a name that is there if the branch runs. -/
def isSpared : Bool := b.value.isGuardedBy b.test b.onYes cx.unbound

/-- What is left of the branch. -/
def rest : Option Expr := if b.isSpared cx then none else b.value.discard cx

/-- The operation that runs its right side where the branch runs. -/
def op : Operator := if b.onYes then .logicalAnd else .logicalOr

theorem rest_eq :
    b.rest cx = if b.value.isGuardedBy b.test b.onYes cx.unbound then none
      else b.value.discard cx := rfl

end Branch

namespace Expr

/-- The branches that an expression decides about, with their tests rewritten as conditions. -/
def branches : Expr → List Branch
  | conditional _ test yes no =>
    [⟨test.simplifyCondition, true, yes⟩, ⟨test.simplifyCondition, false, no⟩]
  | binary _ op left right =>
    if op.isAndOr then [⟨left.simplifyCondition, op == .logicalAnd, right⟩] else []
  | _ => []

/-- The only branch of which anything is left, with what is left of it. -/
def onlyRest? (cx : DiscardContext) (e : Expr) : Option (Branch × Expr) :=
  match e.branches.filterMap fun b => (b.rest cx).map (b, ·) with
  | [left] => some left
  | _ => none

/-- Whether an expression is an asynchronous arrow function. -/
def isAsyncArrow : Expr → Bool
  | arrow _ _ _ isAsync _ => isAsync
  | _ => false

/-- The branches that are not spared, and their test if nothing is left of any. -/
def visitedBranches (cx : DiscardContext) (test : Expr) (branches : List Branch) : List Expr :=
  (branches.filter fun b => !b.isSpared cx).map Branch.value ++
    if branches.all fun b => (b.rest cx).isNone then [test] else []

/-- What discarding an expression discards in turn, exactly where it needs what is left of it. -/
def visited (cx : DiscardContext) : Expr → List Expr
  | inlinedEnum _ value _ => [value]
  | array _ items => items
  | object _ properties =>
    -- A literal that spreads something stays with its keys, and only its other values are trimmed.
    if properties.any fun p => p.kind == .spread then
      (properties.filter fun p => p.kind != .spread).flatMap fun p => p.value.toList
    -- Otherwise keys of unknown types are kept as they are, so that they are still converted.
    else properties.flatMap fun p =>
      (if p.isComputed && p.key.primitiveType != .unknown then [p.key] else []) ++ p.value.toList
  | template _ none _ parts =>
    (parts.map TemplatePart.value).filter fun value => value.primitiveType != .unknown
  | conditional loc test yes no =>
    visitedBranches cx test.simplifyCondition (conditional loc test yes no).branches
  | unary _ op value fromIdentifier =>
    match op with
    | .void | .logicalNot => [value]
    | .typeof => if fromIdentifier && value.isIdentifier then [] else [value]
    | _ => []
  | binary loc op left right =>
    match op with
    | .comma | .strictEquality | .strictInequality => [left, right]
    | .equality | .inequality =>
      if (left.producesPrimitive && right.producesPrimitive) || left.strictMayBeLoose right then
        [left, right]
      else []
    | .logicalAnd | .logicalOr =>
      visitedBranches cx left.simplifyCondition (binary loc op left right).branches
    | .nullishCoalescing => right :: if (right.discard cx).isNone then [left] else []
    | _ => []
  | call _ target args _ isPure _ =>
    if isPure then args
    -- An asynchronous function is still called, so that it catches what its value throws.
    else if args.isEmpty && !target.isAsyncArrow then target.calledValue?.toList
    else []
  | new _ _ args isPure => if isPure then args else []
  | _ => []

/-- A branch is a part of the expression that decides about it. -/
theorem value_mem_parts_of_mem_branches {e : Expr} {b : Branch} (member : b ∈ e.branches) :
    b.value ∈ e.parts := by
  cases e with
  | conditional loc test yes no =>
    simp only [branches, List.mem_cons, List.not_mem_nil, or_false] at member
    rcases member with rfl | rfl <;> simp [parts]
  | binary loc op left right =>
    rw [branches] at member
    split at member
    · rw [List.mem_singleton.mp member]
      simp [parts]
    · cases member
  | _ => cases member

/-- A value of a member is discarded unless it is spread. -/
theorem mem_visited_object_value (cx : DiscardContext) (loc : Loc)
    {properties : List Property} {p : Property} {value : Expr}
    (held : p ∈ properties) (notSpread : p.kind ≠ .spread) (isValue : value ∈ p.value) :
    value ∈ (object loc properties).visited cx := by
  rw [visited]
  split
  · exact List.mem_flatMap.mpr ⟨p, by simp [held, notSpread], Option.mem_toList.mpr isValue⟩
  · exact List.mem_flatMap.mpr ⟨p, held, List.mem_append_right _ (Option.mem_toList.mpr isValue)⟩

theorem visited_logical (cx : DiscardContext) (loc : Loc) {op : Operator} (isAndOr : op.isAndOr)
    (left right : Expr) :
    (binary loc op left right).visited cx =
      visitedBranches cx left.simplifyCondition (binary loc op left right).branches := by
  cases op with
  | logicalAnd | logicalOr => rfl
  | _ => cases isAndOr

section

variable {cx : DiscardContext} {test : Expr} {branches : List Branch}

/-- A branch that is not spared is discarded. -/
theorem mem_visitedBranches {b : Branch} (member : b ∈ branches)
    (notSpared : b.isSpared cx = false) : b.value ∈ visitedBranches cx test branches :=
  List.mem_append_left _ (List.mem_map_of_mem (List.mem_filter.mpr ⟨member, by simp [notSpared]⟩))

/-- The test is discarded if nothing is left of the branches. -/
theorem test_mem_visitedBranches (gone : ∀ b ∈ branches, b.rest cx = none) :
    test ∈ visitedBranches cx test branches := by
  refine List.mem_append_right _ ?_
  rw [if_pos (List.all_eq_true.mpr fun b member => by simp [gone b member])]
  exact List.mem_singleton_self test

/-- Only branches and their test are discarded. -/
theorem mem_visitedBranches_cases {part : Expr} (member : part ∈ visitedBranches cx test branches) :
    (∃ b ∈ branches, part = b.value) ∨ part = test := by
  rcases List.mem_append.mp member with isValue | isTest
  · obtain ⟨b, held, rfl⟩ := List.mem_map.mp isValue
    exact .inl ⟨b, (List.mem_filter.mp held).1, rfl⟩
  · split at isTest
    · exact .inr (List.mem_singleton.mp isTest)
    · cases isTest

end

/-- A property of an expression and of everything that discarding it discards in turn. -/
inductive ThroughoutVisited (cx : DiscardContext) (holds : Expr → Prop) : Expr → Prop
  | intro {e : Expr} (here : holds e)
    (inside : ∀ part ∈ e.visited cx, ThroughoutVisited cx holds part) :
    ThroughoutVisited cx holds e

/--
What is discarded in turn is a part of the expression or a rewritten one.

Only a call of a function literal discards something else, which is the value in its function.
-/
theorem mem_visited_cases {cx : DiscardContext} {e part : Expr} (member : part ∈ e.visited cx) :
    (∃ loc target args link kind, e = call loc target args link false kind ∧
      part ∈ target.calledValue?) ∨
      ∃ original ∈ e.parts, part = original ∨ part = original.simplifyCondition := by
  have same : part ∈ e.parts → ∃ original ∈ e.parts,
      part = original ∨ part = original.simplifyCondition :=
    fun isPart => ⟨part, isPart, .inl rfl⟩
  cases e with
  | inlinedEnum | array => exact .inr (same member)
  | object loc properties =>
    refine .inr (same ?_)
    rw [visited] at member
    split at member
    · obtain ⟨p, held, isValue⟩ := List.mem_flatMap.mp member
      exact List.mem_flatMap.mpr ⟨p, (List.mem_filter.mp held).1, List.mem_append_right _ isValue⟩
    · obtain ⟨p, held, isPart⟩ := List.mem_flatMap.mp member
      refine List.mem_flatMap.mpr ⟨p, held, ?_⟩
      -- Not every computed key is discarded, but only computed ones are.
      rcases List.mem_append.mp isPart with isKey | isValue
      · split at isKey
        · rename_i known
          exact List.mem_append_left _ (by rwa [if_pos (Bool.and_eq_true_iff.mp known).1])
        · cases isKey
      · exact List.mem_append_right _ isValue
  | template loc tag head substitutions =>
    cases tag with
    | none =>
      obtain ⟨isValue, _⟩ := List.mem_filter.mp member
      exact .inr (same (List.mem_append_right _ isValue))
    | some tag => cases member
  | conditional loc test yes no =>
    right
    rcases mem_visitedBranches_cases member with ⟨b, held, rfl⟩ | rfl
    · exact same (value_mem_parts_of_mem_branches held)
    · exact ⟨test, by simp [parts], .inr rfl⟩
  | unary loc op value fromIdentifier =>
    have isValue : part = value := by
      cases op with
      | void | logicalNot => exact List.mem_singleton.mp member
      | typeof =>
        simp only [visited] at member
        split at member
        · cases member
        · exact List.mem_singleton.mp member
      | _ => cases member
    exact .inr (same (by simp [parts, isValue]))
  | binary loc op left right =>
    right
    cases connective : op.isAndOr with
    | true =>
      rw [visited_logical cx loc connective] at member
      rcases mem_visitedBranches_cases member with ⟨b, held, rfl⟩ | rfl
      · exact same (value_mem_parts_of_mem_branches held)
      · exact ⟨left, by simp [parts], .inr rfl⟩
    | false =>
      refine same ?_
      cases op with
      | logicalAnd | logicalOr => cases connective
      | comma | strictEquality | strictInequality => exact member
      | equality | inequality =>
        simp only [visited] at member
        split at member
        · exact member
        · cases member
      | nullishCoalescing =>
        simp only [visited] at member
        rcases List.mem_cons.mp member with rfl | isLeft
        · simp [parts]
        · split at isLeft
          · simp [parts, List.mem_singleton.mp isLeft]
          · cases isLeft
      | _ => cases member
  | call loc target args link isPure kind =>
    cases isPure with
    | true => exact .inr (same (List.mem_cons_of_mem _ member))
    | false =>
      rw [visited, if_neg (by simp)] at member
      split at member
      · exact .inl ⟨loc, target, args, link, kind, rfl, Option.mem_toList.mp member⟩
      · cases member
  | new loc target args isPure =>
    cases isPure with
    | true => exact .inr (same (List.mem_cons_of_mem _ member))
    | false => cases member
  | _ => cases member

end Expr

end EcmaPrune
