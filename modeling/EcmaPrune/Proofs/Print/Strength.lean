import EcmaPrune.Proofs.Print.GrammarLaws
import EcmaPrune.Print.Precedence

/-!
How strongly a printed operator expression reads.

Printing asks for parentheses by one number for each expression. Reading knows two: the strength of
what has been read, and the strength of what would still go on inside of it. Both are at least the
number that printing goes by, up to the calls, which are weaker than the member accesses that they
are printed like.
-/

namespace EcmaPrune

open Grammar

mutual

/-- An expression without its positions and flags, which printed code does not show. -/
def Expr.bare : Expr → Expr
  | .binary _ op left right => .binary default op left.bare right.bare
  | .call _ target args link _ _ =>
    .call default target.bare (Expr.bareList args) link false .normal
  | .conditional _ test yes no => .conditional default test.bare yes.bare no.bare
  | .dot _ target name link _ => .dot default target.bare name link false
  | .identifier _ ref _ _ => .identifier default ref false false
  | .index _ target key link _ => .index default target.bare key.bare link false
  | .new _ target args _ => .new default target.bare (Expr.bareList args) false
  | .number _ value => .number default value
  | .unary _ op value _ => .unary default op value.bare false
  | e => e

/-- Each expression of a list without its positions and flags. -/
def Expr.bareList : List Expr → List Expr
  | [] => []
  | e :: rest => e.bare :: Expr.bareList rest

end

/-- An expression of names, numbers and operators that the grammar knows. -/
inductive IsOperatorExpr : Expr → Prop where
  | identifier (loc : Loc) (ref : Ref) (isRemovable mustKeepInWith : Bool) :
    IsOperatorExpr (.identifier loc ref isRemovable mustKeepInWith)
  | number (loc : Loc) {value : Number} (positive : value.isNegative = false)
    (finite : value.exponentField < Number.lastExponent) : IsOperatorExpr (.number loc value)
  | unary (loc : Loc) (fromIdentifier : Bool) {op : Operator} {value : Expr}
    (arity : op.arity = .unary) (place : op.isUpdate → value.isPlace)
    (operand : IsOperatorExpr value) : IsOperatorExpr (.unary loc op value fromIdentifier)
  | binary (loc : Loc) {op : Operator} {left right : Expr} (arity : op.arity = .binary)
    (place : op.isAssignment → left.isPlace) (first : IsOperatorExpr left)
    (second : IsOperatorExpr right) : IsOperatorExpr (.binary loc op left right)
  | conditional (loc : Loc) {test yes no : Expr} (first : IsOperatorExpr test)
    (second : IsOperatorExpr yes) (third : IsOperatorExpr no) :
    IsOperatorExpr (.conditional loc test yes no)
  | call (loc : Loc) (isPure : Bool) (kind : CallKind) {target : Expr} {args : List Expr}
    {link : ChainLink} (inChain : link = .continued → target.isChainLink)
    (callee : IsOperatorExpr target) (arguments : ∀ arg ∈ args, IsOperatorExpr arg) :
    IsOperatorExpr (.call loc target args link isPure kind)
  | new (loc : Loc) (isPure : Bool) {target : Expr} {args : List Expr}
    (callee : IsOperatorExpr target) (arguments : ∀ arg ∈ args, IsOperatorExpr arg) :
    IsOperatorExpr (.new loc target args isPure)
  | dot (loc : Loc) (name : String) (isRemovable : Bool) {target : Expr} {link : ChainLink}
    (inChain : link = .continued → target.isChainLink) (object : IsOperatorExpr target) :
    IsOperatorExpr (.dot loc target name link isRemovable)
  | index (loc : Loc) (isRemovable : Bool) {target key : Expr} {link : ChainLink}
    (inChain : link = .continued → target.isChainLink) (object : IsOperatorExpr target)
    (inside : IsOperatorExpr key) : IsOperatorExpr (.index loc target key link isRemovable)

namespace Expr

@[simp] theorem isPlace_bare (e : Expr) : e.bare.isPlace = e.isPlace := by
  cases e <;> simp [bare, isPlace]

@[simp] theorem isChainLink_bare (e : Expr) : e.bare.isChainLink = e.isChainLink := by
  cases e <;> simp [bare, isChainLink]

/-- Whether the target of a link is printed in parentheses. -/
def targetParens (target : Expr) (link : ChainLink) : Bool :=
  (link == .plain && target.isChainLink) || target.precedence < memberPrecedence

/-- Whether the left operand of a binary operator is printed in parentheses. -/
def leftParens (left : Expr) (op : Operator) : Bool :=
  (left.mixesNullish op || (op == .exponentiation && left.isUnaryLike)) ||
    left.precedence < op.leftPrecedence

/-- Whether the right operand of a binary operator is printed in parentheses. -/
def rightParens (right : Expr) (op : Operator) : Bool :=
  right.mixesNullish op || right.precedence < op.rightPrecedence

/-- Whether the target of a constructor call is printed in parentheses. -/
def newTargetParens (target : Expr) : Bool :=
  target.newTargetNeedsParens || target.precedence < memberPrecedence

/-- The strength of what is printed in parentheses, or else that of what is printed without. -/
def enclosedStrength (parens : Bool) (bare : Nat) : Nat := if parens then 19 else bare

/-- The strength that an expression reads by where it is printed without parentheses. -/
def strength : Expr → Nat
  | binary _ op _ _ => op.precedence
  | conditional .. => Operator.conditional.precedence
  | unary _ op _ _ => op.unaryStrength
  | call .. => 17
  | dot _ target _ link _ | index _ target _ link _ =>
    link.accessStrength (enclosedStrength (target.targetParens link) target.strength)
  | new .. => 18
  | _ => 19

/-- What follows an expression and is weaker than this does not go on inside of it. -/
def edge : Expr → Nat
  | binary _ op _ _ | unary _ op _ _ => op.rightPrecedence
  | conditional .. => Operator.conditional.rightPrecedence
  | _ => 19

/-- The strength of an expression that is printed with or without parentheses around it. -/
def strengthIn (e : Expr) (parens : Bool) : Nat := enclosedStrength parens e.strength

/-- The edge of an expression that is printed with or without parentheses around it. -/
def edgeIn (e : Expr) (parens : Bool) : Nat := enclosedStrength parens e.edge

/-- What is read of an expression that is printed with or without parentheses around it. -/
def phrase (e : Expr) (parens : Bool) : Phrase := ⟨e.bare, e.strengthIn parens⟩

end Expr

namespace Operator

theorem one_le_precedence (op : Operator) : 1 ≤ op.precedence := by
  cases op <;> decide

theorem precedence_le_unary (op : Operator) : op.precedence ≤ 16 := by
  cases op <;> decide

/-- No operator is as weak as an arrow function. -/
theorem precedence_ne_arrow (op : Operator) : op.precedence ≠ arrowPrecedence := by
  cases op <;> decide

theorem precedence_le_binary {op : Operator} (binary : op.arity = .binary) :
    op.precedence ≤ 14 := by
  cases op <;> first | decide | cases binary

theorem precedence_of_unary {op : Operator} (unary : op.arity = .unary) : 15 ≤ op.precedence := by
  cases op <;> first | decide | cases unary

/-- An operator behind its operand is an update. -/
theorem unaryStrength_of_behind {op : Operator} (unary : op.arity = .unary)
    (behind : op.isPrefixed = false) : op.unaryStrength = 16 :=
  if_pos (following_update (by simp [isUnary, unary]) behind).2

theorem precedence_le_rightPrecedence (op : Operator) : op.precedence ≤ op.rightPrecedence := by
  unfold rightPrecedence
  split <;> omega

theorem rightPrecedence_of_prefixed {op : Operator} (prefixed : op.isPrefixed) :
    op.rightPrecedence = 15 := by
  cases op <;> first | rfl | cases prefixed

theorem rightPrecedence_le (op : Operator) : op.rightPrecedence ≤ 16 := by
  cases op <;> decide

/-- The grammar asks for no weaker a right operand than printing. -/
theorem rightPrecedence_le_reading (op : Operator) : op.rightPrecedence ≤ op.reading.right := by
  cases op <;> decide

theorem right_reading_le (op : Operator) : op.reading.right ≤ 17 := by
  cases op <;> decide

/-- The operators of one level nest to the same side. -/
theorem associativity_congr {op other : Operator} (level : op.precedence = other.precedence) :
    op.associativity = other.associativity := by
  have sides (op : Operator) :
      op.associativity = if op.precedence ∈ [3, 14, 15, 16] then .right else .left := by
    cases op <;> rfl
  rw [sides, sides, level]

/-- An operator does not go on inside of what may be its left operand. -/
theorem precedence_lt_rightPrecedence {op inner : Operator}
    (enough : op.leftPrecedence ≤ inner.precedence) : op.precedence < inner.rightPrecedence := by
  have atMost := inner.precedence_le_rightPrecedence
  unfold leftPrecedence at enough
  split at enough
  · rename_i left
    rcases Nat.lt_or_eq_of_le enough with weaker | level
    · omega
    · -- On the same level, the operand nests to the left as well.
      have innerLeft : inner.associativity = .left := (associativity_congr level).symm.trans left
      unfold rightPrecedence
      rw [innerLeft]
      exact Nat.lt_succ_of_le enough
  · omega

end Operator

namespace Expr

theorem printsMinus_of_positive {value : Number} (positive : value.isNegative = false) :
    value.printsMinus = false := by
  simp [Number.printsMinus, Number.isBelowZero, Number.isNegativeZero, positive]

/-- An operator expression is an operation, or strong enough for everything but a link behind it. -/
theorem precedence_cases {e : Expr} (operators : IsOperatorExpr e) :
    (∃ op : Operator, e.precedence = op.precedence ∧ e.edge = op.rightPrecedence) ∨
      (18 ≤ e.precedence ∧ e.precedence ≤ 19 ∧ e.edge = 19) := by
  cases operators with
  | unary | binary => exact .inl ⟨_, rfl, rfl⟩
  | conditional => exact .inl ⟨.conditional, rfl, rfl⟩
  | identifier | call | new | dot | index =>
    simp [precedence, edge, memberPrecedence, primaryPrecedence]
  | number _ positive _ =>
    simp [precedence, edge, printsMinus_of_positive positive, primaryPrecedence]

variable {e : Expr} (operators : IsOperatorExpr e)

include operators

theorem one_le_precedence : 1 ≤ e.precedence := by
  rcases precedence_cases operators with ⟨op, same, _⟩ | ⟨member, _, _⟩
  · exact same ▸ op.one_le_precedence
  · omega

theorem precedence_ne_arrow : e.precedence ≠ arrowPrecedence := by
  rcases precedence_cases operators with ⟨op, same, _⟩ | ⟨member, _, _⟩
  · exact same ▸ op.precedence_ne_arrow
  · unfold arrowPrecedence
    omega

/-- Printing goes by no more than the edge. -/
theorem precedence_le_edge : e.precedence ≤ e.edge := by
  rcases precedence_cases operators with ⟨op, same, edgeSame⟩ | ⟨_, primary, edgeSame⟩
  · rw [same, edgeSame]
    exact op.precedence_le_rightPrecedence
  · rwa [edgeSame]

/-- An operator does not go on inside of what is printed as its left operand. -/
theorem precedence_lt_edge {op : Operator} (enough : op.leftPrecedence ≤ e.precedence) :
    op.precedence < e.edge := by
  rcases precedence_cases operators with ⟨inner, same, edgeSame⟩ | ⟨_, _, edgeSame⟩
  · rw [edgeSame]
    exact Operator.precedence_lt_rightPrecedence (same ▸ enough)
  · have := op.precedence_le_unary
    omega

omit operators

theorem le_enclosedStrength {least bare : Nat} {parens : Bool} (primary : least ≤ 19)
    (enough : parens = false → least ≤ bare) : least ≤ enclosedStrength parens bare := by
  cases parens with
  | true => exact primary
  | false => exact enough rfl

/-- What is printed as the target of a link without parentheses is strong enough for it. -/
theorem precedence_of_targetParens {target : Expr} {link : ChainLink}
    (bare : target.targetParens link = false) : 18 ≤ target.precedence := by
  unfold targetParens memberPrecedence at bare
  simp only [Bool.or_eq_false_iff, decide_eq_false_iff_not] at bare
  omega

/-- Printing goes by no more than the strength, up to the strength of calls. -/
theorem min_precedence_le_strength (e : Expr) : min 17 e.precedence ≤ e.strength := by
  induction e using induction_on_parts with
  | step e ih =>
    cases e with
    | binary | conditional => exact Nat.min_le_right 17 _
    | unary _ op _ _ =>
      simp only [precedence, strength]
      cases op <;> decide
    | dot _ target _ link _ | index _ target _ link _ =>
      have ih : min 17 target.precedence ≤ target.strength := ih target (by simp [parts])
      refine Nat.le_trans (Nat.min_le_left 17 _) (le_accessStrength ?_)
      refine le_enclosedStrength (by decide) fun bare => ?_
      have := precedence_of_targetParens bare
      omega
    | _ =>
      refine Nat.le_trans (Nat.min_le_left 17 _) ?_
      simp [strength]

theorem le_strength {least : Nat} (enough : least ≤ e.precedence) (call : least ≤ 17) :
    least ≤ e.strength :=
  Nat.le_trans (Nat.le_min.mpr ⟨call, enough⟩) (min_precedence_le_strength e)

section

variable {least asked : Nat}

/-- What is printed by a least strength reads by it. -/
theorem le_strengthIn_guarded (within : least ≤ asked) (call : least ≤ 17) :
    least ≤ e.strengthIn (e.precedence < asked) :=
  le_enclosedStrength (Nat.le_trans call (by decide)) fun bare =>
    le_strength (Nat.le_trans within (by simpa using bare)) call

theorem le_edgeIn_guarded (operators : IsOperatorExpr e) (within : least ≤ asked)
    (primary : least ≤ 19) : least ≤ e.edgeIn (e.precedence < asked) :=
  le_enclosedStrength primary fun bare =>
    Nat.le_trans within (Nat.le_trans (by simpa using bare) (precedence_le_edge operators))

end

/-- Any link goes on with what is strong enough for one. -/
theorem edge_of_member (operators : IsOperatorExpr e) (member : 18 ≤ e.precedence) :
    e.edge = 19 := by
  rcases precedence_cases operators with ⟨op, same, _⟩ | ⟨_, _, edge⟩
  · have := op.precedence_le_unary
    omega
  · exact edge

theorem lt_targetEdge {target : Expr} (operators : IsOperatorExpr target) (link : ChainLink) :
    18 < target.edgeIn (target.targetParens link) :=
  le_enclosedStrength (by decide) fun bare =>
    Nat.le_of_eq (edge_of_member operators (precedence_of_targetParens bare)).symm

/-- The target of a link can be gone on from. -/
theorem le_targetStrength (target : Expr) (link : ChainLink) :
    17 ≤ target.strengthIn (target.targetParens link) :=
  le_enclosedStrength (by decide) fun bare =>
    le_strength (Nat.le_of_succ_le (precedence_of_targetParens bare)) (Nat.le_refl 17)

/-- What a constructor call takes without parentheses contains no call that is open to the right. -/
theorem le_strength_of_newTarget (noCall : e.newTargetNeedsParens = false)
    (member : memberPrecedence ≤ e.precedence) : 18 ≤ e.strength := by
  induction e using induction_on_parts with
  | step e ih =>
    have absurd_op (op : Operator) (member : memberPrecedence ≤ op.precedence) : False := by
      have := op.precedence_le_unary
      unfold memberPrecedence at member
      omega
    cases e with
    | binary | conditional | unary => exact (absurd_op _ member).elim
    | call => cases noCall
    | dot _ target _ link _ | index _ target _ link _ =>
      simp only [newTargetNeedsParens, Bool.or_eq_false_iff, bne_eq_false_iff_eq] at noCall
      obtain ⟨rfl, noCall⟩ := noCall
      have enough : 18 ≤ target.strengthIn (target.targetParens .plain) :=
        le_enclosedStrength (by decide) fun bare =>
          ih target (by simp [parts]) noCall (precedence_of_targetParens bare)
      exact Nat.le_min.mpr ⟨Nat.le_refl 18, enough⟩
    | _ => simp [strength]

theorem newTarget_of_bare {target : Expr} (bare : target.newTargetParens = false) :
    target.newTargetNeedsParens = false ∧ memberPrecedence ≤ target.precedence := by
  simpa [newTargetParens] using bare

theorem le_newTargetStrength (target : Expr) :
    18 ≤ target.strengthIn target.newTargetParens :=
  le_enclosedStrength (by decide) fun bare =>
    le_strength_of_newTarget (newTarget_of_bare bare).1 (newTarget_of_bare bare).2

theorem le_newTargetEdge {target : Expr} (operators : IsOperatorExpr target) :
    18 ≤ target.edgeIn target.newTargetParens :=
  le_enclosedStrength (by decide) fun bare =>
    Nat.le_trans (newTarget_of_bare bare).2 (precedence_le_edge operators)

theorem precedence_of_isChainLink (chain : e.isChainLink) : e.precedence = memberPrecedence := by
  cases e with
  | call | dot | index => rfl
  | _ => cases chain

/-- A chain is printed without parentheses in front of a link that belongs to it. -/
theorem targetParens_continued {target : Expr} (chain : target.isChainLink) :
    target.targetParens .continued = false := by
  simp [targetParens, precedence_of_isChainLink chain]

theorem accessStrength_of_chain {target : Expr} {link : ChainLink} (chain : link ≠ .plain)
    (targetChain : link = .continued → target.isChainLink ∧ target.strength = 17) :
    link.accessStrength (target.strengthIn (target.targetParens link)) = 17 := by
  cases link with
  | plain => exact absurd rfl chain
  | start => rfl
  | continued =>
    obtain ⟨isChainLink, strength⟩ := targetChain rfl
    rw [targetParens_continued isChainLink, strengthIn, strength]
    rfl

/-- A link of a chain is as weak as a call, so that a link behind it belongs to the chain. -/
theorem strength_of_isChainLink (operators : IsOperatorExpr e) (chain : e.isChainLink) :
    e.strength = 17 := by
  induction operators with
  | identifier | number | unary | binary | conditional | new => cases chain
  | call => rfl
  | dot _ _ _ inChain _ ih =>
    exact accessStrength_of_chain (by simpa [isChainLink] using chain) fun continued =>
      ⟨inChain continued, ih (inChain continued)⟩
  | index _ _ inChain _ _ ih =>
    exact accessStrength_of_chain (by simpa [isChainLink] using chain) fun continued =>
      ⟨inChain continued, ih (inChain continued)⟩

/-- A link that is printed without an optional mark is the one that is read. -/
theorem nextLink_target {target : Expr} {link : ChainLink} (operators : IsOperatorExpr target)
    (inChain : link = .continued → target.isChainLink) :
    link = .start ∨ link = nextLink (target.phrase (target.targetParens link)) := by
  cases link with
  | start => exact .inl rfl
  | continued =>
    -- The target is a chain without parentheses around it.
    have chain := inChain rfl
    have weak : target.strengthIn false = 17 := strength_of_isChainLink operators chain
    right
    simp [nextLink, Phrase.isOpen, phrase, targetParens_continued chain, weak, chain]
  | plain =>
    -- A chain would have parentheses around it.
    right
    by_cases chain : target.isChainLink
    · simp [nextLink, Phrase.isOpen, phrase, targetParens, chain, strengthIn, enclosedStrength]
    · simp [nextLink, Phrase.isOpen, phrase, chain]

section

-- An operand of a binary operator.
variable {op : Operator} {operand : Expr}

/-- What `??` does not mix with is another choice by it, or stronger than all logical operators. -/
theorem nullish_or_stronger (operators : IsOperatorExpr operand)
    (apart : operand.mixesNullish .nullishCoalescing = false) (enough : 4 ≤ operand.precedence) :
    (∃ loc left right, operand = binary loc .nullishCoalescing left right) ∨
      6 ≤ operand.precedence := by
  cases operators with
  | @binary loc inner left right arity =>
    simp only [mixesNullish, precedence] at apart enough ⊢
    cases inner with
    | nullishCoalescing => exact .inl ⟨loc, left, right, rfl⟩
    | logicalAnd | logicalOr => cases apart
    | _ => exact .inr (by revert enough; decide)
  | unary _ _ arity => exact .inr (Nat.le_trans (by decide) (Operator.precedence_of_unary arity))
  | conditional => exact absurd enough (by simp [precedence, Operator.precedence])
  | number _ positive =>
    simp [precedence, printsMinus_of_positive positive, primaryPrecedence]
  | identifier | call | new | dot | index =>
    simp [precedence, memberPrecedence, primaryPrecedence]

/-- What stands to the right of a binary operator is printed as strong as it has to be. -/
theorem right_le_precedence (operators : IsOperatorExpr operand) (binary : op.arity = .binary)
    (enough : op.rightPrecedence ≤ operand.precedence)
    (apart : operand.mixesNullish op = false) : op.reading.right ≤ operand.precedence := by
  by_cases comma : op = .comma
  · -- Only an arrow function would be between a sequence and an assignment.
    subst comma
    have : operand.precedence ≠ 2 := precedence_ne_arrow operators
    have : 2 ≤ operand.precedence := enough
    show 3 ≤ operand.precedence
    omega
  by_cases nullish : op = .nullishCoalescing
  · -- Only another choice would be weaker than `|`, and this side does not nest.
    subst nullish
    have enough : 5 ≤ operand.precedence := enough
    rcases nullish_or_stronger operators apart (by omega) with ⟨_, _, _, rfl⟩ | stronger
    · exact absurd enough (by simp [precedence, Operator.precedence])
    · exact stronger
  · have same : op.reading.right = op.rightPrecedence := by
      cases op <;> first | rfl | contradiction
    rwa [same]

/-- What `**` takes without parentheses is an update or stronger. -/
theorem le_strength_of_base (operators : IsOperatorExpr operand)
    (notUnary : operand.isUnaryLike = false) (enough : 15 ≤ operand.precedence) :
    16 ≤ operand.strength := by
  rcases Nat.lt_or_ge 16 operand.precedence with call | operation
  · exact Nat.le_of_succ_le (le_strength call (Nat.le_refl 17))
  -- Weaker than a call, it is a unary operation, and not one in front of its operand.
  cases operators with
  | unary _ _ arity =>
    exact Nat.le_of_eq (Operator.unaryStrength_of_behind arity notUnary).symm
  | binary _ arity =>
    have := Operator.precedence_le_binary arity
    simp only [precedence] at enough
    omega
  | conditional => exact absurd enough (by simp [precedence, Operator.precedence])
  | number _ positive =>
    simp [precedence, printsMinus_of_positive positive, primaryPrecedence] at operation
  | identifier | call | new | dot | index =>
    simp [precedence, memberPrecedence, primaryPrecedence] at operation

/-- A choice by `??` is read as one only where it has no parentheses around it. -/
theorem coalesces_phrase {parens : Bool} (coalesces : (operand.phrase parens).coalesces) :
    parens = false ∧ operand.mixesNullish .logicalOr := by
  have weak := strength_of_coalesces coalesces
  have bare : parens = false := by
    cases parens with
    | false => rfl
    | true => cases weak
  refine ⟨bare, ?_⟩
  cases operand with
  | binary _ inner _ _ =>
    cases inner with
    | nullishCoalescing => rfl
    | _ => cases coalesces
  | _ => cases coalesces

theorem precedence_of_isPlace (place : operand.isPlace) :
    memberPrecedence ≤ operand.precedence := by
  cases operand with
  | identifier | dot | index => simp [precedence, memberPrecedence, primaryPrecedence]
  | _ => cases place

/-- What is printed as a left operand without parentheses is as strong as it has to be. -/
theorem left_le_strength (operators : IsOperatorExpr operand) (notNullish : op ≠ .nullishCoalescing)
    (base : op = .exponentiation → operand.isUnaryLike = false)
    (place : op.isAssignment → operand.isPlace)
    (enough : op.leftPrecedence ≤ operand.precedence) : op.reading.left ≤ operand.strength := by
  by_cases exponentiation : op = .exponentiation
  · subst exponentiation
    exact le_strength_of_base operators (base rfl) enough
  by_cases assigns : op.isAssignment
  · have call : 17 ≤ operand.strength :=
      le_strength (Nat.le_of_succ_le (precedence_of_isPlace (place assigns))) (Nat.le_refl 17)
    refine Nat.le_trans ?_ call
    cases op <;> decide
  · -- The grammar asks for no more than printing.
    have same : op.reading.left ≤ min 17 op.leftPrecedence := by
      cases op <;> first | decide | contradiction
    have := Nat.le_min.mp same
    exact le_strength (Nat.le_trans this.2 enough) this.1

/-- An operator may have what is printed as its left operand. -/
theorem takes_leftParens (operators : IsOperatorExpr operand)
    (place : op.isAssignment → operand.isPlace) :
    op.reading.takes (operand.phrase (operand.leftParens op)) := by
  have place' : op.isAssignment → operand.bare.isPlace := by simpa using place
  cases parens : operand.leftParens op with
  | true =>
    refine takes_of_enough ?_ (fun _ => ?_) place'
    · show op.reading.left ≤ 19
      cases op <;> decide
    · -- In parentheses, a choice by `??` may stand anywhere.
      refine Bool.eq_false_iff.mpr fun coalesces => ?_
      cases (coalesces_phrase coalesces).1
  | false =>
    simp only [leftParens, Bool.or_eq_false_iff, Bool.and_eq_false_imp, beq_iff_eq,
      decide_eq_false_iff_not, Nat.not_lt] at parens
    obtain ⟨⟨apart, base⟩, enough⟩ := parens
    by_cases nullish : op = .nullishCoalescing
    · subst nullish
      rcases nullish_or_stronger operators apart enough with ⟨loc, left, right, rfl⟩ | stronger
      · exact takes_of_coalesces rfl
      · exact takes_of_enough (le_strength stronger (by decide)) (fun or => by cases or) place'
    · refine takes_of_enough (left_le_strength operators nullish base place enough)
        (fun isOr => Bool.eq_false_iff.mpr fun coalesces => ?_) place'
      -- A choice by `??` would have parentheses in front of `||`.
      subst isOr
      rw [(coalesces_phrase coalesces).2] at apart
      cases apart

/-- No operator goes on inside of its left operand. -/
theorem lt_leftEdge (operators : IsOperatorExpr operand) :
    op.precedence < operand.edgeIn (operand.leftParens op) := by
  have primary : op.precedence + 1 ≤ 19 :=
    Nat.le_trans (Nat.succ_le_succ op.precedence_le_unary) (by decide)
  refine le_enclosedStrength primary fun bare => ?_
  simp only [leftParens, Bool.or_eq_false_iff, decide_eq_false_iff_not, Nat.not_lt] at bare
  exact precedence_lt_edge operators bare.2

theorem right_le_precedence_of_bare (operators : IsOperatorExpr operand)
    (binary : op.arity = .binary) (bare : operand.rightParens op = false) :
    op.reading.right ≤ operand.precedence := by
  simp only [rightParens, Bool.or_eq_false_iff, decide_eq_false_iff_not, Nat.not_lt] at bare
  exact right_le_precedence operators binary bare.2 bare.1

theorem le_rightStrength (operators : IsOperatorExpr operand) (binary : op.arity = .binary) :
    op.reading.right ≤ operand.strengthIn (operand.rightParens op) :=
  le_enclosedStrength (Nat.le_trans op.right_reading_le (by decide)) fun bare =>
    le_strength (right_le_precedence_of_bare operators binary bare) op.right_reading_le

theorem le_rightEdge (operators : IsOperatorExpr operand) (binary : op.arity = .binary) :
    op.reading.right ≤ operand.edgeIn (operand.rightParens op) :=
  le_enclosedStrength (Nat.le_trans op.right_reading_le (by decide)) fun bare =>
    Nat.le_trans (right_le_precedence_of_bare operators binary bare) (precedence_le_edge operators)

end

end Expr

end EcmaPrune
