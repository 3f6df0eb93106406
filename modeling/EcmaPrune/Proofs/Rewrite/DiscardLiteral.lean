import EcmaPrune.Proofs.Rewrite.DiscardMarks

/-! Nothing that is left of a discarded expression is a string literal, nor falls back to one. -/

namespace EcmaPrune.Expr

/-- A string literal, or a choice by `??` that falls back to one in the end. -/
def endsInString : Expr → Bool
  | string .. => true
  | binary _ .nullishCoalescing _ right => right.endsInString
  | _ => false

/-- A sequence is one of its operands or ends in no literal. -/
theorem endsInString_sequence {rests : List (Option Expr)}
    (each : ∀ rest ∈ rests, ∀ e ∈ rest, e.endsInString = false) :
    ∀ e ∈ sequence rests, e.endsInString = false :=
  forall_mem_sequence (fun _ _ _ _ => rfl) each

/-- A connective ends in no literal, and neither does a chain in its place. -/
theorem endsInString_logicalOrChain (cx : DiscardContext) (loc : Loc) {op : Operator}
    {left right : Expr} (built : (binary loc op left right).endsInString = false) :
    (logicalOrChain cx loc op left right).endsInString = false := by
  rcases logicalOrChain_cases cx loc op left right with same | ⟨_, guard, _, inserted⟩
  · rwa [same]
  · -- A chain is a member access or a call.
    have isLink := (isLink_of_insertChain? inserted).2
    generalize logicalOrChain cx loc op left right = chain at isLink ⊢
    cases chain with
    | dot | index | call => rfl
    | _ => cases isLink

theorem endsInString_discardSum (loc : Loc) (left right : Expr) :
    ∀ e ∈ discardSum (binary loc .addition left right), e.endsInString = false := by
  intro e found
  obtain ⟨⟨_, _, _, rfl⟩, _⟩ := discardSum_eq_some found
  rfl

/-- What is left of substitutions is a template or what is left of one of them. -/
theorem endsInString_discardParts {parts : List (TemplatePart × Option Expr)}
    (each : ∀ part ∈ parts, ∀ e ∈ part.2, e.endsInString = false) :
    ∀ e ∈ sequence (discardParts [] parts), e.endsInString = false := by
  refine endsInString_sequence fun rest member e isRest => ?_
  rcases mem_discardParts member with ⟨pending, rfl⟩ | ⟨part, held, rfl⟩
  · cases pending with
    | nil => cases isRest
    | cons => cases isRest; rfl
  · exact each part held e isRest

-- The equations of the recursion are worked out once, for all the proofs below.
attribute [local simp] discard

section

variable {cx : DiscardContext} {loc : Loc}

/-- Of arguments, the spread ones are put into arrays. -/
theorem endsInString_discardArgs {args : List Expr}
    (inside : ∀ arg ∈ args, ∀ e ∈ arg.discard cx, e.endsInString = false) :
    ∀ e ∈ sequence (args.map fun arg =>
      match arg.spreadArgument? with
      | some kept => some kept
      | none => arg.discard cx), e.endsInString = false := by
  refine endsInString_sequence fun rest member e isRest => ?_
  obtain ⟨arg, held, rfl⟩ := List.mem_map.mp member
  -- A spread argument leaves an array; any other one is discarded by itself.
  split at isRest
  · rename_i kept spreads
    cases isRest
    cases arg with
    | spread loc value =>
      cases spreads
      rfl
    | _ => cases spreads
  · exact inside arg held e isRest

theorem endsInString_discard_object {properties : List Property}
    (key : ∀ p ∈ properties, ∀ e ∈ p.key.discard cx, e.endsInString = false)
    (value : ∀ p ∈ properties, ∀ e ∈ p.value.bind (discard cx), e.endsInString = false) :
    ∀ e ∈ (object loc properties).discard cx, e.endsInString = false := by
  rw [discard_object]
  split
  · rintro e ⟨⟩
    rfl
  · -- Each member leaves what is left of its key and then what is left of its value.
    refine endsInString_sequence fun rest member => ?_
    obtain ⟨p, held, isRest⟩ := List.mem_flatMap.mp member
    simp only [List.mem_cons, List.not_mem_nil, or_false] at isRest
    rcases isRest with rfl | rfl
    · split
      · unfold discardKey
        split
        · rintro e ⟨⟩
          rfl
        · exact key p held
      · simp
    · exact value p held

theorem endsInString_discard_unary {op : Operator} {value : Expr} {fromIdentifier : Bool}
    (onValue : ∀ e ∈ value.discard cx, e.endsInString = false) :
    ∀ e ∈ (unary loc op value fromIdentifier).discard cx, e.endsInString = false := by
  cases op with
  | void | logicalNot =>
    rw [discard]
    exact onValue
  | typeof =>
    rw [discard]
    split
    · simp
    · exact onValue
  | _ =>
    rw [discard]
    rintro e ⟨⟩
    rfl
    all_goals
      intro same
      cases same

theorem endsInString_discard_binary {op : Operator} {left right : Expr}
    (onLeft : ∀ e ∈ left.discard cx, e.endsInString = false)
    (onRight : ∀ e ∈ right.discard cx, e.endsInString = false)
    (onGuard : ∀ e ∈ left.simplifyCondition.discard cx, e.endsInString = false) :
    ∀ e ∈ (binary loc op left right).discard cx, e.endsInString = false := by
  have pair : ∀ e ∈ sequence [left.discard cx, right.discard cx], e.endsInString = false :=
    endsInString_sequence (List.forall_mem_cons.mpr ⟨onLeft, List.forall_mem_singleton.mpr onRight⟩)
  -- Only a choice by `??` falls back to anything.
  have stays : ∀ {op : Operator}, op ≠ .nullishCoalescing →
      ∀ e ∈ some (binary loc op left right), e.endsInString = false := by
    rintro op notChoice e ⟨⟩
    cases op with
    | nullishCoalescing => exact absurd rfl notChoice
    | _ => rfl
  cases op with
  | comma | strictEquality | strictInequality =>
    rw [discard]
    exact pair
  | equality | inequality =>
    rw [discard]
    split
    · exact pair
    · exact stays (by decide)
  | logicalAnd | logicalOr =>
    rw [discard_logical cx loc rfl]
    split
    · rintro e ⟨⟩
      exact endsInString_logicalOrChain cx loc rfl
    · exact onGuard
  | nullishCoalescing =>
    rw [discard]
    split
    · rename_i rest found
      rintro e ⟨⟩
      -- The choice falls back to what is left of its right side.
      exact endsInString_logicalOrChain cx loc (onRight rest found)
    · exact onLeft
  | addition =>
    rw [discard]
    exact endsInString_discardSum loc left right
  | _ =>
    rw [discard]
    exact stays (by decide)
    all_goals
      intro same
      cases same

theorem endsInString_discard_conditional {test yes no : Expr}
    (onGuard : ∀ e ∈ test.simplifyCondition.discard cx, e.endsInString = false) :
    ∀ e ∈ (conditional loc test yes no).discard cx, e.endsInString = false := by
  rw [discard]
  split
  · exact onGuard
  · rintro e ⟨⟩
    exact endsInString_logicalOrChain cx loc rfl
  · rintro e ⟨⟩
    exact endsInString_logicalOrChain cx loc rfl
  · rintro e ⟨⟩
    rfl

theorem endsInString_discard_call {target : Expr} {args : List Expr} {link : ChainLink}
    {isPure : Bool} {kind : CallKind}
    (inside : ∀ arg ∈ args, ∀ e ∈ arg.discard cx, e.endsInString = false)
    (body : ∀ value ∈ target.calledValue?, ∀ e ∈ value.discard cx, e.endsInString = false) :
    ∀ e ∈ (call loc target args link isPure kind).discard cx, e.endsInString = false := by
  intro e found
  cases isPure with
  | true =>
    rw [discard_call_pure] at found
    exact endsInString_discardArgs inside e found
  | false =>
    rcases discard_call_cases cx loc target args link kind with
      stays | gone | ⟨value, called, same⟩ | ⟨_, _, _, _, _, _, _, returned⟩
    · cases stays.symm.trans found
      rfl
    · cases gone.symm.trans found
    · exact body value called e (same.symm.trans found)
    · cases returned.symm.trans found
      rfl

end

/-- Nothing that is left of an expression is a string literal, nor falls back to one. -/
theorem endsInString_discard (cx : DiscardContext) (e : Expr) :
    ∀ rest ∈ e.discard cx, rest.endsInString = false := by
  induction e using induction_on_discarded with
  | step e ih =>
    cases e with
    | null | undefined | missing | boolean | number | bigInt | string | this | regExp | function
    | arrow | importMeta | importIdentifier =>
      rw [discard]
      simp
    | identifier | dot | index | classExpr =>
      rw [discard]
      split
      · simp
      · rintro rest ⟨⟩
        rfl
    | spread =>
      rw [discard]
      rintro rest ⟨⟩
      rfl
    | inlinedEnum loc value comment =>
      rw [discard]
      exact ih value (by simp [discarded])
    | array loc items =>
      rw [discard]
      split
      · rintro rest ⟨⟩
        rfl
      · refine endsInString_sequence fun rest member => ?_
        obtain ⟨item, held, rfl⟩ := List.mem_map.mp member
        exact ih item held
    | object loc properties =>
      refine endsInString_discard_object (fun p held => ih p.key ?_) fun p held rest isRest => ?_
      · exact List.mem_flatMap.mpr ⟨p, held, List.mem_cons_self⟩
      · obtain ⟨value, there, left⟩ := Option.bind_eq_some_iff.mp isRest
        exact ih value (List.mem_flatMap.mpr ⟨p, held, by simp [there]⟩) rest left
    | template loc tag head parts =>
      cases tag with
      | some tag =>
        rw [discard]
        rintro rest ⟨⟩
        rfl
      | none =>
        rw [discard]
        refine endsInString_discardParts fun part member => ?_
        obtain ⟨part, held, rfl⟩ := List.mem_map.mp member
        exact ih part.value (List.mem_map_of_mem held)
    | conditional loc test yes no =>
      exact endsInString_discard_conditional (ih test.simplifyCondition (by simp [discarded]))
    | unary loc op value fromIdentifier =>
      exact endsInString_discard_unary (ih value (by simp [discarded]))
    | binary loc op left right =>
      exact endsInString_discard_binary (ih left (by simp [discarded]))
        (ih right (by simp [discarded])) (ih left.simplifyCondition (by simp [discarded]))
    | call loc target args link isPure kind =>
      refine endsInString_discard_call (fun arg member => ih arg ?_) fun value called => ih value ?_
      · exact List.mem_append_right _ member
      · exact List.mem_append_left _ (Option.mem_toList.mpr called)
    | new loc target args isPure =>
      rw [discard]
      split
      · exact endsInString_discardArgs ih
      · rintro rest ⟨⟩
        rfl

end EcmaPrune.Expr
