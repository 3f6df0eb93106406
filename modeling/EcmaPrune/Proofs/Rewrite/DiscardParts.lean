import EcmaPrune.Proofs.Rewrite.Guard
import EcmaPrune.Proofs.Rewrite.Join
import EcmaPrune.Proofs.Rewrite.Sum

/-! The steps in which expressions are discarded, and what each of them keeps. -/

namespace EcmaPrune

variable {W : Type}

/-- A value that converts to a primitive or a property name without anybody seeing it. -/
def Value.IsPlain (value : Value) : Prop := value.type ≠ .object ∧ value.type ≠ .symbol

/-- Adding a text to such a value concatenates the two, which is not observable. -/
theorem Host.add_string_silent (host : Host W) {value : Value} (plain : value.IsPlain)
    (units : List UInt16) (w : W) : (host.add value (.string units)).Silent w := by
  cases value with
  | object => exact absurd rfl plain.1
  | symbol => exact absurd rfl plain.2
  | _ => exact Run.silent_pure _ w

namespace Expr

variable (host : Host W) (loc : Loc)

/-- A sequence that is put together from the left runs its operands in order. -/
theorem effects_foldl_comma (first : Expr) (rest : List Expr) :
    (rest.foldl comma first).effects host =
      first.effects host >>= fun _ => Run.all (rest.map fun e => e.effects host) := by
  induction rest generalizing first with
  | nil => simp [Run.all]
  | cons e rest ih => simp [ih, comma, effects_comma, Run.all]

/-- A sequence runs what is there of its operands in order. -/
theorem restEffects_sequence (rests : List (Option Expr)) :
    restEffects host (sequence rests) = Run.all (rests.map (restEffects host)) := by
  -- What is absent from the list does not run.
  have present : Run.all (rests.reduceOption.map fun e => e.effects host) =
      Run.all (rests.map (restEffects host)) :=
    Run.all_filterMap fun rest _ => restEffects_eq_elim host rest
  rw [← present, sequence]
  cases rests.reduceOption with
  | nil => rfl
  | cons first rest => exact effects_foldl_comma host first rest

/-- A sequence of what is left of each item of a list runs as all items. -/
theorem restEffects_sequence_map {α : Type} {items : List α} {rest : α → Option Expr}
    {run : α → Run W Unit} (each : ∀ item ∈ items, restEffects host (rest item) = run item) :
    restEffects host (sequence (items.map rest)) = Run.all (items.map run) := by
  -- Each item is run by what is left of it.
  rw [restEffects_sequence, List.map_map]
  exact congrArg Run.all (List.map_congr_left each)

/-- A sequence of what is left of two expressions runs both. -/
theorem restEffects_pair (first second : Option Expr) :
    restEffects host (sequence [first, second]) =
      restEffects host first >>= fun _ => restEffects host second := by
  simp [restEffects_sequence, Run.all]

/-- A logical operation runs its right side after its left side, also if it has become a chain. -/
theorem effects_logicalOrChain {host : Host W} {cx : DiscardContext}
    (trusts : host.Trusts cx.unbound) (loud : host.fieldCallsAreQuiet = false) {op : Operator}
    (isAndOr : op.isAndOr) (loc : Loc) {left right : Expr}
    (takes : TakesTest cx op left right) :
    (logicalOrChain cx loc op left right).effects host = left.truth host >>= fun holds =>
      if holds = (op == .logicalAnd) then right.effects host else pure () := by
  rcases logicalOrChain_cases cx loc op left right with
    same | ⟨supported, guard, guarded, inserted⟩
  · -- Without a chain it is the operation itself that runs.
    rw [same]
    exact effects_logical host loc isAndOr left right
  · obtain ⟨nameLoc, ref, isRemovable, rfl, bound, _⟩ := eq_of_nullGuard? guarded
    -- The chain starts at the name that the test is about.
    have taken := takes supported _ guarded (by simp [inserted])
    have rooted := startsAt_of_insertChain? inserted rfl taken
    exact effects_guardedChain (Host.looksUp_of_bound trusts bound) guarded rfl inserted rooted
      (isFollowedBy_of_takesTest loud taken) (isUnbroken_of_takesTest taken)

/-- What is left of an object literal is left of its members. -/
theorem discard_object (cx : DiscardContext) (loc : Loc) (properties : List Property) :
    (object loc properties).discard cx =
      if properties.any fun p => p.kind == .spread then
        some (object loc (properties.filterMap fun p =>
          trimProperty p (p.value.bind (discard cx))))
      else sequence (properties.flatMap fun p =>
        [if p.isComputed then discardKey p.key (p.key.discard cx) else none,
          p.value.bind (discard cx)]) := by
  rw [discard.eq_def]
  dsimp only
  congr 4 <;> funext p <;> rcases p with ⟨_, _, _, _, _ | value, _⟩ <;> rfl

/-- The left side of a logical operation is a condition for what is left of the right side. -/
theorem discard_logical (cx : DiscardContext) (loc : Loc) {op : Operator} (isAndOr : op.isAndOr)
    (left right : Expr) :
    (binary loc op left right).discard cx =
      match if right.isGuardedBy left.simplifyCondition (op == .logicalAnd) cx.unbound then none
        else right.discard cx with
      | some right => some (logicalOrChain cx loc op left.simplifyCondition right)
      | none => left.simplifyCondition.discard cx := by
  cases op with
  | logicalAnd | logicalOr => exact discard.eq_def cx _
  | _ => cases isAndOr

/-- Of a call that is marked as pure only the arguments are left. -/
theorem discard_call_pure (cx : DiscardContext) (loc : Loc) (target : Expr) (args : List Expr)
    (link : ChainLink) (kind : CallKind) :
    (call loc target args link true kind).discard cx =
      sequence (args.map fun arg =>
        match arg.spreadArgument? with
        | some kept => some kept
        | none => arg.discard cx) :=
  (discard.eq_def cx _).trans (if_pos rfl)

/-- A call with arguments is not taken apart. -/
theorem discard_call_cons (cx : DiscardContext) (loc : Loc) (target arg : Expr)
    (args : List Expr) (link : ChainLink) (kind : CallKind) :
    (call loc target (arg :: args) link false kind).discard cx =
      some (call loc target (arg :: args) link false kind) := by
  refine (discard.eq_def cx _).trans ?_
  dsimp only
  split
  · contradiction
  · split <;> first | rfl | contradiction

/-- A substitution of a known type is converted without anybody seeing it. -/
theorem convert_of_known {part : TemplatePart} (known : part.value.primitiveType ≠ .unknown) :
    part.convert host = part.value.effects host := by
  refine Run.ignored_bind_silent (eval_allows host part.value) fun value allowed => ?_
  exact host.toText_silent (PrimitiveType.plain_of_allows known allowed)

/-- A template without text converts its substitutions. -/
theorem restEffects_bareTemplate (parts : List TemplatePart) :
    restEffects host (bareTemplate parts) = Run.all (parts.map fun part => part.convert host) := by
  cases parts with
  | nil => rfl
  | cons first rest =>
    rw [← TemplatePart.ignored_evalTexts, bareTemplate, restEffects, effects,
      eval_template_untagged, Run.ignored_bind]
    simp [Run.ignored]

/-- What is left of substitutions converts those that come first, and then the others. -/
theorem all_discardParts {parts : List (TemplatePart × Option Expr)} (pending : List TemplatePart)
    (same : ∀ part ∈ parts, part.1.value.primitiveType ≠ .unknown →
      restEffects host part.2 = part.1.value.effects host) :
    Run.all ((discardParts pending parts).map (restEffects host)) =
      Run.all (pending.map fun part => part.convert host) >>= fun _ =>
        Run.all (parts.map fun part => part.1.convert host) := by
  fun_induction discardParts pending parts with
  | case1 pending => simp [Run.all, restEffects_bareTemplate]
  | case2 pending part rest parts unknown ih =>
    -- The substitution joins the pending ones, without the text behind it.
    have last : TemplatePart.convert host ⟨part.value, []⟩ = part.convert host := rfl
    rw [ih fun part member => same part (by simp [member])]
    simp [Run.all, Run.all_append, last]
  | case3 pending part rest parts known ih =>
    -- A substitution of a known type is not converted any more, but still evaluated.
    have known : part.value.primitiveType ≠ .unknown := by simpa using known
    have now : restEffects host rest = part.convert host :=
      (same (part, rest) (by simp) known).trans (convert_of_known host known).symm
    have later := ih fun part member => same part (by simp [member])
    simp [Run.all, restEffects_bareTemplate, now, later]

/-- What is left of a substitution is a template or what is left of its value. -/
theorem mem_discardParts {parts : List (TemplatePart × Option Expr)} {pending : List TemplatePart}
    {rest : Option Expr} (member : rest ∈ discardParts pending parts) :
    (∃ pending, rest = bareTemplate pending) ∨ ∃ part ∈ parts, rest = part.2 := by
  fun_induction discardParts pending parts with
  | case1 pending => exact .inl ⟨pending, by simpa using member⟩
  | case2 pending part rest parts unknown ih =>
    exact (ih member).imp_right fun ⟨part, held, same⟩ => ⟨part, by simp [held], same⟩
  | case3 pending part rest parts known ih =>
    simp only [List.mem_cons] at member
    rcases member with isTemplate | isRest | member
    · exact .inl ⟨pending, isTemplate⟩
    · exact .inr ⟨(part, rest), by simp, isRest⟩
    · exact (ih member).imp_right fun ⟨part, held, same⟩ => ⟨part, by simp [held], same⟩

/-- What is left of substitutions, each of which comes with it, runs as their template. -/
theorem restEffects_discardParts {parts : List (TemplatePart × Option Expr)} (head : List UInt16)
    (same : ∀ part ∈ parts, part.1.value.primitiveType ≠ .unknown →
      restEffects host part.2 = part.1.value.effects host) :
    restEffects host (sequence (discardParts [] parts)) =
      (template loc none head (parts.map Prod.fst)).effects host := by
  have converts : (template loc none head (parts.map Prod.fst)).effects host =
      Run.all (parts.map fun part => part.1.convert host) := by
    rw [effects, eval_template_untagged, Run.ignored_bind,
      show parts.map (fun part => part.1.convert host) =
        (parts.map Prod.fst).map fun part => part.convert host by simp,
      ← TemplatePart.ignored_evalTexts]
    simp [Run.ignored]
  rw [restEffects_sequence, all_discardParts host [] same, converts, List.map_nil, Run.all,
    pure_bind]

/-- A member that is trimmed to what is left of its value runs as the whole member. -/
theorem eval_trimProperty {p : Property} {rest : Option Expr}
    (same : p.kind ≠ .spread → restEffects host rest = (evalOption host p.value).ignored) :
    (trimProperty p rest).elim (pure ()) (Property.eval host) = p.eval host := by
  unfold trimProperty
  split
  · rfl
  · rename_i notSpread
    have notSpread : p.kind ≠ .spread := by simpa using notSpread
    -- What is left of the value runs as the value does.
    rw [Property.eval, if_neg notSpread, ← same notSpread]
    split
    · rename_i value
      rw [Option.elim_some, Property.eval, if_neg notSpread, evalOption_some]
      rfl
    · split
      · -- The key is still computed, with a value that does nothing.
        rw [Option.elim_some, Property.eval, if_neg notSpread, evalOption_some, eval_number]
        rfl
      · rename_i notComputed
        rw [Option.elim_none, Property.evalKey, if_neg notComputed]
        rfl

/-- What is left of a key runs as its conversion if nobody sees that. -/
theorem restEffects_discardKey {key : Expr} {rest : Option Expr}
    (plain : key.primitiveType = .unknown → (key.eval host).Always Value.IsPlain)
    (same : key.primitiveType ≠ .unknown → restEffects host rest = key.effects host) :
    restEffects host (discardKey key rest) = (key.eval host >>= host.toKey).ignored := by
  have always : (key.eval host).Always Value.IsPlain := by
    by_cases unknown : key.primitiveType = .unknown
    · exact plain unknown
    · exact (eval_allows host key).imp fun _ => PrimitiveType.plain_of_allows unknown
  have silent : (key.eval host >>= host.toKey).ignored = key.effects host :=
    Run.ignored_bind_silent always fun _ isPlain => host.toKey_silent isPlain
  rw [discardKey, silent]
  split
  · -- The key is added to a text, which converts it in another way but is not seen either.
    rw [restEffects, effects, eval_binary host key.loc rfl,
      Run.ignored_bind_silent always fun value isPlain => ?_]
    · rfl
    · intro w
      rw [emptyString, eval_string, pure_bind]
      exact host.add_string_silent isPlain [] w
  · rename_i known
    exact same (by simpa using known)

end Expr

end EcmaPrune
