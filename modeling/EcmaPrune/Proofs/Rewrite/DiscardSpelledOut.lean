import EcmaPrune.Proofs.Rewrite.ConditionSpelledOut
import EcmaPrune.Proofs.Rewrite.Kept

/-! Discarding expressions keeps what calls of function literals in them run. -/

namespace EcmaPrune.Expr

variable {W : Type}

-- Expressions are spelled out one constructor at a time.
attribute [local simp] spelledOut TemplatePart.mapExpr Property.mapExprs

/-- What can be spelled out as the target of a call is written out as a function. -/
theorem not_literal_of_callSpelledOut? {target value : Expr} {loc : Loc}
    (called : target.callSpelledOut? loc = some value) {guard : Expr} (named : guard.isIdentifier) :
    guard.looksLike target = false ∧ target.insertChain? guard = none := by
  cases guard with
  | identifier =>
    cases target with
    | function | arrow => exact ⟨rfl, rfl⟩
    | _ => cases called
  | _ => cases named

/-- A chain of links is not written out as a function. -/
theorem callSpelledOut?_insertChain? {e guard chain : Expr}
    (inserted : e.insertChain? guard = some chain) (loc : Loc) :
    chain.callSpelledOut? loc = none := by
  cases e with
  | dot | index | call =>
    simp only [insertChain?] at inserted
    split at inserted
    · cases inserted; rfl
    · obtain ⟨_, _, rfl⟩ := Option.map_eq_some_iff.mp inserted; rfl
  | _ => cases inserted

/-- A name is asked for at the same link of a chain. -/
theorem insertChain?_spelledOut {guard : Expr} (named : guard.isIdentifier) (e : Expr) :
    e.spelledOut.insertChain? guard = (e.insertChain? guard).map spelledOut := by
  induction e using induction_on_parts with
  | step e ih =>
    cases e with
    | dot loc target | index loc target =>
      simp only [spelledOut, insertChain?, looksLike_spelledOut named, ih target (by simp [parts])]
      split
      · simp
      · cases target.insertChain? guard <;> simp
    | call loc target args link isPure kind =>
      have inside := ih target (by simp [parts])
      cases inPlace : (call loc target args link isPure kind).inPlace? with
      | some value =>
        -- A call that is spelled out is no link that a chain could start at.
        obtain ⟨unlike, unchained⟩ : guard.looksLike target = false ∧
            target.insertChain? guard = none := by
          rw [inPlace?] at inPlace
          split at inPlace
          · cases inPlace
          · exact not_literal_of_callSpelledOut? inPlace named
        rw [spelledOut_call, inPlace]
        simp [insertChain?, unlike, unchained, veiled]
      | none =>
        rw [spelledOut_call_of_stays inPlace]
        simp only [insertChain?, looksLike_spelledOut named, inside]
        split
        · -- The call is the link that gets the new start.
          have stays : (call loc target args .start isPure kind).inPlace? = none := inPlace
          rw [Option.map_some, spelledOut_call_of_stays stays]
        · -- The link is further in, so that the target is still a chain.
          cases inserted : target.insertChain? guard with
          | none => rfl
          | some chain =>
            have stays : (call loc chain args link.behindStart isPure kind).inPlace? = none := by
              simp [inPlace?, callSpelledOut?_insertChain? inserted]
            simp only [Option.map_some]
            rw [spelledOut_call_of_stays stays]
    | _ => rfl

/-- What is only asked of names is the same of what an expression falls back to. -/
theorem apply_unwrapped_spelledOut {f : Expr → Bool}
    (ofNames : ∀ e : Expr, e.isIdentifier = false → f e = false) (e : Expr) :
    f e.spelledOut.unwrapped = f e.unwrapped := by
  induction e using induction_on_parts with
  | step e ih =>
    cases e with
    | inlinedEnum loc value comment => exact ih value (by simp [parts])
    | identifier => rfl
    | call =>
      refine Eq.trans ?_ (ofNames _ rfl).symm
      exact apply_spelledOut_call (fun e => f e.unwrapped) (fun _ => ofNames _ rfl)
        fun _ _ => ofNames _ rfl
    | _ => exact (ofNames _ rfl).trans (ofNames _ rfl).symm

theorem isIdentifier_unwrapped_spelledOut (e : Expr) :
    e.spelledOut.unwrapped.isIdentifier = e.unwrapped.isIdentifier :=
  apply_unwrapped_spelledOut (fun _ => id) e

theorem mustKeepInWith_unwrapped_spelledOut (e : Expr) :
    e.spelledOut.unwrapped.mustKeepInWith = e.unwrapped.mustKeepInWith :=
  apply_unwrapped_spelledOut (fun e notName => by cases e <;> first | rfl | cases notName) e

/-- What is spelled out is no link, so that a chain is cut short in no more places. -/
theorem mayBeCut_of_spelledOut (e : Expr) (cut : e.spelledOut.mayBeCut) : e.mayBeCut := by
  induction e using induction_on_parts with
  | step e ih =>
    cases e with
    | dot loc target | index loc target =>
      have inside := ih target (by simp [parts])
      simp only [spelledOut, mayBeCut, isIdentifier_unwrapped_spelledOut, Bool.and_eq_true,
        Bool.or_eq_true] at cut ⊢
      exact cut.imp_right (Or.imp_right (And.imp_right inside))
    | call loc target args link isPure kind =>
      have inside := ih target (by simp [parts])
      cases inPlace : (call loc target args link isPure kind).inPlace? with
      | some value =>
        rw [spelledOut_call, inPlace] at cut
        cases cut
      | none =>
        rw [spelledOut_call_of_stays inPlace] at cut
        simp only [mayBeCut, isIdentifier_unwrapped_spelledOut, Bool.and_eq_true,
          Bool.or_eq_true] at cut ⊢
        exact cut.imp_right (Or.imp_right (And.imp_right inside))
    | _ => cases cut

/-- A link joins in being skipped if it did before its target was spelled out. -/
theorem joins_spelledOut {link : ChainLink} {target : Expr}
    (joins : (link != .plain || !target.mayBeCut) = true) :
    (link != .plain || !target.spelledOut.mayBeCut) = true := by
  have less := mayBeCut_of_spelledOut target
  simp only [Bool.or_eq_true, Bool.not_eq_true'] at joins ⊢
  exact joins.imp_right fun uncut => by simpa [uncut] using less

/-- A chain that may take in a test still may once the calls in it are spelled out. -/
theorem takesTest_spelledOut (e : Expr) (taken : e.takesTest) : e.spelledOut.takesTest := by
  induction e using induction_on_parts with
  | step e ih =>
    cases e with
    | dot loc target | index loc target =>
      have inside := ih target (by simp [parts])
      simp only [spelledOut, takesTest, Bool.and_eq_true] at taken ⊢
      exact ⟨⟨taken.1.1, joins_spelledOut taken.1.2⟩, inside taken.2⟩
    | call loc target args link isPure kind =>
      have inside := ih target (by simp [parts])
      cases inPlace : (call loc target args link isPure kind).inPlace? with
      | some value =>
        -- What stands in the place of the call starts no chain.
        rw [spelledOut_call, inPlace]
        rfl
      | none =>
        rw [spelledOut_call_of_stays inPlace]
        simp only [takesTest, Bool.and_eq_true] at taken ⊢
        exact ⟨⟨taken.1.1, joins_spelledOut taken.1.2⟩, inside taken.2⟩
    | _ =>
      change (!(spelledOut _).unwrapped.mustKeepInWith) = true
      rw [mustKeepInWith_unwrapped_spelledOut]
      exact taken

/-- A name that is tested against null stays. -/
theorem nullGuard?_spelledOut (unbound : Ref → Bool) (op : Operator) (e : Expr) :
    e.spelledOut.nullGuard? unbound op = e.nullGuard? unbound op := by
  -- A call is neither a name nor null, and neither is what stands in its place.
  cases e with
  | call => exact apply_spelledOut_call (nullGuard? unbound op) (fun _ => rfl) fun _ _ => rfl
  | binary loc test left right =>
    cases left with
    | identifier nameLoc ref isRemovable mustKeepInWith =>
      cases right with
      | call =>
        rw [spelledOut]
        refine (apply_spelledOut_call (fun right => (binary loc test _ right).nullGuard? unbound op)
          (fun _ => ?_) fun _ _ => ?_) <;> cases mustKeepInWith <;> rfl
      | _ => cases mustKeepInWith <;> rfl
    | null =>
      cases right with
      | call =>
        rw [spelledOut]
        exact apply_spelledOut_call (fun right => (binary loc test _ right).nullGuard? unbound op)
          (fun _ => rfl) fun _ _ => rfl
      | _ => rfl
    | call =>
      rw [spelledOut]
      exact apply_spelledOut_call (fun left => (binary loc test left _).nullGuard? unbound op)
        (fun _ => rfl) fun _ _ => rfl
    | _ => rfl
  | _ => rfl

/-- Only a string literal is spelled out as one. -/
theorem notString_spelledOut {e : Expr} (other : ∀ loc units, e ≠ string loc units) (loc : Loc)
    (units : List UInt16) : e.spelledOut ≠ string loc units := by
  cases e with
  | string => exact absurd rfl (other _ _)
  | call callLoc target args link isPure kind =>
    rcases spelledOut_call_eq callLoc target args link isPure kind with
      ⟨_, same⟩ | ⟨_, _, same⟩ <;>
      (rw [same]; simp [veiled])
  | _ => simp

/-- The same strings of a sum are blanked. -/
@[simp] theorem blankStrings_spelledOut (e : Expr) :
    e.spelledOut.blankStrings = (e.blankStrings.1.spelledOut, e.blankStrings.2) := by
  induction e using induction_on_sum with
  | literal loc units => rfl
  | addLiteral loc left rightLoc units ih =>
    simp only [spelledOut, blankStrings_addition_string, ih]
    split <;> simp [emptyString]
  | add loc left right other ih =>
    rw [blankStrings_addition loc left other, spelledOut,
      blankStrings_addition _ _ (notString_spelledOut other), ih]
    simp
  | other e notString notSum =>
    rw [blankStrings_other notString notSum,
      blankStrings_other (notString_spelledOut notString) ?_]
    cases e with
    | binary loc op left right =>
      rintro _ _ _ ⟨⟩
      exact notSum _ _ _ rfl
    | call callLoc target args link isPure kind =>
      rcases spelledOut_call_eq callLoc target args link isPure kind with
        ⟨_, same⟩ | ⟨_, _, same⟩ <;>
      (rw [same]; simp [veiled])
    | _ => simp

/-- Spelling out calls is a translation of expressions. -/
theorem isTranslation_spelledOut : IsTranslation spelledOut where
  leaf {e} leaf := by
    cases e with
    | call | array | object | spread | template | inlinedEnum | dot | index | new | conditional
    | unary | binary => cases leaf
    | _ => rfl
  function _ _ := rfl
  arrow _ _ _ _ _ := rfl
  classExpr _ _ := rfl
  array _ _ := by simp
  object _ _ := by simp
  spread _ _ := rfl
  template _ _ _ _ := by simp
  inlinedEnum _ _ _ := rfl
  dot _ _ _ _ _ := rfl
  index _ _ _ _ _ := rfl
  call := spelledOut_call_of_stays
  new _ _ _ _ := by simp
  conditional _ _ _ _ := rfl
  unary _ _ _ _ := rfl
  binary _ _ _ _ := rfl
  loc := loc_spelledOut
  isIdentifier := isIdentifier_spelledOut
  stringUnits? := stringUnits?_spelledOut
  primitiveType := primitiveType_spelledOut
  producesPrimitive := producesPrimitive_spelledOut
  isGuardedBy := isGuardedBy_spelledOut
  nullGuard? := nullGuard?_spelledOut
  insertChain? := insertChain?_spelledOut
  takesTest {e} := takesTest_spelledOut e
  blankStrings := blankStrings_spelledOut
  simplifyCondition := simplifyCondition_spelledOut

/-- What stands in the place of a call is made of the value in its function, if there is one. -/
theorem callSpelledOut?_cases {loc : Loc} {target value : Expr}
    (called : target.callSpelledOut? loc = some value) :
    (target.calledValue? = none ∧ (value = object loc [] ∨ value = undefined loc)) ∨
      ∃ e, target.calledValue? = some e ∧
        (value = unary loc .void e.spelledOut false ∨ value = e.spelledOut) := by
  unfold callSpelledOut? at called
  split at called
  · -- A function that does nothing gives an object if it is asynchronous or a generator.
    split at called
    · cases called
      left
      split <;> simp [calledValue?]
    · cases called
  · cases called
    left
    split <;> simp [calledValue?]
  · cases called
    exact .inr ⟨_, rfl, .inl rfl⟩
  · cases called
    exact .inl ⟨rfl, .inr rfl⟩
  · cases called
    exact .inr ⟨_, rfl, .inr rfl⟩
  · cases called

section

variable (host : Host W) (loc : Loc)

/-- What is veiled is evaluated as it is. -/
@[simp] theorem eval_veiled (value : Expr) : (veiled loc value).eval host = value.eval host := by
  simp [veiled, eval_inlinedEnum, eval_conditional, eval_importMeta, Value.toBoolean]

@[simp] theorem effects_veiled (value : Expr) :
    (veiled loc value).effects host = value.effects host := by
  rw [effects, eval_veiled]
  rfl

/-- What stands in the place of a call does what the value in its function does, if there is one. -/
theorem effects_callSpelledOut? {target value : Expr}
    (called : target.callSpelledOut? loc = some value) :
    value.effects host = (evalOption host (target.calledValue?.map spelledOut)).ignored := by
  rcases callSpelledOut?_cases called with ⟨empty, isNew⟩ | ⟨e, held, isValue⟩
  · rw [empty, Option.map_none, evalOption_none, Run.ignored_pure]
    -- Nobody sees an empty object being created.
    rcases isNew with rfl | rfl
    · rw [effects_object]
      rfl
    · simp [effects]
  · rw [held, Option.map_some, evalOption_some]
    rcases isValue with rfl | rfl
    · exact effects_unary_silent host loc rfl (fun _ w => Run.silent_pure _ w) _ _
    · rfl

/-- Of a call that is spelled out the value in its function is discarded in turn. -/
theorem discard_called (cx : DiscardContext) {target value : Expr} (link : ChainLink)
    (kind : CallKind) (called : target.callSpelledOut? loc = some value) :
    (call loc target [] link false kind).discard cx = target.calledValue?.bind (discard cx) := by
  refine (discard.eq_def cx _).trans ?_
  dsimp only
  rw [if_neg (by simp)]
  unfold callSpelledOut? at called
  -- Both definitions tell the same shapes apart.
  split at called
  · split at called
    · rename_i isEmpty
      exact if_pos isEmpty
    · cases called
  · rfl
  · rfl
  · rfl
  · rfl
  · cases called

/-- The value in a function that is called at once is all that is discarded in turn. -/
theorem visited_called (cx : DiscardContext) {target value : Expr} (link : ChainLink)
    (kind : CallKind) (called : target.callSpelledOut? loc = some value) :
    (call loc target [] link false kind).visited cx = target.calledValue?.toList := by
  have notAsync : target.isAsyncArrow = false ∨ target.calledValue? = none := by
    unfold callSpelledOut? at called
    split at called <;> first | exact .inl rfl | exact .inr rfl | cases called
  rw [visited, if_neg (by simp)]
  rcases notAsync with sync | empty
  · rw [sync]
    rfl
  · simp [empty]

end

variable {host : Host W} {cx : DiscardContext}

/-- What is left of a call that is spelled out runs as what stands in its place. -/
theorem restEffects_discard_called {loc : Loc} {target value : Expr} (link : ChainLink)
    (kind : CallKind) (called : target.callSpelledOut? loc = some value)
    (inside : ∀ part ∈ (call loc target [] link false kind).visited cx,
      part.IsKeptBy host cx spelledOut) :
    restEffects host (((call loc target [] link false kind).discard cx).map spelledOut) =
      value.effects host := by
  rw [discard_called loc cx link kind called, effects_callSpelledOut? host loc called]
  rw [visited_called loc cx link kind called] at inside
  exact restEffects_bind_discard fun e held => inside e (Option.mem_toList.mpr held)

/-- Discarding an expression keeps it with its calls of function literals spelled out. -/
theorem isKeptBy_spelledOut (trusts : host.Trusts cx.unbound)
    (loud : host.fieldCallsAreQuiet = false) {e : Expr}
    (all : e.ThroughoutVisited cx (DiscardSafe host cx spelledOut)) :
    e.IsKeptBy host cx spelledOut := by
  refine isKeptBy_of_safe isTranslation_spelledOut trusts loud (fun _ => id)
    (fun e value spelled _ inside => ?_) all
  cases e with
  | call loc target args link isPure kind =>
    rw [IsKeptBy, spelledOut_call, spelled]
    simp only [inPlace?] at spelled
    split at spelled
    · cases spelled
    · rename_i immediate
      obtain ⟨rfl, rfl⟩ : isPure = false ∧ args = [] := by simpa using immediate
      -- Only the value in the function is discarded in turn.
      rw [effects_veiled]
      exact restEffects_discard_called link kind spelled inside
  | _ => cases spelled

end EcmaPrune.Expr
