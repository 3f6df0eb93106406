import EcmaPrune.Proofs.Rewrite.Chain

/-!
What making a chain optional changes: the parts of its links down to the outermost one whose target
looks like the guard, and nothing else.
-/

namespace EcmaPrune

/-- The parts of links, outermost first, where a chain gets a new start at one of them. -/
def ChainLink.startedAt (place : Nat) (links : List ChainLink) : List ChainLink :=
  (links.take place).map behindStart ++ start :: links.drop (place + 1)

/-- A new start takes the place of one link. -/
theorem ChainLink.length_startedAt {place : Nat} {links : List ChainLink}
    (inside : place < links.length) : (startedAt place links).length = links.length := by
  simp only [startedAt, List.length_append, List.length_map, List.length_take, List.length_cons,
    List.length_drop]
  omega

namespace Expr

/-- The links of a chain from the outermost inwards: the part that each plays, and its target. -/
def spine : Expr → List (ChainLink × Expr)
  | dot _ target _ link _ | index _ target _ link _ | call _ target _ link _ _ =>
    (link, target) :: target.spine
  | _ => []

/-- The parts that the links of a chain play, from the outermost link inwards. -/
def links (e : Expr) : List ChainLink := e.spine.map (·.1)

/-- The targets of the links of a chain, from the outermost link inwards. -/
def targets (e : Expr) : List Expr := e.spine.map (·.2)

/-- The same chain where the links, from the outermost inwards, play other parts. -/
def withLinks (e : Expr) (links : List ChainLink) : Expr :=
  match e, links with
  | dot loc target name _ isRemovable, link :: rest =>
    dot loc (target.withLinks rest) name link isRemovable
  | index loc target key _ isRemovable, link :: rest =>
    index loc (target.withLinks rest) key link isRemovable
  | call loc target args _ isPure kind, link :: rest =>
    call loc (target.withLinks rest) args link isPure kind
  | e, _ => e

/--
Makes a chain optional where it stands: whether a link was found, and what has become of the
expression.

Whatever the search leaves of a target is what the link around it stands on afterwards.
-/
def insertChainInPlace (guard e : Expr) : Bool × Expr :=
  match e with
  | dot loc target name link isRemovable =>
    if guard.looksLike target then (true, dot loc target name .start isRemovable)
    else
      let inner := insertChainInPlace guard target
      (inner.1, dot loc inner.2 name (if inner.1 then link.behindStart else link) isRemovable)
  | index loc target key link isRemovable =>
    if guard.looksLike target then (true, index loc target key .start isRemovable)
    else
      let inner := insertChainInPlace guard target
      (inner.1, index loc inner.2 key (if inner.1 then link.behindStart else link) isRemovable)
  | call loc target args link isPure kind =>
    if guard.looksLike target then (true, call loc target args .start isPure kind)
    else
      let inner := insertChainInPlace guard target
      (inner.1, call loc inner.2 args (if inner.1 then link.behindStart else link) isPure kind)
  | e => (false, e)

section

variable (loc : Loc) (target key : Expr) (name : String) (args : List Expr) (link : ChainLink)
  (flag : Bool) (kind : CallKind)

@[simp] theorem links_dot : (dot loc target name link flag).links = link :: target.links := rfl

@[simp] theorem links_index : (index loc target key link flag).links = link :: target.links := rfl

@[simp] theorem links_call : (call loc target args link flag kind).links = link :: target.links :=
  rfl

@[simp] theorem targets_dot : (dot loc target name link flag).targets = target :: target.targets :=
  rfl

@[simp] theorem targets_index :
    (index loc target key link flag).targets = target :: target.targets := rfl

@[simp] theorem targets_call :
    (call loc target args link flag kind).targets = target :: target.targets := rfl

end

/-- What is no link has no spine, and stays as it is. -/
theorem spine_of_isLink {e : Expr} (other : e.isLink = false) :
    e.spine = [] ∧ (∀ links, e.withLinks links = e) ∧
      ∀ guard, insertChainInPlace guard e = (false, e) ∧ e.insertChain? guard = none := by
  cases e with
  | dot | index | call => cases other
  | _ => exact ⟨rfl, fun _ => rfl, fun _ => ⟨rfl, rfl⟩⟩

/-- A proof about the links of a chain goes from each link to its target. -/
@[elab_as_elim]
theorem induction_on_links {motive : Expr → Prop}
    (dot : ∀ loc target name link isRemovable, motive target →
      motive (dot loc target name link isRemovable))
    (index : ∀ loc target key link isRemovable, motive target →
      motive (index loc target key link isRemovable))
    (call : ∀ loc target args link isPure kind, motive target →
      motive (call loc target args link isPure kind))
    (other : ∀ e, e.isLink = false → motive e) (e : Expr) : motive e := by
  fun_induction spine e with
  | case1 loc target name link isRemovable ih => exact dot _ _ _ _ _ ih
  | case2 loc target key link isRemovable ih => exact index _ _ _ _ _ ih
  | case3 loc target args link isPure kind ih => exact call _ _ _ _ _ _ ih
  | case4 e notDot notIndex notCall =>
    refine other e ?_
    cases e with
    | dot => exact (notDot _ _ _ _ _ rfl).elim
    | index => exact (notIndex _ _ _ _ _ rfl).elim
    | call => exact (notCall _ _ _ _ _ _ rfl).elim
    | _ => rfl

/-! ### Parts given to links -/

/-- The parts that the links play already change nothing. -/
theorem withLinks_links (e : Expr) : e.withLinks e.links = e := by
  induction e using induction_on_links with
  | dot loc target name link isRemovable ih => exact congrArg (dot loc · name link isRemovable) ih
  | index loc target key link isRemovable ih =>
    exact congrArg (index loc · key link isRemovable) ih
  | call loc target args link isPure kind ih =>
    exact congrArg (call loc · args link isPure kind) ih
  | other e notLink =>
    obtain ⟨_, stays, _⟩ := spine_of_isLink notLink
    rw [stays]

/-- Giving the links their old parts back undoes any change of them. -/
theorem withLinks_withLinks_links (e : Expr) (links : List ChainLink) :
    (e.withLinks links).withLinks e.links = e := by
  induction e using induction_on_links generalizing links with
  | dot loc target name link isRemovable ih =>
    -- Where no parts are given any more, the rest of the chain is as it was.
    cases links with
    | nil => exact withLinks_links _
    | cons part rest => exact congrArg (dot loc · name link isRemovable) (ih rest)
  | index loc target key link isRemovable ih =>
    cases links with
    | nil => exact withLinks_links _
    | cons part rest => exact congrArg (index loc · key link isRemovable) (ih rest)
  | call loc target args link isPure kind ih =>
    cases links with
    | nil => exact withLinks_links _
    | cons part rest => exact congrArg (call loc · args link isPure kind) (ih rest)
  | other e notLink =>
    obtain ⟨_, stays, _⟩ := spine_of_isLink notLink
    rw [stays, stays]

/-- The links of a chain play the parts they are given. -/
theorem links_withLinks (e : Expr) {links : List ChainLink}
    (fits : links.length = e.links.length) : (e.withLinks links).links = links := by
  induction e using induction_on_links generalizing links with
  | dot loc target name link isRemovable ih
  | index loc target key link isRemovable ih
  | call loc target args link isPure kind ih =>
    obtain ⟨part, rest, rfl⟩ := List.exists_cons_of_length_eq_add_one fits
    exact congrArg (part :: ·) (ih (Nat.succ.inj fits))
  | other e notLink =>
    obtain ⟨alone, stays, _⟩ := spine_of_isLink notLink
    have empty : e.links = [] := by rw [Expr.links, alone, List.map_nil]
    rw [stays, empty, List.eq_nil_of_length_eq_zero (fits.trans (congrArg List.length empty))]

/-! ### The search -/

/-- What is left in place is what the search finds, and nothing is found otherwise. -/
theorem insertChain?_eq (e guard : Expr) :
    e.insertChain? guard =
      if (insertChainInPlace guard e).1 then some (insertChainInPlace guard e).2 else none := by
  induction e using induction_on_links with
  | dot loc target name link isRemovable ih
  | index loc target key link isRemovable ih
  | call loc target args link isPure kind ih =>
    rw [insertChain?, insertChainInPlace]
    -- Either the search ends at this link, or it goes on with its target.
    by_cases alike : guard.looksLike target
    · simp [alike]
    · cases found : (insertChainInPlace guard target).1 <;> simp [alike, ih, found]
  | other e notLink =>
    obtain ⟨_, _, stays⟩ := spine_of_isLink notLink
    rw [(stays guard).1, (stays guard).2]
    rfl

/-- The outermost link whose target looks like the guard becomes the start of the chain. -/
theorem insertChainInPlace_eq (guard e : Expr) :
    insertChainInPlace guard e =
      match e.targets.findIdx? guard.looksLike with
      | some place => (true, e.withLinks (ChainLink.startedAt place e.links))
      | none => (false, e) := by
  induction e using induction_on_links with
  | dot loc target name link isRemovable ih
  | index loc target key link isRemovable ih
  | call loc target args link isPure kind ih =>
    rw [insertChainInPlace]
    by_cases alike : guard.looksLike target
    · -- The links further in play the parts they did.
      simp [alike, List.findIdx?_cons, withLinks, ChainLink.startedAt, withLinks_links]
    · simp only [ih]
      cases found : target.targets.findIdx? guard.looksLike <;>
        simp [alike, List.findIdx?_cons, found, withLinks, ChainLink.startedAt]
  | other e notLink =>
    obtain ⟨alone, _, stays⟩ := spine_of_isLink notLink
    simp [(stays guard).1, targets, alone]

/--
Making a chain optional starts it at the outermost link whose target looks like the guard.

The links around that one join the chain unless they start or continue one, and nothing else
changes: with the old parts given back to the links, the expression is the old one. Without such a
link it is the old one right away.
-/
theorem insertChain_startsOutermost (guard e : Expr) :
    (insertChainInPlace guard e =
        match e.targets.findIdx? guard.looksLike with
        | some place => (true, e.withLinks (ChainLink.startedAt place e.links))
        | none => (false, e)) ∧
      ((insertChainInPlace guard e).2.links =
        match e.targets.findIdx? guard.looksLike with
        | some place => ChainLink.startedAt place e.links
        | none => e.links) ∧
      (insertChainInPlace guard e).2.withLinks e.links = e ∧
      e.insertChain? guard =
        if (insertChainInPlace guard e).1 then some (insertChainInPlace guard e).2 else none := by
  refine ⟨insertChainInPlace_eq guard e, ?_, ?_, insertChain?_eq e guard⟩
  · rw [insertChainInPlace_eq]
    cases found : e.targets.findIdx? guard.looksLike with
    | none => rfl
    | some place =>
      -- The place is one of a link, so there is a part for each link.
      have inside : place < e.links.length := by
        have := (List.findIdx?_eq_some_iff_getElem.mp found).1
        simpa [links, targets] using this
      exact links_withLinks e (ChainLink.length_startedAt inside)
  · rw [insertChainInPlace_eq]
    cases e.targets.findIdx? guard.looksLike with
    | none => exact withLinks_links e
    | some place => exact withLinks_withLinks_links e _

/-- A link that starts a chain of its own stays as it is around the new start. -/
example :
    let name := identifier default ⟨0⟩ false false
    let chain (inner outer : ChainLink) :=
      dot default (dot default (dot default name "x" inner false) "y" .start false) "z" outer false
    insertChainInPlace name (chain .plain .plain) = (true, chain .start .continued) := rfl

end Expr

end EcmaPrune
