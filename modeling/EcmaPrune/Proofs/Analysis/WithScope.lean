import EcmaPrune.Proofs.Rewrite.ConditionRemovable

/-!
Names inside a `with` statement, in expressions that can be removed.

Reading such a name may run code of the object that the statement opens, so it keeps whatever it is
in. The one way round that is a guard: a name behind the test of its type is removed without a look
at where it stands.
-/

namespace EcmaPrune

/-- Removable substitutions have removable values. -/
theorem TemplatePart.isRemovable_of_mem {unbound : Ref → Bool} {substitutions : List TemplatePart}
    (removable : TemplatePart.allRemovable unbound substitutions) {part : TemplatePart}
    (member : part ∈ substitutions) : part.value.isRemovable unbound := by
  induction substitutions with
  | nil => cases member
  | cons first rest ih =>
    rcases first with ⟨value, tail⟩
    simp only [TemplatePart.allRemovable, Bool.and_eq_true] at removable
    rcases List.mem_cons.mp member with rfl | later
    · exact removable.1.1
    · exact ih removable.2 later

namespace Expr

/--
The parts of an expression that cannot be removed without an answer for the names in them.

Annotations answer for the targets of what they mark, and asking for the type of a name reads
nothing that has to be there.
-/
def exposedParts : Expr → List Expr
  | call _ target args _ isPure kind =>
    if isPure || kind == .publicField then args else target :: args
  | new _ target args isPure => if isPure then args else target :: args
  | dot _ target _ _ isRemovable => if isRemovable then [] else [target]
  | index _ target key _ isRemovable => if isRemovable then [key] else [target, key]
  | unary _ op value fromIdentifier =>
    if op == .typeof && fromIdentifier && value.isIdentifier then [] else [value]
  | e => e.parts

/-- An expression that is exposed in another one, at any depth. -/
inductive Exposes : Expr → Expr → Prop
  | self (e : Expr) : e.Exposes e
  | inside {e part inner : Expr} (member : part ∈ e.exposedParts) (found : part.Exposes inner) :
    e.Exposes inner

/-- A choice in which a guard lets a name be removed that an object may provide. -/
def guardsNameInWith (unbound : Ref → Bool) : Expr → Bool
  | binary _ op left right =>
    op.isAndOr && right.mustKeepInWith && right.isGuardedBy left (op == .logicalAnd) unbound
  | conditional _ test yes no =>
    (yes.mustKeepInWith && yes.isGuardedBy test true unbound) ||
      (no.mustKeepInWith && no.isGuardedBy test false unbound)
  | _ => false

variable {unbound : Ref → Bool}

/-- Nothing is exposed in a name but the name. -/
theorem eq_of_exposes_of_isIdentifier {e inner : Expr} (isName : e.isIdentifier)
    (found : e.Exposes inner) : inner = e := by
  cases found with
  | self => rfl
  | inside member =>
    cases e with
    | identifier => cases member
    | _ => cases isName

/-- A name that an object may provide is not removed by itself. -/
theorem mustKeepInWith_of_isRemovable {e : Expr} (removable : e.isRemovable unbound) :
    e.mustKeepInWith = false := by
  cases e with
  | identifier loc ref isRemovable mustKeepInWith =>
    cases mustKeepInWith with
    | false => rfl
    | true => cases removable
  | _ => rfl

/-- A branch is removed by itself or is a guarded name, and an object may provide that too. -/
theorem isRemovable_or_guarded {branch guard : Expr} {onYes : Bool}
    (removable : branch.isRemovable unbound || branch.isGuardedBy guard onYes unbound) :
    branch.isRemovable unbound ∨ branch.isIdentifier ∧ (branch.mustKeepInWith →
      branch.mustKeepInWith && branch.isGuardedBy guard onYes unbound) := by
  refine (Bool.or_eq_true_iff.mp removable).imp id fun guarded => ⟨?_, fun kept => ?_⟩
  · exact isIdentifier_of_isGuardedBy guarded
  · rw [kept, guarded]
    rfl

/-- What is exposed in a removable expression is removable, or a name behind its guard. -/
theorem isRemovable_of_mem_exposedParts {e part : Expr} (removable : e.isRemovable unbound)
    (member : part ∈ e.exposedParts) :
    part.isRemovable unbound ∨
      part.isIdentifier ∧ (part.mustKeepInWith → e.guardsNameInWith unbound) := by
  cases e with
  | inlinedEnum loc value comment =>
    cases List.mem_singleton.mp member
    exact .inl removable
  | array loc items => exact .inl (isRemovable_of_mem removable part member)
  | object loc properties =>
    obtain ⟨p, held, isPart⟩ := List.mem_flatMap.mp member
    obtain ⟨_, keyLiteral, valueRemovable⟩ := isRemovable_of_mem_properties removable held
    simp only [Property.parts, List.mem_append, List.mem_ite_nil_right, List.mem_singleton,
      Option.mem_toList] at isPart
    -- A computed key is a literal.
    rcases isPart with ⟨computed, rfl⟩ | isValue
    · exact .inl (isRemovable_of_isPrimitiveLiteral (keyLiteral computed))
    · exact .inl (valueRemovable part isValue)
  | template loc tag head substitutions =>
    obtain ⟨untagged, each⟩ := Bool.and_eq_true_iff.mp removable
    cases Option.isNone_iff_eq_none.mp untagged
    obtain ⟨substitution, held, rfl⟩ := List.mem_map.mp member
    exact .inl (TemplatePart.isRemovable_of_mem each held)
  | call loc target args link isPure kind =>
    -- A call that is not quiet cannot be removed, so its target is not exposed.
    obtain ⟨quiet, each⟩ := Bool.and_eq_true_iff.mp removable
    rw [exposedParts, if_pos quiet] at member
    exact .inl (isRemovable_of_mem each part member)
  | new loc target args isPure =>
    obtain ⟨rfl, each⟩ := Bool.and_eq_true_iff.mp removable
    exact .inl (isRemovable_of_mem each part member)
  | dot loc target name link flagged =>
    obtain rfl : flagged = true := removable
    cases member
  | index loc target key link flagged =>
    obtain ⟨rfl, keyRemovable⟩ := Bool.and_eq_true_iff.mp removable
    obtain rfl : part = key := List.mem_singleton.mp member
    exact .inl keyRemovable
  | unary loc op value fromIdentifier =>
    -- Either the operand is a name whose type is asked for, or it has to be removable as well.
    rw [exposedParts] at member
    split at member
    · cases member
    · rename_i notBare
      cases List.mem_singleton.mp member
      refine .inl ?_
      cases op with
      | typeof => exact (Bool.or_eq_true_iff.mp removable).resolve_left notBare
      | void | logicalNot => exact removable
      | _ => cases removable
  | conditional loc test yes no =>
    simp only [isRemovable, Bool.and_eq_true] at removable
    obtain ⟨⟨testRemovable, yesRemovable⟩, noRemovable⟩ := removable
    simp only [exposedParts, parts, List.mem_cons, List.not_mem_nil, or_false] at member
    rcases member with rfl | rfl | rfl
    · exact .inl testRemovable
    · refine (isRemovable_or_guarded yesRemovable).imp id (And.imp_right fun kept held => ?_)
      rw [guardsNameInWith, kept held, Bool.true_or]
    · refine (isRemovable_or_guarded noRemovable).imp id (And.imp_right fun kept held => ?_)
      rw [guardsNameInWith, kept held, Bool.or_true]
  | binary loc op left right =>
    simp only [exposedParts, parts, List.mem_cons, List.not_mem_nil, or_false] at member
    cases op with
    | logicalAnd | logicalOr =>
      obtain ⟨leftRemovable, rightRemovable⟩ := Bool.and_eq_true_iff.mp removable
      rcases member with rfl | rfl
      · exact .inl leftRemovable
      · exact (isRemovable_or_guarded rightRemovable).imp id (And.imp_right fun kept => kept)
    | strictEquality | strictInequality | comma | nullishCoalescing | equality | inequality
    | lessThan | greaterThan | lessThanOrEqual | greaterThanOrEqual =>
      simp only [isRemovable, Bool.and_eq_true] at removable
      rcases member with rfl | rfl
      · first | exact .inl removable.1 | exact .inl removable.1.2
      · exact .inl removable.2
    | _ => cases removable
  | spread => cases removable
  | _ => cases member

/-- A name of a `with` statement that is exposed in a removable expression stands behind a guard. -/
theorem exists_guardsNameInWith {e name : Expr} (found : e.Exposes name)
    (removable : e.isRemovable unbound) (kept : name.mustKeepInWith) :
    ∃ part, e.Exposes part ∧ part.guardsNameInWith unbound := by
  -- The path from the expression down to the name ends early at a part that is not removable.
  induction found with
  | self e =>
    rw [mustKeepInWith_of_isRemovable removable] at kept
    cases kept
  | @inside e part inner member found ih =>
    rcases isRemovable_of_mem_exposedParts removable member with removable | ⟨isName, guarded⟩
    · obtain ⟨holder, inPart, guards⟩ := ih removable kept
      exact ⟨holder, .inside member inPart, guards⟩
    · -- The part is the name itself, behind a guard of this expression, and nothing is in it.
      rw [eq_of_exposes_of_isIdentifier isName found] at kept
      exact ⟨e, .self e, guarded kept⟩

/-- What a guard lets be removed is exposed next to it. -/
theorem exists_mustKeepInWith_of_guards {e : Expr} (guards : e.guardsNameInWith unbound) :
    ∃ name ∈ e.exposedParts, name.mustKeepInWith := by
  cases e with
  | binary loc op left right =>
    simp only [guardsNameInWith, Bool.and_eq_true] at guards
    exact ⟨right, by simp [exposedParts, parts], guards.1.2⟩
  | conditional loc test yes no =>
    simp only [guardsNameInWith, Bool.or_eq_true, Bool.and_eq_true] at guards
    rcases guards with onYes | onNo
    · exact ⟨yes, by simp [exposedParts, parts], onYes.1⟩
    · exact ⟨no, by simp [exposedParts, parts], onNo.1⟩
  | _ => cases guards

theorem Exposes.trans {e part inner : Expr} (first : e.Exposes part) (second : part.Exposes inner) :
    e.Exposes inner := by
  induction first with
  | self => exact second
  | inside member _ ih => exact .inside member (ih second)

/--
A removable expression exposes no name of a `with` statement, unless a guard lets one be removed.

A guard that stands before such a name always lets it be removed, so that is exactly when.
-/
theorem isRemovable_respectsWith {e : Expr} (removable : e.isRemovable unbound) :
    (∀ part, e.Exposes part → part.mustKeepInWith = false) ↔
      ∀ part, e.Exposes part → part.guardsNameInWith unbound = false := by
  constructor
  · intro none part found
    refine Bool.eq_false_iff.mpr fun guards => ?_
    obtain ⟨name, member, kept⟩ := exists_mustKeepInWith_of_guards guards
    have exposed : e.Exposes name := found.trans (.inside member (.self name))
    rw [none name exposed] at kept
    cases kept
  · intro unguarded name found
    refine Bool.eq_false_iff.mpr fun kept => ?_
    obtain ⟨part, exposed, guards⟩ := exists_guardsNameInWith found removable kept
    rw [unguarded part exposed] at guards
    cases guards

/-- A name of a `with` statement whose type is asked for, next to another reference to that name. -/
theorem isRemovable_respectsWith_typeof :
    let unbound : Ref → Bool := fun _ => true
    let kept := identifier default default false true
    let test := binary default .strictInequality (unary default .typeof kept true)
      (string default (Text.units "undefined"))
    let guarded := binary default .logicalAnd test (identifier default default false false)
    guarded.isRemovable unbound ∧
      (∀ part, guarded.Exposes part → part.guardsNameInWith unbound = false) ∧
      ∀ part, guarded.Exposes part → part.mustKeepInWith = false := by
  intro unbound kept test guarded
  have removable : guarded.isRemovable unbound := by decide
  -- The operand of `typeof` is not exposed, which leaves the operations, the text and one name.
  have unguarded : ∀ part, guarded.Exposes part → part.guardsNameInWith unbound = false := by
    intro part found
    rcases found with _ | ⟨member, found⟩
    · decide
    · rcases List.mem_cons.mp member with rfl | member
      · rcases found with _ | ⟨member, found⟩
        · decide
        · rcases List.mem_cons.mp member with rfl | member
          · rcases found with _ | ⟨member, _⟩
            · decide
            · cases member
          · cases List.mem_singleton.mp member
            rcases found with _ | ⟨member, _⟩
            · decide
            · cases member
      · cases List.mem_singleton.mp member
        rw [eq_of_exposes_of_isIdentifier rfl found]
        decide
  exact ⟨removable, unguarded, (isRemovable_respectsWith removable).mpr unguarded⟩

/-- The condition `typeof x !== "undefined" && x` is removable, whatever provides the name `x`. -/
theorem isRemovable_ignoresWith :
    let unbound : Ref → Bool := fun _ => true
    let kept := identifier default default false true
    let test := binary default .strictInequality (unary default .typeof kept true)
      (string default (Text.units "undefined"))
    let guarded := binary default .logicalAnd test kept
    guarded.isRemovable unbound ∧ guarded.Exposes kept ∧ kept.mustKeepInWith ∧
      kept.isRemovable unbound = false :=
  ⟨by decide, .inside (by simp [exposedParts, parts]) (.self _), rfl, by decide⟩

end Expr

end EcmaPrune
