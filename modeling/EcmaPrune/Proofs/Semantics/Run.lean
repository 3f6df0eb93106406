import EcmaPrune.Proofs.Semantics.Value
import EcmaPrune.Tree

/-! Computations in a world: what they make observable, where they leave the world, how they end. -/

namespace EcmaPrune

/-- What converting an object to a primitive asks for. -/
inductive Hint where
  | default
  | number
  | string
deriving DecidableEq, Inhabited, Repr

/-- What an expression refers to: a value, or a place that can be read, assigned and deleted. -/
inductive Referent where
  | value (value : Value)
  | name (ref : Ref) (isRemovable mustKeepInWith : Bool)
  | member (base key : Value)
  /-- An annotated access, whose target is not evaluated; it keeps what its key evaluated to. -/
  | annotated (loc : Loc) (key : List Value)
deriving DecidableEq, Inhabited, Repr

/-- What the world around an expression gets to see, and answers. -/
inductive Event where
  | read (ref : Ref)
  | get (base key : Value)
  /-- A call, with what its target refers to, so that methods know what they are called on. -/
  | call (target : Referent) (function : Value) (args : List Value) (kind : CallKind)
  | construct (function : Value) (args : List Value)
  | tag (loc : Loc) (target : Referent) (function : Value) (values : List Value)
  /-- Running through all items of a value, which stand together as the answer. -/
  | iterate (value : Value)
  /-- Taking the next item of a value that is destructured, or all that are left. -/
  | nextItem (value : Value)
  | restItems (value : Value)
  /-- Reading all properties of a value, into an object literal or the rest of a pattern. -/
  | copyProperties (value : Value)
  | assign (target : Referent) (value : Value)
  | delete (target : Referent)
  | convert (hint : Hint) (object : Nat)
  | has (object key : Value)
  | instanceOf (value function : Value)
  | extend (loc : Loc) (superclass : Value)
  | staticBlock (loc : Loc)
deriving DecidableEq, Inhabited, Repr

/-- How a computation ends without a value. -/
inductive Abrupt where
  | typeError
  | rangeError
  | syntaxError
  | thrown (value : Value)
deriving DecidableEq, Inhabited, Repr

/-- What comes of a computation. -/
structure Outcome (W α : Type) where
  events : List Event
  world : W
  result : Except Abrupt α

/-- A computation that starts in some world. -/
def Run (W α : Type) : Type := W → Outcome W α

namespace Run

variable {W α β γ : Type}

/-- A computation that only has a result. -/
protected def pure (result : α) : Run W α := fun w => ⟨[], w, .ok result⟩

/-- Goes on in the world that the first computation leaves, unless that one ended abruptly. -/
protected def bind (first : Run W α) (next : α → Run W β) : Run W β := fun w =>
  match (first w).result with
  | .error abrupt => ⟨(first w).events, (first w).world, .error abrupt⟩
  | .ok value =>
    let rest := next value (first w).world
    ⟨(first w).events ++ rest.events, rest.world, rest.result⟩

instance : Monad (Run W) where
  pure := Run.pure
  bind := Run.bind

/-- A computation that ends abruptly at once. -/
def abort (abrupt : Abrupt) : Run W α := fun w => ⟨[], w, .error abrupt⟩

/-- What a computation is in every world. -/
def inWorld (run : W → Run W α) : Run W α := fun w => run w w

/-- The same computation without its result. -/
def ignored (run : Run W α) : Run W Unit := run >>= fun _ => pure ()

theorem pure_apply (result : α) (w : W) : (pure result : Run W α) w = ⟨[], w, .ok result⟩ := rfl

theorem bind_apply (first : Run W α) (next : α → Run W β) (w : W) :
    (first >>= next) w = match (first w).result with
      | .error abrupt => ⟨(first w).events, (first w).world, .error abrupt⟩
      | .ok value =>
        let rest := next value (first w).world
        ⟨(first w).events ++ rest.events, rest.world, rest.result⟩ := rfl

/-- After a computation that is silent in a world, the next one starts in that same world. -/
theorem bind_apply_of_pure {first : Run W α} {value : α} {w : W}
    (silent : first w = (pure value : Run W α) w) (next : α → Run W β) :
    (first >>= next) w = next value w := by
  simp [bind_apply, silent, pure_apply]

/-- Computations that are the same in a world are followed by the same. -/
theorem bind_apply_congr {first other : Run W α} {w : W} (same : first w = other w)
    (next : α → Run W β) : (first >>= next) w = (other >>= next) w := by
  simp only [bind_apply, same]

instance : LawfulMonad (Run W) := LawfulMonad.mk' (Run W)
  (by
    intro α run
    funext w
    -- Nothing is added to the outcome, whichever way it ended.
    show (run >>= fun value => pure value) w = run w
    rw [bind_apply]
    rcases run w with ⟨events, world, _ | _⟩ <;> simp [pure_apply])
  (by
    intro α β value next
    funext w
    exact bind_apply_of_pure rfl next)
  (by
    intro α β γ first second third
    funext w
    -- An abrupt end anywhere is the end of both sides, and otherwise the events line up.
    simp only [bind_apply]
    rcases first w with ⟨events, world, _ | value⟩
    · rfl
    · dsimp only
      rcases second value world with ⟨events', world', _ | value'⟩
      · rfl
      · simp)

/-- Looking at the world first does not change it. -/
theorem inWorld_pure_bind (value : W → α) (next : α → Run W β) :
    (inWorld fun w => pure (value w)) >>= next = inWorld fun w => next (value w) := by
  funext w
  exact bind_apply_of_pure rfl next

/-- Computing something of a result happens once it is there. -/
theorem map_apply (f : α → β) (run : Run W α) (w : W) :
    (f <$> run) w = ⟨(run w).events, (run w).world, (run w).result.map f⟩ := by
  rw [map_eq_pure_bind, bind_apply]
  rcases run w with ⟨events, world, _ | value⟩ <;> simp [pure_apply, Except.map]

/-- Ignoring the result of a sequence is running the sequence and ignoring its last result. -/
@[simp] theorem ignored_bind (first : Run W α) (next : α → Run W β) :
    (first >>= next).ignored = first >>= fun value => (next value).ignored := by
  simp [ignored]

@[simp] theorem ignored_pure (value : α) : (pure value : Run W α).ignored = pure () := by
  simp [ignored]

/-- Computing something of the result leaves the effects as they are. -/
@[simp] theorem ignored_map (f : α → β) (run : Run W α) :
    (f <$> run).ignored = run.ignored := by
  simp [ignored]

@[simp] theorem ignored_ignored (run : Run W α) : run.ignored.ignored = run.ignored := by
  simp [ignored]

/-- A sequence that does not look at the first result may as well ignore it. -/
theorem ignored_seq (first : Run W α) (next : Run W β) :
    (first.ignored >>= fun _ => next) = first >>= fun _ => next := by
  simp [ignored]

/-- Every result that a computation can have has a property. -/
def Always (run : Run W α) (holds : α → Prop) : Prop :=
  ∀ w value, (run w).result = .ok value → holds value

theorem always_pure {value : α} {holds : α → Prop} (known : holds value) :
    (pure value : Run W α).Always holds := by
  intro w result same
  cases same
  exact known

/-- What ends abruptly has no result. -/
theorem always_abort (abrupt : Abrupt) (holds : α → Prop) :
    (abort abrupt : Run W α).Always holds := by
  intro w value same
  cases same

/-- Nothing has to be known of a result of which nothing is claimed. -/
theorem always_true (run : Run W α) : run.Always fun _ => True := fun _ _ _ => trivial

theorem always_inWorld {run : W → Run W α} {holds : α → Prop}
    (each : ∀ w, (run w).Always holds) : (inWorld run).Always holds :=
  fun w => each w w

/-- A result of a sequence comes from some result of its first part, in some world. -/
theorem result_of_bind {first : Run W α} {next : α → Run W β} {w : W} {value : β}
    (ended : ((first >>= next) w).result = .ok value) :
    ∃ middle, (first w).result = .ok middle ∧
      (next middle (first w).world).result = .ok value := by
  rw [bind_apply] at ended
  -- A run that ended abruptly has no result to go on from.
  cases found : (first w).result with
  | error abrupt => simp [found] at ended
  | ok middle => exact ⟨middle, rfl, by simpa [found] using ended⟩

/-- What follows from every result of the first part holds of every result of a sequence. -/
theorem Always.bind {first : Run W α} {next : α → Run W β} {between : α → Prop}
    {holds : β → Prop} (before : first.Always between)
    (after : ∀ value, between value → (next value).Always holds) :
    (first >>= next).Always holds := by
  intro w value ended
  obtain ⟨middle, found, ended⟩ := result_of_bind ended
  exact after middle (before w middle found) _ value ended

/-- The result of a sequence is that of its last part, if nothing is known of the first. -/
theorem always_seq {first : Run W α} {next : α → Run W β} {holds : β → Prop}
    (after : ∀ value, (next value).Always holds) : (first >>= next).Always holds :=
  (always_true first).bind fun value _ => after value

/-- Two properties that every result has are one that every result has. -/
theorem Always.and {run : Run W α} {holds also : α → Prop} (known : run.Always holds)
    (alsoKnown : run.Always also) : run.Always fun value => holds value ∧ also value :=
  fun w value ended => ⟨known w value ended, alsoKnown w value ended⟩

/-- Two sequences are the same if they go on in the same way from every possible result. -/
theorem bind_congr_of_always {run : Run W α} {holds : α → Prop} {next other : α → Run W β}
    (known : run.Always holds) (same : ∀ value, holds value → next value = other value) :
    run >>= next = run >>= other := by
  funext w
  -- The two go on differently only from results that cannot occur.
  simp only [bind_apply]
  cases found : (run w).result with
  | error abrupt => rfl
  | ok value => simp only [same value (known w value found)]

theorem Always.imp {run : Run W α} {holds weaker : α → Prop} (known : run.Always holds)
    (weakens : ∀ value, holds value → weaker value) : run.Always weaker :=
  fun w value ended => weakens value (known w value ended)

end Run

end EcmaPrune
