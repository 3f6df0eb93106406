import EcmaPrune.Proofs.Rewrite.DiscardSpelledOut

/-! Discarding an object literal keeps the conversions of its keys, as far as nobody sees them. -/

namespace EcmaPrune.Expr

variable {W : Type}

/--
Discarding an object literal keeps its effects, if computed keys of unknown types stay primitive.

Such a key is added to an empty string, which converts it as a property name is converted unless it
is an object or a symbol. The other parts may be any expressions of which discarding keeps the
effects, and calls of function literals in them are spelled out.
-/
theorem discard_keepsKeys (host : Host W) (cx : DiscardContext) (loc : Loc)
    {properties : List Property}
    (plain : (∀ p ∈ properties, p.kind ≠ .spread) → ∀ p ∈ properties, p.isComputed →
      p.key.primitiveType = .unknown →
        (p.key.spelledOut.eval (host.trusting cx.unbound false)).Always Value.IsPlain)
    (safe : ∀ part ∈ (object loc properties).visited cx,
      part.ThroughoutVisited cx
        (DiscardSafe (host.trusting cx.unbound false) cx spelledOut)) :
    restEffects (host.trusting cx.unbound false)
        (((object loc properties).discard cx).map spelledOut) =
      (object loc properties).spelledOut.effects (host.trusting cx.unbound false) := by
  -- Each key and each value is kept for itself, and the literal keeps them together in order.
  have inside : ∀ part ∈ (object loc properties).visited cx,
      part.IsKeptBy (host.trusting cx.unbound false) cx spelledOut := fun part member =>
    isKeptBy_spelledOut (host.trusting_trusts cx.unbound false) rfl (safe part member)
  exact isKeptBy_object isTranslation_spelledOut loc plain inside

/-- The literal `{[a]: f()}` leaves `a + "", f()`, which does the same where `a` is a string. -/
theorem discard_keepsKeys_string :
    let key := identifier default ⟨0⟩ false false
    let value := call default (identifier default ⟨1⟩ false false) [] .plain false .normal
    let properties : List Property := [⟨.normal, true, false, key, some value, none⟩]
    let cx : DiscardContext := ⟨true, fun _ => false⟩
    let host := { (default : Host Unit) with lookup := fun _ _ => .string [120] }.trusting
      cx.unbound false
    (∀ p ∈ properties, (p.key.spelledOut.eval host).Always Value.IsPlain) ∧
      (∀ part ∈ (object default properties).visited cx,
        part.ThroughoutVisited cx (DiscardSafe host cx spelledOut)) ∧
      (object default properties).discard cx =
        some (comma (binary default .addition key (emptyString default)) value) ∧
      restEffects host (((object default properties).discard cx).map spelledOut) =
        (object default properties).spelledOut.effects host := by
  intro key value properties cx host
  -- Every name is a string in this world.
  have plain : ∀ p ∈ properties, (p.key.spelledOut.eval host).Always Value.IsPlain := by
    refine List.forall_mem_singleton.mpr fun w found ended => ?_
    obtain rfl := Except.ok.inj ended
    constructor <;> intro isType <;> cases isType
  -- The key is kept, and of the value, which is the call of a name, nothing is discarded.
  have safe : ∀ part ∈ (object default properties).visited cx,
      part.ThroughoutVisited cx (DiscardSafe host cx spelledOut) := by
    intro part member
    have unknown : key.primitiveType = .unknown := rfl
    obtain rfl : part = value := by simpa [visited, properties, unknown] using member
    exact throughoutVisited_callName host cx spelledOut rfl default .plain .normal
  refine ⟨plain, safe, ?_, ?_⟩
  · have valueRest : value.discard cx = some value := discard_call_stays cx rfl rfl
    rw [discard_object]
    change sequence [some (binary ..), value.discard cx] = _
    rw [valueRest]
    rfl
  · exact discard_keepsKeys _ cx default (fun _ p member _ _ => plain p member) safe

/--
Objects and symbols as keys are converted in another way than before.

An object is asked for a primitive of no kind in particular, where a property name asks for a
string. A symbol is a property name, but adding it to a string throws.
-/
theorem discard_changesKeys :
    let key := identifier default default false false
    let literal := object default [⟨.normal, true, false, key, some (number default .one), none⟩]
    let cx : DiscardContext := ⟨true, fun _ => false⟩
    let inWorldOf := fun value : Value =>
      { (default : Host Unit) with lookup := fun _ _ => value }.trusting cx.unbound false
    let rest := (literal.discard cx).map spelledOut
    (restEffects (inWorldOf (.object 0)) rest ()).events = [.convert .default 0] ∧
      (literal.effects (inWorldOf (.object 0)) ()).events = [.convert .string 0] ∧
      (restEffects (inWorldOf (.symbol 0)) rest ()).result = .error .typeError ∧
      (literal.effects (inWorldOf (.symbol 0)) ()).result = .ok () := by
  intro key literal cx inWorldOf rest
  have added : literal.discard cx = some (binary default .addition key (emptyString default)) := by
    have one : (number default .one).discard cx = none := by rw [discard]
    rw [discard_object]
    change sequence [some (binary ..), (number default .one).discard cx] = _
    rw [one]
    rfl
  have left : rest = some (binary default .addition key (emptyString default)) :=
    congrArg (Option.map spelledOut) added
  -- The sum and the literal are run in both worlds.
  rw [left]
  exact ⟨rfl, rfl, rfl, rfl⟩

end EcmaPrune.Expr
