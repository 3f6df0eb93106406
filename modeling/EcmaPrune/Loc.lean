/-! Positions of tree nodes in the text they were read from. -/

namespace EcmaPrune

/-- A half-open span of byte offsets; what a rewrite makes takes the span of what it replaces. -/
structure Loc where
  start : Nat
  stop : Nat
deriving DecidableEq, Inhabited, Repr

namespace Loc

/-- The empty span at an offset. -/
def point (offset : Nat) : Loc := ⟨offset, offset⟩

/-- The span of a node whose position is unknown. -/
def unknown : Loc := point 0

/-- A span is empty when it does not end after its start, so a reversed span is empty too. -/
def isEmpty (loc : Loc) : Bool := loc.stop ≤ loc.start

/-- The number of bytes covered, zero for a reversed span. -/
def length (loc : Loc) : Nat := loc.stop - loc.start

/-- The smallest span covering both spans. -/
def extend (loc other : Loc) : Loc := ⟨min loc.start other.start, max loc.stop other.stop⟩

/-- Extends by a span when there is one. -/
def extend? (loc : Loc) : Option Loc → Loc
  | none => loc
  | some other => loc.extend other

instance : Add Loc := ⟨extend⟩

end Loc

end EcmaPrune
