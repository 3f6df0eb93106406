/-! Rewrites that count what they change. -/

namespace EcmaPrune

/-- How many statements were removed and how many expressions rewritten. -/
structure Tally where
  removed : Nat
  rewrites : Nat
deriving DecidableEq, Inhabited, Repr

namespace Tally

/-- Nothing changed. -/
def zero : Tally := ⟨0, 0⟩

/-- One statement removed. -/
def oneRemoved : Tally := ⟨1, 0⟩

/-- One expression rewritten. -/
def oneRewrite : Tally := ⟨0, 1⟩

instance : Add Tally := ⟨fun a b => ⟨a.removed + b.removed, a.rewrites + b.rewrites⟩⟩

/-- Whether anything changed. -/
def isChange (tally : Tally) : Bool := 0 < tally.removed + tally.rewrites

end Tally

/-- A result with the changes that led to it. -/
structure Counted (α : Type) where
  value : α
  tally : Tally

namespace Counted

/-- A result that nothing had to be changed for. -/
def unchanged {α : Type} (value : α) : Counted α := ⟨value, .zero⟩

/-- A result that took one rewrite. -/
def rewritten {α : Type} (value : α) : Counted α := ⟨value, .oneRewrite⟩

instance : Monad Counted where
  pure := unchanged
  bind x f := ⟨(f x.value).value, x.tally + (f x.value).tally⟩

end Counted

end EcmaPrune
