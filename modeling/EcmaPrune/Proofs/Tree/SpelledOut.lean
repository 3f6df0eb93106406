import EcmaPrune.Proofs.Tree.Operands
import Mathlib.Data.List.Basic

/-! Calls of function literals, with what they run spelled out in their place. -/

namespace EcmaPrune

/--
A value of which nothing is known in advance, as nothing is known of the result of a call.

It is the first branch of a choice that always takes it, as `import.meta` is an object.
-/
def Expr.veiled (loc : Loc) (value : Expr) : Expr :=
  .inlinedEnum loc (.conditional loc (.importMeta loc) value (.importMeta loc)) ""

mutual

/--
The same expression with what calls of function literals run spelled out in their place.

That is possible where a function is called without arguments that does nothing, or only evaluates
or returns one expression. A call that is annotated as pure stays, as it need not run anything, and
so does every function that is not called at once.
-/
def Expr.spelledOut : Expr → Expr
  | .array loc items => .array loc (Expr.spelledOutList items)
  | .binary loc op left right => .binary loc op left.spelledOut right.spelledOut
  | .call loc target args link isPure kind =>
    match if isPure || !args.isEmpty then none else target.callSpelledOut? loc with
    | some value => .veiled loc value
    | none => .call loc target.spelledOut (Expr.spelledOutList args) link isPure kind
  | .dot loc target name link isRemovable => .dot loc target.spelledOut name link isRemovable
  | .conditional loc test yes no => .conditional loc test.spelledOut yes.spelledOut no.spelledOut
  | .index loc target key link isRemovable =>
    .index loc target.spelledOut key.spelledOut link isRemovable
  | .inlinedEnum loc value comment => .inlinedEnum loc value.spelledOut comment
  | .new loc target args isPure => .new loc target.spelledOut (Expr.spelledOutList args) isPure
  | .object loc properties => .object loc (Property.spelledOutList properties)
  | .spread loc value => .spread loc value.spelledOut
  | .template loc tag head parts =>
    .template loc (Expr.spelledOutOption tag) head (TemplatePart.spelledOutList parts)
  | .unary loc op value fromIdentifier => .unary loc op value.spelledOut fromIdentifier
  | e => e

/-- What a call without arguments does if its target is such a function, with its value. -/
def Expr.callSpelledOut? : Expr → Loc → Option Expr
  | .function _ func, loc =>
    if func.params.isEmpty && func.body.isEmpty then
      -- An asynchronous function gives a promise, and a generator gives an iterator.
      some (if func.isAsync || func.isGenerator then .object loc [] else .undefined loc)
    else none
  | .arrow _ [] [] isAsync _, loc => some (if isAsync then .object loc [] else .undefined loc)
  | .arrow _ [] [.expr _ value _] false _, loc => some (.unary loc .void value.spelledOut false)
  | .arrow _ [] [.returnValue _ none] false _, loc => some (.undefined loc)
  | .arrow _ [] [.returnValue _ (some value)] false _, _ => some value.spelledOut
  | _, _ => none

/-- Spells out the expressions of a list. -/
def Expr.spelledOutList : List Expr → List Expr
  | [] => []
  | e :: rest => e.spelledOut :: Expr.spelledOutList rest

/-- Spells out an expression that may be absent. -/
def Expr.spelledOutOption : Option Expr → Option Expr
  | none => none
  | some e => some e.spelledOut

/-- Spells out the substitutions of a template. -/
def TemplatePart.spelledOutList : List TemplatePart → List TemplatePart
  | [] => []
  | ⟨value, tail⟩ :: rest => ⟨value.spelledOut, tail⟩ :: TemplatePart.spelledOutList rest

/-- Spells out the members of an object literal. -/
def Property.spelledOutList : List Property → List Property
  | [] => []
  | ⟨kind, isComputed, isStatic, key, value, initializer⟩ :: rest =>
    ⟨kind, isComputed, isStatic, key.spelledOut, Expr.spelledOutOption value,
      Expr.spelledOutOption initializer⟩ :: Property.spelledOutList rest

end

namespace Expr

@[simp] theorem spelledOutList_eq_map (items : List Expr) :
    spelledOutList items = items.map spelledOut := by
  induction items with
  | nil => rfl
  | cons e rest ih => rw [spelledOutList, ih, List.map_cons]

@[simp] theorem spelledOutOption_eq_map (e : Option Expr) :
    spelledOutOption e = e.map spelledOut := by
  cases e <;> rfl

end Expr

@[simp] theorem TemplatePart.spelledOutList_eq_map (parts : List TemplatePart) :
    spelledOutList parts = parts.map (mapExpr Expr.spelledOut) := by
  induction parts with
  | nil => rfl
  | cons part rest ih =>
    rcases part with ⟨value, tail⟩
    rw [spelledOutList, ih, List.map_cons]
    rfl

@[simp] theorem Property.spelledOutList_eq_map (properties : List Property) :
    spelledOutList properties = properties.map (mapExprs Expr.spelledOut) := by
  induction properties with
  | nil => rfl
  | cons p rest ih =>
    rcases p with ⟨kind, isComputed, isStatic, key, value, initializer⟩
    rw [spelledOutList, ih, List.map_cons, Expr.spelledOutOption_eq_map,
      Expr.spelledOutOption_eq_map]
    rfl

namespace Expr

/-- What stands in the place of a call, if that can be spelled out. -/
def inPlace? : Expr → Option Expr
  | call loc target args _ isPure _ =>
    if isPure || !args.isEmpty then none else target.callSpelledOut? loc
  | _ => none

/-- A call is spelled out itself, or what is in it is. -/
theorem spelledOut_call (loc : Loc) (target : Expr) (args : List Expr) (link : ChainLink)
    (isPure : Bool) (kind : CallKind) :
    (call loc target args link isPure kind).spelledOut =
      match (call loc target args link isPure kind).inPlace? with
      | some value => veiled loc value
      | none => call loc target.spelledOut (args.map spelledOut) link isPure kind := by
  rw [spelledOut, spelledOutList_eq_map]
  rfl

/-- What is in a call is spelled out if the call itself is not. -/
theorem spelledOut_call_of_stays {loc : Loc} {target : Expr} {args : List Expr} {link : ChainLink}
    {isPure : Bool} {kind : CallKind}
    (stays : (call loc target args link isPure kind).inPlace? = none) :
    (call loc target args link isPure kind).spelledOut =
      call loc target.spelledOut (args.map spelledOut) link isPure kind := by
  rw [spelledOut_call, stays]

/-- A call becomes a value of which nothing is known or stays a call. -/
theorem spelledOut_call_eq (loc : Loc) (target : Expr) (args : List Expr) (link : ChainLink)
    (isPure : Bool) (kind : CallKind) :
    (∃ value, (call loc target args link isPure kind).spelledOut = veiled loc value) ∨
      ∃ target' args', (call loc target args link isPure kind).spelledOut =
        call loc target' args' link isPure kind := by
  rw [spelledOut_call]
  split
  · exact .inl ⟨_, rfl⟩
  · exact .inr ⟨_, _, rfl⟩

end Expr

end EcmaPrune
