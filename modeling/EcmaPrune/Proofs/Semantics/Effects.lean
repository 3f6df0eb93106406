import EcmaPrune.Proofs.Semantics.Silence
import EcmaPrune.Proofs.Semantics.Truth

/-! The effects of expressions, read off one constructor at a time. -/

namespace EcmaPrune

variable {W : Type}

namespace Run

variable {α β : Type}

/-- Runs computations one after the other. -/
def all : List (Run W Unit) → Run W Unit
  | [] => pure ()
  | first :: rest => first >>= fun _ => all rest

/-- Running two lists is running the list of both. -/
theorem all_append (first second : List (Run W Unit)) :
    all (first ++ second) = all first >>= fun _ => all second := by
  induction first with
  | nil => simp [all]
  | cons run rest ih => simp [all, ih]

/-- Running a list of lists is running each list. -/
theorem all_flatMap {α : Type} (items : List α) (runs : α → List (Run W Unit)) :
    all (items.flatMap runs) = all (items.map fun item => all (runs item)) := by
  induction items with
  | nil => rfl
  | cons item rest ih => rw [List.flatMap_cons, all_append, ih, List.map_cons, all]

/-- What is kept of a list runs as the list if what is dropped does nothing. -/
theorem all_filterMap {α β : Type} {items : List α} {keep : α → Option β} {run : β → Run W Unit}
    {whole : α → Run W Unit} (each : ∀ item ∈ items, (keep item).elim (pure ()) run = whole item) :
    all ((items.filterMap keep).map run) = all (items.map whole) := by
  induction items with
  | nil => rfl
  -- The first item is dropped or kept, and what is kept of it runs as the item.
  | cons item rest ih =>
    have now := each item (by simp)
    rw [List.map_cons, all, ← ih fun item member => each item (by simp [member]), ← now]
    cases kept : keep item with
    | none => rw [List.filterMap_cons_none kept, Option.elim_none, pure_bind]
    | some value => rw [List.filterMap_cons_some kept, List.map_cons, all, Option.elim_some]

/-- A silent last step adds nothing to the effects, whatever its result. -/
theorem ignored_bind_silent {first : Run W α} {next : α → Run W β} {holds : α → Prop}
    (known : first.Always holds) (silent : ∀ value, holds value → ∀ w, (next value).Silent w) :
    (first >>= next).ignored = first.ignored := by
  -- Whatever the first result is, the last step adds no effects.
  rw [ignored_bind]
  exact bind_congr_of_always known fun value holds => ignored_of_silent (silent value holds)

end Run

namespace Expr

variable (host : Host W) (loc : Loc)

/-- What is left of an expression has its effects, and nothing has none. -/
def restEffects : Option Expr → Run W Unit
  | none => pure ()
  | some e => e.effects host

theorem restEffects_eq_elim (rest : Option Expr) :
    rest.elim (pure ()) (fun e => e.effects host) = restEffects host rest := by
  cases rest <;> rfl

theorem effects_inlinedEnum (value : Expr) (comment : String) :
    (inlinedEnum loc value comment).effects host = value.effects host := by
  simp [effects]

theorem effects_comma (left right : Expr) :
    (binary loc .comma left right).effects host =
      left.effects host >>= fun _ => right.effects host := by
  simp [effects, Run.ignored_seq]

/-- The right side of a logical operation runs if the left side does not decide it. -/
theorem effects_logical {op : Operator} (isAndOr : op.isAndOr) (left right : Expr) :
    (binary loc op left right).effects host =
      left.truth host >>= fun holds =>
        if holds = (op == .logicalAnd) then right.effects host else pure () := by
  -- The effects are those of finding out the truth.
  rw [← ignored_truth, truth_logical host loc isAndOr, Run.shortCircuit, Run.ignored_bind]
  congr 1
  funext holds
  split
  · exact ignored_truth host right
  · exact Run.ignored_pure holds

theorem effects_coalesce (left right : Expr) :
    (binary loc .nullishCoalescing left right).effects host =
      left.eval host >>= fun first =>
        if first.isNullish then right.effects host else pure () := by
  rw [effects, eval_coalesce, Run.ignored_bind]
  congr 1
  funext first
  split
  · rfl
  · exact Run.ignored_pure first

theorem effects_conditional (test yes no : Expr) :
    (conditional loc test yes no).effects host =
      test.truth host >>= fun holds =>
        if holds then yes.effects host else no.effects host := by
  -- The effects are those of finding out the truth of the branch that is taken.
  rw [← ignored_truth, truth_conditional, Run.ignored_bind]
  congr 1
  funext holds
  split <;> exact ignored_truth host _

/-- An operator that nobody sees at work leaves the effects of its operand. -/
theorem effects_unary_silent {op : Operator} (plain : op.takesValue)
    (silent : ∀ value w, (host.applyUnary op value).Silent w) (value : Expr)
    (fromIdentifier : Bool) :
    (unary loc op value fromIdentifier).effects host = value.effects host := by
  rw [effects, eval_unary host loc plain, Run.ignored_bind_silent (Run.always_true _)]
  · rfl
  · exact fun value _ => silent value

/-- An operator that nobody sees at work leaves the effects of its operands. -/
theorem effects_binary_silent {op : Operator} (plain : op.takesValues)
    {left right : Expr} {leftHolds rightHolds : Value → Prop}
    (leftKnown : (left.eval host).Always leftHolds)
    (rightKnown : (right.eval host).Always rightHolds)
    (silent : ∀ first second, leftHolds first → rightHolds second →
      ∀ w, (host.applyBinary op first second).Silent w) :
    (binary loc op left right).effects host =
      left.effects host >>= fun _ => right.effects host := by
  rw [effects, eval_binary host loc plain, Run.ignored_bind, effects, Run.ignored_seq]
  -- The operands run in order, and then there is nothing left to be seen.
  refine Run.bind_congr_of_always leftKnown fun first held => ?_
  exact Run.ignored_bind_silent rightKnown fun second known => silent first second held known

/-- Running a condition for nothing is running its expression. -/
theorem truth_bind_pure (e : Expr) : (e.truth host >>= fun _ => pure ()) = e.effects host :=
  ignored_truth host e

/-- The effects of a list are those of its items in order. -/
theorem ignored_evalList (items : List Expr) :
    (evalList host items).ignored = Run.all (items.map fun item => item.effects host) := by
  induction items with
  | nil => simp [evalList_nil, Run.all]
  | cons item rest ih =>
    -- Collecting the values of the items adds nothing to their effects.
    rw [evalList_cons, List.map_cons, Run.all, ← ih, effects, Run.ignored_seq]
    simp [Run.ignored]

/-- The effects of an array literal are those of its items in order. -/
theorem effects_array (items : List Expr) :
    (array loc items).effects host = Run.all (items.map fun item => item.effects host) := by
  rw [effects, eval_array, Run.ignored_bind, ← ignored_evalList]
  rfl

end Expr

namespace TemplatePart

variable (host : Host W)

/-- What a substitution of a template does: it is evaluated and converted to a string. -/
def convert (part : TemplatePart) : Run W Unit := (part.value.eval host >>= host.toText).ignored

/-- The effects of a template are those of its substitutions in order. -/
theorem ignored_evalTexts (parts : List TemplatePart) :
    (evalTexts host parts).ignored = Run.all (parts.map fun part => part.convert host) := by
  induction parts with
  | nil => simp [evalTexts_nil, Run.all]
  | cons part rest ih =>
    -- Putting the texts together adds nothing to the conversions.
    rw [evalTexts_cons, List.map_cons, Run.all, ← ih, convert, Run.ignored_seq]
    simp [Run.ignored]

end TemplatePart

/-- The effects of the members of an object literal are those of each in order. -/
theorem Property.evalList_eq_all (host : Host W) (properties : List Property) :
    Property.evalList host properties = Run.all (properties.map fun p => p.eval host) := by
  induction properties with
  | nil => exact Property.evalList_nil host
  | cons p rest ih => rw [Property.evalList_cons, ih, List.map_cons, Run.all]

/-- The effects of an object literal are those of its members in order. -/
theorem Expr.effects_object (host : Host W) (loc : Loc) (properties : List Property) :
    (object loc properties).effects host = Run.all (properties.map fun p => p.eval host) := by
  rw [effects, eval_object, Run.ignored_bind, ← Property.evalList_eq_all]
  exact bind_pure_unit

end EcmaPrune
