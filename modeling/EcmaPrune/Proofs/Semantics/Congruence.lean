import EcmaPrune.Proofs.Semantics.EvalLaws
import EcmaPrune.Proofs.Tree.Operands

/-! Evaluation looks at the expressions in lists and members only by evaluating them. -/

namespace EcmaPrune

variable {W : Type} {host : Host W} {f : Expr → Expr}

namespace Expr

theorem evalList_congr {items : List Expr}
    (same : ∀ item ∈ items, (f item).eval host = item.eval host) :
    evalList host (items.map f) = evalList host items := by
  induction items with
  | nil => rfl
  | cons item rest ih =>
    rw [List.map_cons, evalList_cons, evalList_cons, same item (by simp),
      ih fun item member => same item (by simp [member])]

theorem evalOption_congr {e : Option Expr}
    (same : ∀ value ∈ e, (f value).eval host = value.eval host) :
    evalOption host (e.map f) = evalOption host e := by
  cases e with
  | none => rfl
  | some value => rw [Option.map_some, evalOption_some, evalOption_some, same value rfl]

end Expr

namespace TemplatePart

theorem evalTexts_congr {parts : List TemplatePart}
    (same : ∀ part ∈ parts, (f part.value).eval host = part.value.eval host) :
    evalTexts host (parts.map (mapExpr f)) = evalTexts host parts := by
  induction parts with
  | nil => rfl
  | cons part rest ih =>
    rw [List.map_cons, evalTexts_cons, evalTexts_cons, mapExpr, same part (by simp),
      ih fun part member => same part (by simp [member])]

theorem evalValues_cons (part : TemplatePart) (rest : List TemplatePart) :
    evalValues host (part :: rest) = do
      let first ← part.value.eval host
      return first :: (← evalValues host rest) := by
  rcases part with ⟨value, tail⟩
  rw [evalValues, Expr.eval]

theorem evalValues_congr {parts : List TemplatePart}
    (same : ∀ part ∈ parts, (f part.value).eval host = part.value.eval host) :
    evalValues host (parts.map (mapExpr f)) = evalValues host parts := by
  induction parts with
  | nil => rfl
  | cons part rest ih =>
    rw [List.map_cons, evalValues_cons, evalValues_cons, mapExpr, same part (by simp),
      ih fun part member => same part (by simp [member])]

end TemplatePart

namespace Property

/-- A member of an object literal is its key, if that is computed, and its value. -/
theorem eval_congr {p : Property} (same : ∀ e ∈ p.operands, (f e).eval host = e.eval host) :
    (p.mapExprs f).eval host = p.eval host := by
  have value : Expr.evalOption host (p.value.map f) = Expr.evalOption host p.value :=
    Expr.evalOption_congr fun e held => same e (by simp_all [operands, parts])
  -- A key that is not computed is only a name, and is not evaluated.
  have key : p.isComputed → (f p.key).eval host = p.key.eval host := fun computed =>
    same p.key (by simp [operands, parts, computed])
  rw [eval, eval, evalKey, evalKey, mapExprs, value]
  split
  · rfl
  · split
    · rename_i computed
      rw [key computed]
    · rfl

theorem evalList_congr {properties : List Property}
    (same : ∀ e ∈ properties.flatMap operands, (f e).eval host = e.eval host) :
    evalList host (properties.map (mapExprs f)) = evalList host properties := by
  induction properties with
  | nil => rfl
  | cons p rest ih =>
    rw [List.flatMap_cons] at same
    obtain ⟨now, later⟩ := List.forall_mem_append.mp same
    rw [List.map_cons, evalList_cons, evalList_cons, eval_congr now, ih later]

/--
A member of an object pattern is its key, its target and its default.

A key that is not computed is only a name.
-/
theorem assignList_congr {properties : List Property} (value : Value)
    (names : ∀ p ∈ properties, p.kind ≠ .spread → p.isComputed = false →
      host.nameOf (f p.key) = host.nameOf p.key)
    (same : ∀ e ∈ properties.flatMap operands, (f e).eval host = e.eval host)
    (targets : ∀ p ∈ properties, ∀ target ∈ p.value, ∀ source,
      (f target).assignFrom host ((f target).refer host) source =
        target.assignFrom host (target.refer host) source) :
    assignList host value (properties.map (mapExprs f)) = assignList host value properties := by
  induction properties with
  | nil => rfl
  | cons p rest ih =>
    rw [List.flatMap_cons] at same
    obtain ⟨now, later⟩ := List.forall_mem_append.mp same
    have rest := ih (fun p member => names p (by simp [member])) later
      fun p member => targets p (by simp [member])
    have name := names p (by simp)
    have assigns : ∀ source, Expr.assignOption host source (p.value.map f) =
        Expr.assignOption host source p.value := by
      intro source
      cases held : p.value with
      | none => rfl
      | some target =>
        rw [Option.map_some, Expr.assignOption, Expr.assignOption,
          targets p (by simp) target held source]
    rcases p with ⟨kind, isComputed, isStatic, key, target, fallback⟩
    have fallbackSame : Expr.evalOption host (fallback.map f) = Expr.evalOption host fallback :=
      Expr.evalOption_congr fun e held => now e (by simp_all [operands, parts])
    simp only [List.map_cons, mapExprs, assignList, rest, assigns, fallbackSame, Option.isNone_map]
    split
    · rfl
    · rename_i notSpread
      -- A computed key is evaluated; of any other, only the name counts.
      cases isComputed with
      | true =>
        have keySame : (f key).eval host = key.eval host := now key (by simp [operands, parts])
        simp only [Expr.eval] at keySame
        simp only [if_true, keySame]
      | false =>
        have nameSame : host.nameOf (f key) = host.nameOf key := name notSpread rfl
        simp only [Bool.false_eq_true, if_false, nameSame]

end Property

namespace ClassMember

theorem evalKeys_congr {block : List Stmt → List Stmt} {members : List ClassMember}
    (same : ∀ e ∈ members.flatMap operands, (f e).eval host = e.eval host) :
    evalKeys host (members.map (mapExprs f block)) = evalKeys host members := by
  induction members with
  | nil => rfl
  | cons m rest ih =>
    rw [List.flatMap_cons] at same
    obtain ⟨now, later⟩ := List.forall_mem_append.mp same
    have rest := ih later
    cases m with
    | staticBlock body => simpa [mapExprs, evalKeys] using rest
    | property p =>
      rcases p with ⟨kind, isComputed, isStatic, key, value, initializer⟩
      simp only [List.map_cons, mapExprs, Property.mapExprs, evalKeys, rest]
      split
      · rename_i computed
        have keySame : (f key).eval host = key.eval host :=
          now key (by simp [operands, Property.operands, Property.parts, computed])
        simp only [Expr.eval] at keySame
        rw [keySame]
      · rfl

theorem evalStatics_congr {block : List Stmt → List Stmt} {members : List ClassMember} (loc : Loc)
    (same : ∀ e ∈ members.flatMap operands, (f e).eval host = e.eval host) :
    evalStatics host loc (members.map (mapExprs f block)) = evalStatics host loc members := by
  induction members with
  | nil => rfl
  | cons m rest ih =>
    rw [List.flatMap_cons] at same
    obtain ⟨now, later⟩ := List.forall_mem_append.mp same
    have rest := ih later
    cases m with
    | staticBlock body => simp only [List.map_cons, mapExprs, evalStatics, rest]
    | property p =>
      rcases p with ⟨kind, isComputed, isStatic, key, value, initializer⟩
      have valueSame : Expr.evalOption host (value.map f) = Expr.evalOption host value :=
        Expr.evalOption_congr fun e held =>
          now e (by simp_all [operands, Property.operands, Property.parts])
      have initializerSame : Expr.evalOption host (initializer.map f) =
          Expr.evalOption host initializer :=
        Expr.evalOption_congr fun e held =>
          now e (by simp_all [operands, Property.operands, Property.parts])
      simp only [List.map_cons, mapExprs, Property.mapExprs, evalStatics, rest, valueSame,
        initializerSame]

end ClassMember

/-- A class evaluates its superclass, its computed keys and its static members. -/
theorem Class.eval_congr {block : List Stmt → List Stmt} {c : Class} (loc : Loc)
    (same : ∀ e ∈ c.operands, (f e).eval host = e.eval host) :
    (c.mapExprs f block).eval host loc = c.eval host loc := by
  rcases c with ⟨name, superclass, members⟩
  obtain ⟨parent, inside⟩ := List.forall_mem_append.mp same
  have parentSame : Expr.evalOption host (superclass.map f) = Expr.evalOption host superclass :=
    Expr.evalOption_congr fun e held => parent e (by simpa using held)
  have keysSame : ClassMember.evalKeys host (members.map (ClassMember.mapExprs f block)) =
      ClassMember.evalKeys host members := ClassMember.evalKeys_congr inside
  have staticsSame : ClassMember.evalStatics host loc (members.map (ClassMember.mapExprs f block)) =
      ClassMember.evalStatics host loc members := ClassMember.evalStatics_congr loc inside
  simp only [mapExprs, eval, parentSame, keysSame, staticsSame, Option.isSome_map]

end EcmaPrune
