import EcmaPrune.Proofs.Minify.MangleSound
import EcmaPrune.Proofs.Rewrite.DiscardMarks

/-! A walk whose rewritings make up no mark and move none makes up and moves none as a whole. -/

namespace EcmaPrune

section

variable (w : Walk)

/-- What a walk makes of a body. -/
def Walk.onBody (body : List Stmt) : List Stmt :=
  match w.body with
  | some rewrite => (rewrite body).value
  | none => (Stmt.walkList w body).value

/-- What a walk makes of a test. -/
def Walk.onTest (test : Expr) : Expr :=
  match w.test with
  | some rewrite => (rewrite test).value
  | none => (test.walk w).value

theorem Expr.value_walk_arrow (loc : Loc) (params : List BindingElement) (body : List Stmt)
    (isAsync prefersExpr : Bool) :
    ((arrow loc params body isAsync prefersExpr).walk w).value =
      (w.leave (arrow loc (BindingElement.walkList w params).value (w.onBody body) isAsync
        prefersExpr)).value := by
  rw [Expr.walk, Walk.onBody]
  cases w.body <;> rfl

theorem Expr.value_walk_conditional (loc : Loc) (test yes no : Expr) :
    ((conditional loc test yes no).walk w).value =
      (w.leave (conditional loc (w.onTest test) (yes.walk w).value (no.walk w).value)).value := by
  rw [Expr.walk, Walk.onTest]
  cases w.test <;> rfl

/-- What is no choice by `??` is rewritten as what it was, with its parts walked through. -/
theorem Expr.exists_walk_eq {e : Expr}
    (notChoice : ∀ loc left right, e ≠ binary loc .nullishCoalescing left right) :
    ∃ rewritten : Expr, (e.walk w).value = (w.leave rewritten).value ∧
      rewritten.comesToString = e.comesToString ∧
        ((∀ loc value comment, e ≠ inlinedEnum loc value comment) →
          rewritten.comesToNullish = e.comesToNullish) := by
  cases e with
  | inlinedEnum loc value comment =>
    rw [Expr.walk]
    exact ⟨_, rfl, rfl, fun notEnum => absurd rfl (notEnum loc value comment)⟩
  | binary loc op left right =>
    rw [Expr.walk]
    refine ⟨_, rfl, ?_⟩
    cases op with
    | nullishCoalescing => exact absurd rfl (notChoice loc left right)
    | _ => exact ⟨rfl, fun _ => rfl⟩
  | arrow => exact ⟨_, Expr.value_walk_arrow .., rfl, fun _ => rfl⟩
  | conditional => exact ⟨_, Expr.value_walk_conditional .., rfl, fun _ => rfl⟩
  | _ =>
    rw [Expr.walk]
    exact ⟨_, rfl, rfl, fun _ => rfl⟩

theorem Func.value_walk (func : Func) :
    (func.walk w).value =
      { func with
        params := (BindingElement.walkList w func.params).value
        body := w.onBody func.body } := by
  rcases func with ⟨name, params, body, isAsync, isGenerator⟩
  rw [Func.walk, Walk.onBody]
  cases w.body <;> rfl

theorem ClassMember.value_walk_staticBlock (body : List Stmt) :
    ((staticBlock body).walk w).value = staticBlock (w.onBody body) := by
  rw [ClassMember.walk, Walk.onBody]
  cases w.body <;> rfl

theorem Stmt.value_walk_doWhile (loc : Loc) (body : Stmt) (test : Expr) :
    ((doWhile loc body test).walk w).value = doWhile loc (body.walk w).value (w.onTest test) := by
  rw [Stmt.walk, Walk.onTest]
  cases w.test <;> rfl

theorem Stmt.value_walk_ifElse (loc : Loc) (test : Expr) (yes : Stmt) (no : Option Stmt) :
    ((ifElse loc test yes no).walk w).value =
      ifElse loc (w.onTest test) (yes.walk w).value (Stmt.walkOption w no).value := by
  rw [Stmt.walk, Walk.onTest]
  cases w.test <;> rfl

theorem Stmt.value_walk_whileLoop (loc : Loc) (test : Expr) (body : Stmt) :
    ((whileLoop loc test body).walk w).value =
      whileLoop loc (w.onTest test) (body.walk w).value := by
  rw [Stmt.walk, Walk.onTest]
  cases w.test <;> rfl

end

variable {α : Type} {f : Mark → Option α}

/-- What must hold of the rewritings of a walk for the walk to keep what is read off a tree. -/
structure Walk.KeepsMarks (w : Walk) (f : Mark → Option α) : Prop where
  reads : IsReading f
  body : ∀ rewrite ∈ w.body, ∀ body,
    (readings f (Stmt.visitsList (rewrite body).value)).Sublist (readings f (Stmt.visitsList body))
  test : ∀ rewrite ∈ w.test, ∀ e, ((rewrite e).value.marks f).Sublist (e.marks f)
  leave : ∀ e, ((w.leave e).value.marks f).Sublist (e.marks f)
  nullish : ∀ e, (w.leave e).value.comesToNullish → e.comesToNullish
  string : ∀ e, (w.leave e).value.comesToString → e.comesToString

variable {w : Walk}

section

variable (keeps : w.KeepsMarks f)
include keeps

/-- A body is left to the rewriting of bodies, if there is one. -/
theorem Walk.KeepsMarks.onBody {body : List Stmt}
    (walked : (readings f (Stmt.visitsList (Stmt.walkList w body).value)).Sublist
      (readings f (Stmt.visitsList body))) :
    (readings f (Stmt.visitsList (w.onBody body))).Sublist (readings f (Stmt.visitsList body)) := by
  unfold Walk.onBody
  split
  · rename_i rewrite found
    exact keeps.body rewrite found body
  · exact walked

/-- A test is left to the rewriting of tests, if there is one. -/
theorem Walk.KeepsMarks.onTest {test : Expr}
    (walked : ((test.walk w).value.marks f).Sublist (test.marks f)) :
    ((w.onTest test).marks f).Sublist (test.marks f) := by
  unfold Walk.onTest
  split
  · rename_i rewrite found
    exact keeps.test rewrite found test
  · exact walked

theorem Expr.comesToNullish_walk (e : Expr) (comes : (e.walk w).value.comesToNullish) :
    e.comesToNullish := by
  fun_induction Expr.comesToNullish e with
  | case1 | case2 => rfl
  | case3 loc value comment ih =>
    rw [Expr.walk] at comes
    have inner := keeps.nullish _ comes
    rw [Expr.comesToNullish] at inner
    exact ih inner
  | case4 loc left right leftIh rightIh =>
    rw [Expr.walk] at comes
    have both := keeps.nullish _ comes
    simp only [Expr.comesToNullish, Bool.and_eq_true] at both
    rw [leftIh both.1, rightIh both.2]
    rfl
  | case5 e notNull notUndefined notEnum notChoice =>
    -- Whatever else there is stays of its kind, which never comes down to either.
    obtain ⟨rewritten, left, -, same⟩ := Expr.exists_walk_eq w notChoice
    rw [left] at comes
    have before := same notEnum ▸ keeps.nullish _ comes
    rwa [Expr.comesToNullish] at before <;> assumption

/-- No string comes to light on a walk. -/
theorem Expr.comesToString_walk (e : Expr) (comes : (e.walk w).value.comesToString) :
    e.comesToString := by
  fun_induction Expr.comesToString e with
  | case1 => rfl
  | case2 loc left right leftIh rightIh =>
    rw [Expr.walk] at comes
    -- A string on the left was one before, and so was one behind a nullish left side.
    have either := keeps.string _ comes
    simp only [Expr.comesToString, Bool.or_eq_true, Bool.and_eq_true] at either ⊢
    exact either.imp leftIh fun both =>
      ⟨Expr.comesToNullish_walk keeps left both.1, rightIh both.2⟩
  | case3 e notString notChoice =>
    obtain ⟨rewritten, left, same, -⟩ := Expr.exists_walk_eq w notChoice
    rw [left] at comes
    have before := same ▸ keeps.string _ comes
    rwa [Expr.comesToString] at before <;> assumption

/-- A choice by `??` stays marked as it was, or is not marked any more. -/
theorem Walk.KeepsMarks.mark (loc : Loc) (op : Operator) (left right right' : Expr) :
    ((f (Expr.binary loc op (left.walk w).value right').mark).toList).Sublist
      (f (Expr.binary loc op left right).mark).toList := by
  cases op with
  | nullishCoalescing =>
    simp only [Expr.mark]
    -- A choice that exposes a string on the walk has exposed one before it.
    cases exposes : (left.walk w).value.comesToString with
    | true =>
      simp only [Expr.comesToString_walk keeps left exposes, List.Sublist.refl]
    | false => simp [keeps.reads.coalescing]
  | _ => exact List.Sublist.refl _

end

-- The equations of the walks are worked out once, for all the proofs below.
attribute [local simp] Expr.walkList Expr.walkOption TemplatePart.walkList Property.walkList
  ClassMember.walk ClassMember.walkList Class.walk Binding.walk Binding.walkOption
  BindingElement.walk BindingElement.walkList PropertyPattern.walkList Stmt.walk Stmt.walkList
  Stmt.walkOption Stmt.walkListOption Catch.walkOption

attribute [local simp] Func.visits ClassMember.visits ClassMember.visitsList Class.visits
  Binding.visits Binding.visitsOption BindingElement.visits BindingElement.visitsList
  PropertyPattern.visitsList Stmt.visits Stmt.visitsList Stmt.visitsOption Stmt.visitsListOption
  Catch.visitsOption

-- In each case the parts come first and the node itself last, as on the walk: what is made of the
-- node has no more marks than the node around the new parts, and those are compared one by one.
mutual

/-- A walk makes up no mark in an expression and moves none. -/
theorem Expr.marks_walk (keeps : w.KeepsMarks f) :
    (e : Expr) → ((e.walk w).value.marks f).Sublist (e.marks f)
  | .array loc items => by
    rw [Expr.walk]
    refine (keeps.leave _).trans ?_
    rw [Expr.marks_array, Expr.marks_array]
    exact (List.Sublist.refl _).append (Expr.marks_walkList keeps items)
  | .arrow loc params body isAsync prefersExpr => by
    rw [Expr.value_walk_arrow]
    refine (keeps.leave _).trans ?_
    rw [Expr.marks_arrow, Expr.marks_arrow]
    have inside := keeps.onBody (Stmt.readings_walkList keeps body)
    exact (List.Sublist.refl _).append
      ((BindingElement.readings_walkList keeps params).append inside)
  | .binary loc op left right => by
    rw [Expr.walk]
    refine (keeps.leave _).trans ?_
    rw [Expr.marks_binary, Expr.marks_binary]
    exact (keeps.mark loc op left right _).append
      ((Expr.marks_walk keeps left).append (Expr.marks_walk keeps right))
  | .call loc target args link isPure kind => by
    rw [Expr.walk]
    refine (keeps.leave _).trans ?_
    rw [Expr.marks_call, Expr.marks_call]
    exact (List.Sublist.refl _).append
      ((Expr.marks_walk keeps target).append (Expr.marks_walkList keeps args))
  | .classExpr loc definition => by
    rw [Expr.walk]
    refine (keeps.leave _).trans ?_
    rw [Expr.marks_classExpr, Expr.marks_classExpr]
    exact (List.Sublist.refl _).append (Class.readings_walk keeps definition)
  | .dot loc target name link isRemovable => by
    rw [Expr.walk]
    refine (keeps.leave _).trans ?_
    rw [Expr.marks_dot, Expr.marks_dot]
    exact (List.Sublist.refl _).append (Expr.marks_walk keeps target)
  | .function loc func => by
    rw [Expr.walk]
    refine (keeps.leave _).trans ?_
    rw [Expr.marks_function, Expr.marks_function]
    exact (List.Sublist.refl _).append (Func.readings_walk keeps func)
  | .conditional loc test yes no => by
    rw [Expr.value_walk_conditional]
    refine (keeps.leave _).trans ?_
    rw [Expr.marks_conditional, Expr.marks_conditional]
    exact (List.Sublist.refl _).append (((keeps.onTest (Expr.marks_walk keeps test)).append
      (Expr.marks_walk keeps yes)).append (Expr.marks_walk keeps no))
  | .index loc target key link isRemovable => by
    rw [Expr.walk]
    refine (keeps.leave _).trans ?_
    rw [Expr.marks_index, Expr.marks_index]
    exact (List.Sublist.refl _).append
      ((Expr.marks_walk keeps target).append (Expr.marks_walk keeps key))
  | .inlinedEnum loc value comment => by
    rw [Expr.walk]
    refine (keeps.leave _).trans ?_
    rw [Expr.marks_inlinedEnum, Expr.marks_inlinedEnum]
    exact (List.Sublist.refl _).append (Expr.marks_walk keeps value)
  | .new loc target args isPure => by
    rw [Expr.walk]
    refine (keeps.leave _).trans ?_
    rw [Expr.marks_new, Expr.marks_new]
    exact (List.Sublist.refl _).append
      ((Expr.marks_walk keeps target).append (Expr.marks_walkList keeps args))
  | .object loc properties => by
    rw [Expr.walk]
    refine (keeps.leave _).trans ?_
    rw [Expr.marks_object, Expr.marks_object]
    exact (List.Sublist.refl _).append (Property.marks_walkList keeps properties)
  | .spread loc value => by
    rw [Expr.walk]
    refine (keeps.leave _).trans ?_
    rw [Expr.marks_spread, Expr.marks_spread]
    exact (List.Sublist.refl _).append (Expr.marks_walk keeps value)
  | .template loc tag head parts => by
    rw [Expr.walk]
    refine (keeps.leave _).trans ?_
    rw [Expr.marks_template, Expr.marks_template]
    exact (List.Sublist.refl _).append
      ((Expr.marks_walkOption keeps tag).append (TemplatePart.marks_walkList keeps parts))
  | .unary loc op value fromIdentifier => by
    rw [Expr.walk]
    refine (keeps.leave _).trans ?_
    rw [Expr.marks_unary, Expr.marks_unary]
    exact (List.Sublist.refl _).append (Expr.marks_walk keeps value)
  | .bigInt .. | .boolean .. | .identifier .. | .importIdentifier .. | .importMeta .. | .missing ..
  | .null .. | .number .. | .regExp .. | .string .. | .this .. | .undefined .. => by
    rw [Expr.walk]
    exact keeps.leave _

theorem Expr.marks_walkList (keeps : w.KeepsMarks f) :
    (items : List Expr) → ((Expr.walkList w items).value.flatMap (Expr.marks f)).Sublist
      (items.flatMap (Expr.marks f))
  | [] => by
    simp
  | e :: rest => by
    simpa using (Expr.marks_walk keeps e).append (Expr.marks_walkList keeps rest)

theorem Expr.marks_walkOption (keeps : w.KeepsMarks f) :
    (e : Option Expr) → (Expr.optionMarks f (Expr.walkOption w e).value).Sublist
      (Expr.optionMarks f e)
  | none => by
    simp
  | some e => by
    simpa using Expr.marks_walk keeps e

theorem TemplatePart.marks_walkList (keeps : w.KeepsMarks f) :
    (parts : List TemplatePart) →
      ((TemplatePart.walkList w parts).value.flatMap fun part => part.value.marks f).Sublist
        (parts.flatMap fun part => part.value.marks f)
  | [] => by
    simp
  | ⟨value, tail⟩ :: rest => by
    simpa using (Expr.marks_walk keeps value).append (TemplatePart.marks_walkList keeps rest)

theorem Property.marks_walk (keeps : w.KeepsMarks f) :
    (p : Property) → ((p.walk w).value.marks f).Sublist (p.marks f)
  | ⟨kind, isComputed, isStatic, key, value, initializer⟩ => by
    rw [Property.walk]
    exact ((Expr.marks_walk keeps key).append (Expr.marks_walkOption keeps value)).append
      (Expr.marks_walkOption keeps initializer)

theorem Property.marks_walkList (keeps : w.KeepsMarks f) :
    (properties : List Property) →
      ((Property.walkList w properties).value.flatMap (Property.marks f)).Sublist
        (properties.flatMap (Property.marks f))
  | [] => by
    simp
  | p :: rest => by
    simpa using (Property.marks_walk keeps p).append (Property.marks_walkList keeps rest)

theorem Func.readings_walk (keeps : w.KeepsMarks f) :
    (func : Func) → (readings f (func.walk w).value.visits).Sublist (readings f func.visits)
  | ⟨name, params, body, isAsync, isGenerator⟩ => by
    rw [Func.value_walk]
    simpa using (BindingElement.readings_walkList keeps params).append
      (keeps.onBody (Stmt.readings_walkList keeps body))

theorem ClassMember.readings_walk (keeps : w.KeepsMarks f) :
    (m : ClassMember) → (readings f (m.walk w).value.visits).Sublist (readings f m.visits)
  | .property property => by
    simpa using Property.marks_walk keeps property
  | .staticBlock body => by
    rw [ClassMember.value_walk_staticBlock]
    simpa using keeps.onBody (Stmt.readings_walkList keeps body)

theorem ClassMember.readings_walkList (keeps : w.KeepsMarks f) :
    (members : List ClassMember) →
      (readings f (ClassMember.visitsList (ClassMember.walkList w members).value)).Sublist
        (readings f (ClassMember.visitsList members))
  | [] => by
    simp
  | m :: rest => by
    have first := ClassMember.readings_walk keeps m
    simpa [-ClassMember.walk, -ClassMember.visits] using
      first.append (ClassMember.readings_walkList keeps rest)

theorem Class.readings_walk (keeps : w.KeepsMarks f) :
    (c : Class) → (readings f (c.walk w).value.visits).Sublist (readings f c.visits)
  | ⟨name, superclass, members⟩ => by
    simpa using (Expr.marks_walkOption keeps superclass).append
      (ClassMember.readings_walkList keeps members)

theorem Binding.readings_walk (keeps : w.KeepsMarks f) :
    (b : Binding) → (readings f (b.walk w).value.visits).Sublist (readings f b.visits)
  | .array loc items hasSpread => by
    simpa using BindingElement.readings_walkList keeps items
  | .object loc properties => by
    simpa using PropertyPattern.readings_walkList keeps properties
  | .identifier .. | .missing _ => by
    simp

theorem Binding.readings_walkOption (keeps : w.KeepsMarks f) :
    (b : Option Binding) →
      (readings f (Binding.visitsOption (Binding.walkOption w b).value)).Sublist
        (readings f (Binding.visitsOption b))
  | none => by
    simp
  | some b => by
    simpa [-Binding.visits] using Binding.readings_walk keeps b

theorem BindingElement.readings_walk (keeps : w.KeepsMarks f) :
    (e : BindingElement) → (readings f (e.walk w).value.visits).Sublist (readings f e.visits)
  | ⟨binding, initializer⟩ => by
    simpa [-Binding.visits] using
      (Binding.readings_walk keeps binding).append (Expr.marks_walkOption keeps initializer)

theorem BindingElement.readings_walkList (keeps : w.KeepsMarks f) :
    (elements : List BindingElement) →
      (readings f (BindingElement.visitsList (BindingElement.walkList w elements).value)).Sublist
        (readings f (BindingElement.visitsList elements))
  | [] => by
    simp
  | e :: rest => by
    simpa using
      (BindingElement.readings_walk keeps e).append (BindingElement.readings_walkList keeps rest)

theorem PropertyPattern.readings_walkList (keeps : w.KeepsMarks f) :
    (properties : List PropertyPattern) →
      (readings f
          (PropertyPattern.visitsList (PropertyPattern.walkList w properties).value)).Sublist
        (readings f (PropertyPattern.visitsList properties))
  | [] => by
    simp
  | ⟨key, isComputed, isSpread, element⟩ :: rest => by
    simpa using (Expr.marks_walk keeps key).append
      ((BindingElement.readings_walk keeps element).append
        (PropertyPattern.readings_walkList keeps rest))

theorem Stmt.readings_walk (keeps : w.KeepsMarks f) :
    (s : Stmt) → (readings f (s.walk w).value.visits).Sublist (readings f s.visits)
  | .block loc body => by
    simpa using Stmt.readings_walkList keeps body
  | .classDecl loc definition isExport => by
    simpa using Class.readings_walk keeps definition
  | .doWhile loc body test => by
    rw [Stmt.value_walk_doWhile]
    simpa using (Stmt.readings_walk keeps body).append (keeps.onTest (Expr.marks_walk keeps test))
  | .exportDefaultClass loc ref definition isExport => by
    simpa using Class.readings_walk keeps definition
  | .exportDefaultExpr loc ref value => by
    simpa using Expr.marks_walk keeps value
  | .exportDefaultFunction loc ref func isExport => by
    simpa using Func.readings_walk keeps func
  | .expr loc value isGlue => by
    simpa using Expr.marks_walk keeps value
  | .function loc func isExport => by
    simpa using Func.readings_walk keeps func
  | .ifElse loc test yes no => by
    rw [Stmt.value_walk_ifElse]
    simpa using (keeps.onTest (Expr.marks_walk keeps test)).append
      ((Stmt.readings_walk keeps yes).append (Stmt.readings_walkOption keeps no))
  | .label loc name stmt => by
    simpa using Stmt.readings_walk keeps stmt
  | .localDecl loc kind decls isExport => by
    simpa using BindingElement.readings_walkList keeps decls
  | .returnValue loc value => by
    simpa using Expr.marks_walkOption keeps value
  | .throwValue loc value => by
    simpa using Expr.marks_walk keeps value
  | .tryCatch loc body handler finalizer => by
    simpa using (Stmt.readings_walkList keeps body).append
      ((Catch.readings_walkOption keeps handler).append
        (Stmt.readings_walkListOption keeps finalizer))
  | .whileLoop loc test body => by
    rw [Stmt.value_walk_whileLoop]
    simpa using (keeps.onTest (Expr.marks_walk keeps test)).append (Stmt.readings_walk keeps body)
  | .withObject loc value body => by
    simpa using (Expr.marks_walk keeps value).append (Stmt.readings_walk keeps body)
  | .breakTo .. | .continueTo .. | .debugger _ | .empty _ | .exportClause .. | .exportFrom ..
  | .importFrom .. => by
    simp

/-- A walk makes up no mark in a program and moves none. -/
theorem Stmt.readings_walkList (keeps : w.KeepsMarks f) :
    (body : List Stmt) → (readings f (Stmt.visitsList (Stmt.walkList w body).value)).Sublist
      (readings f (Stmt.visitsList body))
  | [] => by
    simp
  | s :: rest => by
    simpa using (Stmt.readings_walk keeps s).append (Stmt.readings_walkList keeps rest)

theorem Stmt.readings_walkOption (keeps : w.KeepsMarks f) :
    (s : Option Stmt) → (readings f (Stmt.visitsOption (Stmt.walkOption w s).value)).Sublist
      (readings f (Stmt.visitsOption s))
  | none => by
    simp
  | some s => by
    simpa using Stmt.readings_walk keeps s

theorem Stmt.readings_walkListOption (keeps : w.KeepsMarks f) :
    (body : Option (List Stmt)) →
      (readings f (Stmt.visitsListOption (Stmt.walkListOption w body).value)).Sublist
        (readings f (Stmt.visitsListOption body))
  | none => by
    simp
  | some body => by
    simpa using Stmt.readings_walkList keeps body

theorem Catch.readings_walkOption (keeps : w.KeepsMarks f) :
    (handler : Option Catch) →
      (readings f (Catch.visitsOption (Catch.walkOption w handler).value)).Sublist
        (readings f (Catch.visitsOption handler))
  | none => by
    simp
  | some ⟨binding, body⟩ => by
    simpa using
      (Binding.readings_walkOption keeps binding).append (Stmt.readings_walkList keeps body)

end

end EcmaPrune
