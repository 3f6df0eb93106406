import EcmaPrune.Minify.Walk
import EcmaPrune.Proofs.Tree.Canonical

/-! A walk whose rewritings are honest about what they change is honest as a whole. -/

namespace EcmaPrune

namespace Tally

/-- Changes add up to none only if there are none on either side. -/
theorem eq_zero_of_add_eq_zero {a b : Tally} (none : a + b = zero) : a = zero ∧ b = zero := by
  rcases a with ⟨removed, rewrites⟩
  rcases b with ⟨removed', rewrites'⟩
  have sums : removed + removed' = 0 ∧ rewrites + rewrites' = 0 := Tally.mk.inj none
  simp only [zero, mk.injEq]
  omega

/-- A change is anything but no change. -/
theorem isChange_eq_false {tally : Tally} : tally.isChange = false ↔ tally = zero := by
  rcases tally with ⟨removed, rewrites⟩
  simp only [isChange, zero, mk.injEq, decide_eq_false_iff_not]
  omega

end Tally

namespace Counted

variable {α β : Type} {same : α → α} {same' : β → β}

theorem bind_eq (made : Counted α) (rest : α → Counted β) :
    made >>= rest = ⟨(rest made.value).value, made.tally + (rest made.value).tally⟩ :=
  rfl

/--
What a rewriting makes of a tree is honest about its changes: it makes the same of all trees that
are equal, counted alike, and it counts nothing only where its result is equal to the tree.

All trees that are equal have one canonical form, which is `whole` here and of which the rewriting
makes `again`.
-/
structure IsHonest (same : α → α) (whole : α) (made again : Counted α) : Prop where
  agrees : again = ⟨same made.value, made.tally⟩
  counts : made.tally = .zero → same made.value = whole

theorem IsHonest.pure (a : α) : IsHonest same (same a) (Pure.pure a) (Pure.pure (same a)) :=
  ⟨rfl, fun _ => rfl⟩

/-- A part is rewritten first, and then the whole with the new part in its place. -/
theorem IsHonest.bind (whole : α → β) {part : α} {made again : Counted α}
    {rest rest' : α → Counted β} (first : IsHonest same part made again)
    (next : ∀ a, IsHonest same' (whole (same a)) (rest a) (rest' (same a))) :
    IsHonest same' (whole part) (made >>= rest) (again >>= rest') := by
  have later := next made.value
  constructor
  · rw [first.agrees, bind_eq, bind_eq, later.agrees]
  · intro none
    -- Changes do not cancel out, so neither of the two rewritings made one.
    obtain ⟨noneFirst, noneLater⟩ := Tally.eq_zero_of_add_eq_zero none
    rw [← first.counts noneFirst]
    exact later.counts noneLater

end Counted

open Counted

/-- What must hold of the rewritings of a walk for it to be honest about its changes. -/
structure Walk.IsHonest (w : Walk) : Prop where
  body : ∀ rewrite ∈ w.body, ∀ body,
    Counted.IsHonest Stmt.canonicalList (Stmt.canonicalList body) (rewrite body)
      (rewrite (Stmt.canonicalList body))
  test : ∀ rewrite ∈ w.test, ∀ e,
    Counted.IsHonest Expr.canonical e.canonical (rewrite e) (rewrite e.canonical)
  leave : ∀ e, Counted.IsHonest Expr.canonical e.canonical (w.leave e) (w.leave e.canonical)

variable {w : Walk}

/-- A body is left to the rewriting of bodies, if there is one. -/
theorem Walk.IsHonest.bindBody (honest : w.IsHonest) {β : Type} {same : β → β}
    (whole : List Stmt → β) {body : List Stmt} {rest rest' : List Stmt → Counted β}
    (walked : Counted.IsHonest Stmt.canonicalList (Stmt.canonicalList body) (Stmt.walkList w body)
      (Stmt.walkList w (Stmt.canonicalList body)))
    (next : ∀ body, Counted.IsHonest same (whole (Stmt.canonicalList body)) (rest body)
      (rest' (Stmt.canonicalList body))) :
    Counted.IsHonest same (whole (Stmt.canonicalList body))
      (match w.body with
        | some rewrite => rewrite body >>= rest
        | none => Stmt.walkList w body >>= rest)
      (match w.body with
        | some rewrite => rewrite (Stmt.canonicalList body) >>= rest'
        | none => Stmt.walkList w (Stmt.canonicalList body) >>= rest') := by
  split
  · rename_i rewrite found
    exact .bind whole (honest.body rewrite found body) next
  · exact .bind whole walked next

/-- A test is left to the rewriting of tests, if there is one. -/
theorem Walk.IsHonest.bindTest (honest : w.IsHonest) {β : Type} {same : β → β}
    (whole : Expr → β) {test : Expr}
    {rest rest' : Expr → Counted β}
    (walked : Counted.IsHonest Expr.canonical test.canonical (test.walk w)
      (test.canonical.walk w))
    (next : ∀ test, Counted.IsHonest same (whole test.canonical) (rest test)
      (rest' test.canonical)) :
    Counted.IsHonest same (whole test.canonical)
      (match w.test with
        | some rewrite => rewrite test >>= rest
        | none => test.walk w >>= rest)
      (match w.test with
        | some rewrite => rewrite test.canonical >>= rest'
        | none => test.canonical.walk w >>= rest') := by
  split
  · rename_i rewrite found
    exact .bind whole (honest.test rewrite found test) next
  · exact .bind whole walked next

-- Each case rewrites one part after the other and then the node itself, as the walk does. What
-- `bind` is given is the node around the part that comes next: new parts to the left of it, and
-- old ones to the right.
mutual

theorem Expr.honest_walk (honest : w.IsHonest) :
    (e : Expr) → IsHonest Expr.canonical e.canonical (e.walk w) (e.canonical.walk w)
  | .array loc items => by
    rw [Expr.canonical, Expr.walk, Expr.walk]
    refine .bind (Expr.array default) (Expr.honest_walkList honest items) fun items => ?_
    exact honest.leave (.array loc items)
  | .arrow loc params body isAsync prefersExpr => by
    rw [Expr.canonical, Expr.walk, Expr.walk]
    refine .bind (Expr.arrow default · (Stmt.canonicalList body) isAsync prefersExpr)
      (BindingElement.honest_walkList honest params) fun params => ?_
    refine honest.bindBody
      (Expr.arrow default (BindingElement.canonicalList params) · isAsync prefersExpr)
      (Stmt.honest_walkList honest body) fun body => ?_
    exact honest.leave (.arrow loc params body isAsync prefersExpr)
  | .binary loc op left right => by
    rw [Expr.canonical, Expr.walk, Expr.walk]
    refine .bind (Expr.binary default op · right.canonical) (left.honest_walk honest) fun left => ?_
    refine .bind (Expr.binary default op left.canonical) (right.honest_walk honest) fun right => ?_
    exact honest.leave (.binary loc op left right)
  | .call loc target args link isPure kind => by
    rw [Expr.canonical, Expr.walk, Expr.walk]
    refine .bind (Expr.call default · (Expr.canonicalList args) link isPure kind)
      (target.honest_walk honest) fun target => ?_
    refine .bind (Expr.call default target.canonical · link isPure kind)
      (Expr.honest_walkList honest args) fun args => ?_
    exact honest.leave (.call loc target args link isPure kind)
  | .classExpr loc definition => by
    rw [Expr.canonical, Expr.walk, Expr.walk]
    refine .bind (Expr.classExpr default) (definition.honest_walk honest) fun definition => ?_
    exact honest.leave (.classExpr loc definition)
  | .dot loc target name link isRemovable => by
    rw [Expr.canonical, Expr.walk, Expr.walk]
    refine .bind (Expr.dot default · name link isRemovable) (target.honest_walk honest)
      fun target => ?_
    exact honest.leave (.dot loc target name link isRemovable)
  | .function loc func => by
    rw [Expr.canonical, Expr.walk, Expr.walk]
    refine .bind (Expr.function default) (func.honest_walk honest) fun func => ?_
    exact honest.leave (.function loc func)
  | .conditional loc test yes no => by
    rw [Expr.canonical, Expr.walk, Expr.walk]
    refine honest.bindTest (Expr.conditional default · yes.canonical no.canonical)
      (test.honest_walk honest) fun test => ?_
    refine .bind (Expr.conditional default test.canonical · no.canonical)
      (yes.honest_walk honest) fun yes => ?_
    refine .bind (Expr.conditional default test.canonical yes.canonical)
      (no.honest_walk honest) fun no => ?_
    exact honest.leave (.conditional loc test yes no)
  | .index loc target key link isRemovable => by
    rw [Expr.canonical, Expr.walk, Expr.walk]
    refine .bind (Expr.index default · key.canonical link isRemovable)
      (target.honest_walk honest) fun target => ?_
    refine .bind (Expr.index default target.canonical · link isRemovable)
      (key.honest_walk honest) fun key => ?_
    exact honest.leave (.index loc target key link isRemovable)
  | .inlinedEnum loc value comment => by
    rw [Expr.canonical, Expr.walk, Expr.walk]
    refine .bind (Expr.inlinedEnum default · comment) (value.honest_walk honest) fun value => ?_
    exact honest.leave (.inlinedEnum loc value comment)
  | .new loc target args isPure => by
    rw [Expr.canonical, Expr.walk, Expr.walk]
    refine .bind (Expr.new default · (Expr.canonicalList args) isPure)
      (target.honest_walk honest) fun target => ?_
    refine .bind (Expr.new default target.canonical · isPure)
      (Expr.honest_walkList honest args) fun args => ?_
    exact honest.leave (.new loc target args isPure)
  | .object loc properties => by
    rw [Expr.canonical, Expr.walk, Expr.walk]
    refine .bind (Expr.object default) (Property.honest_walkList honest properties)
      fun properties => ?_
    exact honest.leave (.object loc properties)
  | .spread loc value => by
    rw [Expr.canonical, Expr.walk, Expr.walk]
    refine .bind (Expr.spread default) (value.honest_walk honest) fun value => ?_
    exact honest.leave (.spread loc value)
  | .template loc tag head parts => by
    rw [Expr.canonical, Expr.walk, Expr.walk]
    refine .bind (Expr.template default · head (TemplatePart.canonicalList parts))
      (Expr.honest_walkOption honest tag) fun tag => ?_
    refine .bind (Expr.template default (Expr.canonicalOption tag) head)
      (TemplatePart.honest_walkList honest parts) fun parts => ?_
    exact honest.leave (.template loc tag head parts)
  | .unary loc op value fromIdentifier => by
    rw [Expr.canonical, Expr.walk, Expr.walk]
    refine .bind (Expr.unary default op · fromIdentifier) (value.honest_walk honest) fun value => ?_
    exact honest.leave (.unary loc op value fromIdentifier)
  | .bigInt .. | .boolean .. | .identifier .. | .importIdentifier .. | .importMeta _ | .missing _
  | .null _ | .number .. | .regExp .. | .string .. | .this _ | .undefined _ => honest.leave _

theorem Expr.honest_walkList (honest : w.IsHonest) :
    (items : List Expr) → IsHonest Expr.canonicalList (Expr.canonicalList items)
      (Expr.walkList w items) (Expr.walkList w (Expr.canonicalList items))
  | [] => .pure []
  | e :: rest => by
    rw [Expr.canonicalList, Expr.walkList, Expr.walkList]
    refine .bind (· :: Expr.canonicalList rest) (e.honest_walk honest) fun e => ?_
    refine .bind (e.canonical :: ·) (Expr.honest_walkList honest rest) fun rest => ?_
    exact .pure (e :: rest)

theorem Expr.honest_walkOption (honest : w.IsHonest) :
    (e : Option Expr) → IsHonest Expr.canonicalOption (Expr.canonicalOption e)
      (Expr.walkOption w e) (Expr.walkOption w (Expr.canonicalOption e))
  | none => .pure none
  | some e => by
    rw [Expr.canonicalOption, Expr.walkOption, Expr.walkOption]
    refine .bind some (e.honest_walk honest) fun e => ?_
    exact .pure (some e)

theorem TemplatePart.honest_walkList (honest : w.IsHonest) :
    (parts : List TemplatePart) →
      IsHonest TemplatePart.canonicalList (TemplatePart.canonicalList parts)
        (TemplatePart.walkList w parts) (TemplatePart.walkList w (TemplatePart.canonicalList parts))
  | [] => .pure []
  | ⟨value, tail⟩ :: rest => by
    rw [TemplatePart.canonicalList, TemplatePart.canonical, TemplatePart.walkList,
      TemplatePart.walkList]
    refine .bind (⟨·, tail⟩ :: TemplatePart.canonicalList rest) (value.honest_walk honest)
      fun value => ?_
    refine .bind (⟨value.canonical, tail⟩ :: ·) (TemplatePart.honest_walkList honest rest)
      fun rest => ?_
    exact .pure (⟨value, tail⟩ :: rest)

theorem Property.honest_walk (honest : w.IsHonest) :
    (p : Property) → IsHonest Property.canonical p.canonical (p.walk w) (p.canonical.walk w)
  | ⟨kind, isComputed, isStatic, key, value, initializer⟩ => by
    rw [Property.canonical, Property.walk, Property.walk]
    refine .bind (fun key => Property.mk kind isComputed isStatic key (Expr.canonicalOption value)
      (Expr.canonicalOption initializer)) (key.honest_walk honest) fun key => ?_
    refine .bind (fun value => Property.mk kind isComputed isStatic key.canonical value
      (Expr.canonicalOption initializer)) (Expr.honest_walkOption honest value) fun value => ?_
    refine .bind (Property.mk kind isComputed isStatic key.canonical (Expr.canonicalOption value))
      (Expr.honest_walkOption honest initializer) fun initializer => ?_
    exact .pure (Property.mk kind isComputed isStatic key value initializer)

theorem Property.honest_walkList (honest : w.IsHonest) :
    (properties : List Property) →
      IsHonest Property.canonicalList (Property.canonicalList properties)
        (Property.walkList w properties) (Property.walkList w (Property.canonicalList properties))
  | [] => .pure []
  | p :: rest => by
    rw [Property.canonicalList, Property.walkList, Property.walkList]
    refine .bind (· :: Property.canonicalList rest) (p.honest_walk honest) fun p => ?_
    refine .bind (p.canonical :: ·) (Property.honest_walkList honest rest) fun rest => ?_
    exact .pure (p :: rest)

theorem Func.honest_walk (honest : w.IsHonest) :
    (func : Func) → IsHonest Func.canonical func.canonical (func.walk w) (func.canonical.walk w)
  | ⟨name, params, body, isAsync, isGenerator⟩ => by
    rw [Func.canonical, Func.walk, Func.walk]
    refine .bind (fun params => Func.mk name params (Stmt.canonicalList body) isAsync isGenerator)
      (BindingElement.honest_walkList honest params) fun params => ?_
    refine honest.bindBody (fun body => Func.mk name (BindingElement.canonicalList params) body
      isAsync isGenerator) (Stmt.honest_walkList honest body) fun body => ?_
    exact .pure (Func.mk name params body isAsync isGenerator)

theorem ClassMember.honest_walk (honest : w.IsHonest) :
    (m : ClassMember) → IsHonest ClassMember.canonical m.canonical (m.walk w) (m.canonical.walk w)
  | .property property => by
    rw [ClassMember.canonical, ClassMember.walk, ClassMember.walk]
    refine .bind ClassMember.property (property.honest_walk honest) fun property => ?_
    exact .pure (ClassMember.property property)
  | .staticBlock body => by
    rw [ClassMember.canonical, ClassMember.walk, ClassMember.walk]
    refine honest.bindBody ClassMember.staticBlock (Stmt.honest_walkList honest body) fun body => ?_
    exact .pure (ClassMember.staticBlock body)

theorem ClassMember.honest_walkList (honest : w.IsHonest) :
    (members : List ClassMember) →
      IsHonest ClassMember.canonicalList (ClassMember.canonicalList members)
        (ClassMember.walkList w members)
        (ClassMember.walkList w (ClassMember.canonicalList members))
  | [] => .pure []
  | m :: rest => by
    rw [ClassMember.canonicalList, ClassMember.walkList, ClassMember.walkList]
    refine .bind (· :: ClassMember.canonicalList rest) (m.honest_walk honest) fun m => ?_
    refine .bind (m.canonical :: ·) (ClassMember.honest_walkList honest rest) fun rest => ?_
    exact .pure (m :: rest)

theorem Class.honest_walk (honest : w.IsHonest) :
    (c : Class) → IsHonest Class.canonical c.canonical (c.walk w) (c.canonical.walk w)
  | ⟨name, superclass, members⟩ => by
    rw [Class.canonical, Class.walk, Class.walk]
    refine .bind (fun superclass => Class.mk name superclass (ClassMember.canonicalList members))
      (Expr.honest_walkOption honest superclass) fun superclass => ?_
    refine .bind (Class.mk name (Expr.canonicalOption superclass))
      (ClassMember.honest_walkList honest members) fun members => ?_
    exact .pure (Class.mk name superclass members)

theorem Binding.honest_walk (honest : w.IsHonest) :
    (b : Binding) → IsHonest Binding.canonical b.canonical (b.walk w) (b.canonical.walk w)
  | .array loc items hasSpread => by
    rw [Binding.canonical, Binding.walk, Binding.walk]
    refine .bind (Binding.array default · hasSpread) (BindingElement.honest_walkList honest items)
      fun items => ?_
    exact .pure (Binding.array loc items hasSpread)
  | .object loc properties => by
    rw [Binding.canonical, Binding.walk, Binding.walk]
    refine .bind (Binding.object default) (PropertyPattern.honest_walkList honest properties)
      fun properties => ?_
    exact .pure (Binding.object loc properties)
  | .identifier .. | .missing _ => .pure _

theorem Binding.honest_walkOption (honest : w.IsHonest) :
    (b : Option Binding) → IsHonest Binding.canonicalOption (Binding.canonicalOption b)
      (Binding.walkOption w b) (Binding.walkOption w (Binding.canonicalOption b))
  | none => .pure none
  | some b => by
    rw [Binding.canonicalOption, Binding.walkOption, Binding.walkOption]
    refine .bind some (b.honest_walk honest) fun b => ?_
    exact .pure (some b)

theorem BindingElement.honest_walk (honest : w.IsHonest) :
    (e : BindingElement) →
      IsHonest BindingElement.canonical e.canonical (e.walk w) (e.canonical.walk w)
  | ⟨binding, initializer⟩ => by
    rw [BindingElement.canonical, BindingElement.walk, BindingElement.walk]
    refine .bind (fun binding => BindingElement.mk binding (Expr.canonicalOption initializer))
      (binding.honest_walk honest) fun binding => ?_
    refine .bind (BindingElement.mk binding.canonical) (Expr.honest_walkOption honest initializer)
      fun initializer => ?_
    exact .pure (BindingElement.mk binding initializer)

theorem BindingElement.honest_walkList (honest : w.IsHonest) :
    (elements : List BindingElement) →
      IsHonest BindingElement.canonicalList (BindingElement.canonicalList elements)
        (BindingElement.walkList w elements)
        (BindingElement.walkList w (BindingElement.canonicalList elements))
  | [] => .pure []
  | e :: rest => by
    rw [BindingElement.canonicalList, BindingElement.walkList, BindingElement.walkList]
    refine .bind (· :: BindingElement.canonicalList rest) (e.honest_walk honest) fun e => ?_
    refine .bind (e.canonical :: ·) (BindingElement.honest_walkList honest rest) fun rest => ?_
    exact .pure (e :: rest)

theorem PropertyPattern.honest_walkList (honest : w.IsHonest) :
    (properties : List PropertyPattern) →
      IsHonest PropertyPattern.canonicalList (PropertyPattern.canonicalList properties)
        (PropertyPattern.walkList w properties)
        (PropertyPattern.walkList w (PropertyPattern.canonicalList properties))
  | [] => .pure []
  | ⟨key, isComputed, isSpread, element⟩ :: rest => by
    rw [PropertyPattern.canonicalList, PropertyPattern.walkList, PropertyPattern.walkList]
    refine .bind (fun key => PropertyPattern.mk key isComputed isSpread element.canonical ::
      PropertyPattern.canonicalList rest) (key.honest_walk honest) fun key => ?_
    refine .bind (fun element => PropertyPattern.mk key.canonical isComputed isSpread element ::
      PropertyPattern.canonicalList rest) (element.honest_walk honest) fun element => ?_
    refine .bind (⟨key.canonical, isComputed, isSpread, element.canonical⟩ :: ·)
      (PropertyPattern.honest_walkList honest rest) fun rest => ?_
    exact .pure (⟨key, isComputed, isSpread, element⟩ :: rest)

theorem Stmt.honest_walk (honest : w.IsHonest) :
    (s : Stmt) → IsHonest Stmt.canonical s.canonical (s.walk w) (s.canonical.walk w)
  | .block loc body => by
    rw [Stmt.canonical, Stmt.walk, Stmt.walk]
    refine .bind (Stmt.block default) (Stmt.honest_walkList honest body) fun body => ?_
    exact .pure (Stmt.block loc body)
  | .classDecl loc definition isExport => by
    rw [Stmt.canonical, Stmt.walk, Stmt.walk]
    refine .bind (Stmt.classDecl default · isExport) (definition.honest_walk honest)
      fun definition => ?_
    exact .pure (Stmt.classDecl loc definition isExport)
  | .doWhile loc body test => by
    rw [Stmt.canonical, Stmt.walk, Stmt.walk]
    refine .bind (Stmt.doWhile default · test.canonical) (body.honest_walk honest) fun body => ?_
    refine honest.bindTest (Stmt.doWhile default body.canonical) (test.honest_walk honest)
      fun test => ?_
    exact .pure (Stmt.doWhile loc body test)
  | .exportDefaultClass loc ref definition isExport => by
    rw [Stmt.canonical, Stmt.walk, Stmt.walk]
    refine .bind (Stmt.exportDefaultClass default ref · isExport) (definition.honest_walk honest)
      fun definition => ?_
    exact .pure (Stmt.exportDefaultClass loc ref definition isExport)
  | .exportDefaultExpr loc ref value => by
    rw [Stmt.canonical, Stmt.walk, Stmt.walk]
    refine .bind (Stmt.exportDefaultExpr default ref) (value.honest_walk honest) fun value => ?_
    exact .pure (Stmt.exportDefaultExpr loc ref value)
  | .exportDefaultFunction loc ref func isExport => by
    rw [Stmt.canonical, Stmt.walk, Stmt.walk]
    refine .bind (Stmt.exportDefaultFunction default ref · isExport) (func.honest_walk honest)
      fun func => ?_
    exact .pure (Stmt.exportDefaultFunction loc ref func isExport)
  | .expr loc value isGlue => by
    rw [Stmt.canonical, Stmt.walk, Stmt.walk]
    refine .bind (Stmt.expr default · isGlue) (value.honest_walk honest) fun value => ?_
    exact .pure (Stmt.expr loc value isGlue)
  | .function loc func isExport => by
    rw [Stmt.canonical, Stmt.walk, Stmt.walk]
    refine .bind (Stmt.function default · isExport) (func.honest_walk honest) fun func => ?_
    exact .pure (Stmt.function loc func isExport)
  | .ifElse loc test yes no => by
    rw [Stmt.canonical, Stmt.walk, Stmt.walk]
    refine honest.bindTest (Stmt.ifElse default · yes.canonical (Stmt.canonicalOption no))
      (test.honest_walk honest) fun test => ?_
    refine .bind (Stmt.ifElse default test.canonical · (Stmt.canonicalOption no))
      (yes.honest_walk honest) fun yes => ?_
    refine .bind (Stmt.ifElse default test.canonical yes.canonical)
      (Stmt.honest_walkOption honest no) fun no => ?_
    exact .pure (Stmt.ifElse loc test yes no)
  | .label loc name stmt => by
    rw [Stmt.canonical, Stmt.walk, Stmt.walk]
    refine .bind (Stmt.label default name) (stmt.honest_walk honest) fun stmt => ?_
    exact .pure (Stmt.label loc name stmt)
  | .localDecl loc kind decls isExport => by
    rw [Stmt.canonical, Stmt.walk, Stmt.walk]
    refine .bind (Stmt.localDecl default kind · isExport)
      (BindingElement.honest_walkList honest decls) fun decls => ?_
    exact .pure (Stmt.localDecl loc kind decls isExport)
  | .returnValue loc value => by
    rw [Stmt.canonical, Stmt.walk, Stmt.walk]
    refine .bind (Stmt.returnValue default) (Expr.honest_walkOption honest value) fun value => ?_
    exact .pure (Stmt.returnValue loc value)
  | .throwValue loc value => by
    rw [Stmt.canonical, Stmt.walk, Stmt.walk]
    refine .bind (Stmt.throwValue default) (value.honest_walk honest) fun value => ?_
    exact .pure (Stmt.throwValue loc value)
  | .tryCatch loc body handler finalizer => by
    rw [Stmt.canonical, Stmt.walk, Stmt.walk]
    refine .bind (Stmt.tryCatch default · (Catch.canonicalOption handler)
      (Stmt.canonicalListOption finalizer)) (Stmt.honest_walkList honest body) fun body => ?_
    refine .bind (Stmt.tryCatch default (Stmt.canonicalList body) ·
      (Stmt.canonicalListOption finalizer)) (Catch.honest_walkOption honest handler)
      fun handler => ?_
    refine .bind (Stmt.tryCatch default (Stmt.canonicalList body) (Catch.canonicalOption handler))
      (Stmt.honest_walkListOption honest finalizer) fun finalizer => ?_
    exact .pure (Stmt.tryCatch loc body handler finalizer)
  | .whileLoop loc test body => by
    rw [Stmt.canonical, Stmt.walk, Stmt.walk]
    refine honest.bindTest (Stmt.whileLoop default · body.canonical) (test.honest_walk honest)
      fun test => ?_
    refine .bind (Stmt.whileLoop default test.canonical) (body.honest_walk honest) fun body => ?_
    exact .pure (Stmt.whileLoop loc test body)
  | .withObject loc value body => by
    rw [Stmt.canonical, Stmt.walk, Stmt.walk]
    refine .bind (Stmt.withObject default · body.canonical) (value.honest_walk honest)
      fun value => ?_
    refine .bind (Stmt.withObject default value.canonical) (body.honest_walk honest) fun body => ?_
    exact .pure (Stmt.withObject loc value body)
  | .breakTo .. | .continueTo .. | .debugger _ | .empty _ | .exportClause .. | .exportFrom ..
  | .importFrom .. => .pure _

theorem Stmt.honest_walkList (honest : w.IsHonest) :
    (body : List Stmt) → IsHonest Stmt.canonicalList (Stmt.canonicalList body)
      (Stmt.walkList w body) (Stmt.walkList w (Stmt.canonicalList body))
  | [] => .pure []
  | s :: rest => by
    rw [Stmt.canonicalList, Stmt.walkList, Stmt.walkList]
    refine .bind (· :: Stmt.canonicalList rest) (s.honest_walk honest) fun s => ?_
    refine .bind (s.canonical :: ·) (Stmt.honest_walkList honest rest) fun rest => ?_
    exact .pure (s :: rest)

theorem Stmt.honest_walkOption (honest : w.IsHonest) :
    (s : Option Stmt) → IsHonest Stmt.canonicalOption (Stmt.canonicalOption s)
      (Stmt.walkOption w s) (Stmt.walkOption w (Stmt.canonicalOption s))
  | none => .pure none
  | some s => by
    rw [Stmt.canonicalOption, Stmt.walkOption, Stmt.walkOption]
    refine .bind some (s.honest_walk honest) fun s => ?_
    exact .pure (some s)

theorem Stmt.honest_walkListOption (honest : w.IsHonest) :
    (body : Option (List Stmt)) →
      IsHonest Stmt.canonicalListOption (Stmt.canonicalListOption body)
        (Stmt.walkListOption w body) (Stmt.walkListOption w (Stmt.canonicalListOption body))
  | none => .pure none
  | some body => by
    rw [Stmt.canonicalListOption, Stmt.walkListOption, Stmt.walkListOption]
    refine .bind some (Stmt.honest_walkList honest body) fun body => ?_
    exact .pure (some body)

theorem Catch.honest_walkOption (honest : w.IsHonest) :
    (handler : Option Catch) → IsHonest Catch.canonicalOption (Catch.canonicalOption handler)
      (Catch.walkOption w handler) (Catch.walkOption w (Catch.canonicalOption handler))
  | none => .pure none
  | some ⟨binding, body⟩ => by
    rw [Catch.canonicalOption, Catch.walkOption, Catch.walkOption]
    refine .bind (fun binding => some (Catch.mk binding (Stmt.canonicalList body)))
      (Binding.honest_walkOption honest binding) fun binding => ?_
    refine .bind (fun body => some (Catch.mk (Binding.canonicalOption binding) body))
      (Stmt.honest_walkList honest body) fun body => ?_
    exact .pure (some (Catch.mk binding body))

end

end EcmaPrune
