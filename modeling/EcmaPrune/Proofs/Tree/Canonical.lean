import EcmaPrune.Proofs.Number.Canonical
import EcmaPrune.Tree.Same
import EcmaPrune.Tree.Visit

/-! Trees without positions, one for all that are equal. -/

namespace EcmaPrune

mutual

/-- The expression that stands for all that are equal to it. -/
def Expr.canonical : Expr → Expr
  | .array _ items => .array default (Expr.canonicalList items)
  | .arrow _ params body isAsync prefersExpr =>
    .arrow default (BindingElement.canonicalList params) (Stmt.canonicalList body) isAsync
      prefersExpr
  | .bigInt _ literal => .bigInt default literal
  | .binary _ op left right => .binary default op left.canonical right.canonical
  | .boolean _ value => .boolean default value
  | .call _ target args link isPure kind =>
    .call default target.canonical (Expr.canonicalList args) link isPure kind
  | .classExpr _ definition => .classExpr default definition.canonical
  | .dot _ target name link isRemovable => .dot default target.canonical name link isRemovable
  | .function _ func => .function default func.canonical
  | .identifier _ ref isRemovable mustKeepInWith =>
    .identifier default ref isRemovable mustKeepInWith
  | .conditional _ test yes no => .conditional default test.canonical yes.canonical no.canonical
  | .importIdentifier _ ref => .importIdentifier default ref
  | .importMeta _ => .importMeta default
  | .index _ target key link isRemovable =>
    .index default target.canonical key.canonical link isRemovable
  | .inlinedEnum _ value comment => .inlinedEnum default value.canonical comment
  | .missing _ => .missing default
  | .new _ target args isPure => .new default target.canonical (Expr.canonicalList args) isPure
  | .null _ => .null default
  | .number _ value => .number default value.canonical
  | .object _ properties => .object default (Property.canonicalList properties)
  | .regExp _ text => .regExp default text
  | .spread _ value => .spread default value.canonical
  | .string _ value => .string default value
  | .template _ tag head parts =>
    .template default (Expr.canonicalOption tag) head (TemplatePart.canonicalList parts)
  | .this _ => .this default
  | .unary _ op value fromIdentifier => .unary default op value.canonical fromIdentifier
  | .undefined _ => .undefined default

/-- The expressions that stand for those of a list. -/
def Expr.canonicalList : List Expr → List Expr
  | [] => []
  | e :: rest => e.canonical :: Expr.canonicalList rest

/-- The expression that stands for one that may be absent. -/
def Expr.canonicalOption : Option Expr → Option Expr
  | none => none
  | some e => some e.canonical

/-- The substitution that stands for all that are equal to it. -/
def TemplatePart.canonical : TemplatePart → TemplatePart
  | ⟨value, tail⟩ => ⟨value.canonical, tail⟩

/-- The substitutions that stand for those of a template. -/
def TemplatePart.canonicalList : List TemplatePart → List TemplatePart
  | [] => []
  | part :: rest => part.canonical :: TemplatePart.canonicalList rest

/-- The member that stands for all that are equal to it. -/
def Property.canonical : Property → Property
  | ⟨kind, isComputed, isStatic, key, value, initializer⟩ =>
    ⟨kind, isComputed, isStatic, key.canonical, Expr.canonicalOption value,
      Expr.canonicalOption initializer⟩

/-- The members that stand for those of an object literal. -/
def Property.canonicalList : List Property → List Property
  | [] => []
  | p :: rest => p.canonical :: Property.canonicalList rest

/-- The function that stands for all that are equal to it. -/
def Func.canonical : Func → Func
  | ⟨name, params, body, isAsync, isGenerator⟩ =>
    ⟨name, BindingElement.canonicalList params, Stmt.canonicalList body, isAsync, isGenerator⟩

/-- The class member that stands for all that are equal to it. -/
def ClassMember.canonical : ClassMember → ClassMember
  | .property property => .property property.canonical
  | .staticBlock body => .staticBlock (Stmt.canonicalList body)

/-- The class members that stand for those of a class body. -/
def ClassMember.canonicalList : List ClassMember → List ClassMember
  | [] => []
  | m :: rest => m.canonical :: ClassMember.canonicalList rest

/-- The class that stands for all that are equal to it. -/
def Class.canonical : Class → Class
  | ⟨name, superclass, members⟩ =>
    ⟨name, Expr.canonicalOption superclass, ClassMember.canonicalList members⟩

/-- The binding that stands for all that are equal to it. -/
def Binding.canonical : Binding → Binding
  | .array _ items hasSpread => .array default (BindingElement.canonicalList items) hasSpread
  | .identifier _ ref => .identifier default ref
  | .missing _ => .missing default
  | .object _ properties => .object default (PropertyPattern.canonicalList properties)

/-- The binding that stands for one that may be absent. -/
def Binding.canonicalOption : Option Binding → Option Binding
  | none => none
  | some b => some b.canonical

/-- The bound element that stands for all that are equal to it. -/
def BindingElement.canonical : BindingElement → BindingElement
  | ⟨binding, initializer⟩ => ⟨binding.canonical, Expr.canonicalOption initializer⟩

/-- The bound elements that stand for those of a list. -/
def BindingElement.canonicalList : List BindingElement → List BindingElement
  | [] => []
  | e :: rest => e.canonical :: BindingElement.canonicalList rest

/-- The members that stand for those of an object pattern. -/
def PropertyPattern.canonicalList : List PropertyPattern → List PropertyPattern
  | [] => []
  | ⟨key, isComputed, isSpread, element⟩ :: rest =>
    ⟨key.canonical, isComputed, isSpread, element.canonical⟩ ::
      PropertyPattern.canonicalList rest

/-- The statement that stands for all that are equal to it. -/
def Stmt.canonical : Stmt → Stmt
  | .block _ body => .block default (Stmt.canonicalList body)
  | .breakTo _ target => .breakTo default target
  | .classDecl _ definition isExport => .classDecl default definition.canonical isExport
  | .continueTo _ target => .continueTo default target
  | .debugger _ => .debugger default
  | .doWhile _ body test => .doWhile default body.canonical test.canonical
  | .empty _ => .empty default
  | .exportClause _ items => .exportClause default items
  | .exportDefaultClass _ ref definition isExport =>
    .exportDefaultClass default ref definition.canonical isExport
  | .exportDefaultExpr _ ref value => .exportDefaultExpr default ref value.canonical
  | .exportDefaultFunction _ ref func isExport =>
    .exportDefaultFunction default ref func.canonical isExport
  | .exportFrom _ items path => .exportFrom default items path
  | .expr _ value isGlue => .expr default value.canonical isGlue
  | .function _ func isExport => .function default func.canonical isExport
  | .ifElse _ test yes no =>
    .ifElse default test.canonical yes.canonical (Stmt.canonicalOption no)
  | .importFrom _ default_ items namespaceRef path =>
    .importFrom default default_ items namespaceRef path
  | .label _ name stmt => .label default name stmt.canonical
  | .localDecl _ kind decls isExport =>
    .localDecl default kind (BindingElement.canonicalList decls) isExport
  | .returnValue _ value => .returnValue default (Expr.canonicalOption value)
  | .throwValue _ value => .throwValue default value.canonical
  | .tryCatch _ body handler finalizer =>
    .tryCatch default (Stmt.canonicalList body) (Catch.canonicalOption handler)
      (Stmt.canonicalListOption finalizer)
  | .whileLoop _ test body => .whileLoop default test.canonical body.canonical
  | .withObject _ value body => .withObject default value.canonical body.canonical

/-- The statements that stand for those of a list. -/
def Stmt.canonicalList : List Stmt → List Stmt
  | [] => []
  | s :: rest => s.canonical :: Stmt.canonicalList rest

/-- The statement that stands for one that may be absent. -/
def Stmt.canonicalOption : Option Stmt → Option Stmt
  | none => none
  | some s => some s.canonical

/-- The statements that stand for a list that may be absent. -/
def Stmt.canonicalListOption : Option (List Stmt) → Option (List Stmt)
  | none => none
  | some body => some (Stmt.canonicalList body)

/-- The handler that stands for one that may be absent. -/
def Catch.canonicalOption : Option Catch → Option Catch
  | none => none
  | some ⟨binding, body⟩ => some ⟨Binding.canonicalOption binding, Stmt.canonicalList body⟩

end

theorem Expr.ctorIdx_canonical (e : Expr) : e.canonical.ctorIdx = e.ctorIdx := by
  cases e <;> rfl

theorem Stmt.ctorIdx_canonical (s : Stmt) : s.canonical.ctorIdx = s.ctorIdx := by
  cases s <;> rfl

theorem Expr.ctorIdx_eq_of_same {e e' : Expr} (equal : e.same e' = true) :
    e.ctorIdx = e'.ctorIdx := by
  -- The comparison answers with no for any two expressions of different kinds.
  unfold Expr.same at equal
  split at equal <;> first | rfl | cases equal

theorem Stmt.ctorIdx_eq_of_same {s s' : Stmt} (equal : s.same s' = true) :
    s.ctorIdx = s'.ctorIdx := by
  unfold Stmt.same at equal
  split at equal <;> first | rfl | cases equal

/-- Only expressions of one kind have to be compared. -/
theorem Expr.same_iff_of_ctorIdx {e e' : Expr}
    (alike : e'.ctorIdx = e.ctorIdx → (e.same e' = true ↔ e.canonical = e'.canonical)) :
    e.same e' = true ↔ e.canonical = e'.canonical := by
  constructor
  · intro equal
    exact (alike (ctorIdx_eq_of_same equal).symm).mp equal
  · intro equal
    have kind : e'.ctorIdx = e.ctorIdx := by
      rw [← e.ctorIdx_canonical, equal, e'.ctorIdx_canonical]
    exact (alike kind).mpr equal

/-- Only statements of one kind have to be compared. -/
theorem Stmt.same_iff_of_ctorIdx {s s' : Stmt}
    (alike : s'.ctorIdx = s.ctorIdx → (s.same s' = true ↔ s.canonical = s'.canonical)) :
    s.same s' = true ↔ s.canonical = s'.canonical := by
  constructor
  · intro equal
    exact (alike (ctorIdx_eq_of_same equal).symm).mp equal
  · intro equal
    have kind : s'.ctorIdx = s.ctorIdx := by
      rw [← s.ctorIdx_canonical, equal, s'.ctorIdx_canonical]
    exact (alike kind).mpr equal

-- The recursion is on the first of the two trees, constructor by constructor.
mutual

/-- Expressions are equal exactly if one expression stands for both. -/
theorem Expr.same_iff : (e e' : Expr) → (e.same e' = true ↔ e.canonical = e'.canonical)
  | .array _ items, e' => Expr.same_iff_of_ctorIdx fun kind =>
    Expr.array.elim e' kind fun _ _ => by
      simp only [Expr.same, Expr.canonical, Expr.array.injEq, true_and, Expr.sameList_iff items]
  | .arrow _ params body _ _, e' => Expr.same_iff_of_ctorIdx fun kind =>
    Expr.arrow.elim e' kind fun _ _ _ _ _ => by
      simp only [Expr.same, Expr.canonical, Expr.arrow.injEq, Bool.and_eq_true, beq_iff_eq,
        and_assoc, true_and, BindingElement.sameList_iff params, Stmt.sameList_iff body]
  | .binary _ _ left right, e' => Expr.same_iff_of_ctorIdx fun kind =>
    Expr.binary.elim e' kind fun _ _ _ _ => by
      simp only [Expr.same, Expr.canonical, Expr.binary.injEq, Bool.and_eq_true, beq_iff_eq,
        and_assoc, true_and, left.same_iff, right.same_iff]
  | .call _ target args _ _ _, e' => Expr.same_iff_of_ctorIdx fun kind =>
    Expr.call.elim e' kind fun _ _ _ _ _ _ => by
      simp only [Expr.same, Expr.canonical, Expr.call.injEq, Bool.and_eq_true, beq_iff_eq,
        and_assoc, true_and, target.same_iff, Expr.sameList_iff args]
  | .classExpr _ definition, e' => Expr.same_iff_of_ctorIdx fun kind =>
    Expr.classExpr.elim e' kind fun _ _ => by
      simp only [Expr.same, Expr.canonical, Expr.classExpr.injEq, true_and, definition.same_iff]
  | .dot _ target _ _ _, e' => Expr.same_iff_of_ctorIdx fun kind =>
    Expr.dot.elim e' kind fun _ _ _ _ _ => by
      simp only [Expr.same, Expr.canonical, Expr.dot.injEq, Bool.and_eq_true, beq_iff_eq, and_assoc,
        true_and, target.same_iff]
  | .function _ func, e' => Expr.same_iff_of_ctorIdx fun kind =>
    Expr.function.elim e' kind fun _ _ => by
      simp only [Expr.same, Expr.canonical, Expr.function.injEq, true_and, func.same_iff]
  | .conditional _ test yes no, e' => Expr.same_iff_of_ctorIdx fun kind =>
    Expr.conditional.elim e' kind fun _ _ _ _ => by
      simp only [Expr.same, Expr.canonical, Expr.conditional.injEq, Bool.and_eq_true, and_assoc,
        true_and, test.same_iff, yes.same_iff, no.same_iff]
  | .index _ target key _ _, e' => Expr.same_iff_of_ctorIdx fun kind =>
    Expr.index.elim e' kind fun _ _ _ _ _ => by
      simp only [Expr.same, Expr.canonical, Expr.index.injEq, Bool.and_eq_true, beq_iff_eq,
        and_assoc, true_and, target.same_iff, key.same_iff]
  | .inlinedEnum _ value _, e' => Expr.same_iff_of_ctorIdx fun kind =>
    Expr.inlinedEnum.elim e' kind fun _ _ _ => by
      simp only [Expr.same, Expr.canonical, Expr.inlinedEnum.injEq, Bool.and_eq_true, beq_iff_eq,
        true_and, value.same_iff]
  | .new _ target args _, e' => Expr.same_iff_of_ctorIdx fun kind =>
    Expr.new.elim e' kind fun _ _ _ _ => by
      simp only [Expr.same, Expr.canonical, Expr.new.injEq, Bool.and_eq_true, beq_iff_eq, and_assoc,
        true_and, target.same_iff, Expr.sameList_iff args]
  | .object _ properties, e' => Expr.same_iff_of_ctorIdx fun kind =>
    Expr.object.elim e' kind fun _ _ => by
      simp only [Expr.same, Expr.canonical, Expr.object.injEq, true_and,
        Property.sameList_iff properties]
  | .spread _ value, e' => Expr.same_iff_of_ctorIdx fun kind =>
    Expr.spread.elim e' kind fun _ _ => by
      simp only [Expr.same, Expr.canonical, Expr.spread.injEq, true_and, value.same_iff]
  | .template _ tag _ parts, e' => Expr.same_iff_of_ctorIdx fun kind =>
    Expr.template.elim e' kind fun _ _ _ _ => by
      simp only [Expr.same, Expr.canonical, Expr.template.injEq, Bool.and_eq_true, beq_iff_eq,
        and_assoc, true_and, Expr.sameOption_iff tag, TemplatePart.sameList_iff parts]
  | .unary _ _ value _, e' => Expr.same_iff_of_ctorIdx fun kind =>
    Expr.unary.elim e' kind fun _ _ _ _ => by
      simp only [Expr.same, Expr.canonical, Expr.unary.injEq, Bool.and_eq_true, beq_iff_eq,
        and_assoc, true_and, value.same_iff]
  | .number _ value, e' => Expr.same_iff_of_ctorIdx fun kind =>
    Expr.number.elim e' kind fun _ _ => by
      simp only [Expr.same, Expr.canonical, Expr.number.injEq, true_and, value.same_iff]
  | .bigInt .., e' => Expr.same_iff_of_ctorIdx fun kind =>
    Expr.bigInt.elim e' kind fun _ _ => by
      simp only [Expr.same, Expr.canonical, Expr.bigInt.injEq, beq_iff_eq, true_and]
  | .boolean .., e' => Expr.same_iff_of_ctorIdx fun kind =>
    Expr.boolean.elim e' kind fun _ _ => by
      simp only [Expr.same, Expr.canonical, Expr.boolean.injEq, beq_iff_eq, true_and]
  | .identifier .., e' => Expr.same_iff_of_ctorIdx fun kind =>
    Expr.identifier.elim e' kind fun _ _ _ _ => by
      simp only [Expr.same, Expr.canonical, Expr.identifier.injEq, Bool.and_eq_true, beq_iff_eq,
        and_assoc, true_and]
  | .importIdentifier .., e' => Expr.same_iff_of_ctorIdx fun kind =>
    Expr.importIdentifier.elim e' kind fun _ _ => by
      simp only [Expr.same, Expr.canonical, Expr.importIdentifier.injEq, beq_iff_eq, true_and]
  | .importMeta _, e' => Expr.same_iff_of_ctorIdx fun kind =>
    Expr.importMeta.elim e' kind fun _ => by simp only [Expr.same, Expr.canonical]
  | .missing _, e' => Expr.same_iff_of_ctorIdx fun kind =>
    Expr.missing.elim e' kind fun _ => by simp only [Expr.same, Expr.canonical]
  | .null _, e' => Expr.same_iff_of_ctorIdx fun kind =>
    Expr.null.elim e' kind fun _ => by simp only [Expr.same, Expr.canonical]
  | .regExp .., e' => Expr.same_iff_of_ctorIdx fun kind =>
    Expr.regExp.elim e' kind fun _ _ => by
      simp only [Expr.same, Expr.canonical, Expr.regExp.injEq, beq_iff_eq, true_and]
  | .string .., e' => Expr.same_iff_of_ctorIdx fun kind =>
    Expr.string.elim e' kind fun _ _ => by
      simp only [Expr.same, Expr.canonical, Expr.string.injEq, beq_iff_eq, true_and]
  | .this _, e' => Expr.same_iff_of_ctorIdx fun kind =>
    Expr.this.elim e' kind fun _ => by simp only [Expr.same, Expr.canonical]
  | .undefined _, e' => Expr.same_iff_of_ctorIdx fun kind =>
    Expr.undefined.elim e' kind fun _ => by simp only [Expr.same, Expr.canonical]
termination_by structural x => x

theorem Expr.sameList_iff : (items items' : List Expr) →
    (Expr.sameList items items' = true ↔ Expr.canonicalList items = Expr.canonicalList items')
  | [], [] => by simp only [Expr.sameList, Expr.canonicalList]
  | [], _ :: _ => by
    simp only [Expr.sameList, Expr.canonicalList, Bool.false_eq_true, reduceCtorEq]
  | _ :: _, [] => by
    simp only [Expr.sameList, Expr.canonicalList, Bool.false_eq_true, reduceCtorEq]
  | e :: rest, e' :: rest' => by
    simp only [Expr.sameList, Expr.canonicalList, Bool.and_eq_true, List.cons.injEq, e.same_iff,
      Expr.sameList_iff rest]
termination_by structural x => x

theorem Expr.sameOption_iff : (e e' : Option Expr) →
    (Expr.sameOption e e' = true ↔ Expr.canonicalOption e = Expr.canonicalOption e')
  | none, none => by simp only [Expr.sameOption, Expr.canonicalOption]
  | none, some _ => by
    simp only [Expr.sameOption, Expr.canonicalOption, Bool.false_eq_true, reduceCtorEq]
  | some _, none => by
    simp only [Expr.sameOption, Expr.canonicalOption, Bool.false_eq_true, reduceCtorEq]
  | some e, some e' => by
    simp only [Expr.sameOption, Expr.canonicalOption, Option.some.injEq, e.same_iff]
termination_by structural x => x

theorem TemplatePart.sameList_iff : (parts parts' : List TemplatePart) →
    (TemplatePart.sameList parts parts' = true ↔
      TemplatePart.canonicalList parts = TemplatePart.canonicalList parts')
  | [], [] => by simp only [TemplatePart.sameList, TemplatePart.canonicalList]
  | [], _ :: _ => by
    simp only [TemplatePart.sameList, TemplatePart.canonicalList, Bool.false_eq_true, reduceCtorEq]
  | _ :: _, [] => by
    simp only [TemplatePart.sameList, TemplatePart.canonicalList, Bool.false_eq_true, reduceCtorEq]
  | ⟨value, _⟩ :: rest, ⟨value', _⟩ :: rest' => by
    simp only [TemplatePart.sameList, TemplatePart.canonicalList, TemplatePart.canonical,
      Bool.and_eq_true, beq_iff_eq, List.cons.injEq, TemplatePart.mk.injEq, value.same_iff,
      TemplatePart.sameList_iff rest]
termination_by structural x => x

theorem Property.same_iff : (p p' : Property) →
    (p.same p' = true ↔ p.canonical = p'.canonical)
  | ⟨_, _, _, key, value, initializer⟩, ⟨_, _, _, _, _, _⟩ => by
    simp only [Property.same, Property.canonical, Property.mk.injEq, Bool.and_eq_true, beq_iff_eq,
      and_assoc, key.same_iff, Expr.sameOption_iff value, Expr.sameOption_iff initializer]
termination_by structural x => x

theorem Property.sameList_iff : (properties properties' : List Property) →
    (Property.sameList properties properties' = true ↔
      Property.canonicalList properties = Property.canonicalList properties')
  | [], [] => by simp only [Property.sameList, Property.canonicalList]
  | [], _ :: _ => by
    simp only [Property.sameList, Property.canonicalList, Bool.false_eq_true, reduceCtorEq]
  | _ :: _, [] => by
    simp only [Property.sameList, Property.canonicalList, Bool.false_eq_true, reduceCtorEq]
  | p :: rest, p' :: rest' => by
    simp only [Property.sameList, Property.canonicalList, Bool.and_eq_true, List.cons.injEq,
      p.same_iff, Property.sameList_iff rest]
termination_by structural x => x

theorem Func.same_iff : (func func' : Func) →
    (func.same func' = true ↔ func.canonical = func'.canonical)
  | ⟨_, params, body, _, _⟩, ⟨_, _, _, _, _⟩ => by
    simp only [Func.same, Func.canonical, Func.mk.injEq, Bool.and_eq_true, beq_iff_eq, and_assoc,
      BindingElement.sameList_iff params, Stmt.sameList_iff body]
termination_by structural x => x

theorem ClassMember.same_iff : (m m' : ClassMember) →
    (m.same m' = true ↔ m.canonical = m'.canonical)
  | .property property, .property property' => by
    simp only [ClassMember.same, ClassMember.canonical, ClassMember.property.injEq,
      property.same_iff]
  | .staticBlock body, .staticBlock body' => by
    simp only [ClassMember.same, ClassMember.canonical, ClassMember.staticBlock.injEq,
      Stmt.sameList_iff body]
  | .property _, .staticBlock _ => by
    simp only [ClassMember.same, ClassMember.canonical, Bool.false_eq_true, reduceCtorEq]
  | .staticBlock _, .property _ => by
    simp only [ClassMember.same, ClassMember.canonical, Bool.false_eq_true, reduceCtorEq]
termination_by structural x => x

theorem ClassMember.sameList_iff : (members members' : List ClassMember) →
    (ClassMember.sameList members members' = true ↔
      ClassMember.canonicalList members = ClassMember.canonicalList members')
  | [], [] => by simp only [ClassMember.sameList, ClassMember.canonicalList]
  | [], _ :: _ => by
    simp only [ClassMember.sameList, ClassMember.canonicalList, Bool.false_eq_true, reduceCtorEq]
  | _ :: _, [] => by
    simp only [ClassMember.sameList, ClassMember.canonicalList, Bool.false_eq_true, reduceCtorEq]
  | m :: rest, m' :: rest' => by
    simp only [ClassMember.sameList, ClassMember.canonicalList, Bool.and_eq_true, List.cons.injEq,
      m.same_iff, ClassMember.sameList_iff rest]
termination_by structural x => x

theorem Class.same_iff : (c c' : Class) → (c.same c' = true ↔ c.canonical = c'.canonical)
  | ⟨_, superclass, members⟩, ⟨_, _, _⟩ => by
    simp only [Class.same, Class.canonical, Class.mk.injEq, Bool.and_eq_true, beq_iff_eq, and_assoc,
      Expr.sameOption_iff superclass, ClassMember.sameList_iff members]
termination_by structural x => x

theorem Binding.same_iff : (b b' : Binding) → (b.same b' = true ↔ b.canonical = b'.canonical)
  | .array _ items _, b' => by
    cases b' with
    | array =>
      simp only [Binding.same, Binding.canonical, Binding.array.injEq, Bool.and_eq_true,
        beq_iff_eq, true_and, BindingElement.sameList_iff items]
    | _ => simp only [Binding.same, Binding.canonical, Bool.false_eq_true, reduceCtorEq]
  | .identifier .., b' => by
    cases b' with
    | identifier =>
      simp only [Binding.same, Binding.canonical, Binding.identifier.injEq, beq_iff_eq, true_and]
    | _ => simp only [Binding.same, Binding.canonical, Bool.false_eq_true, reduceCtorEq]
  | .missing _, b' => by
    cases b' with
    | missing => simp only [Binding.same, Binding.canonical]
    | _ => simp only [Binding.same, Binding.canonical, Bool.false_eq_true, reduceCtorEq]
  | .object _ properties, b' => by
    cases b' with
    | object =>
      simp only [Binding.same, Binding.canonical, Binding.object.injEq, true_and,
        PropertyPattern.sameList_iff properties]
    | _ => simp only [Binding.same, Binding.canonical, Bool.false_eq_true, reduceCtorEq]
termination_by structural x => x

theorem Binding.sameOption_iff : (b b' : Option Binding) →
    (Binding.sameOption b b' = true ↔ Binding.canonicalOption b = Binding.canonicalOption b')
  | none, none => by simp only [Binding.sameOption, Binding.canonicalOption]
  | none, some _ => by
    simp only [Binding.sameOption, Binding.canonicalOption, Bool.false_eq_true, reduceCtorEq]
  | some _, none => by
    simp only [Binding.sameOption, Binding.canonicalOption, Bool.false_eq_true, reduceCtorEq]
  | some b, some b' => by
    simp only [Binding.sameOption, Binding.canonicalOption, Option.some.injEq, b.same_iff]
termination_by structural x => x

theorem BindingElement.same_iff : (e e' : BindingElement) →
    (e.same e' = true ↔ e.canonical = e'.canonical)
  | ⟨binding, initializer⟩, ⟨_, _⟩ => by
    simp only [BindingElement.same, BindingElement.canonical, BindingElement.mk.injEq,
      Bool.and_eq_true, binding.same_iff, Expr.sameOption_iff initializer]
termination_by structural x => x

theorem BindingElement.sameList_iff : (elements elements' : List BindingElement) →
    (BindingElement.sameList elements elements' = true ↔
      BindingElement.canonicalList elements = BindingElement.canonicalList elements')
  | [], [] => by simp only [BindingElement.sameList, BindingElement.canonicalList]
  | [], _ :: _ => by
    simp only [BindingElement.sameList, BindingElement.canonicalList, Bool.false_eq_true,
      reduceCtorEq]
  | _ :: _, [] => by
    simp only [BindingElement.sameList, BindingElement.canonicalList, Bool.false_eq_true,
      reduceCtorEq]
  | e :: rest, e' :: rest' => by
    simp only [BindingElement.sameList, BindingElement.canonicalList, Bool.and_eq_true,
      List.cons.injEq, e.same_iff, BindingElement.sameList_iff rest]
termination_by structural x => x

theorem PropertyPattern.sameList_iff : (properties properties' : List PropertyPattern) →
    (PropertyPattern.sameList properties properties' = true ↔
      PropertyPattern.canonicalList properties = PropertyPattern.canonicalList properties')
  | [], [] => by simp only [PropertyPattern.sameList, PropertyPattern.canonicalList]
  | [], ⟨_, _, _, _⟩ :: _ => by
    simp only [PropertyPattern.sameList, PropertyPattern.canonicalList, Bool.false_eq_true,
      reduceCtorEq]
  | ⟨_, _, _, _⟩ :: _, [] => by
    simp only [PropertyPattern.sameList, PropertyPattern.canonicalList, Bool.false_eq_true,
      reduceCtorEq]
  | ⟨key, _, _, element⟩ :: rest, ⟨_, _, _, _⟩ :: rest' => by
    simp only [PropertyPattern.sameList, PropertyPattern.canonicalList, Bool.and_eq_true,
      beq_iff_eq, List.cons.injEq, PropertyPattern.mk.injEq, and_assoc, key.same_iff,
      element.same_iff, PropertyPattern.sameList_iff rest]
termination_by structural x => x

/-- Statements are equal exactly if one statement stands for both. -/
theorem Stmt.same_iff : (s s' : Stmt) → (s.same s' = true ↔ s.canonical = s'.canonical)
  | .block _ body, s' => Stmt.same_iff_of_ctorIdx fun kind =>
    Stmt.block.elim s' kind fun _ _ => by
      simp only [Stmt.same, Stmt.canonical, Stmt.block.injEq, true_and, Stmt.sameList_iff body]
  | .classDecl _ definition _, s' => Stmt.same_iff_of_ctorIdx fun kind =>
    Stmt.classDecl.elim s' kind fun _ _ _ => by
      simp only [Stmt.same, Stmt.canonical, Stmt.classDecl.injEq, Bool.and_eq_true, beq_iff_eq,
        true_and, definition.same_iff]
  | .doWhile _ body test, s' => Stmt.same_iff_of_ctorIdx fun kind =>
    Stmt.doWhile.elim s' kind fun _ _ _ => by
      simp only [Stmt.same, Stmt.canonical, Stmt.doWhile.injEq, Bool.and_eq_true, true_and,
        body.same_iff, test.same_iff]
  | .exportDefaultClass _ _ definition _, s' => Stmt.same_iff_of_ctorIdx fun kind =>
    Stmt.exportDefaultClass.elim s' kind fun _ _ _ _ => by
      simp only [Stmt.same, Stmt.canonical, Stmt.exportDefaultClass.injEq, Bool.and_eq_true,
        beq_iff_eq, and_assoc, true_and, definition.same_iff]
  | .exportDefaultExpr _ _ value, s' => Stmt.same_iff_of_ctorIdx fun kind =>
    Stmt.exportDefaultExpr.elim s' kind fun _ _ _ => by
      simp only [Stmt.same, Stmt.canonical, Stmt.exportDefaultExpr.injEq, Bool.and_eq_true,
        beq_iff_eq, true_and, value.same_iff]
  | .exportDefaultFunction _ _ func _, s' => Stmt.same_iff_of_ctorIdx fun kind =>
    Stmt.exportDefaultFunction.elim s' kind fun _ _ _ _ => by
      simp only [Stmt.same, Stmt.canonical, Stmt.exportDefaultFunction.injEq, Bool.and_eq_true,
        beq_iff_eq, and_assoc, true_and, func.same_iff]
  | .expr _ value _, s' => Stmt.same_iff_of_ctorIdx fun kind =>
    Stmt.expr.elim s' kind fun _ _ _ => by
      simp only [Stmt.same, Stmt.canonical, Stmt.expr.injEq, Bool.and_eq_true, beq_iff_eq, true_and,
        value.same_iff]
  | .function _ func _, s' => Stmt.same_iff_of_ctorIdx fun kind =>
    Stmt.function.elim s' kind fun _ _ _ => by
      simp only [Stmt.same, Stmt.canonical, Stmt.function.injEq, Bool.and_eq_true, beq_iff_eq,
        true_and, func.same_iff]
  | .ifElse _ test yes no, s' => Stmt.same_iff_of_ctorIdx fun kind =>
    Stmt.ifElse.elim s' kind fun _ _ _ _ => by
      simp only [Stmt.same, Stmt.canonical, Stmt.ifElse.injEq, Bool.and_eq_true, and_assoc,
        true_and, test.same_iff, yes.same_iff, Stmt.sameOption_iff no]
  | .label _ _ stmt, s' => Stmt.same_iff_of_ctorIdx fun kind =>
    Stmt.label.elim s' kind fun _ _ _ => by
      simp only [Stmt.same, Stmt.canonical, Stmt.label.injEq, Bool.and_eq_true, beq_iff_eq,
        true_and, stmt.same_iff]
  | .localDecl _ _ decls _, s' => Stmt.same_iff_of_ctorIdx fun kind =>
    Stmt.localDecl.elim s' kind fun _ _ _ _ => by
      simp only [Stmt.same, Stmt.canonical, Stmt.localDecl.injEq, Bool.and_eq_true, beq_iff_eq,
        and_assoc, true_and, BindingElement.sameList_iff decls]
  | .returnValue _ value, s' => Stmt.same_iff_of_ctorIdx fun kind =>
    Stmt.returnValue.elim s' kind fun _ _ => by
      simp only [Stmt.same, Stmt.canonical, Stmt.returnValue.injEq, true_and,
        Expr.sameOption_iff value]
  | .throwValue _ value, s' => Stmt.same_iff_of_ctorIdx fun kind =>
    Stmt.throwValue.elim s' kind fun _ _ => by
      simp only [Stmt.same, Stmt.canonical, Stmt.throwValue.injEq, true_and, value.same_iff]
  | .tryCatch _ body handler finalizer, s' => Stmt.same_iff_of_ctorIdx fun kind =>
    Stmt.tryCatch.elim s' kind fun _ _ _ _ => by
      simp only [Stmt.same, Stmt.canonical, Stmt.tryCatch.injEq, Bool.and_eq_true, and_assoc,
        true_and, Stmt.sameList_iff body, Catch.sameOption_iff handler,
        Stmt.sameListOption_iff finalizer]
  | .whileLoop _ test body, s' => Stmt.same_iff_of_ctorIdx fun kind =>
    Stmt.whileLoop.elim s' kind fun _ _ _ => by
      simp only [Stmt.same, Stmt.canonical, Stmt.whileLoop.injEq, Bool.and_eq_true, true_and,
        test.same_iff, body.same_iff]
  | .withObject _ value body, s' => Stmt.same_iff_of_ctorIdx fun kind =>
    Stmt.withObject.elim s' kind fun _ _ _ => by
      simp only [Stmt.same, Stmt.canonical, Stmt.withObject.injEq, Bool.and_eq_true, true_and,
        value.same_iff, body.same_iff]
  | .breakTo .., s' => Stmt.same_iff_of_ctorIdx fun kind =>
    Stmt.breakTo.elim s' kind fun _ _ => by
      simp only [Stmt.same, Stmt.canonical, Stmt.breakTo.injEq, beq_iff_eq, true_and]
  | .continueTo .., s' => Stmt.same_iff_of_ctorIdx fun kind =>
    Stmt.continueTo.elim s' kind fun _ _ => by
      simp only [Stmt.same, Stmt.canonical, Stmt.continueTo.injEq, beq_iff_eq, true_and]
  | .debugger _, s' => Stmt.same_iff_of_ctorIdx fun kind =>
    Stmt.debugger.elim s' kind fun _ => by simp only [Stmt.same, Stmt.canonical]
  | .empty _, s' => Stmt.same_iff_of_ctorIdx fun kind =>
    Stmt.empty.elim s' kind fun _ => by simp only [Stmt.same, Stmt.canonical]
  | .exportClause .., s' => Stmt.same_iff_of_ctorIdx fun kind =>
    Stmt.exportClause.elim s' kind fun _ _ => by
      simp only [Stmt.same, Stmt.canonical, Stmt.exportClause.injEq, beq_iff_eq, true_and]
  | .exportFrom .., s' => Stmt.same_iff_of_ctorIdx fun kind =>
    Stmt.exportFrom.elim s' kind fun _ _ _ => by
      simp only [Stmt.same, Stmt.canonical, Stmt.exportFrom.injEq, Bool.and_eq_true, beq_iff_eq,
        true_and]
  | .importFrom .., s' => Stmt.same_iff_of_ctorIdx fun kind =>
    Stmt.importFrom.elim s' kind fun _ _ _ _ _ => by
      simp only [Stmt.same, Stmt.canonical, Stmt.importFrom.injEq, Bool.and_eq_true, beq_iff_eq,
        and_assoc, true_and]
termination_by structural x => x

/-- Statement lists are equal exactly if one list stands for both. -/
theorem Stmt.sameList_iff : (body body' : List Stmt) →
    (Stmt.sameList body body' = true ↔ Stmt.canonicalList body = Stmt.canonicalList body')
  | [], [] => by simp only [Stmt.sameList, Stmt.canonicalList]
  | [], _ :: _ => by
    simp only [Stmt.sameList, Stmt.canonicalList, Bool.false_eq_true, reduceCtorEq]
  | _ :: _, [] => by
    simp only [Stmt.sameList, Stmt.canonicalList, Bool.false_eq_true, reduceCtorEq]
  | s :: rest, s' :: rest' => by
    simp only [Stmt.sameList, Stmt.canonicalList, Bool.and_eq_true, List.cons.injEq, s.same_iff,
      Stmt.sameList_iff rest]
termination_by structural x => x

theorem Stmt.sameOption_iff : (s s' : Option Stmt) →
    (Stmt.sameOption s s' = true ↔ Stmt.canonicalOption s = Stmt.canonicalOption s')
  | none, none => by simp only [Stmt.sameOption, Stmt.canonicalOption]
  | none, some _ => by
    simp only [Stmt.sameOption, Stmt.canonicalOption, Bool.false_eq_true, reduceCtorEq]
  | some _, none => by
    simp only [Stmt.sameOption, Stmt.canonicalOption, Bool.false_eq_true, reduceCtorEq]
  | some s, some s' => by
    simp only [Stmt.sameOption, Stmt.canonicalOption, Option.some.injEq, s.same_iff]
termination_by structural x => x

theorem Stmt.sameListOption_iff : (body body' : Option (List Stmt)) →
    (Stmt.sameListOption body body' = true ↔
      Stmt.canonicalListOption body = Stmt.canonicalListOption body')
  | none, none => by simp only [Stmt.sameListOption, Stmt.canonicalListOption]
  | none, some _ => by
    simp only [Stmt.sameListOption, Stmt.canonicalListOption, Bool.false_eq_true, reduceCtorEq]
  | some _, none => by
    simp only [Stmt.sameListOption, Stmt.canonicalListOption, Bool.false_eq_true, reduceCtorEq]
  | some body, some body' => by
    simp only [Stmt.sameListOption, Stmt.canonicalListOption, Option.some.injEq,
      Stmt.sameList_iff body]
termination_by structural x => x

theorem Catch.sameOption_iff : (handler handler' : Option Catch) →
    (Catch.sameOption handler handler' = true ↔
      Catch.canonicalOption handler = Catch.canonicalOption handler')
  | none, none => by simp only [Catch.sameOption, Catch.canonicalOption]
  | none, some ⟨_, _⟩ => by
    simp only [Catch.sameOption, Catch.canonicalOption, Bool.false_eq_true, reduceCtorEq]
  | some ⟨_, _⟩, none => by
    simp only [Catch.sameOption, Catch.canonicalOption, Bool.false_eq_true, reduceCtorEq]
  | some ⟨binding, body⟩, some ⟨_, _⟩ => by
    simp only [Catch.sameOption, Catch.canonicalOption, Bool.and_eq_true, Option.some.injEq,
      Catch.mk.injEq, Binding.sameOption_iff binding, Stmt.sameList_iff body]
termination_by structural x => x

end

mutual

/-- What stands for others stands for itself. -/
theorem Expr.canonical_canonical : (e : Expr) → e.canonical.canonical = e.canonical
  | .array _ items => by simp only [Expr.canonical, Expr.canonicalList_canonicalList items]
  | .arrow _ params body _ _ => by
    simp only [Expr.canonical, BindingElement.canonicalList_canonicalList params,
      Stmt.canonicalList_canonicalList body]
  | .binary _ _ left right => by
    simp only [Expr.canonical, left.canonical_canonical, right.canonical_canonical]
  | .call _ target args _ _ _ => by
    simp only [Expr.canonical, target.canonical_canonical, Expr.canonicalList_canonicalList args]
  | .classExpr _ definition => by simp only [Expr.canonical, definition.canonical_canonical]
  | .dot _ target _ _ _ => by simp only [Expr.canonical, target.canonical_canonical]
  | .function _ func => by simp only [Expr.canonical, func.canonical_canonical]
  | .conditional _ test yes no => by
    simp only [Expr.canonical, test.canonical_canonical, yes.canonical_canonical,
      no.canonical_canonical]
  | .index _ target key _ _ => by
    simp only [Expr.canonical, target.canonical_canonical, key.canonical_canonical]
  | .inlinedEnum _ value _ => by simp only [Expr.canonical, value.canonical_canonical]
  | .new _ target args _ => by
    simp only [Expr.canonical, target.canonical_canonical, Expr.canonicalList_canonicalList args]
  | .object _ properties => by
    simp only [Expr.canonical, Property.canonicalList_canonicalList properties]
  | .spread _ value => by simp only [Expr.canonical, value.canonical_canonical]
  | .template _ tag _ parts => by
    simp only [Expr.canonical, Expr.canonicalOption_canonicalOption tag,
      TemplatePart.canonicalList_canonicalList parts]
  | .unary _ _ value _ => by simp only [Expr.canonical, value.canonical_canonical]
  | .number .. => by simp only [Expr.canonical, Number.canonical_canonical]
  | .bigInt .. | .boolean .. | .identifier .. | .importIdentifier .. | .importMeta _ | .missing _
  | .null _ | .regExp .. | .string .. | .this _ | .undefined _ => rfl

theorem Expr.canonicalList_canonicalList : (items : List Expr) →
    Expr.canonicalList (Expr.canonicalList items) = Expr.canonicalList items
  | [] => rfl
  | e :: rest => by
    simp only [Expr.canonicalList, e.canonical_canonical, Expr.canonicalList_canonicalList rest]

theorem Expr.canonicalOption_canonicalOption : (e : Option Expr) →
    Expr.canonicalOption (Expr.canonicalOption e) = Expr.canonicalOption e
  | none => rfl
  | some e => by simp only [Expr.canonicalOption, e.canonical_canonical]

theorem TemplatePart.canonicalList_canonicalList : (parts : List TemplatePart) →
    TemplatePart.canonicalList (TemplatePart.canonicalList parts) =
      TemplatePart.canonicalList parts
  | [] => rfl
  | ⟨value, _⟩ :: rest => by
    simp only [TemplatePart.canonicalList, TemplatePart.canonical, value.canonical_canonical,
      TemplatePart.canonicalList_canonicalList rest]

theorem Property.canonical_canonical : (p : Property) → p.canonical.canonical = p.canonical
  | ⟨_, _, _, key, value, initializer⟩ => by
    simp only [Property.canonical, key.canonical_canonical,
      Expr.canonicalOption_canonicalOption value, Expr.canonicalOption_canonicalOption initializer]

theorem Property.canonicalList_canonicalList : (properties : List Property) →
    Property.canonicalList (Property.canonicalList properties) =
      Property.canonicalList properties
  | [] => rfl
  | p :: rest => by
    simp only [Property.canonicalList, p.canonical_canonical,
      Property.canonicalList_canonicalList rest]

theorem Func.canonical_canonical : (func : Func) → func.canonical.canonical = func.canonical
  | ⟨_, params, body, _, _⟩ => by
    simp only [Func.canonical, BindingElement.canonicalList_canonicalList params,
      Stmt.canonicalList_canonicalList body]

theorem ClassMember.canonical_canonical : (m : ClassMember) →
    m.canonical.canonical = m.canonical
  | .property property => by simp only [ClassMember.canonical, property.canonical_canonical]
  | .staticBlock body => by simp only [ClassMember.canonical, Stmt.canonicalList_canonicalList body]

theorem ClassMember.canonicalList_canonicalList : (members : List ClassMember) →
    ClassMember.canonicalList (ClassMember.canonicalList members) =
      ClassMember.canonicalList members
  | [] => rfl
  | m :: rest => by
    simp only [ClassMember.canonicalList, m.canonical_canonical,
      ClassMember.canonicalList_canonicalList rest]

theorem Class.canonical_canonical : (c : Class) → c.canonical.canonical = c.canonical
  | ⟨_, superclass, members⟩ => by
    simp only [Class.canonical, Expr.canonicalOption_canonicalOption superclass,
      ClassMember.canonicalList_canonicalList members]

theorem Binding.canonical_canonical : (b : Binding) → b.canonical.canonical = b.canonical
  | .array _ items _ => by
    simp only [Binding.canonical, BindingElement.canonicalList_canonicalList items]
  | .object _ properties => by
    simp only [Binding.canonical, PropertyPattern.canonicalList_canonicalList properties]
  | .identifier .. | .missing _ => rfl

theorem Binding.canonicalOption_canonicalOption : (b : Option Binding) →
    Binding.canonicalOption (Binding.canonicalOption b) = Binding.canonicalOption b
  | none => rfl
  | some b => by simp only [Binding.canonicalOption, b.canonical_canonical]

theorem BindingElement.canonical_canonical : (e : BindingElement) →
    e.canonical.canonical = e.canonical
  | ⟨binding, initializer⟩ => by
    simp only [BindingElement.canonical, binding.canonical_canonical,
      Expr.canonicalOption_canonicalOption initializer]

theorem BindingElement.canonicalList_canonicalList : (elements : List BindingElement) →
    BindingElement.canonicalList (BindingElement.canonicalList elements) =
      BindingElement.canonicalList elements
  | [] => rfl
  | e :: rest => by
    simp only [BindingElement.canonicalList, e.canonical_canonical,
      BindingElement.canonicalList_canonicalList rest]

theorem PropertyPattern.canonicalList_canonicalList : (properties : List PropertyPattern) →
    PropertyPattern.canonicalList (PropertyPattern.canonicalList properties) =
      PropertyPattern.canonicalList properties
  | [] => rfl
  | ⟨key, _, _, element⟩ :: rest => by
    simp only [PropertyPattern.canonicalList, key.canonical_canonical, element.canonical_canonical,
      PropertyPattern.canonicalList_canonicalList rest]

theorem Stmt.canonical_canonical : (s : Stmt) → s.canonical.canonical = s.canonical
  | .block _ body => by simp only [Stmt.canonical, Stmt.canonicalList_canonicalList body]
  | .classDecl _ definition _ => by simp only [Stmt.canonical, definition.canonical_canonical]
  | .doWhile _ body test => by
    simp only [Stmt.canonical, body.canonical_canonical, test.canonical_canonical]
  | .exportDefaultClass _ _ definition _ => by
    simp only [Stmt.canonical, definition.canonical_canonical]
  | .exportDefaultExpr _ _ value => by simp only [Stmt.canonical, value.canonical_canonical]
  | .exportDefaultFunction _ _ func _ => by simp only [Stmt.canonical, func.canonical_canonical]
  | .expr _ value _ => by simp only [Stmt.canonical, value.canonical_canonical]
  | .function _ func _ => by simp only [Stmt.canonical, func.canonical_canonical]
  | .ifElse _ test yes no => by
    simp only [Stmt.canonical, test.canonical_canonical, yes.canonical_canonical,
      Stmt.canonicalOption_canonicalOption no]
  | .label _ _ stmt => by simp only [Stmt.canonical, stmt.canonical_canonical]
  | .localDecl _ _ decls _ => by
    simp only [Stmt.canonical, BindingElement.canonicalList_canonicalList decls]
  | .returnValue _ value => by
    simp only [Stmt.canonical, Expr.canonicalOption_canonicalOption value]
  | .throwValue _ value => by simp only [Stmt.canonical, value.canonical_canonical]
  | .tryCatch _ body handler finalizer => by
    simp only [Stmt.canonical, Stmt.canonicalList_canonicalList body,
      Catch.canonicalOption_canonicalOption handler,
      Stmt.canonicalListOption_canonicalListOption finalizer]
  | .whileLoop _ test body => by
    simp only [Stmt.canonical, test.canonical_canonical, body.canonical_canonical]
  | .withObject _ value body => by
    simp only [Stmt.canonical, value.canonical_canonical, body.canonical_canonical]
  | .breakTo .. | .continueTo .. | .debugger _ | .empty _ | .exportClause .. | .exportFrom ..
  | .importFrom .. => rfl

theorem Stmt.canonicalList_canonicalList : (body : List Stmt) →
    Stmt.canonicalList (Stmt.canonicalList body) = Stmt.canonicalList body
  | [] => rfl
  | s :: rest => by
    simp only [Stmt.canonicalList, s.canonical_canonical, Stmt.canonicalList_canonicalList rest]

theorem Stmt.canonicalOption_canonicalOption : (s : Option Stmt) →
    Stmt.canonicalOption (Stmt.canonicalOption s) = Stmt.canonicalOption s
  | none => rfl
  | some s => by simp only [Stmt.canonicalOption, s.canonical_canonical]

theorem Stmt.canonicalListOption_canonicalListOption : (body : Option (List Stmt)) →
    Stmt.canonicalListOption (Stmt.canonicalListOption body) = Stmt.canonicalListOption body
  | none => rfl
  | some body => by simp only [Stmt.canonicalListOption, Stmt.canonicalList_canonicalList body]

theorem Catch.canonicalOption_canonicalOption : (handler : Option Catch) →
    Catch.canonicalOption (Catch.canonicalOption handler) = Catch.canonicalOption handler
  | none => rfl
  | some ⟨binding, body⟩ => by
    simp only [Catch.canonicalOption, Binding.canonicalOption_canonicalOption binding,
      Stmt.canonicalList_canonicalList body]

end

-- Canonical forms are taken item by item.

theorem Expr.canonicalList_eq_map (items : List Expr) :
    Expr.canonicalList items = items.map Expr.canonical := by
  induction items with
  | nil => rfl
  | cons e rest ih => rw [Expr.canonicalList, ih, List.map_cons]

theorem Expr.canonicalOption_eq_map (e : Option Expr) :
    Expr.canonicalOption e = e.map Expr.canonical := by
  cases e <;> rfl

theorem TemplatePart.canonicalList_eq_map (parts : List TemplatePart) :
    TemplatePart.canonicalList parts = parts.map TemplatePart.canonical := by
  induction parts with
  | nil => rfl
  | cons part rest ih => rw [TemplatePart.canonicalList, ih, List.map_cons]

theorem Property.canonicalList_eq_map (properties : List Property) :
    Property.canonicalList properties = properties.map Property.canonical := by
  induction properties with
  | nil => rfl
  | cons p rest ih => rw [Property.canonicalList, ih, List.map_cons]

theorem Stmt.canonicalList_eq_map (body : List Stmt) :
    Stmt.canonicalList body = body.map Stmt.canonical := by
  induction body with
  | nil => rfl
  | cons s rest ih => rw [Stmt.canonicalList, ih, List.map_cons]

mutual

/-- The canonical form of an expression has as many nodes. -/
theorem Expr.length_visits_canonical : (e : Expr) →
    e.canonical.visits.length = e.visits.length
  | .array _ items => by
    simp only [Expr.canonical, Expr.visits, List.length_cons, List.length_append,
      Expr.length_visitsList_canonicalList items]
  | .arrow _ params body _ _ => by
    simp only [Expr.canonical, Expr.visits, List.length_cons, List.length_append,
      BindingElement.length_visitsList_canonicalList params,
      Stmt.length_visitsList_canonicalList body]
  | .binary _ _ left right => by
    simp only [Expr.canonical, Expr.visits, List.length_cons, List.length_append,
      left.length_visits_canonical, right.length_visits_canonical]
  | .call _ target args _ _ _ => by
    simp only [Expr.canonical, Expr.visits, List.length_cons, List.length_append,
      target.length_visits_canonical, Expr.length_visitsList_canonicalList args]
  | .classExpr _ definition => by
    simp only [Expr.canonical, Expr.visits, List.length_cons, List.length_append,
      definition.length_visits_canonical]
  | .dot _ target _ _ _ => by
    simp only [Expr.canonical, Expr.visits, List.length_cons, List.length_append,
      target.length_visits_canonical]
  | .function _ func => by
    simp only [Expr.canonical, Expr.visits, List.length_cons, List.length_append,
      func.length_visits_canonical]
  | .conditional _ test yes no => by
    simp only [Expr.canonical, Expr.visits, List.length_cons, List.length_append,
      test.length_visits_canonical, yes.length_visits_canonical, no.length_visits_canonical]
  | .index _ target key _ _ => by
    simp only [Expr.canonical, Expr.visits, List.length_cons, List.length_append,
      target.length_visits_canonical, key.length_visits_canonical]
  | .inlinedEnum _ value _ => by
    simp only [Expr.canonical, Expr.visits, List.length_cons, List.length_append,
      value.length_visits_canonical]
  | .new _ target args _ => by
    simp only [Expr.canonical, Expr.visits, List.length_cons, List.length_append,
      target.length_visits_canonical, Expr.length_visitsList_canonicalList args]
  | .object _ properties => by
    simp only [Expr.canonical, Expr.visits, List.length_cons, List.length_append,
      Property.length_visitsList_canonicalList properties]
  | .spread _ value => by
    simp only [Expr.canonical, Expr.visits, List.length_cons, List.length_append,
      value.length_visits_canonical]
  | .template _ tag _ parts => by
    simp only [Expr.canonical, Expr.visits, List.length_cons, List.length_append,
      Expr.length_visitsOption_canonicalOption tag,
      TemplatePart.length_visitsList_canonicalList parts]
  | .unary _ _ value _ => by
    simp only [Expr.canonical, Expr.visits, List.length_cons, List.length_append,
      value.length_visits_canonical]
  | .number .. | .bigInt .. | .boolean .. | .identifier .. | .importIdentifier ..
  | .importMeta _ | .missing _ | .null _ | .regExp .. | .string .. | .this _ | .undefined _ => rfl

theorem Expr.length_visitsList_canonicalList : (items : List Expr) →
    (Expr.visitsList (Expr.canonicalList items)).length = (Expr.visitsList items).length
  | [] => rfl
  | e :: rest => by
    simp only [Expr.canonicalList, Expr.visitsList, List.length_append, e.length_visits_canonical,
      Expr.length_visitsList_canonicalList rest]

theorem Expr.length_visitsOption_canonicalOption : (e : Option Expr) →
    (Expr.visitsOption (Expr.canonicalOption e)).length = (Expr.visitsOption e).length
  | none => rfl
  | some e => by simp only [Expr.canonicalOption, Expr.visitsOption, e.length_visits_canonical]

theorem TemplatePart.length_visitsList_canonicalList : (parts : List TemplatePart) →
    (TemplatePart.visitsList (TemplatePart.canonicalList parts)).length =
      (TemplatePart.visitsList parts).length
  | [] => rfl
  | ⟨value, _⟩ :: rest => by
    simp only [TemplatePart.canonicalList, TemplatePart.canonical, TemplatePart.visitsList,
      List.length_append, value.length_visits_canonical,
      TemplatePart.length_visitsList_canonicalList rest]

theorem Property.length_visits_canonical : (p : Property) →
    p.canonical.visits.length = p.visits.length
  | ⟨_, _, _, key, value, initializer⟩ => by
    simp only [Property.canonical, Property.visits, List.length_cons, List.length_append,
      key.length_visits_canonical, Expr.length_visitsOption_canonicalOption value,
      Expr.length_visitsOption_canonicalOption initializer]

theorem Property.length_visitsList_canonicalList : (properties : List Property) →
    (Property.visitsList (Property.canonicalList properties)).length =
      (Property.visitsList properties).length
  | [] => rfl
  | p :: rest => by
    simp only [Property.canonicalList, Property.visitsList, List.length_append,
      p.length_visits_canonical, Property.length_visitsList_canonicalList rest]

theorem Func.length_visits_canonical : (func : Func) →
    func.canonical.visits.length = func.visits.length
  | ⟨_, params, body, _, _⟩ => by
    simp only [Func.canonical, Func.visits, List.length_cons, List.length_append,
      BindingElement.length_visitsList_canonicalList params,
      Stmt.length_visitsList_canonicalList body]

theorem ClassMember.length_visits_canonical : (m : ClassMember) →
    m.canonical.visits.length = m.visits.length
  | .property property => by
    simp only [ClassMember.canonical, ClassMember.visits, property.length_visits_canonical]
  | .staticBlock body => by
    simp only [ClassMember.canonical, ClassMember.visits, List.length_cons,
      Stmt.length_visitsList_canonicalList body]

theorem ClassMember.length_visitsList_canonicalList : (members : List ClassMember) →
    (ClassMember.visitsList (ClassMember.canonicalList members)).length =
      (ClassMember.visitsList members).length
  | [] => rfl
  | m :: rest => by
    simp only [ClassMember.canonicalList, ClassMember.visitsList, List.length_append,
      m.length_visits_canonical, ClassMember.length_visitsList_canonicalList rest]

theorem Class.length_visits_canonical : (c : Class) →
    c.canonical.visits.length = c.visits.length
  | ⟨_, superclass, members⟩ => by
    simp only [Class.canonical, Class.visits, List.length_append,
      Expr.length_visitsOption_canonicalOption superclass,
      ClassMember.length_visitsList_canonicalList members]

theorem Binding.length_visits_canonical : (b : Binding) →
    b.canonical.visits.length = b.visits.length
  | .array _ items _ => by
    simp only [Binding.canonical, Binding.visits, List.length_cons,
      BindingElement.length_visitsList_canonicalList items]
  | .object _ properties => by
    simp only [Binding.canonical, Binding.visits, List.length_cons,
      PropertyPattern.length_visitsList_canonicalList properties]
  | .identifier .. | .missing _ => rfl

theorem Binding.length_visitsOption_canonicalOption : (b : Option Binding) →
    (Binding.visitsOption (Binding.canonicalOption b)).length = (Binding.visitsOption b).length
  | none => rfl
  | some b => by
    simp only [Binding.canonicalOption, Binding.visitsOption, b.length_visits_canonical]

theorem BindingElement.length_visits_canonical : (e : BindingElement) →
    e.canonical.visits.length = e.visits.length
  | ⟨binding, initializer⟩ => by
    simp only [BindingElement.canonical, BindingElement.visits, List.length_append,
      binding.length_visits_canonical, Expr.length_visitsOption_canonicalOption initializer]

theorem BindingElement.length_visitsList_canonicalList : (elements : List BindingElement) →
    (BindingElement.visitsList (BindingElement.canonicalList elements)).length =
      (BindingElement.visitsList elements).length
  | [] => rfl
  | e :: rest => by
    simp only [BindingElement.canonicalList, BindingElement.visitsList, List.length_append,
      e.length_visits_canonical, BindingElement.length_visitsList_canonicalList rest]

theorem PropertyPattern.length_visitsList_canonicalList : (properties : List PropertyPattern) →
    (PropertyPattern.visitsList (PropertyPattern.canonicalList properties)).length =
      (PropertyPattern.visitsList properties).length
  | [] => rfl
  | ⟨key, _, _, element⟩ :: rest => by
    simp only [PropertyPattern.canonicalList, PropertyPattern.visitsList, List.length_append,
      key.length_visits_canonical, element.length_visits_canonical,
      PropertyPattern.length_visitsList_canonicalList rest]

/-- The canonical form of a statement has as many nodes. -/
theorem Stmt.length_visits_canonical : (s : Stmt) →
    s.canonical.visits.length = s.visits.length
  | .block _ body => by
    simp only [Stmt.canonical, Stmt.visits, List.length_cons,
      Stmt.length_visitsList_canonicalList body]
  | .classDecl _ definition _ => by
    simp only [Stmt.canonical, Stmt.visits, List.length_cons, definition.length_visits_canonical]
  | .doWhile _ body test => by
    simp only [Stmt.canonical, Stmt.visits, List.length_cons, List.length_append,
      body.length_visits_canonical, test.length_visits_canonical]
  | .exportDefaultClass _ _ definition _ => by
    simp only [Stmt.canonical, Stmt.visits, List.length_cons, definition.length_visits_canonical]
  | .exportDefaultExpr _ _ value => by
    simp only [Stmt.canonical, Stmt.visits, List.length_cons, value.length_visits_canonical]
  | .exportDefaultFunction _ _ func _ => by
    simp only [Stmt.canonical, Stmt.visits, List.length_cons, func.length_visits_canonical]
  | .expr _ value _ => by
    simp only [Stmt.canonical, Stmt.visits, List.length_cons, value.length_visits_canonical]
  | .function _ func _ => by
    simp only [Stmt.canonical, Stmt.visits, List.length_cons, func.length_visits_canonical]
  | .ifElse _ test yes no => by
    simp only [Stmt.canonical, Stmt.visits, List.length_cons, List.length_append,
      test.length_visits_canonical, yes.length_visits_canonical,
      Stmt.length_visitsOption_canonicalOption no]
  | .label _ _ stmt => by
    simp only [Stmt.canonical, Stmt.visits, List.length_cons, stmt.length_visits_canonical]
  | .localDecl _ _ decls _ => by
    simp only [Stmt.canonical, Stmt.visits, List.length_cons,
      BindingElement.length_visitsList_canonicalList decls]
  | .returnValue _ value => by
    simp only [Stmt.canonical, Stmt.visits, List.length_cons,
      Expr.length_visitsOption_canonicalOption value]
  | .throwValue _ value => by
    simp only [Stmt.canonical, Stmt.visits, List.length_cons, value.length_visits_canonical]
  | .tryCatch _ body handler finalizer => by
    simp only [Stmt.canonical, Stmt.visits, List.length_cons, List.length_append,
      Stmt.length_visitsList_canonicalList body, Catch.length_visitsOption_canonicalOption handler,
      Stmt.length_visitsListOption_canonicalListOption finalizer]
  | .whileLoop _ test body => by
    simp only [Stmt.canonical, Stmt.visits, List.length_cons, List.length_append,
      test.length_visits_canonical, body.length_visits_canonical]
  | .withObject _ value body => by
    simp only [Stmt.canonical, Stmt.visits, List.length_cons, List.length_append,
      value.length_visits_canonical, body.length_visits_canonical]
  | .breakTo .. | .continueTo .. | .debugger _ | .empty _ | .exportClause .. | .exportFrom ..
  | .importFrom .. => rfl

/-- The canonical form of a statement list has as many nodes. -/
theorem Stmt.length_visitsList_canonicalList : (body : List Stmt) →
    (Stmt.visitsList (Stmt.canonicalList body)).length = (Stmt.visitsList body).length
  | [] => rfl
  | s :: rest => by
    simp only [Stmt.canonicalList, Stmt.visitsList, List.length_append, s.length_visits_canonical,
      Stmt.length_visitsList_canonicalList rest]

theorem Stmt.length_visitsOption_canonicalOption : (s : Option Stmt) →
    (Stmt.visitsOption (Stmt.canonicalOption s)).length = (Stmt.visitsOption s).length
  | none => rfl
  | some s => by simp only [Stmt.canonicalOption, Stmt.visitsOption, s.length_visits_canonical]

theorem Stmt.length_visitsListOption_canonicalListOption : (body : Option (List Stmt)) →
    (Stmt.visitsListOption (Stmt.canonicalListOption body)).length =
      (Stmt.visitsListOption body).length
  | none => rfl
  | some body => by
    simp only [Stmt.canonicalListOption, Stmt.visitsListOption,
      Stmt.length_visitsList_canonicalList body]

theorem Catch.length_visitsOption_canonicalOption : (handler : Option Catch) →
    (Catch.visitsOption (Catch.canonicalOption handler)).length =
      (Catch.visitsOption handler).length
  | none => rfl
  | some ⟨binding, body⟩ => by
    simp only [Catch.canonicalOption, Catch.visitsOption, List.length_append,
      Binding.length_visitsOption_canonicalOption binding,
      Stmt.length_visitsList_canonicalList body]

end

end EcmaPrune
