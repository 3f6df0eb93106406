import EcmaPrune.Tree

/-! Equality of trees: positions do not count, every flag does, and numbers compare as values. -/

namespace EcmaPrune

mutual

/-- Whether two expressions are equal up to the positions of their nodes. -/
def Expr.same : Expr → Expr → Bool
  | .array _ items, .array _ items' => Expr.sameList items items'
  | .arrow _ params body isAsync prefersExpr, .arrow _ params' body' isAsync' prefersExpr' =>
    BindingElement.sameList params params' && Stmt.sameList body body' &&
      isAsync == isAsync' && prefersExpr == prefersExpr'
  | .bigInt _ literal, .bigInt _ literal' => literal == literal'
  | .binary _ op left right, .binary _ op' left' right' =>
    op == op' && left.same left' && right.same right'
  | .boolean _ value, .boolean _ value' => value == value'
  | .call _ target args link isPure kind, .call _ target' args' link' isPure' kind' =>
    target.same target' && Expr.sameList args args' && link == link' && isPure == isPure' &&
      kind == kind'
  | .classExpr _ definition, .classExpr _ definition' => definition.same definition'
  | .dot _ target name link isRemovable, .dot _ target' name' link' isRemovable' =>
    target.same target' && name == name' && link == link' && isRemovable == isRemovable'
  | .function _ func, .function _ func' => func.same func'
  | .identifier _ ref isRemovable mustKeep, .identifier _ ref' isRemovable' mustKeep' =>
    ref == ref' && isRemovable == isRemovable' && mustKeep == mustKeep'
  | .conditional _ test yes no, .conditional _ test' yes' no' =>
    test.same test' && yes.same yes' && no.same no'
  | .importIdentifier _ ref, .importIdentifier _ ref' => ref == ref'
  | .importMeta _, .importMeta _ => true
  | .index _ target key link isRemovable, .index _ target' key' link' isRemovable' =>
    target.same target' && key.same key' && link == link' && isRemovable == isRemovable'
  | .inlinedEnum _ value comment, .inlinedEnum _ value' comment' =>
    value.same value' && comment == comment'
  | .missing _, .missing _ => true
  | .new _ target args isPure, .new _ target' args' isPure' =>
    target.same target' && Expr.sameList args args' && isPure == isPure'
  | .null _, .null _ => true
  | .number _ value, .number _ value' => value.same value'
  | .object _ properties, .object _ properties' => Property.sameList properties properties'
  | .regExp _ text, .regExp _ text' => text == text'
  | .spread _ value, .spread _ value' => value.same value'
  | .string _ value, .string _ value' => value == value'
  | .template _ tag head parts, .template _ tag' head' parts' =>
    Expr.sameOption tag tag' && head == head' && TemplatePart.sameList parts parts'
  | .this _, .this _ => true
  | .unary _ op value fromIdentifier, .unary _ op' value' fromIdentifier' =>
    op == op' && value.same value' && fromIdentifier == fromIdentifier'
  | .undefined _, .undefined _ => true
  | _, _ => false

/-- Whether two lists of expressions agree item by item. -/
def Expr.sameList : List Expr → List Expr → Bool
  | [], [] => true
  | e :: rest, e' :: rest' => e.same e' && Expr.sameList rest rest'
  | _, _ => false

/-- Whether two optional expressions are both there and equal, or both absent. -/
def Expr.sameOption : Option Expr → Option Expr → Bool
  | none, none => true
  | some e, some e' => e.same e'
  | _, _ => false

/-- Whether two runs of template substitutions agree part by part. -/
def TemplatePart.sameList : List TemplatePart → List TemplatePart → Bool
  | [], [] => true
  | ⟨value, tail⟩ :: rest, ⟨value', tail'⟩ :: rest' =>
    value.same value' && tail == tail' && TemplatePart.sameList rest rest'
  | _, _ => false

/-- Whether two members agree. -/
def Property.same : Property → Property → Bool
  | ⟨kind, isComputed, isStatic, key, value, initializer⟩,
    ⟨kind', isComputed', isStatic', key', value', initializer'⟩ =>
    kind == kind' && isComputed == isComputed' && isStatic == isStatic' && key.same key' &&
      Expr.sameOption value value' && Expr.sameOption initializer initializer'

/-- Whether two lists of members agree one by one. -/
def Property.sameList : List Property → List Property → Bool
  | [], [] => true
  | p :: rest, p' :: rest' => p.same p' && Property.sameList rest rest'
  | _, _ => false

/-- Whether two functions agree, their flags included. -/
def Func.same : Func → Func → Bool
  | ⟨name, params, body, isAsync, isGenerator⟩, ⟨name', params', body', isAsync', isGenerator'⟩ =>
    name == name' && BindingElement.sameList params params' && Stmt.sameList body body' &&
      isAsync == isAsync' && isGenerator == isGenerator'

/-- Whether two class members agree. -/
def ClassMember.same : ClassMember → ClassMember → Bool
  | .property property, .property property' => property.same property'
  | .staticBlock body, .staticBlock body' => Stmt.sameList body body'
  | _, _ => false

/-- Whether two class bodies agree member by member. -/
def ClassMember.sameList : List ClassMember → List ClassMember → Bool
  | [], [] => true
  | m :: rest, m' :: rest' => m.same m' && ClassMember.sameList rest rest'
  | _, _ => false

/-- Whether two classes agree. -/
def Class.same : Class → Class → Bool
  | ⟨name, superclass, members⟩, ⟨name', superclass', members'⟩ =>
    name == name' && Expr.sameOption superclass superclass' &&
      ClassMember.sameList members members'

/-- Whether two bindings agree. -/
def Binding.same : Binding → Binding → Bool
  | .array _ items hasSpread, .array _ items' hasSpread' =>
    BindingElement.sameList items items' && hasSpread == hasSpread'
  | .identifier _ ref, .identifier _ ref' => ref == ref'
  | .missing _, .missing _ => true
  | .object _ properties, .object _ properties' => PropertyPattern.sameList properties properties'
  | _, _ => false

/-- Whether two optional bindings are both there and equal, or both absent. -/
def Binding.sameOption : Option Binding → Option Binding → Bool
  | none, none => true
  | some b, some b' => b.same b'
  | _, _ => false

/-- Whether two bound elements agree. -/
def BindingElement.same : BindingElement → BindingElement → Bool
  | ⟨binding, initializer⟩, ⟨binding', initializer'⟩ =>
    binding.same binding' && Expr.sameOption initializer initializer'

/-- Whether two lists of bound elements agree one by one. -/
def BindingElement.sameList : List BindingElement → List BindingElement → Bool
  | [], [] => true
  | e :: rest, e' :: rest' => e.same e' && BindingElement.sameList rest rest'
  | _, _ => false

/-- Whether two object patterns agree member by member. -/
def PropertyPattern.sameList : List PropertyPattern → List PropertyPattern → Bool
  | [], [] => true
  | ⟨key, isComputed, isSpread, element⟩ :: rest,
    ⟨key', isComputed', isSpread', element'⟩ :: rest' =>
    key.same key' && isComputed == isComputed' && isSpread == isSpread' &&
      element.same element' && PropertyPattern.sameList rest rest'
  | _, _ => false

/-- Whether two statements are equal up to the positions of their nodes. -/
def Stmt.same : Stmt → Stmt → Bool
  | .block _ body, .block _ body' => Stmt.sameList body body'
  | .breakTo _ target, .breakTo _ target' => target == target'
  | .classDecl _ definition isExport, .classDecl _ definition' isExport' =>
    definition.same definition' && isExport == isExport'
  | .continueTo _ target, .continueTo _ target' => target == target'
  | .debugger _, .debugger _ => true
  | .doWhile _ body test, .doWhile _ body' test' => body.same body' && test.same test'
  | .empty _, .empty _ => true
  | .exportClause _ items, .exportClause _ items' => items == items'
  | .exportDefaultClass _ ref definition isExport,
    .exportDefaultClass _ ref' definition' isExport' =>
    ref == ref' && definition.same definition' && isExport == isExport'
  | .exportDefaultExpr _ ref value, .exportDefaultExpr _ ref' value' =>
    ref == ref' && value.same value'
  | .exportDefaultFunction _ ref func isExport, .exportDefaultFunction _ ref' func' isExport' =>
    ref == ref' && func.same func' && isExport == isExport'
  | .exportFrom _ items path, .exportFrom _ items' path' => items == items' && path == path'
  | .expr _ value isGlue, .expr _ value' isGlue' => value.same value' && isGlue == isGlue'
  | .function _ func isExport, .function _ func' isExport' =>
    func.same func' && isExport == isExport'
  | .ifElse _ test yes no, .ifElse _ test' yes' no' =>
    test.same test' && yes.same yes' && Stmt.sameOption no no'
  | .importFrom _ default items namespaceRef path,
    .importFrom _ default' items' namespaceRef' path' =>
    default == default' && items == items' && namespaceRef == namespaceRef' && path == path'
  | .label _ name stmt, .label _ name' stmt' => name == name' && stmt.same stmt'
  | .localDecl _ kind decls isExport, .localDecl _ kind' decls' isExport' =>
    kind == kind' && BindingElement.sameList decls decls' && isExport == isExport'
  | .returnValue _ value, .returnValue _ value' => Expr.sameOption value value'
  | .throwValue _ value, .throwValue _ value' => value.same value'
  | .tryCatch _ body handler finalizer, .tryCatch _ body' handler' finalizer' =>
    Stmt.sameList body body' && Catch.sameOption handler handler' &&
      Stmt.sameListOption finalizer finalizer'
  | .whileLoop _ test body, .whileLoop _ test' body' => test.same test' && body.same body'
  | .withObject _ value body, .withObject _ value' body' => value.same value' && body.same body'
  | _, _ => false

/-- Whether two statement lists agree one by one. -/
def Stmt.sameList : List Stmt → List Stmt → Bool
  | [], [] => true
  | s :: rest, s' :: rest' => s.same s' && Stmt.sameList rest rest'
  | _, _ => false

/-- Whether two optional statements are both there and equal, or both absent. -/
def Stmt.sameOption : Option Stmt → Option Stmt → Bool
  | none, none => true
  | some s, some s' => s.same s'
  | _, _ => false

/-- Whether two optional statement lists agree; an absent list differs from an empty one. -/
def Stmt.sameListOption : Option (List Stmt) → Option (List Stmt) → Bool
  | none, none => true
  | some body, some body' => Stmt.sameList body body'
  | _, _ => false

/-- Whether two optional handlers agree. -/
def Catch.sameOption : Option Catch → Option Catch → Bool
  | none, none => true
  | some ⟨binding, body⟩, some ⟨binding', body'⟩ =>
    Binding.sameOption binding binding' && Stmt.sameList body body'
  | _, _ => false

end

end EcmaPrune
