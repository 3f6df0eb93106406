import EcmaPrune.Minify.Tally
import EcmaPrune.Tree

/-! Rewriting every node of a tree on one walk, with places where another rewriting takes over. -/

namespace EcmaPrune

/-- What a walk does to the nodes it meets. -/
structure Walk where
  /-- Takes over the bodies of functions, arrow functions and static blocks. -/
  body : Option (List Stmt → Counted (List Stmt))
  /-- Takes over the tests of conditional expressions, `if` statements and loops. -/
  test : Option (Expr → Counted Expr)
  /-- Rewrites an expression after everything inside it. -/
  leave : Expr → Counted Expr

/-- The walk that changes nothing. -/
def Walk.idle : Walk := ⟨none, none, Counted.unchanged⟩

mutual

/-- Walks through an expression. -/
def Expr.walk (w : Walk) : Expr → Counted Expr
  | .array loc items => do w.leave (.array loc (← Expr.walkList w items))
  | .arrow loc params body isAsync prefersExpr => do
    let params ← BindingElement.walkList w params
    let body ← match w.body with
      | some rewrite => rewrite body
      | none => Stmt.walkList w body
    w.leave (.arrow loc params body isAsync prefersExpr)
  | .binary loc op left right => do
    w.leave (.binary loc op (← left.walk w) (← right.walk w))
  | .call loc target args link isPure kind => do
    w.leave (.call loc (← target.walk w) (← Expr.walkList w args) link isPure kind)
  | .classExpr loc definition => do w.leave (.classExpr loc (← definition.walk w))
  | .dot loc target name link isRemovable => do
    w.leave (.dot loc (← target.walk w) name link isRemovable)
  | .function loc func => do w.leave (.function loc (← func.walk w))
  | .conditional loc test yes no => do
    let test ← match w.test with
      | some rewrite => rewrite test
      | none => test.walk w
    w.leave (.conditional loc test (← yes.walk w) (← no.walk w))
  | .index loc target key link isRemovable => do
    w.leave (.index loc (← target.walk w) (← key.walk w) link isRemovable)
  | .inlinedEnum loc value comment => do w.leave (.inlinedEnum loc (← value.walk w) comment)
  | .new loc target args isPure => do
    w.leave (.new loc (← target.walk w) (← Expr.walkList w args) isPure)
  | .object loc properties => do w.leave (.object loc (← Property.walkList w properties))
  | .spread loc value => do w.leave (.spread loc (← value.walk w))
  | .template loc tag head parts => do
    w.leave (.template loc (← Expr.walkOption w tag) head (← TemplatePart.walkList w parts))
  | .unary loc op value fromIdentifier => do
    w.leave (.unary loc op (← value.walk w) fromIdentifier)
  | .bigInt loc literal => w.leave (.bigInt loc literal)
  | .boolean loc value => w.leave (.boolean loc value)
  | .identifier loc ref isRemovable mustKeepInWith =>
    w.leave (.identifier loc ref isRemovable mustKeepInWith)
  | .importIdentifier loc ref => w.leave (.importIdentifier loc ref)
  | .importMeta loc => w.leave (.importMeta loc)
  | .missing loc => w.leave (.missing loc)
  | .null loc => w.leave (.null loc)
  | .number loc value => w.leave (.number loc value)
  | .regExp loc text => w.leave (.regExp loc text)
  | .string loc value => w.leave (.string loc value)
  | .this loc => w.leave (.this loc)
  | .undefined loc => w.leave (.undefined loc)

/-- Walks through expressions in turn. -/
def Expr.walkList (w : Walk) : List Expr → Counted (List Expr)
  | [] => pure []
  | e :: rest => do return (← e.walk w) :: (← Expr.walkList w rest)

/-- Walks through an expression that may be absent. -/
def Expr.walkOption (w : Walk) : Option Expr → Counted (Option Expr)
  | none => pure none
  | some e => do return some (← e.walk w)

/-- Walks through the substitutions of a template. -/
def TemplatePart.walkList (w : Walk) : List TemplatePart → Counted (List TemplatePart)
  | [] => pure []
  | ⟨value, tail⟩ :: rest => do return ⟨← value.walk w, tail⟩ :: (← TemplatePart.walkList w rest)

/-- Walks through a member. -/
def Property.walk (w : Walk) : Property → Counted Property
  | ⟨kind, isComputed, isStatic, key, value, initializer⟩ => do
    return ⟨kind, isComputed, isStatic, ← key.walk w, ← Expr.walkOption w value,
      ← Expr.walkOption w initializer⟩

/-- Walks through members in turn. -/
def Property.walkList (w : Walk) : List Property → Counted (List Property)
  | [] => pure []
  | p :: rest => do return (← p.walk w) :: (← Property.walkList w rest)

/-- Walks through a function. -/
def Func.walk (w : Walk) : Func → Counted Func
  | ⟨name, params, body, isAsync, isGenerator⟩ => do
    let params ← BindingElement.walkList w params
    let body ← match w.body with
      | some rewrite => rewrite body
      | none => Stmt.walkList w body
    return ⟨name, params, body, isAsync, isGenerator⟩

/-- Walks through a class member. -/
def ClassMember.walk (w : Walk) : ClassMember → Counted ClassMember
  | .property property => do return .property (← property.walk w)
  | .staticBlock body => do
    let body ← match w.body with
      | some rewrite => rewrite body
      | none => Stmt.walkList w body
    return .staticBlock body

/-- Walks through a class body. -/
def ClassMember.walkList (w : Walk) : List ClassMember → Counted (List ClassMember)
  | [] => pure []
  | m :: rest => do return (← m.walk w) :: (← ClassMember.walkList w rest)

/-- Walks through a class. -/
def Class.walk (w : Walk) : Class → Counted Class
  | ⟨name, superclass, members⟩ => do
    return ⟨name, ← Expr.walkOption w superclass, ← ClassMember.walkList w members⟩

/-- Walks through a binding. -/
def Binding.walk (w : Walk) : Binding → Counted Binding
  | .array loc items hasSpread => do return .array loc (← BindingElement.walkList w items) hasSpread
  | .identifier loc ref => pure (.identifier loc ref)
  | .missing loc => pure (.missing loc)
  | .object loc properties => do return .object loc (← PropertyPattern.walkList w properties)

/-- Walks through a binding that may be absent. -/
def Binding.walkOption (w : Walk) : Option Binding → Counted (Option Binding)
  | none => pure none
  | some b => do return some (← b.walk w)

/-- Walks through a bound element. -/
def BindingElement.walk (w : Walk) : BindingElement → Counted BindingElement
  | ⟨binding, initializer⟩ => do
    return ⟨← binding.walk w, ← Expr.walkOption w initializer⟩

/-- Walks through bound elements in turn. -/
def BindingElement.walkList (w : Walk) : List BindingElement → Counted (List BindingElement)
  | [] => pure []
  | e :: rest => do return (← e.walk w) :: (← BindingElement.walkList w rest)

/-- Walks through the members of an object pattern. -/
def PropertyPattern.walkList (w : Walk) : List PropertyPattern → Counted (List PropertyPattern)
  | [] => pure []
  | ⟨key, isComputed, isSpread, element⟩ :: rest => do
    return ⟨← key.walk w, isComputed, isSpread, ← element.walk w⟩ ::
      (← PropertyPattern.walkList w rest)

/-- Walks through a statement. -/
def Stmt.walk (w : Walk) : Stmt → Counted Stmt
  | .block loc body => do return .block loc (← Stmt.walkList w body)
  | .classDecl loc definition isExport => do
    return .classDecl loc (← definition.walk w) isExport
  | .doWhile loc body test => do
    let body ← body.walk w
    let test ← match w.test with
      | some rewrite => rewrite test
      | none => test.walk w
    return .doWhile loc body test
  | .exportDefaultClass loc ref definition isExport => do
    return .exportDefaultClass loc ref (← definition.walk w) isExport
  | .exportDefaultExpr loc ref value => do return .exportDefaultExpr loc ref (← value.walk w)
  | .exportDefaultFunction loc ref func isExport => do
    return .exportDefaultFunction loc ref (← func.walk w) isExport
  | .expr loc value isGlue => do return .expr loc (← value.walk w) isGlue
  | .function loc func isExport => do return .function loc (← func.walk w) isExport
  | .ifElse loc test yes no => do
    let test ← match w.test with
      | some rewrite => rewrite test
      | none => test.walk w
    return .ifElse loc test (← yes.walk w) (← Stmt.walkOption w no)
  | .label loc name stmt => do return .label loc name (← stmt.walk w)
  | .localDecl loc kind decls isExport => do
    return .localDecl loc kind (← BindingElement.walkList w decls) isExport
  | .returnValue loc value => do return .returnValue loc (← Expr.walkOption w value)
  | .throwValue loc value => do return .throwValue loc (← value.walk w)
  | .tryCatch loc body handler finalizer => do
    return .tryCatch loc (← Stmt.walkList w body) (← Catch.walkOption w handler)
      (← Stmt.walkListOption w finalizer)
  | .whileLoop loc test body => do
    let test ← match w.test with
      | some rewrite => rewrite test
      | none => test.walk w
    return .whileLoop loc test (← body.walk w)
  | .withObject loc value body => do return .withObject loc (← value.walk w) (← body.walk w)
  | .breakTo loc target => pure (.breakTo loc target)
  | .continueTo loc target => pure (.continueTo loc target)
  | .debugger loc => pure (.debugger loc)
  | .empty loc => pure (.empty loc)
  | .exportClause loc items => pure (.exportClause loc items)
  | .exportFrom loc items path => pure (.exportFrom loc items path)
  | .importFrom loc default items namespaceRef path =>
    pure (.importFrom loc default items namespaceRef path)

/-- Walks through statements in turn. -/
def Stmt.walkList (w : Walk) : List Stmt → Counted (List Stmt)
  | [] => pure []
  | s :: rest => do return (← s.walk w) :: (← Stmt.walkList w rest)

/-- Walks through a statement that may be absent. -/
def Stmt.walkOption (w : Walk) : Option Stmt → Counted (Option Stmt)
  | none => pure none
  | some s => do return some (← s.walk w)

/-- Walks through a statement list that may be absent. -/
def Stmt.walkListOption (w : Walk) : Option (List Stmt) → Counted (Option (List Stmt))
  | none => pure none
  | some body => do return some (← Stmt.walkList w body)

/-- Walks through a handler that may be absent. -/
def Catch.walkOption (w : Walk) : Option Catch → Counted (Option Catch)
  | none => pure none
  | some ⟨binding, body⟩ => do
    return some ⟨← Binding.walkOption w binding, ← Stmt.walkList w body⟩

end

end EcmaPrune
