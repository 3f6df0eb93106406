import EcmaPrune.Tree

/-! The nodes of a tree in the order of a walk, depth first and left to right. -/

namespace EcmaPrune

/-- What a walk meets on its way through a tree. -/
inductive Visit where
  | enter (e : Expr)
  | leave (e : Expr)
  | stmt (s : Stmt)
  | binding (b : Binding)
  | func (f : Func)
  /-- The function that an arrow expression stands for, met after entering the expression. -/
  | arrow
  | staticBlock
  | property (p : Property)

mutual

/-- The walk through an expression. -/
def Expr.visits (e : Expr) : List Visit :=
  .enter e :: (match e with
    | .array _ items => Expr.visitsList items
    | .arrow _ params body _ _ =>
      .arrow :: (BindingElement.visitsList params ++ Stmt.visitsList body)
    | .binary _ _ left right => left.visits ++ right.visits
    | .call _ target args _ _ _ => target.visits ++ Expr.visitsList args
    | .classExpr _ definition => definition.visits
    | .dot _ target _ _ _ => target.visits
    | .function _ func => func.visits
    | .conditional _ test yes no => test.visits ++ yes.visits ++ no.visits
    | .index _ target key _ _ => target.visits ++ key.visits
    | .inlinedEnum _ value _ => value.visits
    | .new _ target args _ => target.visits ++ Expr.visitsList args
    | .object _ properties => Property.visitsList properties
    | .spread _ value => value.visits
    | .template _ tag _ parts => Expr.visitsOption tag ++ TemplatePart.visitsList parts
    | .unary _ _ value _ => value.visits
    | .bigInt .. | .boolean .. | .identifier .. | .importIdentifier .. | .importMeta _
    | .missing _ | .null _ | .number .. | .regExp .. | .string .. | .this _ | .undefined _ => [])
  ++ [.leave e]

/-- The walk through expressions in turn. -/
def Expr.visitsList : List Expr → List Visit
  | [] => []
  | e :: rest => e.visits ++ Expr.visitsList rest

/-- The walk through an expression that may be absent. -/
def Expr.visitsOption : Option Expr → List Visit
  | none => []
  | some e => e.visits

/-- The walk through the substitutions of a template. -/
def TemplatePart.visitsList : List TemplatePart → List Visit
  | [] => []
  | ⟨value, _⟩ :: rest => value.visits ++ TemplatePart.visitsList rest

/-- The walk through a member: its key, then its value, then its initializer. -/
def Property.visits (p : Property) : List Visit :=
  .property p :: (match p with
    | ⟨_, _, _, key, value, initializer⟩ =>
      key.visits ++ Expr.visitsOption value ++ Expr.visitsOption initializer)

/-- The walk through members in turn. -/
def Property.visitsList : List Property → List Visit
  | [] => []
  | p :: rest => p.visits ++ Property.visitsList rest

/-- The walk through a function: its parameters, then its body. -/
def Func.visits (f : Func) : List Visit :=
  .func f :: (match f with
    | ⟨_, params, body, _, _⟩ => BindingElement.visitsList params ++ Stmt.visitsList body)

/-- The walk through a class member. -/
def ClassMember.visits : ClassMember → List Visit
  | .property property => property.visits
  | .staticBlock body => .staticBlock :: Stmt.visitsList body

/-- The walk through a class body. -/
def ClassMember.visitsList : List ClassMember → List Visit
  | [] => []
  | m :: rest => m.visits ++ ClassMember.visitsList rest

/-- The walk through a class: the class it extends, then its members. -/
def Class.visits : Class → List Visit
  | ⟨_, superclass, members⟩ => Expr.visitsOption superclass ++ ClassMember.visitsList members

/-- The walk through a binding. -/
def Binding.visits (b : Binding) : List Visit :=
  .binding b :: (match b with
    | .array _ items _ => BindingElement.visitsList items
    | .object _ properties => PropertyPattern.visitsList properties
    | .identifier .. | .missing _ => [])

/-- The walk through a binding that may be absent. -/
def Binding.visitsOption : Option Binding → List Visit
  | none => []
  | some b => b.visits

/-- The walk through a bound element: its binding, then its initializer. -/
def BindingElement.visits : BindingElement → List Visit
  | ⟨binding, initializer⟩ => binding.visits ++ Expr.visitsOption initializer

/-- The walk through bound elements in turn. -/
def BindingElement.visitsList : List BindingElement → List Visit
  | [] => []
  | e :: rest => e.visits ++ BindingElement.visitsList rest

/-- The walk through the members of an object pattern. -/
def PropertyPattern.visitsList : List PropertyPattern → List Visit
  | [] => []
  | ⟨key, _, _, element⟩ :: rest =>
    key.visits ++ element.visits ++ PropertyPattern.visitsList rest

/-- The walk through a statement. -/
def Stmt.visits (s : Stmt) : List Visit :=
  .stmt s :: (match s with
    | .block _ body => Stmt.visitsList body
    | .classDecl _ definition _ => definition.visits
    | .doWhile _ body test => body.visits ++ test.visits
    | .exportDefaultClass _ _ definition _ => definition.visits
    | .exportDefaultExpr _ _ value => value.visits
    | .exportDefaultFunction _ _ func _ => func.visits
    | .expr _ value _ => value.visits
    | .function _ func _ => func.visits
    | .ifElse _ test yes no => test.visits ++ yes.visits ++ Stmt.visitsOption no
    | .label _ _ stmt => stmt.visits
    | .localDecl _ _ decls _ => BindingElement.visitsList decls
    | .returnValue _ value => Expr.visitsOption value
    | .throwValue _ value => value.visits
    | .tryCatch _ body handler finalizer =>
      Stmt.visitsList body ++ Catch.visitsOption handler ++ Stmt.visitsListOption finalizer
    | .whileLoop _ test body => test.visits ++ body.visits
    | .withObject _ value body => value.visits ++ body.visits
    | .breakTo .. | .continueTo .. | .debugger _ | .empty _ | .exportClause .. | .exportFrom ..
    | .importFrom .. => [])

/-- The walk through statements in turn. -/
def Stmt.visitsList : List Stmt → List Visit
  | [] => []
  | s :: rest => s.visits ++ Stmt.visitsList rest

/-- The walk through a statement that may be absent. -/
def Stmt.visitsOption : Option Stmt → List Visit
  | none => []
  | some s => s.visits

/-- The walk through a statement list that may be absent. -/
def Stmt.visitsListOption : Option (List Stmt) → List Visit
  | none => []
  | some body => Stmt.visitsList body

/-- The walk through a handler that may be absent. -/
def Catch.visitsOption : Option Catch → List Visit
  | none => []
  | some ⟨binding, body⟩ => Binding.visitsOption binding ++ Stmt.visitsList body

end

end EcmaPrune
