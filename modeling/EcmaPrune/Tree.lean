import EcmaPrune.Loc
import EcmaPrune.Number
import EcmaPrune.Operator
import EcmaPrune.Symbol

/-! The tree of an ECMAScript program. -/

namespace EcmaPrune

/-- The part a member access or call plays in an optional chain. -/
inductive ChainLink where
  /-- Outside every chain, so it ends a chain that its target belongs to. -/
  | plain
  /-- Written `?.`, so a nullish target skips the rest of the chain. -/
  | start
  /-- Skipped together with the chain that its target belongs to. -/
  | continued
deriving DecidableEq, Inhabited, Repr

/-- What a call stands for. -/
inductive CallKind where
  | normal
  /-- A call of `eval` by that name, which sees the local scope. -/
  | directEval
  /-- A generated helper that defines a public class field and evaluates only its arguments. -/
  | publicField
deriving DecidableEq, Inhabited, Repr

/-- What a member of an object literal or class is. -/
inductive PropertyKind where
  | normal
  | getter
  | setter
  | method
  /-- All properties of the value of the member, which has no key. -/
  | spread
deriving DecidableEq, Inhabited, Repr

/-- The keyword of a variable declaration. -/
inductive LocalKind where
  | const
  | let_
  | var
deriving DecidableEq, Inhabited, Repr

/-- One name in the braces of an import or export. -/
structure ClauseItem where
  /-- The name under which another module knows it. -/
  exportedName : String
  /-- The name it has where an export takes it from. -/
  originalName : String
  ref : Ref
deriving DecidableEq, Inhabited, Repr

mutual

/-- An expression. -/
inductive Expr where
  | array (loc : Loc) (items : List Expr)
  | arrow (loc : Loc) (params : List BindingElement) (body : List Stmt)
      (isAsync prefersExpr : Bool)
  | bigInt (loc : Loc) (literal : String)
  | binary (loc : Loc) (op : Operator) (left right : Expr)
  | boolean (loc : Loc) (value : Bool)
  | call (loc : Loc) (target : Expr) (args : List Expr) (link : ChainLink) (isPure : Bool)
      (kind : CallKind)
  | classExpr (loc : Loc) (definition : Class)
  | dot (loc : Loc) (target : Expr) (name : String) (link : ChainLink) (isRemovable : Bool)
  | function (loc : Loc) (func : Func)
  | identifier (loc : Loc) (ref : Ref) (isRemovable mustKeepInWith : Bool)
  | conditional (loc : Loc) (test yes no : Expr)
  | importIdentifier (loc : Loc) (ref : Ref)
  | importMeta (loc : Loc)
  | index (loc : Loc) (target key : Expr) (link : ChainLink) (isRemovable : Bool)
  /-- A constant put in the place of an enumeration member, with a comment naming the member. -/
  | inlinedEnum (loc : Loc) (value : Expr) (comment : String)
  /-- The expression that was left out, such as a hole of an array. -/
  | missing (loc : Loc)
  | new (loc : Loc) (target : Expr) (args : List Expr) (isPure : Bool)
  | null (loc : Loc)
  | number (loc : Loc) (value : Number)
  | object (loc : Loc) (properties : List Property)
  /-- A regular expression, with its slashes and flags. -/
  | regExp (loc : Loc) (text : String)
  | spread (loc : Loc) (value : Expr)
  | string (loc : Loc) (value : List UInt16)
  | template (loc : Loc) (tag : Option Expr) (head : List UInt16) (parts : List TemplatePart)
  | this (loc : Loc)
  /-- A unary operation; the flag marks an operand that was written as a bare identifier. -/
  | unary (loc : Loc) (op : Operator) (value : Expr) (fromIdentifier : Bool)
  | undefined (loc : Loc)

/-- A substitution of a template and the text up to the next one. -/
structure TemplatePart where
  value : Expr
  tail : List UInt16

/-- A member of an object literal or class; methods hold a function as their value. -/
structure Property where
  kind : PropertyKind
  isComputed : Bool
  isStatic : Bool
  key : Expr
  value : Option Expr
  initializer : Option Expr

/-- A function that is not an arrow. -/
structure Func where
  name : Option Ref
  params : List BindingElement
  body : List Stmt
  isAsync : Bool
  isGenerator : Bool

/-- A member of a class body. -/
inductive ClassMember where
  | property (property : Property)
  | staticBlock (body : List Stmt)

/-- A class, declared or not. -/
structure Class where
  name : Option Ref
  superclass : Option Expr
  members : List ClassMember

/-- What a declaration, parameter or destructuring binds. -/
inductive Binding where
  /-- An array pattern; the flag marks its last element as the rest. -/
  | array (loc : Loc) (items : List BindingElement) (hasSpread : Bool)
  | identifier (loc : Loc) (ref : Ref)
  /-- A hole of an array pattern. -/
  | missing (loc : Loc)
  | object (loc : Loc) (properties : List PropertyPattern)

/-- A binding with the expression that initializes it or stands in for an undefined value. -/
structure BindingElement where
  binding : Binding
  initializer : Option Expr

/-- A member of an object pattern. -/
structure PropertyPattern where
  key : Expr
  isComputed : Bool
  isSpread : Bool
  element : BindingElement

/-- A statement. -/
inductive Stmt where
  | block (loc : Loc) (body : List Stmt)
  | breakTo (loc : Loc) (label : Option String)
  | classDecl (loc : Loc) (definition : Class) (isExport : Bool)
  | continueTo (loc : Loc) (label : Option String)
  | debugger (loc : Loc)
  | doWhile (loc : Loc) (body : Stmt) (test : Expr)
  | empty (loc : Loc)
  | exportClause (loc : Loc) (items : List ClauseItem)
  | exportDefaultClass (loc : Loc) (ref : Ref) (definition : Class) (isExport : Bool)
  | exportDefaultExpr (loc : Loc) (ref : Ref) (value : Expr)
  | exportDefaultFunction (loc : Loc) (ref : Ref) (func : Func) (isExport : Bool)
  | exportFrom (loc : Loc) (items : List ClauseItem) (path : String)
  /-- An expression statement; the flag marks generated glue that does not count as a use. -/
  | expr (loc : Loc) (value : Expr) (isGlue : Bool)
  | function (loc : Loc) (func : Func) (isExport : Bool)
  | ifElse (loc : Loc) (test : Expr) (yes : Stmt) (no : Option Stmt)
  | importFrom (loc : Loc) (default : Option Ref) (items : List ClauseItem)
      (namespaceRef : Option Ref) (path : String)
  | label (loc : Loc) (name : String) (stmt : Stmt)
  | localDecl (loc : Loc) (kind : LocalKind) (decls : List BindingElement) (isExport : Bool)
  | returnValue (loc : Loc) (value : Option Expr)
  | throwValue (loc : Loc) (value : Expr)
  | tryCatch (loc : Loc) (body : List Stmt) (handler : Option Catch)
      (finalizer : Option (List Stmt))
  | whileLoop (loc : Loc) (test : Expr) (body : Stmt)
  | withObject (loc : Loc) (value : Expr) (body : Stmt)

/-- The handler of a `try` statement. -/
structure Catch where
  binding : Option Binding
  body : List Stmt

end

namespace Expr

/-- Where an expression stands. -/
def loc : Expr → Loc
  | array loc .. | arrow loc .. | bigInt loc .. | binary loc .. | boolean loc .. | call loc ..
  | classExpr loc .. | dot loc .. | function loc .. | identifier loc .. | conditional loc ..
  | importIdentifier loc .. | importMeta loc | index loc .. | inlinedEnum loc .. | missing loc
  | new loc .. | null loc | number loc .. | object loc .. | regExp loc .. | spread loc ..
  | string loc .. | template loc .. | this loc | unary loc .. | undefined loc => loc

/-- The same expression standing elsewhere; what is inside it stays where it is. -/
def withLoc (e : Expr) (loc : Loc) : Expr :=
  match e with
  | array _ items => array loc items
  | arrow _ params body isAsync prefersExpr => arrow loc params body isAsync prefersExpr
  | bigInt _ literal => bigInt loc literal
  | binary _ op left right => binary loc op left right
  | boolean _ value => boolean loc value
  | call _ target args link isPure kind => call loc target args link isPure kind
  | classExpr _ definition => classExpr loc definition
  | dot _ target name link isRemovable => dot loc target name link isRemovable
  | function _ func => function loc func
  | identifier _ ref isRemovable mustKeepInWith => identifier loc ref isRemovable mustKeepInWith
  | conditional _ test yes no => conditional loc test yes no
  | importIdentifier _ ref => importIdentifier loc ref
  | importMeta _ => importMeta loc
  | index _ target key link isRemovable => index loc target key link isRemovable
  | inlinedEnum _ value comment => inlinedEnum loc value comment
  | missing _ => missing loc
  | new _ target args isPure => new loc target args isPure
  | null _ => null loc
  | number _ value => number loc value
  | object _ properties => object loc properties
  | regExp _ text => regExp loc text
  | spread _ value => spread loc value
  | string _ value => string loc value
  | template _ tag head parts => template loc tag head parts
  | this _ => this loc
  | unary _ op value fromIdentifier => unary loc op value fromIdentifier
  | undefined _ => undefined loc

/-- The literals of a primitive type. -/
def isPrimitiveLiteralKind : Expr → Bool
  | null _ | undefined _ | boolean .. | number .. | bigInt .. | string .. => true
  | _ => false

/-- The reference of an identifier. -/
def identifierRef? : Expr → Option Ref
  | identifier _ ref _ _ => some ref
  | _ => none

/-- The code units of a string literal. -/
def stringUnits? : Expr → Option (List UInt16)
  | string _ value => some value
  | _ => none

/-- The expression inside all wrappers of inlined constants. -/
def unwrapped : Expr → Expr
  | inlinedEnum _ value _ => value.unwrapped
  | e => e

/-- A member access by name or by key. -/
def isPropertyAccess : Expr → Bool
  | dot .. | index .. => true
  | _ => false

/-- A member access or call inside an optional chain. -/
def isChainLink : Expr → Bool
  | dot _ _ _ link _ | index _ _ _ link _ | call _ _ _ link _ _ => link != .plain
  | _ => false

end Expr

namespace Stmt

/-- Where a statement stands. -/
def loc : Stmt → Loc
  | block loc .. | breakTo loc .. | classDecl loc .. | continueTo loc .. | debugger loc
  | doWhile loc .. | empty loc | exportClause loc .. | exportDefaultClass loc ..
  | exportDefaultExpr loc .. | exportDefaultFunction loc .. | exportFrom loc .. | expr loc ..
  | function loc .. | ifElse loc .. | importFrom loc .. | label loc .. | localDecl loc ..
  | returnValue loc .. | throwValue loc .. | tryCatch loc .. | whileLoop loc ..
  | withObject loc .. => loc

/-- The same statement standing elsewhere; what is inside it stays where it is. -/
def withLoc (s : Stmt) (loc : Loc) : Stmt :=
  match s with
  | block _ body => block loc body
  | breakTo _ target => breakTo loc target
  | classDecl _ definition isExport => classDecl loc definition isExport
  | continueTo _ target => continueTo loc target
  | debugger _ => debugger loc
  | doWhile _ body test => doWhile loc body test
  | empty _ => empty loc
  | exportClause _ items => exportClause loc items
  | exportDefaultClass _ ref definition isExport => exportDefaultClass loc ref definition isExport
  | exportDefaultExpr _ ref value => exportDefaultExpr loc ref value
  | exportDefaultFunction _ ref func isExport => exportDefaultFunction loc ref func isExport
  | exportFrom _ items path => exportFrom loc items path
  | expr _ value isGlue => expr loc value isGlue
  | function _ func isExport => function loc func isExport
  | ifElse _ test yes no => ifElse loc test yes no
  | importFrom _ default items namespaceRef path => importFrom loc default items namespaceRef path
  | label _ name stmt => label loc name stmt
  | localDecl _ kind decls isExport => localDecl loc kind decls isExport
  | returnValue _ value => returnValue loc value
  | throwValue _ value => throwValue loc value
  | tryCatch _ body handler finalizer => tryCatch loc body handler finalizer
  | whileLoop _ test body => whileLoop loc test body
  | withObject _ value body => withObject loc value body

end Stmt

instance : Inhabited Expr := ⟨.missing default⟩
instance : Inhabited Stmt := ⟨.empty default⟩
instance : Inhabited Binding := ⟨.missing default⟩

end EcmaPrune
