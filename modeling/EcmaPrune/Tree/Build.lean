import EcmaPrune.Text.Units
import EcmaPrune.Tree

/-! Short ways to build nodes that stand nowhere in particular. -/

namespace EcmaPrune.Build

/-- A null literal. -/
def null : Expr := .null .unknown

/-- The undefined value. -/
def undefined : Expr := .undefined .unknown

/-- A hole. -/
def missing : Expr := .missing .unknown

/-- The receiver of a call. -/
def this : Expr := .this .unknown

/-- The properties of the module. -/
def importMeta : Expr := .importMeta .unknown

/-- A truth value. -/
def boolean (value : Bool) : Expr := .boolean .unknown value

/-- A number literal. -/
def number (value : Number) : Expr := .number .unknown value

/-- A big integer literal. -/
def bigInt (literal : String) : Expr := .bigInt .unknown literal

/-- A string literal of given code units. -/
def stringUnits (value : List UInt16) : Expr := .string .unknown value

/-- A string literal of a text. -/
def string (text : String) : Expr := stringUnits (Text.units text)

/-- A regular expression. -/
def regExp (text : String) : Expr := .regExp .unknown text

/-- An identifier whose reading may have an effect. -/
def id (ref : Ref) : Expr := .identifier .unknown ref false false

/-- An identifier whose reading has no effect. -/
def pureId (ref : Ref) : Expr := .identifier .unknown ref true false

/-- An imported name. -/
def importId (ref : Ref) : Expr := .importIdentifier .unknown ref

/-- A member access by name. -/
def dot (target : Expr) (name : String) : Expr := .dot .unknown target name .plain false

/-- A member access by name that has no effect. -/
def pureDot (target : Expr) (name : String) : Expr := .dot .unknown target name .plain true

/-- A member access by key. -/
def index (target key : Expr) : Expr := .index .unknown target key .plain false

/-- A call. -/
def call (target : Expr) (args : List Expr) : Expr :=
  .call .unknown target args .plain false .normal

/-- A call that may be dropped but for its arguments. -/
def pureCall (target : Expr) (args : List Expr) : Expr :=
  .call .unknown target args .plain true .normal

/-- A construction. -/
def new (target : Expr) (args : List Expr) (isPure : Bool) : Expr :=
  .new .unknown target args isPure

/-- A unary operation on an operand that is not taken for a bare identifier. -/
def unary (op : Operator) (value : Expr) : Expr := .unary .unknown op value false

/-- The undefined value, spelled as an operation on zero. -/
def voidZero : Expr := unary .void (number .zero)

/-- The type name of a bare identifier. -/
def typeofId (ref : Ref) : Expr := .unary .unknown .typeof (id ref) true

/-- A binary operation. -/
def binary (op : Operator) (left right : Expr) : Expr := .binary .unknown op left right

/-- A choice between two expressions. -/
def conditional (test yes no : Expr) : Expr := .conditional .unknown test yes no

/-- An array literal. -/
def array (items : List Expr) : Expr := .array .unknown items

/-- All items of a value, in a list of items. -/
def spread (value : Expr) : Expr := .spread .unknown value

/-- An object literal. -/
def object (properties : List Property) : Expr := .object .unknown properties

/-- A member with a fixed name. -/
def property (name : String) (value : Expr) : Property :=
  ⟨.normal, false, false, string name, some value, none⟩

/-- A member with a computed name. -/
def computedProperty (key value : Expr) : Property := ⟨.normal, true, false, key, some value, none⟩

/-- All members of a value, in an object literal. -/
def spreadProperty (value : Expr) : Property :=
  ⟨.spread, false, false, missing, some value, none⟩

/-- A template with the texts after its substitutions. -/
def template (tag : Option Expr) (head : String) (parts : List (Expr × String)) : Expr :=
  .template .unknown tag (Text.units head) (parts.map fun (value, tail) => ⟨value, Text.units tail⟩)

/-- A nameless function without parameters. -/
def func (body : List Stmt) : Func := ⟨none, [], body, false, false⟩

/-- A function expression. -/
def function (body : List Stmt) : Expr := .function .unknown (func body)

/-- An arrow function with a block body. -/
def arrow (body : List Stmt) : Expr := .arrow .unknown [] body false false

/-- An asynchronous arrow function with a block body. -/
def asyncArrow (body : List Stmt) : Expr := .arrow .unknown [] body true false

/-- A return statement. -/
def returnValue (value : Option Expr) : Stmt := .returnValue .unknown value

/-- An arrow function that only returns a value, to be written without a block. -/
def arrowExpr (value : Expr) : Expr := .arrow .unknown [] [returnValue (some value)] false true

/-- A nameless class. -/
def classOf (superclass : Option Expr) (members : List ClassMember) : Class :=
  ⟨none, superclass, members⟩

/-- A class expression. -/
def classExpr (definition : Class) : Expr := .classExpr .unknown definition

/-- A constant in the place of an enumeration member. -/
def inlinedEnum (value : Expr) (comment : String) : Expr := .inlinedEnum .unknown value comment

/-- An expression statement, standing where its expression stands. -/
def exprStmt (value : Expr) : Stmt := .expr value.loc value false

/-- The binding of a name. -/
def idBinding (ref : Ref) : Binding := .identifier .unknown ref

end EcmaPrune.Build
