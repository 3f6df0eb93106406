import EcmaPrune.Tree

/-! Trees as plain data, in which every node is a record of its kind and its named fields. -/

namespace EcmaPrune

/-- A value built of records, lists and plain values. -/
inductive Data where
  | null
  | bool (value : Bool)
  | nat (value : Nat)
  | number (value : Number)
  | text (value : String)
  | list (items : List Data)
  | record (fields : List (String × Data))
deriving Inhabited

namespace Data

/-- A value that may be absent. -/
def option {α : Type} (write : α → Data) : Option α → Data
  | none => .null
  | some value => write value

/-- A reference, as its place in the symbol table. -/
def ref (ref : Ref) : Data := .nat ref.index.toNat

/-- Code units, as a list of integers. -/
def units (value : List UInt16) : Data := .list (value.map fun unit => .nat unit.toNat)

/-- A node: its kind, its fields and where it stands. -/
def node (kind : String) (loc : Loc) (fields : List (String × Data)) : Data :=
  .record (("$t", .text kind) :: fields ++ [("loc", .list [.nat loc.start, .nat loc.stop])])

/-- A name in the braces of an import or export. -/
def clauseItem (item : ClauseItem) : Data :=
  .record [("alias", .text item.exportedName), ("original_name", .text item.originalName),
    ("ref_", ref item.ref)]

/-- The kind of a node, if the data is a node. -/
def kind? : Data → Option String
  | .record (("$t", .text kind) :: _) => some kind
  | _ => none

end Data

/-- The name under which a part in a chain is stored. -/
def ChainLink.name : ChainLink → String
  | .plain => "None"
  | .start => "Start"
  | .continued => "Continue"

/-- The name under which a kind of call is stored. -/
def CallKind.name : CallKind → String
  | .normal => "Normal"
  | .directEval => "DirectEval"
  | .publicField => "InternalPublicFieldCall"

/-- The name under which a kind of member is stored. -/
def PropertyKind.name : PropertyKind → String
  | .normal => "Normal"
  | .getter => "Get"
  | .setter => "Set"
  | .method => "Method"
  | .spread => "Spread"

/-- The name under which a kind of variable is stored. -/
def LocalKind.name : LocalKind → String
  | .const => "Const"
  | .let_ => "Let"
  | .var => "Var"

mutual

/-- The record of an expression. -/
def Expr.data : Expr → Data
  | .array loc items => .node "Array" loc [("items", .list (Expr.dataList items))]
  | .arrow loc params body isAsync prefersExpr =>
    .node "Arrow" loc [("args", .list (BindingElement.dataList "default" params)),
      ("body", .list (Stmt.dataList body)), ("is_async", .bool isAsync),
      ("prefer_expr", .bool prefersExpr)]
  | .bigInt loc literal => .node "BigInt" loc [("value", .text literal)]
  | .binary loc op left right =>
    .node "Binary" loc [("operator", .text op.name), ("left", left.data), ("right", right.data)]
  | .boolean loc value => .node "Boolean" loc [("value", .bool value)]
  | .call loc target args link isPure kind =>
    .node "Call" loc [("target", target.data), ("args", .list (Expr.dataList args)),
      ("optional_chain", .text link.name), ("can_be_unwrapped_if_unused", .bool isPure),
      ("kind", .text kind.name)]
  | .classExpr loc definition => .node "Class" loc [("class", definition.data)]
  | .dot loc target name link isRemovable =>
    .node "Dot" loc [("target", target.data), ("name", .text name),
      ("optional_chain", .text link.name), ("can_be_removed_if_unused", .bool isRemovable)]
  | .function loc func => .node "Function" loc [("func", func.data)]
  | .identifier loc ref isRemovable mustKeepInWith =>
    .node "Identifier" loc [("ref_", .ref ref), ("can_be_removed_if_unused", .bool isRemovable),
      ("must_keep_due_to_with_stmt", .bool mustKeepInWith)]
  | .conditional loc test yes no =>
    .node "If" loc [("test", test.data), ("yes", yes.data), ("no", no.data)]
  | .importIdentifier loc ref => .node "ImportIdentifier" loc [("ref_", .ref ref)]
  | .importMeta loc => .node "ImportMeta" loc []
  | .index loc target key link isRemovable =>
    .node "Index" loc [("target", target.data), ("index", key.data),
      ("optional_chain", .text link.name), ("can_be_removed_if_unused", .bool isRemovable)]
  | .inlinedEnum loc value comment =>
    .node "InlinedEnum" loc [("value", value.data), ("comment", .text comment)]
  | .missing loc => .node "Missing" loc []
  | .new loc target args isPure =>
    .node "New" loc [("target", target.data), ("args", .list (Expr.dataList args)),
      ("can_be_unwrapped_if_unused", .bool isPure)]
  | .null loc => .node "Null" loc []
  | .number loc value => .node "Number" loc [("value", .number value)]
  | .object loc properties =>
    .node "Object" loc [("properties", .list (Property.dataList properties))]
  | .regExp loc text => .node "RegExp" loc [("value", .text text)]
  | .spread loc value => .node "Spread" loc [("value", value.data)]
  | .string loc value => .node "String" loc [("value", .units value)]
  | .template loc tag head parts =>
    .node "Template" loc [("tag", Expr.dataOption tag), ("head", .units head),
      ("parts", .list (TemplatePart.dataList parts))]
  | .this loc => .node "This" loc []
  | .unary loc op value fromIdentifier =>
    .node "Unary" loc [("operator", .text op.name), ("value", value.data),
      ("value_was_originally_identifier", .bool fromIdentifier)]
  | .undefined loc => .node "Undefined" loc []

/-- The records of expressions in turn. -/
def Expr.dataList : List Expr → List Data
  | [] => []
  | e :: rest => e.data :: Expr.dataList rest

/-- The record of an expression that may be absent. -/
def Expr.dataOption : Option Expr → Data
  | none => .null
  | some e => e.data

/-- The records of the substitutions of a template. -/
def TemplatePart.dataList : List TemplatePart → List Data
  | [] => []
  | ⟨value, tail⟩ :: rest =>
    .record [("value", value.data), ("tail", .units tail)] :: TemplatePart.dataList rest

/-- The fields of a member. -/
def Property.dataFields : Property → List (String × Data)
  | ⟨kind, isComputed, isStatic, key, value, initializer⟩ =>
    [("kind", .text kind.name), ("is_computed", .bool isComputed), ("is_static", .bool isStatic),
      ("key", key.data), ("value", Expr.dataOption value),
      ("initializer", Expr.dataOption initializer)]

/-- The records of members in turn. -/
def Property.dataList : List Property → List Data
  | [] => []
  | p :: rest => .record p.dataFields :: Property.dataList rest

/-- The record of a function. -/
def Func.data : Func → Data
  | ⟨name, params, body, isAsync, isGenerator⟩ =>
    .record [("name", .option .ref name),
      ("args", .list (BindingElement.dataList "default" params)),
      ("body", .list (Stmt.dataList body)), ("is_async", .bool isAsync),
      ("is_generator", .bool isGenerator)]

/-- The record of a class member. -/
def ClassMember.data : ClassMember → Data
  | .property property => .record (("$t", .text "Property") :: property.dataFields)
  | .staticBlock body =>
    .record [("$t", .text "StaticBlock"), ("body", .list (Stmt.dataList body))]

/-- The records of class members in turn. -/
def ClassMember.dataList : List ClassMember → List Data
  | [] => []
  | m :: rest => m.data :: ClassMember.dataList rest

/-- The record of a class. -/
def Class.data : Class → Data
  | ⟨name, superclass, members⟩ =>
    .record [("name", .option .ref name), ("extends", Expr.dataOption superclass),
      ("members", .list (ClassMember.dataList members))]

/-- The record of a binding. -/
def Binding.data : Binding → Data
  | .array loc items hasSpread =>
    .node "Array" loc [("items", .list (BindingElement.dataList "default" items)),
      ("has_spread", .bool hasSpread)]
  | .identifier loc ref => .node "Identifier" loc [("ref_", .ref ref)]
  | .missing loc => .node "Missing" loc []
  | .object loc properties =>
    .node "Object" loc [("properties", .list (PropertyPattern.dataList properties))]

/-- The record of a binding that may be absent. -/
def Binding.dataOption : Option Binding → Data
  | none => .null
  | some b => b.data

/-- The fields of a bound element, with the given names for its two parts. -/
def BindingElement.dataFields (target init : String) : BindingElement → List (String × Data)
  | ⟨binding, initializer⟩ => [(target, binding.data), (init, Expr.dataOption initializer)]

/-- The records of bound elements in turn. -/
def BindingElement.dataList (init : String) : List BindingElement → List Data
  | [] => []
  | e :: rest => .record (e.dataFields "binding" init) :: BindingElement.dataList init rest

/-- The records of the members of an object pattern. -/
def PropertyPattern.dataList : List PropertyPattern → List Data
  | [] => []
  | ⟨key, isComputed, isSpread, element⟩ :: rest =>
    .record ([("key", key.data), ("is_computed", .bool isComputed),
      ("is_spread", .bool isSpread)] ++ element.dataFields "value" "default")
      :: PropertyPattern.dataList rest

/-- The record of a statement. -/
def Stmt.data : Stmt → Data
  | .block loc body => .node "Block" loc [("body", .list (Stmt.dataList body))]
  | .breakTo loc target => .node "Break" loc [("label", .option .text target)]
  | .classDecl loc definition isExport =>
    .node "Class" loc [("class", definition.data), ("is_export", .bool isExport)]
  | .continueTo loc target => .node "Continue" loc [("label", .option .text target)]
  | .debugger loc => .node "Debugger" loc []
  | .doWhile loc body test => .node "DoWhile" loc [("body", body.data), ("test", test.data)]
  | .empty loc => .node "Empty" loc []
  | .exportClause loc items =>
    .node "ExportClause" loc [("items", .list (items.map .clauseItem))]
  | .exportDefaultClass loc ref definition isExport =>
    .node "ExportDefault" loc [("default_ref", .ref ref), ("value", .record [("Class",
      .record [("class", definition.data), ("is_export", .bool isExport)])])]
  | .exportDefaultExpr loc ref value =>
    .node "ExportDefault" loc [("default_ref", .ref ref), ("value", .record [("Expr", value.data)])]
  | .exportDefaultFunction loc ref func isExport =>
    .node "ExportDefault" loc [("default_ref", .ref ref), ("value", .record [("Function",
      .record [("func", func.data), ("is_export", .bool isExport)])])]
  | .exportFrom loc items path =>
    .node "ExportFrom" loc [("items", .list (items.map .clauseItem)), ("path", .text path)]
  | .expr loc value isGlue =>
    .node "Expr" loc [("expr", value.data), ("does_not_affect_tree_shaking", .bool isGlue)]
  | .function loc func isExport =>
    .node "Function" loc [("func", func.data), ("is_export", .bool isExport)]
  | .ifElse loc test yes no =>
    .node "If" loc [("test", test.data), ("yes", yes.data), ("no", Stmt.dataOption no)]
  | .importFrom loc default items namespaceRef path =>
    .node "Import" loc [("default", .option .ref default),
      ("items", .list (items.map .clauseItem)), ("namespace", .option .ref namespaceRef),
      ("path", .text path)]
  | .label loc name stmt => .node "Label" loc [("name", .text name), ("stmt", stmt.data)]
  | .localDecl loc kind decls isExport =>
    .node "Local" loc [("kind", .text kind.name),
      ("decls", .list (BindingElement.dataList "value" decls)), ("is_export", .bool isExport)]
  | .returnValue loc value => .node "Return" loc [("value", Expr.dataOption value)]
  | .throwValue loc value => .node "Throw" loc [("value", value.data)]
  | .tryCatch loc body handler finalizer =>
    .node "Try" loc [("block", .list (Stmt.dataList body)), ("catch", Catch.dataOption handler),
      ("finally", Stmt.dataListOption finalizer)]
  | .whileLoop loc test body => .node "While" loc [("test", test.data), ("body", body.data)]
  | .withObject loc value body => .node "With" loc [("value", value.data), ("body", body.data)]

/-- The records of statements in turn. -/
def Stmt.dataList : List Stmt → List Data
  | [] => []
  | s :: rest => s.data :: Stmt.dataList rest

/-- The record of a statement that may be absent. -/
def Stmt.dataOption : Option Stmt → Data
  | none => .null
  | some s => s.data

/-- The records of a statement list that may be absent. -/
def Stmt.dataListOption : Option (List Stmt) → Data
  | none => .null
  | some body => .list (Stmt.dataList body)

/-- The record of a handler that may be absent. -/
def Catch.dataOption : Option Catch → Data
  | none => .null
  | some ⟨binding, body⟩ =>
    .record [("binding", Binding.dataOption binding), ("body", .list (Stmt.dataList body))]

end

end EcmaPrune
