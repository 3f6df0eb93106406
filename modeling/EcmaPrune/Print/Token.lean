import EcmaPrune.Number.Decimal
import EcmaPrune.Print.Precedence
import EcmaPrune.Text.Escape

/-! The tokens of a tree, before names are put in the place of references. -/

namespace EcmaPrune

/-- A token of printed code. -/
inductive Token where
  | keyword (text : String)
  | identifier (text : String)
  | number (text : String)
  | punct (text : String)
  | literal (text : String)
  /-- The name behind a reference. -/
  | symbol (ref : Ref)
  /-- An imported name, with the local one after it where the two differ. -/
  | imported (name : String) (ref : Ref)
deriving DecidableEq, Repr

/-- Tokens between parentheses. -/
def parenthesized (tokens : List Token) : List Token :=
  .punct "(" :: tokens ++ [.punct ")"]

/-- Tokens between brackets. -/
def bracketed (tokens : List Token) : List Token :=
  .punct "[" :: tokens ++ [.punct "]"]

/-- Tokens between braces. -/
def braced (tokens : List Token) : List Token :=
  .punct "\x7b" :: tokens ++ [.punct "\x7d"]

/-- Runs of tokens with commas between them. -/
def commaSeparated : List (List Token) → List Token
  | [] => []
  | [tokens] => tokens
  | tokens :: rest => tokens ++ .punct "," :: commaSeparated rest

/-- An operator, as a word or as a mark. -/
def Operator.token (op : Operator) : Token :=
  if op.isKeyword then .keyword op.text else .punct op.text

/-- A number: a word, or digits with their sign apart. -/
def Number.tokens (x : Number) : List Token :=
  if x.isNaN then [.identifier "NaN"]
  else
    (if x.printsMinus then [.punct "-"] else []) ++
      (if x.isInfinite then [.identifier "Infinity"] else [.number x.magnitudeText])

/-- Whether a key may be written without quotes. -/
def isPlainName (name : String) : Bool :=
  match name.toList with
  | [] => false
  | c :: rest =>
    (c.isAlpha || c == '_' || c == '$') &&
      rest.all (fun c => c.isAlphanum || c == '_' || c == '$')

/-- A string used as a key. -/
def keyToken (value : List UInt16) : Token :=
  let name := Text.lossy value
  if isPlainName name then .identifier name else .literal (Text.quoted value)

/-- The path of a module. -/
def pathToken (path : String) : Token := .literal (Text.quoted (Text.units path))

/-- The tokens of an expression where at least the given strength is asked for. -/
def Expr.guarded (e : Expr) (least : Nat) (tokens : List Token) : List Token :=
  if e.precedence < least then parenthesized tokens else tokens

/-- The tokens of the target of a link; a chain is closed off from a link outside it. -/
def Expr.guardedTarget (target : Expr) (link : ChainLink) (tokens : List Token) : List Token :=
  if link == .plain && target.isChainLink then parenthesized tokens
  else target.guarded memberPrecedence tokens

/-- The mark of an optional link. -/
def ChainLink.mark : ChainLink → List Token
  | .start => [.punct "?."]
  | _ => []

/-- Whether an array ends in a hole, which needs a comma of its own. -/
def Expr.endsInHole (items : List Expr) : Bool :=
  match items.getLast? with
  | some (.missing _) => true
  | _ => false

/-- Whether an array pattern ends in a hole, which needs a comma of its own. -/
def BindingElement.endsInHole (items : List BindingElement) : Bool :=
  match items.getLast? with
  | some ⟨.missing _, _⟩ => true
  | _ => false

/-- Whether an `else` after this statement would belong to it. -/
def Stmt.takesElse : Stmt → Bool
  | .ifElse _ _ _ none => true
  | _ => false

/-- The names of an export. -/
def ClauseItem.exportTokens (item : ClauseItem) : List Token :=
  .identifier item.originalName ::
    (if item.exportedName == item.originalName then []
    else [.keyword "as", .identifier item.exportedName])

/-- The names of an export clause. -/
def exportClauseTokens (items : List ClauseItem) : List Token :=
  braced (commaSeparated (items.map ClauseItem.exportTokens))

/-- What an import binds, in the order in which it is written. -/
def importTokens (default : Option Ref) (items : List ClauseItem) (namespaceRef : Option Ref) :
    List Token :=
  let names :=
    (default.map fun ref => [Token.symbol ref]).toList ++
      (namespaceRef.map fun ref => [Token.punct "*", .keyword "as", .symbol ref]).toList ++
      (if items.isEmpty then []
      else [braced (commaSeparated (items.map fun item =>
        [Token.imported item.exportedName item.ref]))])
  if names.isEmpty then [] else commaSeparated names ++ [.keyword "from"]

/-- The keyword of a variable declaration. -/
def LocalKind.keyword : LocalKind → String
  | .const => "const"
  | .let_ => "let"
  | .var => "var"

/-- The keyword of an exported declaration. -/
def exportTokens (isExport : Bool) : List Token := if isExport then [.keyword "export"] else []

/-- The keyword of an asynchronous function. -/
def asyncTokens (isAsync : Bool) : List Token := if isAsync then [.keyword "async"] else []

/-- The mark of a generator. -/
def generatorTokens (isGenerator : Bool) : List Token := if isGenerator then [.punct "*"] else []

/-- A jump and the label it goes to. -/
def jumpTokens (keyword : String) (target : Option String) : List Token :=
  .keyword keyword :: (target.map Token.identifier).toList ++ [.punct ";"]

/-- What stands before the key of a method, which the function it holds decides. -/
def PropertyKind.methodTokens (kind : PropertyKind) (func : Func) : List Token :=
  match kind with
  | .getter => [.keyword "get"]
  | .setter => [.keyword "set"]
  | _ => asyncTokens func.isAsync ++ generatorTokens func.isGenerator

/-- The name of an object literal member or class member, given the tokens of its key. -/
def Expr.keyTokens (key : Expr) (isComputed : Bool) (tokens : List Token) : List Token :=
  if isComputed then bracketed (key.guarded itemPrecedence tokens)
  else match key with
    | .string _ value => [keyToken value]
    | _ => key.guarded primaryPrecedence tokens

mutual

/-- The tokens of an expression that needs no parentheses where it stands. -/
def Expr.tokens : Expr → List Token
  | .array _ items =>
    bracketed (commaSeparated (Expr.tokensList items) ++
      (if Expr.endsInHole items then [.punct ","] else []))
  | .arrow _ params body isAsync prefersExpr =>
    asyncTokens isAsync ++ parenthesized (commaSeparated (BindingElement.tokensList params)) ++
      .punct "=>" ::
      (if prefersExpr then
        (Stmt.conciseTokens? body).getD (braced (Stmt.tokensList body))
      else braced (Stmt.tokensList body))
  | .bigInt _ literal => [.number (literal ++ "n")]
  | .binary _ op left right =>
    (if left.mixesNullish op || (op == .exponentiation && left.isUnaryLike) then
      parenthesized left.tokens
    else left.guarded op.leftPrecedence left.tokens) ++
      op.token ::
      (if right.mixesNullish op then parenthesized right.tokens
      else right.guarded op.rightPrecedence right.tokens)
  | .boolean _ value => [.keyword (if value then "true" else "false")]
  | .call _ target args link _ _ =>
    target.guardedTarget link target.tokens ++ link.mark ++
      parenthesized (commaSeparated (Expr.tokensList args))
  | .classExpr _ definition => definition.tokens
  | .dot _ target name link _ =>
    target.guardedTarget link target.tokens ++
      [.punct (if link == .start then "?." else "."), .identifier name]
  | .function _ func => func.tokens
  | .identifier _ ref _ _ => [.symbol ref]
  | .conditional _ test yes no =>
    test.guarded (Operator.conditional.precedence + 1) test.tokens ++
      .punct "?" :: yes.guarded itemPrecedence yes.tokens ++
      .punct ":" :: no.guarded itemPrecedence no.tokens
  | .importIdentifier _ ref => [.symbol ref]
  | .importMeta _ => [.keyword "import", .punct ".", .identifier "meta"]
  | .index _ target key link _ =>
    target.guardedTarget link target.tokens ++ link.mark ++ bracketed key.tokens
  | .inlinedEnum _ value _ => value.tokens
  | .missing _ => []
  | .new _ target args _ =>
    .keyword "new" ::
      (if target.newTargetNeedsParens then parenthesized target.tokens
      else target.guarded memberPrecedence target.tokens) ++
      parenthesized (commaSeparated (Expr.tokensList args))
  | .null _ => [.keyword "null"]
  | .number _ value => value.tokens
  | .object _ properties => braced (commaSeparated (Property.tokensList properties))
  | .regExp _ text => [.literal text]
  | .spread _ value => .punct "..." :: value.guarded itemPrecedence value.tokens
  | .string _ value => [.literal (Text.quoted value)]
  | .template _ tag head parts =>
    Expr.tagTokens tag ++
      TemplatePart.tokensList (Text.templateMark.toString ++ Text.templateSegment head) parts
  | .this _ => [.keyword "this"]
  | .unary _ op value _ =>
    if op.isPrefixed then op.token :: value.guarded op.precedence value.tokens
    else value.guarded op.precedence value.tokens ++ [.punct op.text]
  | .undefined _ => [.keyword "void", .number "0"]

/-- The tokens of each item of a list. -/
def Expr.tokensList : List Expr → List (List Token)
  | [] => []
  | e :: rest => e.guarded itemPrecedence e.tokens :: Expr.tokensList rest

/-- The tokens of an initializer, behind its mark. -/
def Expr.initializerTokens : Option Expr → List Token
  | none => []
  | some e => .punct "=" :: e.guarded itemPrecedence e.tokens

/-- The tokens of a template tag. -/
def Expr.tagTokens : Option Expr → List Token
  | none => []
  | some tag => tag.guarded memberPrecedence tag.tokens

/-- The tokens of a template, given the literal text before its first substitution. -/
def TemplatePart.tokensList (before : String) : List TemplatePart → List Token
  | [] => [.literal (before ++ Text.templateMark.toString)]
  | ⟨value, tail⟩ :: rest =>
    .literal (before ++ "$\x7b") :: value.tokens ++
      TemplatePart.tokensList ("\x7d" ++ Text.templateSegment tail) rest

/-- The tokens of a member of an object literal or class; a method brings its own function. -/
def Property.tokens : Property → List Token
  | ⟨.spread, _, _, _, value, _⟩ => .punct "..." :: Expr.spreadTokens value
  | ⟨.normal, isComputed, isStatic, key, value, initializer⟩ =>
    (if isStatic then [.keyword "static"] else []) ++
      key.keyTokens isComputed key.tokens ++ Expr.valueTokens value ++
      Expr.initializerTokens initializer
  | ⟨kind, isComputed, isStatic, key, value, initializer⟩ =>
    (if isStatic then [.keyword "static"] else []) ++
      (match value with
      | some (.function _ func) =>
        kind.methodTokens func ++ key.keyTokens isComputed key.tokens ++ func.restTokens
      | value =>
        key.keyTokens isComputed key.tokens ++ Expr.valueTokens value ++
          Expr.initializerTokens initializer)

/-- The tokens of what an object literal spreads. -/
def Expr.spreadTokens : Option Expr → List Token
  | none => []
  | some e => e.guarded itemPrecedence e.tokens

/-- The tokens of the value of a member, behind its mark. -/
def Expr.valueTokens : Option Expr → List Token
  | none => []
  | some e => .punct ":" :: e.guarded itemPrecedence e.tokens

/-- The tokens of each member. -/
def Property.tokensList : List Property → List (List Token)
  | [] => []
  | p :: rest => p.tokens :: Property.tokensList rest

/-- The tokens of a function. -/
def Func.tokens : Func → List Token
  | ⟨name, params, body, isAsync, isGenerator⟩ =>
    asyncTokens isAsync ++ .keyword "function" :: generatorTokens isGenerator ++
      (name.map Token.symbol).toList ++
      parenthesized (commaSeparated (BindingElement.tokensList params)) ++
      braced (Stmt.tokensList body)

/-- The tokens of a function after its name. -/
def Func.restTokens : Func → List Token
  | ⟨_, params, body, _, _⟩ =>
    parenthesized (commaSeparated (BindingElement.tokensList params)) ++
      braced (Stmt.tokensList body)

/-- The tokens of a class body; fields end in a semicolon. -/
def ClassMember.tokensList : List ClassMember → List Token
  | [] => []
  | .property property :: rest =>
    property.tokens ++ (if property.kind == .normal then [.punct ";"] else []) ++
      ClassMember.tokensList rest
  | .staticBlock body :: rest =>
    .keyword "static" :: braced (Stmt.tokensList body) ++ ClassMember.tokensList rest

/-- The tokens of a class. -/
def Class.tokens : Class → List Token
  | ⟨name, superclass, members⟩ =>
    .keyword "class" :: (name.map Token.symbol).toList ++ Expr.superclassTokens superclass ++
      braced (ClassMember.tokensList members)

/-- The tokens of the class that another one extends. -/
def Expr.superclassTokens : Option Expr → List Token
  | none => []
  | some e => .keyword "extends" :: e.guarded memberPrecedence e.tokens

/-- The tokens of a binding. -/
def Binding.tokens : Binding → List Token
  | .array _ items hasSpread =>
    bracketed (commaSeparated (BindingElement.patternTokens hasSpread items) ++
      (if BindingElement.endsInHole items then [.punct ","] else []))
  | .identifier _ ref => [.symbol ref]
  | .missing _ => []
  | .object _ properties => braced (commaSeparated (PropertyPattern.tokensList properties))

/-- The tokens of a bound element. -/
def BindingElement.tokens : BindingElement → List Token
  | ⟨binding, initializer⟩ => binding.tokens ++ Expr.initializerTokens initializer

/-- The tokens of each bound element. -/
def BindingElement.tokensList : List BindingElement → List (List Token)
  | [] => []
  | e :: rest => e.tokens :: BindingElement.tokensList rest

/-- The tokens of each item of an array pattern, the last of which may be the rest. -/
def BindingElement.patternTokens (hasSpread : Bool) : List BindingElement → List (List Token)
  | [] => []
  | e :: rest =>
    ((if hasSpread && rest.isEmpty then [.punct "..."] else []) ++ e.tokens) ::
      BindingElement.patternTokens hasSpread rest

/-- The tokens of each member of an object pattern. -/
def PropertyPattern.tokensList : List PropertyPattern → List (List Token)
  | [] => []
  | ⟨key, isComputed, isSpread, ⟨binding, initializer⟩⟩ :: rest =>
    (if isSpread then .punct "..." :: binding.tokens
    else
      key.keyTokens isComputed key.tokens ++ .punct ":" :: binding.tokens ++
        Expr.initializerTokens initializer) ::
      PropertyPattern.tokensList rest

/-- The tokens of the value of a body that only returns one. -/
def Stmt.conciseTokens? : List Stmt → Option (List Token)
  | [.returnValue _ (some value)] =>
    some (if value.arrowBodyNeedsParens then parenthesized value.tokens
      else value.guarded itemPrecedence value.tokens)
  | _ => none

/-- The tokens of a statement. -/
def Stmt.tokens : Stmt → List Token
  | .block _ body => braced (Stmt.tokensList body)
  | .breakTo _ target => jumpTokens "break" target
  | .classDecl _ definition isExport => exportTokens isExport ++ definition.tokens
  | .continueTo _ target => jumpTokens "continue" target
  | .debugger _ => [.keyword "debugger", .punct ";"]
  | .doWhile _ body test =>
    .keyword "do" :: body.tokens ++ .keyword "while" :: parenthesized test.tokens ++ [.punct ";"]
  | .empty _ => [.punct ";"]
  | .exportClause _ items => .keyword "export" :: exportClauseTokens items ++ [.punct ";"]
  | .exportDefaultClass _ _ definition _ =>
    .keyword "export" :: .keyword "default" :: definition.tokens
  | .exportDefaultExpr _ _ value =>
    .keyword "export" :: .keyword "default" ::
      (if value.stmtNeedsParens then parenthesized value.tokens
      else value.guarded itemPrecedence value.tokens) ++ [.punct ";"]
  | .exportDefaultFunction _ _ func _ => .keyword "export" :: .keyword "default" :: func.tokens
  | .exportFrom _ items path =>
    .keyword "export" :: exportClauseTokens items ++
      [.keyword "from", pathToken path, .punct ";"]
  | .expr _ value _ =>
    (if value.stmtNeedsParens then parenthesized value.tokens else value.tokens) ++ [.punct ";"]
  | .function _ func isExport => exportTokens isExport ++ func.tokens
  | .ifElse _ test yes no =>
    -- An inner statement that would take the `else` for itself goes into a block.
    .keyword "if" :: parenthesized test.tokens ++
      (if no.isSome && yes.takesElse then braced yes.tokens else yes.tokens) ++
      Stmt.elseTokens no
  | .importFrom _ default items namespaceRef path =>
    .keyword "import" :: importTokens default items namespaceRef ++ [pathToken path, .punct ";"]
  | .label _ name stmt => .identifier name :: .punct ":" :: stmt.tokens
  | .localDecl _ kind decls isExport =>
    exportTokens isExport ++ .keyword kind.keyword ::
      commaSeparated (BindingElement.tokensList decls) ++ [.punct ";"]
  | .returnValue _ value => .keyword "return" :: Expr.tokensOption value ++ [.punct ";"]
  | .throwValue _ value => .keyword "throw" :: value.tokens ++ [.punct ";"]
  | .tryCatch _ body handler finalizer =>
    .keyword "try" :: braced (Stmt.tokensList body) ++ Catch.tokensOption handler ++
      Stmt.finallyTokens finalizer
  | .whileLoop _ test body => .keyword "while" :: parenthesized test.tokens ++ body.tokens
  | .withObject _ value body => .keyword "with" :: parenthesized value.tokens ++ body.tokens

/-- The tokens of an expression that may be absent. -/
def Expr.tokensOption : Option Expr → List Token
  | none => []
  | some e => e.tokens

/-- The tokens of statements in turn. -/
def Stmt.tokensList : List Stmt → List Token
  | [] => []
  | s :: rest => s.tokens ++ Stmt.tokensList rest

/-- The tokens of an `else` branch. -/
def Stmt.elseTokens : Option Stmt → List Token
  | none => []
  | some s => .keyword "else" :: s.tokens

/-- The tokens of a handler. -/
def Catch.tokensOption : Option Catch → List Token
  | none => []
  | some ⟨binding, body⟩ =>
    .keyword "catch" :: Binding.caughtTokens binding ++ braced (Stmt.tokensList body)

/-- The tokens of what a handler binds. -/
def Binding.caughtTokens : Option Binding → List Token
  | none => []
  | some b => parenthesized b.tokens

/-- The tokens of a `finally` block. -/
def Stmt.finallyTokens : Option (List Stmt) → List Token
  | none => []
  | some body => .keyword "finally" :: braced (Stmt.tokensList body)

end

end EcmaPrune
