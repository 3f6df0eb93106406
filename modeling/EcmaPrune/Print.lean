import EcmaPrune.Print.Emitter
import EcmaPrune.Print.Token

/-! Printed code: the tokens of a tree, named by a symbol table and written as tight as possible. -/

namespace EcmaPrune

/-- Why a tree cannot be printed. -/
inductive PrintError where
  | unknownSymbol (ref : Ref)
deriving DecidableEq, Repr

/-- What is reported for a tree that cannot be printed. -/
def PrintError.message : PrintError → String
  | .unknownSymbol ref => "no symbol for ref Ref(" ++ toString ref.index.toNat ++ ")"

/-- The name behind a reference, without which nothing can be printed. -/
def SymbolTable.resolve (table : SymbolTable) (ref : Ref) : Except PrintError String :=
  match table.name? ref with
  | some name => .ok name
  | none => .error (.unknownSymbol ref)

/-- What a token writes. -/
def Token.fragments (table : SymbolTable) : Token → Except PrintError (List Fragment)
  | .keyword text => .ok [.keyword text]
  | .identifier text => .ok [.identifier text]
  | .number text => .ok [.number text]
  | .punct text => .ok [.punct text]
  | .literal text => .ok [.literal text]
  | .symbol ref => do return [.identifier (← table.resolve ref)]
  | .imported name ref => do
    let localName ← table.resolve ref
    return .identifier name ::
      (if localName == name then [] else [.keyword "as", .identifier localName])

/-- What tokens write, up to the first reference without a name. -/
def fragmentsOf (table : SymbolTable) : List Token → Except PrintError (List Fragment)
  | [] => .ok []
  | token :: rest => do
    let first ← token.fragments table
    let others ← fragmentsOf table rest
    return first ++ others

/-- The text of tokens. -/
def printTokens (table : SymbolTable) (tokens : List Token) : Except PrintError String := do
  return Emitter.render (← fragmentsOf table tokens)

/-- The text of an expression. -/
def Expr.print (table : SymbolTable) (e : Expr) : Except PrintError String :=
  printTokens table e.tokens

/-- The text of statements in turn. -/
def Stmt.printList (table : SymbolTable) (body : List Stmt) : Except PrintError String :=
  printTokens table (Stmt.tokensList body)

end EcmaPrune
