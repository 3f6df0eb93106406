/-! The names of one file, and the references by which its tree mentions them. -/

namespace EcmaPrune

/-- A reference to a symbol: its place in the symbol table. -/
structure Ref where
  index : UInt32
deriving DecidableEq, Inhabited, Repr

/-- How a symbol comes to be in scope. -/
inductive SymbolKind where
  /-- Declared by `var` or as a function. -/
  | hoisted
  /-- Declared by `let`, by `const` or as a class. -/
  | lexical
  /-- Bound by an import. -/
  | imported
  /-- Declared nowhere in the file, so reading it may throw. -/
  | unbound
deriving DecidableEq, Inhabited, Repr

/-- The name under which a kind of symbol is stored. -/
def SymbolKind.name : SymbolKind → String
  | .hoisted => "Hoisted"
  | .lexical => "Lexical"
  | .imported => "Import"
  | .unbound => "Unbound"

/-- A name and how it is bound. -/
structure Symbol where
  name : String
  kind : SymbolKind
deriving DecidableEq, Inhabited, Repr

/-- The symbols of one file, in the order in which their references were issued. -/
structure SymbolTable where
  symbols : Array Symbol
deriving Inhabited, Repr

namespace SymbolTable

/-- The table without symbols. -/
def empty : SymbolTable := ⟨#[]⟩

/-- The number of symbols. -/
def size (table : SymbolTable) : Nat := table.symbols.size

/-- The reference to the symbol at a place. -/
def refAt (place : Nat) : Ref := ⟨UInt32.ofNat place⟩

/-- Adds a symbol at the end, whatever names are already there. -/
def push (table : SymbolTable) (symbol : Symbol) : Ref × SymbolTable :=
  (refAt table.size, ⟨table.symbols.push symbol⟩)

/-- Declares a name; each declaration has a reference of its own, so names may shadow each other. -/
def declare (table : SymbolTable) (name : String) (kind : SymbolKind) : Ref × SymbolTable :=
  table.push ⟨name, kind⟩

/-- The reference shared by all free uses of a name, issued at its first use. -/
def unbound (table : SymbolTable) (name : String) : Ref × SymbolTable :=
  match table.symbols.findIdx? (fun symbol => symbol.kind == .unbound && symbol.name == name) with
  | some place => (refAt place, table)
  | none => table.push ⟨name, .unbound⟩

/-- The symbol behind a reference. -/
def get? (table : SymbolTable) (ref : Ref) : Option Symbol := table.symbols[ref.index.toNat]?

/-- The name behind a reference. -/
def name? (table : SymbolTable) (ref : Ref) : Option String := (table.get? ref).map (·.name)

/-- Whether a reference has no declaration; nothing is known of one that was never issued. -/
def isUnbound (table : SymbolTable) (ref : Ref) : Bool :=
  match table.get? ref with
  | some symbol => symbol.kind == .unbound
  | none => true

/-- All symbols with their references. -/
def entries (table : SymbolTable) : List (Ref × Symbol) :=
  table.symbols.toList.zipIdx.map fun (symbol, place) => (refAt place, symbol)

/-- The latest declaration of a name. -/
def findDeclared? (table : SymbolTable) (name : String) : Option Ref :=
  (table.entries.reverse.find? fun (_, symbol) =>
    symbol.kind != .unbound && symbol.name == name).map (·.1)

end SymbolTable

end EcmaPrune
