import EcmaPrune.Symbol
import Mathlib.Data.List.Basic

/-!
What adding a symbol changes in a symbol table, and an index of the free names, in which a name is
looked up and not searched for.
-/

namespace EcmaPrune

namespace SymbolTable

/-- The place of the symbol that all free uses of a name share. -/
def freePlace? (table : SymbolTable) (name : String) : Option Nat :=
  table.symbols.findIdx? fun symbol => symbol.kind == .unbound && symbol.name == name

/-- A free use is answered by the shared symbol of its name, and adds it if there is none. -/
theorem unbound_eq (table : SymbolTable) (name : String) :
    table.unbound name =
      match table.freePlace? name with
      | some place => (refAt place, table)
      | none => table.push ⟨name, .unbound⟩ := rfl

/-- What stands at the place found for a free name is its symbol. -/
theorem getElem?_freePlace? {table : SymbolTable} {name : String} {place : Nat}
    (found : table.freePlace? name = some place) :
    table.symbols[place]? = some ⟨name, .unbound⟩ := by
  obtain ⟨inside, isFree, _⟩ := Array.findIdx?_eq_some_iff_getElem.mp found
  simp only [Bool.and_eq_true, beq_iff_eq] at isFree
  rw [Array.getElem?_eq_getElem inside, ← isFree.1, ← isFree.2]

/-- A name without such a place has no symbol as a free name. -/
theorem getElem?_ne_of_freePlace? {table : SymbolTable} {name : String}
    (none : table.freePlace? name = none) (place : Nat) :
    table.symbols[place]? ≠ some ⟨name, .unbound⟩ := by
  intro there
  have other := Array.findIdx?_eq_none_iff.mp none _ (Array.mem_of_getElem? there)
  simp at other

/-- A new symbol takes the place of a free name only if the name has none yet. -/
theorem freePlace?_push (table : SymbolTable) (symbol : Symbol) (name : String) :
    (table.push symbol).2.freePlace? name =
      (table.freePlace? name).or
        (if symbol = ⟨name, .unbound⟩ then some table.size else none) := by
  rw [push, freePlace?, Array.findIdx?_push]
  congr 2
  cases symbol
  simp [and_comm]

end SymbolTable

/--
A symbol table with an index of its free names.

The index gives for each name what a search through the symbols would find.
-/
structure IndexedTable where
  table : SymbolTable
  index : Std.HashMap String Ref
  index_eq : ∀ name, index[name]? = (table.freePlace? name).map SymbolTable.refAt

namespace IndexedTable

/-- A declaration leaves the index in step, which lists free names only. -/
theorem index_declare (indexed : IndexedTable) {name : String} {kind : SymbolKind}
    (declares : kind ≠ .unbound) (other : String) :
    indexed.index[other]? =
      ((indexed.table.declare name kind).2.freePlace? other).map SymbolTable.refAt := by
  rw [indexed.index_eq, SymbolTable.declare, SymbolTable.freePlace?_push,
    if_neg (by simp [declares]), Option.or_none]

/-- A free name listed at its first use leaves the index in step. -/
theorem index_insert (indexed : IndexedTable) {name : String}
    (absent : indexed.index[name]? = none) (other : String) :
    (indexed.index.insert name (SymbolTable.refAt indexed.table.size))[other]? =
      ((indexed.table.push ⟨name, .unbound⟩).2.freePlace? other).map SymbolTable.refAt := by
  rw [indexed.index_eq, Option.map_eq_none_iff] at absent
  rw [Std.HashMap.getElem?_insert, SymbolTable.freePlace?_push]
  -- The new entry is the place of the new symbol, and all others stay where they are.
  by_cases same : name = other
  · subst same
    simp [absent]
  · simp [same, indexed.index_eq]

/-- The table and the index without symbols. -/
def empty : IndexedTable where
  table := .empty
  index := ∅
  index_eq name := by simp [SymbolTable.empty, SymbolTable.freePlace?]

/-- Declares a name. -/
def declare (indexed : IndexedTable) (name : String) (kind : SymbolKind)
    (declares : kind ≠ .unbound) : Ref × IndexedTable :=
  let added := indexed.table.declare name kind
  (added.1, ⟨added.2, indexed.index, indexed.index_declare declares⟩)

/-- Looks a free name up, and lists it at its first use. -/
def unbound (indexed : IndexedTable) (name : String) : Ref × IndexedTable :=
  match found : indexed.index[name]? with
  | some ref => (ref, indexed)
  | none =>
    let added := indexed.table.push ⟨name, .unbound⟩
    (added.1, ⟨added.2, indexed.index.insert name added.1, indexed.index_insert found⟩)

/-- Looking a free name up in the index and searching for it have the same result. -/
theorem unbound_eq (indexed : IndexedTable) (name : String) :
    (indexed.unbound name).1 = (indexed.table.unbound name).1 ∧
      (indexed.unbound name).2.table = (indexed.table.unbound name).2 := by
  have inStep := indexed.index_eq name
  unfold unbound
  rw [SymbolTable.unbound_eq]
  split
  · rename_i ref found
    -- What the index lists is the place that the search ends at.
    rw [found] at inStep
    obtain ⟨place, searched, rfl⟩ := Option.map_eq_some_iff.mp inStep.symm
    rw [searched]
    exact ⟨rfl, rfl⟩
  · rename_i absent
    rw [absent] at inStep
    rw [Option.map_eq_none_iff.mp inStep.symm]
    exact ⟨rfl, rfl⟩

end IndexedTable

end EcmaPrune
