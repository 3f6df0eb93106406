import EcmaPrune.Proofs.Symbol.Index
import Mathlib.Data.List.Induction

/-!
Runs of a symbol table: whatever is declared and used freely in turn, each reference goes on
standing for the symbol it was issued for.
-/

namespace EcmaPrune

/-- What a symbol table is asked for: a symbol of its own, or the one that free uses share. -/
inductive SymbolRequest where
  | declaration (name : String) (kind : SymbolKind) (declares : kind ≠ .unbound)
  | freeUse (name : String)
  deriving DecidableEq

namespace SymbolRequest

/-- The symbol that is asked for. -/
def symbol : SymbolRequest → Symbol
  | declaration name kind _ => ⟨name, kind⟩
  | freeUse name => ⟨name, .unbound⟩

/-- Whether a symbol of its own is asked for. -/
def isDeclaration : SymbolRequest → Bool
  | declaration .. => true
  | freeUse _ => false

/-- Whether a given name is declared. -/
def declares (name : String) (request : SymbolRequest) : Bool :=
  request.isDeclaration && request.symbol.name == name

/-- A declaration of a name asks for a symbol of the name that is not free. -/
theorem declares_eq (request : SymbolRequest) (name : String) :
    request.declares name = (request.symbol.kind != .unbound && request.symbol.name == name) := by
  cases request with
  | declaration declared kind isBound =>
    simp [declares, isDeclaration, symbol, isBound]
  | freeUse used => simp [declares, isDeclaration, symbol]

/-- The symbols of free names are asked for by free uses only. -/
theorem eq_freeUse_of_symbol {request : SymbolRequest} {name : String}
    (free : request.symbol = ⟨name, .unbound⟩) : request = .freeUse name := by
  cases request with
  | declaration declared kind declares => exact absurd (congrArg Symbol.kind free) declares
  | freeUse used => rw [show used = name from congrArg Symbol.name free]

end SymbolRequest

/-- A reference, with the request that it was issued for. -/
structure IssuedRef where
  request : SymbolRequest
  ref : Ref
  deriving DecidableEq

/-- The references issued so far, in order, and the table they have led to. -/
structure SymbolHistory (Table : Type) where
  issued : List IssuedRef
  table : Table

namespace SymbolHistory

variable {Table : Type} (answer : Table → SymbolRequest → Ref × Table)

/-- The history after one more request. -/
def next (history : SymbolHistory Table) (request : SymbolRequest) : SymbolHistory Table where
  issued := history.issued ++ [⟨request, (answer history.table request).1⟩]
  table := (answer history.table request).2

/-- The history of requests answered one after the other. -/
def of (start : Table) (requests : List SymbolRequest) : SymbolHistory Table :=
  requests.foldl (next answer) ⟨[], start⟩

theorem of_append (start : Table) (earlier later : List SymbolRequest) :
    of answer start (earlier ++ later) = later.foldl (next answer) (of answer start earlier) :=
  List.foldl_append

/-- What has been issued stays issued. -/
theorem issued_subset_foldl (history : SymbolHistory Table) (later : List SymbolRequest) :
    history.issued ⊆ (later.foldl (next answer) history).issued := by
  induction later generalizing history with
  | nil => exact fun _ issued => issued
  | cons request rest ih =>
    intro issue issued
    exact ih (history.next answer request) (List.mem_append_left _ issued)

end SymbolHistory

namespace SymbolTable

variable {table : SymbolTable}

/-! ### One request -/

theorem toNat_refAt {place : Nat} (fits : place < UInt32.size) :
    (refAt place).index.toNat = place :=
  UInt32.toNat_ofNat_of_lt' fits

theorem get?_refAt {place : Nat} (fits : place < UInt32.size) :
    table.get? (refAt place) = table.symbols[place]? := by
  rw [get?, toNat_refAt fits]

/-- Only places inside the table have symbols. -/
theorem lt_size_of_get? {ref : Ref} {symbol : Symbol} (found : table.get? ref = some symbol) :
    ref.index.toNat < table.size :=
  (Array.getElem?_eq_some_iff.mp found).1

/-- Two references of one place are the same. -/
theorem ref_eq_of_toNat {ref ref' : Ref} (same : ref.index.toNat = ref'.index.toNat) :
    ref = ref' := by
  cases ref
  cases ref'
  exact congrArg Ref.mk (UInt32.toNat_inj.mp same)

@[simp] theorem size_push (table : SymbolTable) (symbol : Symbol) :
    (table.push symbol).2.size = table.size + 1 := Array.size_push _

/-- A new symbol leaves the references to all others alone. -/
theorem get?_push_of_some {ref : Ref} {old : Symbol} (symbol : Symbol)
    (found : table.get? ref = some old) : (table.push symbol).2.get? ref = some old := by
  have inside := lt_size_of_get? found
  rw [push, get?, Array.getElem?_push_lt inside, ← found, get?, Array.getElem?_eq_getElem inside]

/-- A new symbol is found by the reference issued for it. -/
theorem get?_push_self (symbol : Symbol) (fits : table.size < UInt32.size) :
    (table.push symbol).2.get? (refAt table.size) = some symbol := by
  rw [get?_refAt fits]
  exact Array.getElem?_push_size

theorem entries_push (table : SymbolTable) (symbol : Symbol) :
    (table.push symbol).2.entries = table.entries ++ [(refAt table.size, symbol)] := by
  simp [entries, push, size, List.zipIdx_append]

/-- The latest declaration of a name is the new symbol if it declares the name. -/
theorem findDeclared?_push (table : SymbolTable) (symbol : Symbol) (name : String) :
    (table.push symbol).2.findDeclared? name =
      if symbol.kind != .unbound && symbol.name == name then some (refAt table.size)
      else table.findDeclared? name := by
  rw [findDeclared?, entries_push, List.reverse_append, List.reverse_singleton,
    List.singleton_append, List.find?_cons, findDeclared?]
  split <;> simp [*]

/-- Answers a request. -/
def answer (table : SymbolTable) : SymbolRequest → Ref × SymbolTable
  | .declaration name kind _ => table.declare name kind
  | .freeUse name => table.unbound name

/-- A request adds its symbol, unless it is a free use of a name that has one. -/
theorem answer_cases (table : SymbolTable) (request : SymbolRequest) :
    (table.answer request = table.push request.symbol ∧
        ∀ name, request = .freeUse name → table.freePlace? name = none) ∨
      ∃ name place, request = .freeUse name ∧
        table.symbols[place]? = some ⟨name, .unbound⟩ ∧
        table.answer request = (refAt place, table) := by
  cases request with
  | declaration name kind declares => exact .inl ⟨rfl, fun _ same => by cases same⟩
  | freeUse name =>
    rw [answer, unbound_eq]
    cases found : table.freePlace? name with
    | none => exact .inl ⟨rfl, fun _ same => by cases same; exact found⟩
    | some place => exact .inr ⟨name, place, rfl, getElem?_freePlace? found, rfl⟩

theorem size_le_size_answer (table : SymbolTable) (request : SymbolRequest) :
    table.size ≤ (table.answer request).2.size := by
  obtain ⟨added, _⟩ | ⟨_, _, _, _, shared⟩ := table.answer_cases request
  · rw [added, size_push]
    exact Nat.le_succ _
  · exact Nat.le_of_eq (by rw [shared])

/-- The history of a table that starts without symbols. -/
def history (requests : List SymbolRequest) : SymbolHistory SymbolTable :=
  .of answer .empty requests

theorem history_concat (requests : List SymbolRequest) (request : SymbolRequest) :
    history (requests ++ [request]) = (history requests).next answer request :=
  SymbolHistory.of_append ..

end SymbolTable

namespace SymbolHistory

open SymbolTable

/-- One more place is new to a list of places unless it is in it. -/
theorem eraseDups_concat (places : List Nat) (place : Nat) :
    (places ++ [place]).eraseDups =
      places.eraseDups ++ if place ∈ places then [] else [place] := by
  rw [List.eraseDups_append]
  split <;> simp [List.removeAll, List.eraseDups_cons, *]

/--
What every request keeps: the issued references stand for the symbols they were issued for, and
are the places of the table.
-/
structure IsKept (history : SymbolHistory SymbolTable) : Prop where
  /-- Every reference stands for the symbol it was issued for. -/
  resolves : ∀ issue ∈ history.issued, history.table.get? issue.ref = some issue.request.symbol
  /-- In the order of their first issue, the references are the places of the table. -/
  inOrder : (history.issued.map (·.ref.index.toNat)).eraseDups = List.range history.table.size
  /-- A declaration gets a reference that was not issued before. -/
  fresh : history.issued.Pairwise fun earlier later =>
    later.request.isDeclaration → later.ref ≠ earlier.ref
  /-- A free name has one symbol. -/
  unique : ∀ {name : String} {place place' : Nat},
    history.table.symbols[place]? = some ⟨name, .unbound⟩ →
      history.table.symbols[place']? = some ⟨name, .unbound⟩ → place = place'
  /-- A declared name is found at the reference last issued for a declaration of it. -/
  latest : ∀ name, history.table.findDeclared? name =
    (history.issued.filter (·.request.declares name)).getLast?.map (·.ref)

namespace IsKept

variable {history : SymbolHistory SymbolTable}

/-- The places of the table are those that references were issued for. -/
theorem mem_places_iff (kept : history.IsKept) (place : Nat) :
    place ∈ history.issued.map (·.ref.index.toNat) ↔ place < history.table.size := by
  rw [← List.mem_eraseDups, kept.inOrder, List.mem_range]

theorem mem_refs_iff (kept : history.IsKept) (ref : Ref) :
    ref ∈ history.issued.map (·.ref) ↔ ref.index.toNat < history.table.size := by
  -- A reference is no more than its place.
  rw [← kept.mem_places_iff]
  simp only [List.mem_map]
  constructor
  · rintro ⟨issue, issued, rfl⟩
    exact ⟨issue, issued, rfl⟩
  · rintro ⟨issue, issued, same⟩
    exact ⟨issue, issued, ref_eq_of_toNat same⟩

/-- A reference issued before is not the one of the next place. -/
theorem ref_ne_refAt_size (kept : history.IsKept) (fits : history.table.size < UInt32.size)
    {issue : IssuedRef} (issued : issue ∈ history.issued) :
    refAt history.table.size ≠ issue.ref := by
  intro same
  -- A reference that was issued has a symbol, so its place is inside the table.
  have inside := lt_size_of_get? (kept.resolves issue issued)
  rw [← same, toNat_refAt fits] at inside
  exact Nat.lt_irrefl _ inside

/-- A request that adds its symbol keeps what is promised. -/
theorem next_push {request : SymbolRequest} (kept : history.IsKept)
    (fits : history.table.size < UInt32.size)
    (added : history.table.answer request = history.table.push request.symbol)
    (unknown : ∀ name, request = .freeUse name → history.table.freePlace? name = none) :
    (history.next answer request).IsKept := by
  have after : history.next answer request =
      ⟨history.issued ++ [⟨request, refAt history.table.size⟩],
        (history.table.push request.symbol).2⟩ := by
    rw [next, added]
    rfl
  rw [after]
  constructor
  case resolves =>
    intro issue issued
    rw [List.mem_append, List.mem_singleton] at issued
    rcases issued with before | rfl
    · exact get?_push_of_some _ (kept.resolves issue before)
    · exact get?_push_self _ fits
  case inOrder =>
    -- The place is none of those before, and follows the last of them.
    have new : history.table.size ∉ history.issued.map (·.ref.index.toNat) := fun old =>
      Nat.lt_irrefl _ ((kept.mem_places_iff _).mp old)
    rw [List.map_append, List.map_singleton, toNat_refAt fits, eraseDups_concat, if_neg new,
      kept.inOrder, size_push, List.range_succ]
  case fresh =>
    rw [List.pairwise_append]
    refine ⟨kept.fresh, List.pairwise_singleton .., fun earlier before later isLater _ => ?_⟩
    rw [List.mem_singleton.mp isLater]
    exact kept.ref_ne_refAt_size fits before
  case unique =>
    -- A free name gets a symbol only if it has none yet.
    have first {name : String} (new : request.symbol = ⟨name, .unbound⟩) (old : Nat) :
        history.table.symbols[old]? ≠ some ⟨name, .unbound⟩ :=
      getElem?_ne_of_freePlace? (unknown name (SymbolRequest.eq_freeUse_of_symbol new)) old
    intro name place place' found found'
    simp only [push, Array.getElem?_push] at found found'
    split at found <;> split at found'
    · exact Eq.trans ‹_› (Eq.symm ‹_›)
    · exact absurd found' (first (Option.some.inj found) _)
    · exact absurd found (first (Option.some.inj found') _)
    · exact kept.unique found found'
  case latest =>
    intro name
    rw [findDeclared?_push, ← request.declares_eq, List.filter_append, kept.latest]
    cases declared : request.declares name <;> simp [declared]

/-- A free use of a name that has a symbol keeps what is promised. -/
theorem next_shared {request : SymbolRequest} {name : String} {place : Nat}
    (kept : history.IsKept) (fits : history.table.size < UInt32.size)
    (free : request = .freeUse name)
    (there : history.table.symbols[place]? = some ⟨name, .unbound⟩)
    (shared : history.table.answer request = (refAt place, history.table)) :
    (history.next answer request).IsKept := by
  have after : history.next answer request =
      ⟨history.issued ++ [⟨.freeUse name, refAt place⟩], history.table⟩ := by
    rw [next, shared, free]
  rw [after]
  have inside : place < history.table.size := (Array.getElem?_eq_some_iff.mp there).1
  have atPlace := toNat_refAt (Nat.lt_trans inside fits)
  constructor
  case resolves =>
    intro issue issued
    rw [List.mem_append, List.mem_singleton] at issued
    rcases issued with before | rfl
    · exact kept.resolves issue before
    · exact (get?_refAt (Nat.lt_trans inside fits)).trans there
  case inOrder =>
    -- The place was issued before, when the name was first used.
    have old := (kept.mem_places_iff place).mpr inside
    rw [List.map_append, List.map_singleton, atPlace, eraseDups_concat, if_pos old, kept.inOrder,
      List.append_nil]
  case fresh =>
    rw [List.pairwise_append]
    refine ⟨kept.fresh, List.pairwise_singleton .., fun _ _ later isLater declares => ?_⟩
    rw [List.mem_singleton.mp isLater] at declares
    cases declares
  case unique => exact kept.unique
  case latest =>
    intro other
    rw [List.filter_append, kept.latest]
    simp [SymbolRequest.declares, SymbolRequest.isDeclaration]

/-- Every request keeps what is promised. -/
theorem next (kept : history.IsKept) (request : SymbolRequest)
    (fits : history.table.size < UInt32.size) : (history.next answer request).IsKept := by
  obtain ⟨added, unknown⟩ | ⟨name, place, free, there, shared⟩ :=
    history.table.answer_cases request
  · exact kept.next_push fits added unknown
  · exact kept.next_shared fits free there shared

end IsKept

/-- Any run that leaves room for its references keeps what is promised. -/
theorem isKept_history (requests : List SymbolRequest)
    (fits : (history requests).table.size < UInt32.size) : (history requests).IsKept := by
  induction requests using List.reverseRecOn with
  | nil =>
    exact {
      resolves := fun _ issued => by cases issued
      inOrder := rfl
      fresh := .nil
      unique := fun found => by cases found
      latest := fun _ => rfl }
  | append_singleton requests request ih =>
    rw [history_concat] at fits ⊢
    have fitsBefore := Nat.lt_of_le_of_lt (size_le_size_answer _ _) fits
    exact (ih fitsBefore).next request fitsBefore

namespace IsKept

variable {history : SymbolHistory SymbolTable}

/-- Free uses share a reference exactly if they use the same name. -/
theorem ref_eq_iff (kept : history.IsKept) {name name' : String} {ref ref' : Ref}
    (issued : ⟨.freeUse name, ref⟩ ∈ history.issued)
    (issued' : ⟨.freeUse name', ref'⟩ ∈ history.issued) : ref = ref' ↔ name = name' := by
  have found := kept.resolves _ issued
  have found' := kept.resolves _ issued'
  constructor
  · rintro rfl
    exact congrArg Symbol.name (Option.some.inj (found.symm.trans found'))
  · rintro rfl
    exact ref_eq_of_toNat (kept.unique found found')

/-- A reference counts as unbound if it was issued for a free name, or not at all. -/
theorem isUnbound_iff (kept : history.IsKept) (ref : Ref) :
    history.table.isUnbound ref ↔
      (∃ name, ⟨.freeUse name, ref⟩ ∈ history.issued) ∨
        ref ∉ history.issued.map (·.ref) := by
  unfold SymbolTable.isUnbound
  constructor
  · intro free
    by_cases known : ref ∈ history.issued.map (·.ref)
    · obtain ⟨⟨request, _⟩, issued, rfl⟩ := List.mem_map.mp known
      rw [kept.resolves _ issued] at free
      -- Only a free use asks for a symbol of this kind.
      have isFree : request.symbol = ⟨request.symbol.name, .unbound⟩ := by
        rw [← beq_iff_eq.mp free]
      exact .inl ⟨_, SymbolRequest.eq_freeUse_of_symbol isFree ▸ issued⟩
    · exact .inr known
  · rintro (⟨name, issued⟩ | unknown)
    · rw [kept.resolves _ issued]
      rfl
    · rw [kept.mem_refs_iff] at unknown
      rw [get?, Array.getElem?_eq_none (Nat.not_lt.mp unknown)]

end IsKept

/-- What a run of requests and the table it has led to promise each other. -/
structure IsConsistent (history : SymbolHistory SymbolTable) : Prop extends IsKept history where
  /-- Free uses share a reference exactly if they use the same name. -/
  shared : ∀ {name name' : String} {ref ref' : Ref},
    ⟨.freeUse name, ref⟩ ∈ history.issued →
      ⟨.freeUse name', ref'⟩ ∈ history.issued → (ref = ref' ↔ name = name')
  /-- A reference counts as unbound if it was issued for a free name, or not at all. -/
  isUnbound_iff : ∀ ref, history.table.isUnbound ref ↔
    (∃ name, ⟨.freeUse name, ref⟩ ∈ history.issued) ∨ ref ∉ history.issued.map (·.ref)

end SymbolHistory

namespace IndexedTable

/-- Answers a request. -/
def answer (indexed : IndexedTable) : SymbolRequest → Ref × IndexedTable
  | .declaration name kind declares => indexed.declare name kind declares
  | .freeUse name => indexed.unbound name

/-- The history of a table and an index that start without symbols. -/
def history (requests : List SymbolRequest) : SymbolHistory IndexedTable :=
  .of answer .empty requests

/-- A table with an index answers as the table does by itself. -/
theorem answer_eq (indexed : IndexedTable) (request : SymbolRequest) :
    (indexed.answer request).1 = (indexed.table.answer request).1 ∧
      (indexed.answer request).2.table = (indexed.table.answer request).2 := by
  cases request with
  | declaration name kind declares => exact ⟨rfl, rfl⟩
  | freeUse name => exact indexed.unbound_eq name

/-- Over any run, an index in step with the table changes nothing that is issued or stored. -/
theorem history_eq (requests : List SymbolRequest) :
    (history requests).issued = (SymbolTable.history requests).issued ∧
      (history requests).table.table = (SymbolTable.history requests).table := by
  induction requests using List.reverseRecOn with
  | nil => exact ⟨rfl, rfl⟩
  | append_singleton requests request ih =>
    obtain ⟨issued, table⟩ := ih
    obtain ⟨ref, tableAfter⟩ := (history requests).table.answer_eq request
    rw [table] at ref tableAfter
    rw [SymbolTable.history_concat, history, SymbolHistory.of_append]
    refine ⟨?_, tableAfter⟩
    change (history requests).issued ++
      [⟨request, ((history requests).table.answer request).1⟩] = _
    rw [issued, ref]
    rfl

end IndexedTable

/--
Any run of declarations and free uses keeps its promises.

Every reference goes on standing for the symbol it was issued for, whatever is asked for later, and
a table that looks free names up in an index issues the same references and holds the same symbols.
-/
theorem SymbolTable.isConsistent_history (requests : List SymbolRequest)
    (fits : (history requests).table.size < UInt32.size) :
    (history requests).IsConsistent ∧
      (∀ earlier later, requests = earlier ++ later → ∀ issue ∈ (history earlier).issued,
        (history requests).table.get? issue.ref = some issue.request.symbol) ∧
      (IndexedTable.history requests).issued = (history requests).issued ∧
      (IndexedTable.history requests).table.table = (history requests).table := by
  have kept := SymbolHistory.isKept_history requests fits
  refine ⟨⟨kept, kept.ref_eq_iff, kept.isUnbound_iff⟩, ?_, IndexedTable.history_eq requests⟩
  rintro earlier later rfl issue issued
  -- What was issued earlier has stayed issued.
  refine kept.resolves issue ?_
  rw [history, SymbolHistory.of_append]
  exact SymbolHistory.issued_subset_foldl answer _ later issued

/-- A name declared twice and used freely in between. -/
theorem SymbolTable.isConsistent_history_shadowed :
    let requests : List SymbolRequest :=
      [.declaration "x" .hoisted (by decide), .freeUse "x", .declaration "x" .lexical (by decide)]
    (history requests).table.size < UInt32.size ∧
      (history requests).table.findDeclared? "x" = some (refAt 2) ∧
      (history requests).table.isUnbound (refAt 1) := by
  intro requests
  have issued : (history requests).issued =
      [⟨.declaration "x" .hoisted (by decide), refAt 0⟩, ⟨.freeUse "x", refAt 1⟩,
        ⟨.declaration "x" .lexical (by decide), refAt 2⟩] := by
    decide +kernel
  have fits : (history requests).table.size < UInt32.size := by
    decide +kernel
  have consistent := (isConsistent_history requests fits).1
  refine ⟨fits, ?_, ?_⟩
  · rw [consistent.latest, issued]
    decide
  · rw [consistent.isUnbound_iff, issued]
    exact .inl ⟨"x", by simp⟩

end EcmaPrune
