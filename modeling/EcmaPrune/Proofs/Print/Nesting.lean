import EcmaPrune.Proofs.Print.Brackets

/-!
How statements nest in a piece of code, as a reader finds it out.

The reader knows of an `else` only what stands before it: it belongs to the nearest `if` that has
none yet. Expressions and what they hold are passed over.
-/

namespace EcmaPrune

/-- How statements stand in one another. -/
inductive Outline where
  /-- A statement without another one in it. -/
  | plain
  | block (body : List Outline)
  /-- An `if` without an `else`. -/
  | branch (yes : Outline)
  /-- An `if` with its `else`. -/
  | choice (yes no : Outline)
  | doLoop (body : Outline)
  /-- A statement behind a word and a head in parentheses. -/
  | under (word : String) (body : Outline)
  | label (name : String) (body : Outline)
deriving Inhabited

namespace Outline

/-- Whether a statement ends in an `if` that may still get an `else`. -/
def isOpen : Outline → Bool
  | branch _ => true
  | choice _ no => no.isOpen
  | under _ body | label _ body => body.isOpen
  | plain | block _ | doLoop _ => false

/-- Gives an `else` to the last `if` that a statement ends in and that has none. -/
def attach : Outline → Outline → Outline
  | branch yes, no => if yes.isOpen then branch (yes.attach no) else choice yes no
  | choice yes other, no => choice yes (other.attach no)
  | under word body, no => under word (body.attach no)
  | label name body, no => label name (body.attach no)
  | o, _ => o

mutual

/-- A statement that stands alone in a block counts as if it stood there without the block. -/
def bare : Outline → Outline
  | block body =>
    match bareList body with
    | [o] => o
    | body => block body
  | branch yes => branch yes.bare
  | choice yes no => choice yes.bare no.bare
  | doLoop body => doLoop body.bare
  | under word body => under word body.bare
  | label name body => label name body.bare
  | plain => plain

/-- The same for statements in turn. -/
def bareList : List Outline → List Outline
  | [] => []
  | o :: rest => o.bare :: bareList rest

end

theorem isOpen_attach {no : Outline} (noOpen : no.isOpen) :
    (o : Outline) → o.isOpen → (o.attach no).isOpen
  | branch yes, _ => by
    rw [attach]
    split
    · rfl
    · exact noOpen
  | choice _ other, isOpen => isOpen_attach noOpen other isOpen
  | under _ body, isOpen | label _ body, isOpen => isOpen_attach noOpen body isOpen

/-- An `else` for what another one has brought goes there. -/
theorem attach_attach {no : Outline} (noOpen : no.isOpen) (other : Outline) :
    (o : Outline) → o.isOpen → (o.attach no).attach other = o.attach (no.attach other)
  | branch yes, _ => by
    rw [attach, attach]
    split
    · -- The first `else` stays inside the branch and leaves it open, so the next goes there, too.
      next yesOpen =>
      rw [attach, if_pos (isOpen_attach noOpen yes yesOpen), attach_attach noOpen other yes yesOpen]
    · rfl
  | choice yes last, isOpen => congrArg (choice yes) (attach_attach noOpen other last isOpen)
  | under word body, isOpen => congrArg (under word) (attach_attach noOpen other body isOpen)
  | label name body, isOpen => congrArg (label name) (attach_attach noOpen other body isOpen)

/-- A place at the end of a statement, where an open `if` takes the next `else`. -/
structure IsEdge (place : Outline → Outline) : Prop where
  isOpen {o : Outline} : o.isOpen → (place o).isOpen
  attach {o : Outline} (no : Outline) : o.isOpen → (place o).attach no = place (o.attach no)

namespace IsEdge

theorem whole : IsEdge id := ⟨id, fun _ _ => rfl⟩

variable {place : Outline → Outline} (edge : IsEdge place)
include edge

theorem branch : IsEdge fun o => place (.branch o) where
  isOpen _ := edge.isOpen rfl
  attach no isOpen := by rw [edge.attach no rfl, Outline.attach, if_pos isOpen]

theorem under (word : String) : IsEdge fun o => place (.under word o) where
  isOpen isOpen := edge.isOpen isOpen
  attach no isOpen := edge.attach no isOpen

theorem label (name : String) : IsEdge fun o => place (.label name o) where
  isOpen isOpen := edge.isOpen isOpen
  attach no isOpen := edge.attach no isOpen

/-- What an `else` brings stands at the end of what it belongs to. -/
theorem behind {o : Outline} (isOpen : o.isOpen) : IsEdge fun no => place (o.attach no) where
  isOpen noOpen := edge.isOpen (isOpen_attach noOpen o isOpen)
  attach other noOpen := by
    rw [edge.attach other (isOpen_attach noOpen o isOpen), attach_attach noOpen other o isOpen]

end IsEdge

end Outline

/-- What is left behind a given word. -/
def afterWord (text : String) : List Lexeme → Option (List Lexeme)
  | .word found :: rest => if found = text then some rest else none
  | _ => none

/-- What is left behind a head in parentheses. -/
def afterHead (ts : List Lexeme) : Option (List Lexeme) := do behindMark ")" 0 (← afterMark "(" ts)

namespace Grammar

mutual

/-- Reads a statement up to the first `else` that is not within brackets. -/
def readFront : List Lexeme → Option (Outline × List Lexeme)
  | [] => none
  | .mark text :: ts =>
    if text = "\x7b" then do
      let (body, rest) ← readBody ts
      return (.block body, ← afterMark "\x7d" rest)
    else do return (.plain, ← behindMark ";" 0 (.mark text :: ts))
  | .word text :: ts =>
    if text = "if" then do
      let inside ← afterHead ts
      if inside.length ≤ ts.length then
        let (yes, rest) ← readFront inside
        return (.branch yes, rest)
      else none
    else if text = "while" ∨ text = "with" then do
      let inside ← afterHead ts
      if inside.length ≤ ts.length then
        let (body, rest) ← readFront inside
        return (.under text body, rest)
      else none
    else if text = "do" then do
      let (body, rest) ← readStmt ts
      return (.doLoop body, ← afterMark ";" (← afterHead (← afterWord "while" rest)))
    else if text = "else" then none
    else match afterMark ":" ts with
      | some inside =>
        if inside.length ≤ ts.length ∧ ¬reservedWords.contains text then do
          let (body, rest) ← readFront inside
          return (.label text body, rest)
        else do return (.plain, ← behindMark ";" 0 ts)
      | none => do return (.plain, ← behindMark ";" 0 ts)
  | _ :: ts => do return (.plain, ← behindMark ";" 0 ts)
termination_by ts => 4 * ts.length

/-- Gives a statement every `else` that follows it and can belong to it. -/
def readElses (o : Outline) : List Lexeme → Option (Outline × List Lexeme)
  | .word text :: ts =>
    if text = "else" ∧ o.isOpen then do
      let (no, rest) ← readFront ts
      if rest.length ≤ ts.length then readElses (o.attach no) rest else none
    else some (o, .word text :: ts)
  | ts => some (o, ts)
termination_by ts => 4 * ts.length

/-- Reads a statement. -/
def readStmt (ts : List Lexeme) : Option (Outline × List Lexeme) := do
  let (front, rest) ← readFront ts
  if rest.length ≤ ts.length then readElses front rest else none
termination_by 4 * ts.length + 1

/-- Reads statements up to the end of the block they stand in. -/
def readBody (ts : List Lexeme) : Option (List Outline × List Lexeme) :=
  if ts.isEmpty || (afterMark "\x7d" ts).isSome then some ([], ts)
  else do
    let (first, rest) ← readStmt ts
    if rest.length < ts.length then
      let (others, rest) ← readBody rest
      return (first :: others, rest)
    else none
termination_by 4 * ts.length + 2

end

/-- Reads statements that nothing follows. -/
def readProgram (ts : List Lexeme) : Option (List Outline) :=
  match readBody ts with
  | some (body, []) => some body
  | _ => none

end Grammar

end EcmaPrune
