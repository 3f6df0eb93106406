/-! Text written fragment by fragment, with a space only where two fragments would read as one. -/

namespace EcmaPrune

/-- A piece of output together with what it is. -/
inductive Fragment where
  | keyword (text : String)
  | identifier (text : String)
  | number (text : String)
  | punct (text : String)
  /-- A literal that ends where it says it ends, such as a string or regular expression. -/
  | literal (text : String)
  /-- Text taken as it is, next to which no space is ever put. -/
  | raw (text : String)
deriving DecidableEq, Repr

/-- How the text written so far ends, as far as it can merge with what follows. -/
inductive Boundary where
  | none
  | word
  | number
  | plus
  | minus
  | slash
deriving DecidableEq, Repr

/-- How a fragment begins, as far as it can merge with what is before it. -/
inductive Leading where
  | word
  | number
  | plus
  | minus
  | slash
  | star
  | dot
  | other
deriving DecidableEq, Repr

/-- The pairs that would read as one token or as a comment. -/
def Boundary.needsSpace : Boundary → Leading → Bool
  | .word, .word => true
  | .word, .number => true
  | .number, .word => true
  | .number, .number => true
  | .number, .dot => true
  | .plus, .plus => true
  | .minus, .minus => true
  | .slash, .slash => true
  | .slash, .star => true
  | _, _ => false

namespace Fragment

/-- The characters of a fragment. -/
def text : Fragment → String
  | keyword text | identifier text | number text | punct text | literal text | raw text => text

/-- How a punctuator beginning with a character begins. -/
def punctLeading : Char → Leading
  | '+' => .plus
  | '-' => .minus
  | '/' => .slash
  | '*' => .star
  | '.' => .dot
  | _ => .other

/-- How a punctuator ending with a character ends. -/
def punctBoundary : Char → Boundary
  | '+' => .plus
  | '-' => .minus
  | '/' => .slash
  | _ => .none

/-- How a fragment begins; nothing is ever kept apart from raw text. -/
def leading : Fragment → Leading
  | keyword _ | identifier _ => .word
  | number text => if text.toList.head? == some '.' then .dot else .number
  | punct text => (text.toList.head?.map punctLeading).getD .other
  | literal text => if text.toList.head? == some '/' then .slash else .other
  | raw _ => .other

/-- How a fragment ends; a number may end in a letter and a literal in its flags. -/
def boundary : Fragment → Boundary
  | keyword _ | identifier _ => .word
  | number text =>
    match text.toList.getLast? with
    | some c => if c.isDigit || c == '.' then .number else .word
    | none => .word
  | punct text => (text.toList.getLast?.map punctBoundary).getD .none
  | literal text =>
    match text.toList.getLast? with
    | some c => if c.isAlphanum then .word else .none
    | none => .none
  | raw _ => .none

end Fragment

/-- The text written so far and how it ends. -/
structure Emitter where
  output : String
  boundary : Boundary
deriving DecidableEq, Repr

namespace Emitter

/-- Nothing written yet. -/
def empty : Emitter := ⟨"", .none⟩

/-- Writes a fragment; an empty one leaves everything as it is, but for raw text. -/
def write (emitter : Emitter) (fragment : Fragment) : Emitter :=
  match fragment with
  | .raw text => ⟨emitter.output ++ text, .none⟩
  | fragment =>
    if fragment.text.isEmpty then emitter
    else if emitter.boundary.needsSpace fragment.leading then
      ⟨emitter.output ++ " " ++ fragment.text, fragment.boundary⟩
    else ⟨emitter.output ++ fragment.text, fragment.boundary⟩

/-- The text of fragments written one after another. -/
def render (fragments : List Fragment) : String := (fragments.foldl write empty).output

end Emitter

end EcmaPrune
