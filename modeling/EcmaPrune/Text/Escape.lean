import EcmaPrune.Text.Units

/-! String and template literals, written so that reading them gives back every code unit. -/

namespace EcmaPrune.Text

/-- The mark that begins and ends a template. -/
def templateMark : Char := Char.ofNat 96

/-- A code point in upper-case hexadecimal, filled up with zeros to a width. -/
def upperHex (width n : Nat) : List Char :=
  let digits := (Nat.toDigits 16 n).map Char.toUpper
  List.replicate (width - digits.length) '0' ++ digits

/-- Whether the next piece is a decimal digit, which would join an escaped NUL before it. -/
def startsWithDigit : List Piece → Bool
  | .char c :: _ => c.isDigit
  | _ => false

/-- Whether the next piece is an opening brace, which would make a dollar start a substitution. -/
def startsWithBrace : List Piece → Bool
  | .char c :: _ => c == '\x7b'
  | _ => false

/-- A character as it is written between the given marks, before the given rest. -/
def escapeChar (mark c : Char) (rest : List Piece) : List Char :=
  if c == '\\' then ['\\', '\\']
  else if c == '\n' then ['\\', 'n']
  else if c == '\r' then ['\\', 'r']
  else if c == '\t' then ['\\', 't']
  else if c == '\x00' then
    if startsWithDigit rest then ['\\', 'x', '0', '0'] else ['\\', '0']
  -- The separators end a line, so they may not stand in a literal.
  else if c == '\u2028' then ['\\', 'u', '2', '0', '2', '8']
  else if c == '\u2029' then ['\\', 'u', '2', '0', '2', '9']
  else if c == '$' && mark == templateMark && startsWithBrace rest then ['\\', '$']
  else if c == mark then ['\\', c]
  else if c.toNat < 0x20 then '\\' :: 'x' :: upperHex 2 c.toNat
  else [c]

/-- A run of pieces as it is written between the given marks. -/
def escapePieces (mark : Char) : List Piece → List Char
  | [] => []
  | .lone unit :: rest => '\\' :: 'u' :: upperHex 4 unit.toNat ++ escapePieces mark rest
  | .char c :: rest => escapeChar mark c rest ++ escapePieces mark rest

/-- A string literal between double quotes; characters that need no escape stay as they are. -/
def quoted (value : List UInt16) : String :=
  String.ofList ('"' :: escapePieces '"' (pieces value) ++ ['"'])

/-- The text of a template between its marks and substitutions. -/
def templateSegment (value : List UInt16) : String :=
  String.ofList (escapePieces templateMark (pieces value))

end EcmaPrune.Text
