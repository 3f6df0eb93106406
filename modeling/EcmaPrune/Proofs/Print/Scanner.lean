import EcmaPrune.Proofs.Print.Grammar
import EcmaPrune.Proofs.Text.Literal

/-!
The input elements of a script, as a scanner takes them from its text.

At each place the scanner takes the longest element that there is. A slash begins a regular
expression where an operand is expected and is a mark elsewhere; what stands before it decides
which, as it can in an expression, where a closing bracket always ends an operand. Comments may
begin in the ways that web browsers know.

Templates and names with escapes in them are not scanned, nor are the numbers and strings that only
sloppy code may hold.
-/

namespace EcmaPrune.Scanner

open Text

/-- The characters that are white space. -/
def spaces : List Char :=
  ['\t', '\x0b', '\x0c', ' ', '\u00a0', '\u1680', '\u2000', '\u2001', '\u2002', '\u2003', '\u2004',
    '\u2005', '\u2006', '\u2007', '\u2008', '\u2009', '\u200a', '\u202f', '\u205f', '\u3000',
    '\ufeff']

/-- Whether a character is white space, the end of a line apart. -/
def isSpace (c : Char) : Bool := spaces.contains c

/-- The characters that names are made of. Unicode has the last word on those outside of ASCII. -/
structure NameChars where
  start : Char → Bool
  part : Char → Bool
  start_ascii : ∀ c, c.toNat < 128 → start c = (c.isAlpha || c == '_' || c == '$')
  part_ascii : ∀ c, c.toNat < 128 → part c = (c.isAlphanum || c == '_' || c == '$')
  part_of_start : ∀ c, start c → part c
  visible_of_start : ∀ c, start c → isSpace c = false ∧ endsLine c = false

/-- What is expected next. -/
inductive Goal where
  | operand
  | operator
  /-- The name of a member, or another link after an optional mark. -/
  | member
deriving DecidableEq, Repr

/-- What a script is made of. -/
inductive InputElement where
  | lexeme (l : Lexeme)
  | comment (text : List Char)
  | space
  | lineEnd
deriving DecidableEq, Repr

/-- The reserved words that an operand is expected behind. -/
def operandWords : List String :=
  ["case", "delete", "do", "else", "in", "instanceof", "new", "return", "throw", "typeof", "void"]

/-- What is expected behind a lexeme. -/
def goalBehind (goal : Goal) : Lexeme → Goal
  | .word text => if goal != .member && operandWords.contains text then .operand else .operator
  | .numeral _ | .literal _ => .operator
  | .mark text =>
    if [")", "]", "\x7d"].contains text then .operator
    else if text == "." || text == "?." then .member
    -- An update may stand before its operand or behind it.
    else if text == "++" || text == "--" then
      if goal == .operand then .operand else .operator
    else .operand

namespace InputElement

/-- What is expected behind an input element. -/
def goalBehind (goal : Goal) : InputElement → Goal
  | lexeme l => Scanner.goalBehind goal l
  | comment _ | space | lineEnd => goal

/-- Whether nothing but white space and comments stands on the line up to here. -/
def freshBehind (fresh : Bool) : InputElement → Bool
  | lexeme _ => false
  | comment text => fresh || text.any endsLine
  | space => fresh
  | lineEnd => true

/-- White space and ends of lines are of no further interest. -/
def shown : InputElement → List InputElement
  | lexeme l => [.lexeme l]
  | comment text => [.comment text]
  | space | lineEnd => []

end InputElement

section Comments

/-- The marks that begin a comment; the last one does so at the start of a line only. -/
def commentMarks (fresh : Bool) : List String :=
  ["//", "/*", "<!--"] ++ if fresh then ["-->"] else []

/-- The mark of the comment that begins here. -/
def commentMark? (fresh : Bool) (cs : List Char) : Option String :=
  (commentMarks fresh).find? fun mark => mark.toList.isPrefixOf cs

/-- What stands behind the end of a comment that may go on over many lines. -/
def behindComment? : List Char → Option (List Char)
  | '*' :: '/' :: rest => some rest
  | _ :: rest => behindComment? rest
  | [] => none

/-- Reads a comment. -/
def readComment (mark : String) (cs : List Char) : Option (InputElement × List Char) :=
  if mark == "/*" then
    (behindComment? (cs.drop 2)).map fun rest =>
      (.comment (cs.take (cs.length - rest.length)), rest)
  else some (.comment (cs.takeWhile (!endsLine ·)), cs.dropWhile (!endsLine ·))

end Comments

section Numerals

/-- The digits behind the letter of a radix. -/
def radix? (c : Char) : Option (Char → Bool) :=
  if c == 'x' || c == 'X' then some fun d => hexDigits.contains d.toLower
  else if c == 'o' || c == 'O' then some fun d => '0' ≤ d && d ≤ '7'
  else if c == 'b' || c == 'B' then some fun d => d == '0' || d == '1'
  else none

/-- The digits that a text begins with, and the separators among them. -/
def takeDigits (isDigit : Char → Bool) (cs : List Char) : List Char :=
  cs.takeWhile fun c => isDigit c || c == '_'

/-- Whether a text is one or more digits, with single separators between some of them. -/
def areDigits (isDigit : Char → Bool) : List Char → Bool
  | [] => false
  | [c] => isDigit c
  | c :: d :: rest =>
    isDigit c && if d == '_' then areDigits isDigit rest else areDigits isDigit (d :: rest)

/-- Whether a text begins with a zero and the letter of a radix. -/
def hasRadix : List Char → Bool
  | '0' :: c :: _ => (radix? c).isSome
  | _ => false

/-- The integer that a text begins with. -/
def takeInteger : List Char → List Char
  | '0' :: c :: rest =>
    match radix? c with
    | some isDigit => '0' :: c :: takeDigits isDigit rest
    | none => takeDigits Char.isDigit ('0' :: c :: rest)
  | cs => takeDigits Char.isDigit cs

/-- Whether a text is an integer; a decimal one has no needless zero in front. -/
def isInteger : List Char → Bool
  | ['0'] => true
  | '0' :: c :: rest => (radix? c).any (areDigits · rest)
  | cs => areDigits Char.isDigit cs

/-- The fraction that a text begins with, behind its point. -/
def takeFraction : List Char → List Char
  | '.' :: rest => '.' :: takeDigits Char.isDigit rest
  | _ => []

/-- The exponent that a text begins with, behind its letter and sign. -/
def takeExponent : List Char → List Char
  | c :: d :: rest =>
    if c == 'e' || c == 'E' then
      if d == '+' || d == '-' then c :: d :: takeDigits Char.isDigit rest
      else c :: takeDigits Char.isDigit (d :: rest)
    else []
  | _ => []

/-- The numeral that a text begins with, if it is a whole one and no name or digit follows. -/
def numeral? (names : NameChars) (cs : List Char) : Option (List Char) :=
  let whole := takeInteger cs
  let behind := cs.drop whole.length
  let fraction := if hasRadix whole then [] else takeFraction behind
  let exponent := if hasRadix whole then [] else takeExponent (behind.drop fraction.length)
  let big := fraction.isEmpty && exponent.isEmpty && behind.head? == some 'n'
  let text := whole ++ fraction ++ exponent ++ if big then ['n'] else []
  let digits := (exponent.drop 1).dropWhile fun c => c == '+' || c == '-'
  if (isInteger whole || whole.isEmpty && 1 < fraction.length) &&
      (fraction.length ≤ 1 || areDigits Char.isDigit fraction.tail) &&
      (exponent.isEmpty || areDigits Char.isDigit digits) &&
      !(cs.drop text.length).head?.any (fun c => names.start c || c.isDigit) then
    some text
  else none

end Numerals

section Literals

/-- What is left behind the body of a regular expression and the slash that ends it. -/
def behindRegExpBody? (inClass : Bool) : List Char → Option (List Char)
  | [] => none
  | '\\' :: c :: rest => if endsLine c then none else behindRegExpBody? inClass rest
  | c :: rest =>
    if endsLine c then none
    else if c == '/' && !inClass then some rest
    else behindRegExpBody? (c == '[' || inClass && c != ']') rest

/-- What stands before the rest of a text. -/
def before (cs rest : List Char) : String := String.ofList (cs.take (cs.length - rest.length))

end Literals

/-- The marks of expressions and statements, the longest ones first. -/
def punctuators : List String :=
  [">>>=", "...", "===", "!==", "**=", "<<=", ">>=", ">>>", "&&=", "||=", "??=", "=>", "==", "!=",
    "<=", ">=", "&&", "||", "??", "?.", "++", "--", "+=", "-=", "*=", "%=", "/=", "&=", "|=", "^=",
    "<<", ">>", "**", "\x7b", "\x7d", "(", ")", "[", "]", ".", ";", ",", "<", ">", "+", "-", "*",
    "/", "%", "&", "|", "^", "!", "~", "?", ":", "="]

/-- The mark that a text begins with; no optional mark stands before a digit. -/
def mark? (cs : List Char) : Option String :=
  punctuators.find? fun mark =>
    mark.toList.isPrefixOf cs && !(mark == "?." && (cs.drop 2).head?.any Char.isDigit)

variable (names : NameChars)

/-- Reads a lexeme. -/
def readLexeme (goal : Goal) : List Char → Option (Lexeme × List Char)
  | [] => none
  | c :: rest =>
    if names.start c then
      some (.word (String.ofList ((c :: rest).takeWhile names.part)),
        (c :: rest).dropWhile names.part)
    else if c.isDigit || c == '.' && rest.head?.any Char.isDigit then
      (numeral? names (c :: rest)).map fun text =>
        (.numeral (String.ofList text), (c :: rest).drop text.length)
    else if c == '"' || c == '\x27' then
      match readLiteral c rest with
      | some (_, .mark, behind) => some (.literal (before (c :: rest) behind), behind)
      | _ => none
    else if c == '/' && goal == .operand then
      -- The flags of a regular expression are as long as a name would be.
      (behindRegExpBody? false rest).map fun flags =>
        let behind := flags.dropWhile names.part
        (.literal (before (c :: rest) behind), behind)
    else (mark? (c :: rest)).map fun text => (.mark text, (c :: rest).drop text.length)

/-- Reads an input element. -/
def readElement (goal : Goal) (fresh : Bool) : List Char → Option (InputElement × List Char)
  | [] => none
  | c :: rest =>
    if isSpace c then some (.space, rest)
    else if endsLine c then some (.lineEnd, rest)
    else match commentMark? fresh (c :: rest) with
      | some mark => readComment mark (c :: rest)
      | none => (readLexeme names goal (c :: rest)).map (Prod.map .lexeme id)

/-- The lexemes and comments of a text, given what is expected where it begins. -/
def scan (goal : Goal) (fresh : Bool) : List Char → Option (List InputElement)
  | [] => some []
  | c :: rest =>
    match readElement names goal fresh (c :: rest) with
    | none => none
    | some (element, behind) =>
      -- An input element takes up a character at least.
      if behind.length < (c :: rest).length then
        (scan (element.goalBehind goal) (element.freshBehind fresh) behind).map (element.shown ++ ·)
      else none
termination_by cs => cs.length
decreasing_by assumption

/-- The lexemes and comments of a script. -/
def scanScript (text : String) : Option (List InputElement) := scan names .operand true text.toList

end EcmaPrune.Scanner
