/-! The options of a run, and their text as JSON. -/

namespace EcmaPrune

/-- What a run may do; hosts choose it by the engines that run the result. -/
structure MinifyOptions where
  /-- Whether optional chains may be written. -/
  optionalChainSupported : Bool
  /-- Whether an export clause counts as a use of what it names. -/
  keepExportClauses : Bool
  /-- How often the passes are repeated at most. -/
  maxPasses : Nat
  /-- Whether a strict comparison may become a loose one of the same result. -/
  mangleStrictEquality : Bool
deriving DecidableEq, Repr

namespace MinifyOptions

/-- The options of a host that says nothing. -/
def standard : MinifyOptions := ⟨true, false, 2, true⟩

/-- The number of repetitions, never less than one. -/
def passes (options : MinifyOptions) : Nat := max options.maxPasses 1

end MinifyOptions

/-- Why options cannot be read. -/
inductive OptionsError where
  /-- The text is not JSON, or not the JSON of options. -/
  | invalidJson
  /-- No pass would run at all. -/
  | invalidMaxPasses (count : Nat)
deriving DecidableEq, Repr

/-- What is reported for options that can be read but not be used. -/
def OptionsError.message? : OptionsError → Option String
  | .invalidJson => none
  | .invalidMaxPasses count => some ("maxPasses must be at least 1, got " ++ toString count)

/-- A token of the JSON of options; no other kind can stand in one. -/
inductive OptionToken where
  | openBrace
  | closeBrace
  | openBracket
  | closeBracket
  | colon
  | comma
  | bool (value : Bool)
  | nat (value : Nat)
  | text (value : List Char)
deriving DecidableEq, Repr

namespace OptionToken

/-- The value of a hexadecimal digit. -/
def hexValue? (c : Char) : Option Nat :=
  if c.isDigit then some (c.toNat - 48)
  else if 'a' ≤ c && c ≤ 'f' then some (c.toNat - 87)
  else if 'A' ≤ c && c ≤ 'F' then some (c.toNat - 55)
  else none

/-- The character of a four-digit escape, unless it is one half of a pair. -/
def escaped? (a b c d : Char) : Option Char :=
  match hexValue? a, hexValue? b, hexValue? c, hexValue? d with
  | some a, some b, some c, some d =>
    let code := ((a * 16 + b) * 16 + c) * 16 + d
    if code < 0xD800 || 0xDFFF < code then some (Char.ofNat code) else none
  | _, _, _, _ => none

/--
Reads a string after its opening quote, giving its characters and what follows its closing one.

No name of an option needs a pair of escapes, so half a pair is as good as an error.
-/
def readText : List Char → Option (List Char × List Char)
  | [] => none
  | '"' :: rest => some ([], rest)
  | '\\' :: 'u' :: a :: b :: c :: d :: rest =>
    match escaped? a b c d, readText rest with
    | some first, some (value, rest) => some (first :: value, rest)
    | _, _ => none
  | '\\' :: c :: rest =>
    let meant? := match c with
      | '"' | '\\' | '/' => some c
      | 'b' => some '\x08'
      | 'f' => some '\x0c'
      | 'n' => some '\n'
      | 'r' => some '\r'
      | 't' => some '\t'
      | _ => none
    match meant?, readText rest with
    | some first, some (value, rest) => some (first :: value, rest)
    | _, _ => none
  | c :: rest =>
    if c.toNat < 0x20 || c == '\\' then none
    else match readText rest with
      | some (value, rest) => some (c :: value, rest)
      | none => none

/-- Reading a string leaves less than there was. -/
theorem readText_length {chars value rest : List Char}
    (read : readText chars = some (value, rest)) : rest.length < chars.length := by
  fun_induction readText chars generalizing value rest <;> simp_all <;> grind

/-- The number written by digits, which may not begin with a needless zero. -/
def natOfDigits? (digits : List Char) : Option Nat :=
  match digits with
  | [] => none
  | '0' :: _ :: _ => none
  | _ => some (Nat.ofDigitChars 10 digits 0)

/-- Whether a number goes on as one that is not an integer. -/
def continuesNumber : List Char → Bool
  | c :: _ => c == '.' || c == 'e' || c == 'E'
  | [] => false

/-- Splits a text into tokens, up to any character that cannot stand in the JSON of options. -/
def tokens? : List Char → Option (List OptionToken)
  | [] => some []
  | ' ' :: rest => tokens? rest
  | '\n' :: rest => tokens? rest
  | '\r' :: rest => tokens? rest
  | '\t' :: rest => tokens? rest
  | '\x7b' :: rest => (tokens? rest).map (openBrace :: ·)
  | '\x7d' :: rest => (tokens? rest).map (closeBrace :: ·)
  | '[' :: rest => (tokens? rest).map (openBracket :: ·)
  | ']' :: rest => (tokens? rest).map (closeBracket :: ·)
  | ':' :: rest => (tokens? rest).map (colon :: ·)
  | ',' :: rest => (tokens? rest).map (comma :: ·)
  | 't' :: 'r' :: 'u' :: 'e' :: rest => (tokens? rest).map (bool true :: ·)
  | 'f' :: 'a' :: 'l' :: 's' :: 'e' :: rest => (tokens? rest).map (bool false :: ·)
  | '"' :: rest =>
    match _read : readText rest with
    | some (value, rest) => (tokens? rest).map (text value :: ·)
    | none => none
  | c :: rest =>
    let after := rest.dropWhile Char.isDigit
    if !c.isDigit || continuesNumber after then none
    else match natOfDigits? (c :: rest.takeWhile Char.isDigit) with
      | some value => (tokens? after).map (nat value :: ·)
      | none => none
termination_by chars => chars.length
decreasing_by
  all_goals simp only [List.length_cons]
  all_goals try omega
  · have := readText_length _read
    omega
  · have := (List.dropWhile_sublist Char.isDigit (l := rest)).length_le
    omega

end OptionToken

namespace MinifyOptions

/-- The names of the options, in the order in which a list gives them. -/
inductive Field where
  | optionalChainSupported
  | keepExportClauses
  | maxPasses
  | mangleStrictEquality
deriving DecidableEq, Repr

/-- All fields, in the order in which a list gives them. -/
def Field.all : List Field :=
  [.optionalChainSupported, .keepExportClauses, .maxPasses, .mangleStrictEquality]

/-- The key of a field. -/
def Field.key : Field → String
  | .optionalChainSupported => "optionalChainSupported"
  | .keepExportClauses => "keepExportClauses"
  | .maxPasses => "maxPasses"
  | .mangleStrictEquality => "mangleStrictEquality"

/-- Sets a field to the value of a token, if that is of its type and in its range. -/
def set? (options : MinifyOptions) (field : Field) (value : OptionToken) : Option MinifyOptions :=
  match field, value with
  | .optionalChainSupported, .bool value => some { options with optionalChainSupported := value }
  | .keepExportClauses, .bool value => some { options with keepExportClauses := value }
  | .maxPasses, .nat value =>
    if value < UInt64.size then some { options with maxPasses := value } else none
  | .mangleStrictEquality, .bool value => some { options with mangleStrictEquality := value }
  | _, _ => none

/-- Sets the field of a key, if it is one of the given ones, and takes it out of them. -/
def setKey? (options : MinifyOptions) (fields : List Field) (key : List Char)
    (value : OptionToken) : Option (MinifyOptions × List Field) := do
  let field ← fields.find? fun field => field.key.toList == key
  return (← options.set? field value, fields.erase field)

/-- Reads the members of an object, each of another one of the given fields. -/
def readMembers (options : MinifyOptions) (fields : List Field) :
    List OptionToken → Option MinifyOptions
  | [.text key, .colon, value, .closeBrace] => (options.setKey? fields key value).map (·.1)
  | .text key :: .colon :: value :: .comma :: rest =>
    match options.setKey? fields key value with
    | some (options, fields) => readMembers options fields rest
    | none => none
  | _ => none

/-- Reads the items of a list, which are the values of the given fields in turn. -/
def readItems (options : MinifyOptions) : List Field → List OptionToken → Option MinifyOptions
  | field :: _, [value, .closeBracket] => options.set? field value
  | field :: fields, value :: .comma :: rest =>
    match options.set? field value with
    | some options => readItems options fields rest
    | none => none
  | _, _ => none

/-- Reads an object of members or a list of values; what is left out is as it is by itself. -/
def read? : List OptionToken → Option MinifyOptions
  | [.openBrace, .closeBrace] => some standard
  | [.openBracket, .closeBracket] => some standard
  | .openBrace :: rest => readMembers standard Field.all rest
  | .openBracket :: rest => readItems standard Field.all rest
  | _ => none

/-- Reads options from JSON text. -/
def ofJson (source : String) : Except OptionsError MinifyOptions :=
  match (OptionToken.tokens? source.toList).bind read? with
  | none => .error .invalidJson
  | some options =>
    if options.maxPasses = 0 then .error (.invalidMaxPasses options.maxPasses) else .ok options

end MinifyOptions

end EcmaPrune
