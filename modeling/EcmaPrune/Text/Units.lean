/-! Strings as sequences of 16-bit code units, which may hold surrogates that pair with nothing. -/

namespace EcmaPrune.Text

/-- What a run of code units stands for: a character, or a surrogate left without its partner. -/
inductive Piece where
  | char (c : Char)
  | lone (unit : UInt16)
deriving DecidableEq, Repr

/-- The code units of one character: a pair of surrogates beyond the basic plane, else one unit. -/
def unitsOfChar (c : Char) : List UInt16 :=
  if c.toNat < 0x10000 then [c.toNat.toUInt16]
  else
    let offset := c.toNat - 0x10000
    [(0xD800 + offset / 0x400).toUInt16, (0xDC00 + offset % 0x400).toUInt16]

/-- The code units of a text. -/
def units (text : String) : List UInt16 := text.toList.flatMap unitsOfChar

/-- The first half of a surrogate pair. -/
def isHighSurrogate (unit : UInt16) : Bool := 0xD800 ≤ unit && unit ≤ 0xDBFF

/-- The second half of a surrogate pair. -/
def isLowSurrogate (unit : UInt16) : Bool := 0xDC00 ≤ unit && unit ≤ 0xDFFF

/-- The character that a surrogate pair stands for. -/
def charOfPair (high low : UInt16) : Char :=
  Char.ofNat (0x10000 + (high.toNat - 0xD800) * 0x400 + (low.toNat - 0xDC00))

/-- Splits code units into characters and lone surrogates, pairing as early as possible. -/
def pieces : List UInt16 → List Piece
  | [] => []
  | [unit] =>
    if isHighSurrogate unit || isLowSurrogate unit then [.lone unit]
    else [.char (Char.ofNat unit.toNat)]
  | unit :: next :: rest =>
    if isHighSurrogate unit && isLowSurrogate next then
      .char (charOfPair unit next) :: pieces rest
    else if isHighSurrogate unit || isLowSurrogate unit then .lone unit :: pieces (next :: rest)
    else .char (Char.ofNat unit.toNat) :: pieces (next :: rest)

/-- The character shown for a piece; a lone surrogate becomes the replacement character. -/
def Piece.shown : Piece → Char
  | .char c => c
  | .lone _ => Char.ofNat 0xFFFD

/-- The character of a piece that stands for one. -/
def Piece.char? : Piece → Option Char
  | .char c => some c
  | .lone _ => none

/-- The text of code units, with each lone surrogate replaced. -/
def lossy (value : List UInt16) : String := String.ofList ((pieces value).map Piece.shown)

/-- The text of code units, or nothing if one of them is a lone surrogate. -/
def text? (value : List UInt16) : Option String :=
  ((pieces value).mapM Piece.char?).map String.ofList

/-- Whether code units spell exactly a given text. -/
def spells (value : List UInt16) (text : String) : Bool := value == units text

end EcmaPrune.Text
