import EcmaPrune.Proofs.Text.Units
import EcmaPrune.Text.Escape
import Mathlib.Tactic.SplitIfs

/-!
String and template literals, as a reader of strict code takes them.

What is written of a string reads back as the string, and only what is written behind it ends it.
-/

namespace EcmaPrune.Text

-- Powers of integers are the ones that come with the language, whatever else is imported.
attribute [local instance (high)] instPowNat

/-- The characters that end a line. -/
def endsLine (c : Char) : Bool := c == '\n' || c == '\r' || c == '\u2028' || c == '\u2029'

/-- What a letter behind a backslash stands for, if not for itself. -/
def letterEscape? : Char → Option Char
  | 'b' => some '\x08'
  | 't' => some '\t'
  | 'n' => some '\n'
  | 'v' => some '\x0b'
  | 'f' => some '\x0c'
  | 'r' => some '\r'
  | _ => none

/-- The hexadecimal digits by their values. -/
def hexDigits : List Char := "0123456789abcdef".toList

/-- A number with one more hexadecimal digit behind it. -/
def hexStep (value : Nat) (c : Char) : Option Nat :=
  (hexDigits.idxOf? c.toLower).map (16 * value + ·)

/-- Reads a hexadecimal number of a given width. -/
def readHex (width : Nat) (cs : List Char) : Option (Nat × List Char) :=
  if width ≤ cs.length then
    ((cs.take width).foldlM hexStep 0).map fun value => (value, cs.drop width)
  else none

/-- Reads a code point between braces, behind the brace that opens. -/
def readBracedPoint (cs : List Char) : Option (Nat × List Char) := do
  let digits := cs.takeWhile (· != '\x7d')
  let value ← digits.foldlM hexStep 0
  if digits.isEmpty || 0x10FFFF < value then none
  else
    match cs.drop digits.length with
    | [] => none
    | _ :: rest => some (value, rest)

/-- Reads what stands behind a backslash; numbers in octal are not allowed. -/
def readEscape : List Char → Option (List UInt16 × List Char)
  | [] => none
  | c :: rest =>
    if endsLine c then
      -- A literal may go on in the next line, and the end of the line counts for nothing.
      some ([], if c == '\r' && rest.head? == some '\n' then rest.tail else rest)
    else if c == 'x' then (readHex 2 rest).map (Prod.map unitsOfPoint id)
    else if c == 'u' then
      (if rest.head? == some '\x7b' then readBracedPoint rest.tail else readHex 4 rest).map
        (Prod.map unitsOfPoint id)
    else if c == '0' then if rest.head?.any Char.isDigit then none else some ([0], rest)
    else if c.isDigit then none
    else some (unitsOfChar ((letterEscape? c).getD c), rest)

theorem length_of_readHex {width value : Nat} {cs rest : List Char}
    (read : readHex width cs = some (value, rest)) : rest.length ≤ cs.length := by
  unfold readHex at read
  split at read
  · obtain ⟨_, -, same⟩ := Option.map_eq_some_iff.mp read
    obtain ⟨-, rfl⟩ := Prod.mk.inj same
    simp
  · cases read

theorem length_of_readBracedPoint {value : Nat} {cs rest : List Char}
    (read : readBracedPoint cs = some (value, rest)) : rest.length ≤ cs.length := by
  obtain ⟨_, -, read⟩ := Option.bind_eq_some_iff.mp read
  split at read
  · cases read
  · split at read
    · cases read
    · next found =>
      obtain ⟨-, rfl⟩ := Prod.mk.inj (Option.some.inj read)
      have shorter := congrArg List.length found
      simp only [List.length_drop, List.length_cons] at shorter
      omega

/-- Reading an escape never leaves more than there was. -/
theorem length_of_readEscape {cs rest : List Char} {units : List UInt16}
    (read : readEscape cs = some (units, rest)) : rest.length ≤ cs.length := by
  cases cs with
  | nil => cases read
  | cons c cs =>
    have fewer : cs.tail.length ≤ cs.length := by simp
    rw [readEscape] at read
    -- All but numbers take one character or two, and numbers have been looked at.
    split_ifs at read
    · cases read; grind
    · cases read; grind
    · obtain ⟨_, number, same⟩ := Option.map_eq_some_iff.mp read
      cases same
      exact Nat.le_succ_of_le (length_of_readHex number)
    · obtain ⟨_, number, same⟩ := Option.map_eq_some_iff.mp read
      cases same
      exact Nat.le_succ_of_le (Nat.le_trans (length_of_readBracedPoint number) fewer)
    · obtain ⟨_, number, same⟩ := Option.map_eq_some_iff.mp read
      cases same
      exact Nat.le_succ_of_le (length_of_readHex number)
    · cases read; grind
    · cases read; grind

/-- What may end a literal, or a piece of one. -/
inductive LiteralEnd where
  /-- The mark that it began with. -/
  | mark
  /-- The beginning of a substitution in a template. -/
  | substitution
deriving DecidableEq, Repr

/-- Puts code units in front of what a literal has been read as. -/
def prepend (units : List UInt16) :
    Option (List UInt16 × LiteralEnd × List Char) → Option (List UInt16 × LiteralEnd × List Char) :=
  Option.map (Prod.map (units ++ ·) id)

@[simp]
theorem prepend_some (units value : List UInt16) (last : LiteralEnd) (rest : List Char) :
    prepend units (some (value, last, rest)) = some (units ++ value, last, rest) := rfl

@[simp]
theorem prepend_nil (read : Option (List UInt16 × LiteralEnd × List Char)) :
    prepend [] read = read := by
  cases read <;> rfl

theorem prepend_append (first second : List UInt16)
    (read : Option (List UInt16 × LiteralEnd × List Char)) :
    prepend (first ++ second) read = prepend first (prepend second read) := by
  cases read <;> simp [prepend, Prod.map]

/--
Reads a literal up to its end: the code units it stands for, how it ends, and what is behind.

A template is told by its mark. It may hold ends of lines, all of which count as line feeds.
-/
def readLiteral (mark : Char) : List Char → Option (List UInt16 × LiteralEnd × List Char)
  | [] => none
  | c :: rest =>
    if c == mark then some ([], .mark, rest)
    else if mark == templateMark && c == '$' && rest.head? == some '\x7b' then
      some ([], .substitution, rest.tail)
    else if c == '\\' then
      match found : readEscape rest with
      | none => none
      | some (units, behind) =>
        have := length_of_readEscape found
        prepend units (readLiteral mark behind)
    else if c == '\r' && mark == templateMark then
      prepend (unitsOfChar '\n')
        (readLiteral mark (if rest.head? == some '\n' then rest.tail else rest))
    else if (c == '\n' || c == '\r') && mark != templateMark then none
    else prepend (unitsOfChar c) (readLiteral mark rest)
termination_by cs => cs.length
decreasing_by
  all_goals grind

section Hexadecimal

theorem hexStep_digitChar (value : Nat) {digit : Nat} (small : digit < 16) :
    hexStep value digit.digitChar.toUpper = some (16 * value + digit) := by
  -- The digits are checked one by one.
  have known : ∀ digit : Fin 16, hexDigits.idxOf? (Nat.digitChar digit).toUpper.toLower =
      some digit.val := by decide
  rw [hexStep, known ⟨digit, small⟩]
  rfl

theorem foldlM_hexStep_toDigits (n : Nat) :
    ((Nat.toDigits 16 n).map Char.toUpper).foldlM hexStep 0 = some n := by
  -- The last digit is the last step of the reader.
  induction n using Nat.base_induction 16 (by decide) with
  | single n small =>
    rw [Nat.toDigits_of_lt_base small]
    simpa using hexStep_digitChar 0 small
  | digit n digit small positive ih =>
    rw [← Nat.toDigits_append_toDigits (by decide) positive small,
      Nat.toDigits_of_lt_base small, List.map_append, List.foldlM_append, ih]
    simpa using hexStep_digitChar n small

/-- Zeros in front of a number do not count. -/
theorem foldlM_hexStep_zeros (count : Nat) :
    (List.replicate count '0').foldlM hexStep 0 = some 0 := by
  induction count with
  | zero => rfl
  | succ count ih =>
    rw [List.replicate_succ, List.foldlM_cons]
    exact ih

/-- A number written in hexadecimal reads back, whatever follows it. -/
theorem readHex_upperHex (width : Nat) {n : Nat} (wide : 0 < width) (small : n < 16 ^ width)
    (rest : List Char) : readHex width (upperHex width n ++ rest) = some (n, rest) := by
  have fits : (Nat.toDigits 16 n).length ≤ width :=
    (Nat.length_toDigits_le_iff (by decide) wide).mpr small
  have length : (upperHex width n).length = width := by
    simp only [upperHex, List.length_append, List.length_replicate, List.length_map]
    omega
  have value : (upperHex width n).foldlM hexStep 0 = some n := by
    simp only [upperHex, List.foldlM_append, foldlM_hexStep_zeros]
    exact foldlM_hexStep_toDigits n
  rw [readHex, if_pos (by simp [length]), List.take_left' length, List.drop_left' length, value]
  rfl

theorem head?_of_readHex {width value : Nat} {cs rest : List Char}
    (read : readHex (width + 1) cs = some (value, rest)) : cs.head? ≠ some '\x7b' := by
  rintro brace
  obtain ⟨cs, rfl⟩ := List.head?_eq_some_iff.mp brace
  -- A brace is no digit, so a number with one in front is not read.
  have noDigit : hexStep 0 '\x7b' = none := by decide
  unfold readHex at read
  split at read
  · rw [List.take_succ_cons, List.foldlM_cons, noDigit] at read
    cases read
  · cases read

variable {n : Nat} (rest : List Char)

theorem readEscape_hex (small : n < 0x100) :
    readEscape ('x' :: upperHex 2 n ++ rest) = some (unitsOfPoint n, rest) := by
  have number := readHex_upperHex 2 (by decide) small rest
  rw [List.cons_append, readEscape, if_neg (by decide), if_pos (by decide), number]
  rfl

theorem readEscape_unicode (small : n < 0x10000) :
    readEscape ('u' :: upperHex 4 n ++ rest) = some (unitsOfPoint n, rest) := by
  have number := readHex_upperHex 4 (by decide) small rest
  rw [List.cons_append, readEscape, if_neg (by decide), if_neg (by decide), if_pos (by decide),
    if_neg (by simpa using head?_of_readHex number), number]
  rfl

end Hexadecimal

section Writing

variable {mark : Char} {tail : List Char}

/-- What an escape stands for comes in front of what is read behind it. -/
theorem readLiteral_backslash {cs : List Char} {units : List UInt16}
    (isMark : mark = '"' ∨ mark = templateMark) (escape : readEscape cs = some (units, tail)) :
    readLiteral mark ('\\' :: cs) = prepend units (readLiteral mark tail) := by
  have notMark : '\\' ≠ mark := by rcases isMark with rfl | rfl <;> decide
  rw [readLiteral, if_neg (by simpa using notMark), if_neg (by simp), if_pos (by rfl)]
  split
  · next none => rw [escape] at none; cases none
  · next units' behind found =>
    rw [escape] at found
    cases found
    rfl

/-- A character that needs no escape stands for itself. -/
theorem readLiteral_char {c : Char} (notMark : c ≠ mark) (notEscape : c ≠ '\\')
    (inLine : c ≠ '\n' ∧ c ≠ '\r')
    (plain : mark = templateMark → c = '$' → tail.head? ≠ some '\x7b') :
    readLiteral mark (c :: tail) = prepend (unitsOfChar c) (readLiteral mark tail) := by
  rw [readLiteral, if_neg (by simpa using notMark), if_neg (by simpa using plain),
    if_neg (by simpa using notEscape), if_neg (by simp [inLine]), if_neg (by simp [inLine])]

/-- The ways in which a character is written between the given marks, before the given rest. -/
inductive Spelling (mark c : Char) (rest : List Piece) : List Char → Prop
  /-- By a letter or mark behind a backslash. -/
  | short (letter : Char) (value : (letterEscape? letter).getD letter = c)
    (line : endsLine letter = false)
    (plain : letter ≠ 'x' ∧ letter ≠ 'u' ∧ letter.isDigit = false) :
    Spelling mark c rest ['\\', letter]
  | null (value : c = '\x00') (next : startsWithDigit rest = false) :
    Spelling mark c rest ['\\', '0']
  | hex (small : c.toNat < 0x100) : Spelling mark c rest ('\\' :: 'x' :: upperHex 2 c.toNat)
  | unicode (small : c.toNat < 0x10000) : Spelling mark c rest ('\\' :: 'u' :: upperHex 4 c.toNat)
  | itself (notMark : c ≠ mark) (notEscape : c ≠ '\\') (line : endsLine c = false)
    (plain : mark = templateMark → c = '$' → startsWithBrace rest = false) :
    Spelling mark c rest [c]

theorem spelling_escapeChar (isMark : mark = '"' ∨ mark = templateMark) (c : Char)
    (rest : List Piece) : Spelling mark c rest (escapeChar mark c rest) := by
  unfold escapeChar
  -- The cases are those of the writer, in its order.
  by_cases letter : c = '\\' ∨ c = '\n' ∨ c = '\r' ∨ c = '\t'
  · rcases letter with rfl | rfl | rfl | rfl <;> exact .short _ rfl rfl (by decide)
  by_cases separator : c = '\u2028' ∨ c = '\u2029'
  · rcases separator with rfl | rfl <;> exact .unicode (by decide)
  by_cases null : c = '\x00'
  · subst null
    cases next : startsWithDigit rest with
    | true => exact .hex (by decide)
    | false => exact .null rfl next
  obtain ⟨backslash, lineFeed, return', tab⟩ : c ≠ '\\' ∧ c ≠ '\n' ∧ c ≠ '\r' ∧ c ≠ '\t' := by
    simpa using letter
  obtain ⟨line, paragraph⟩ : c ≠ '\u2028' ∧ c ≠ '\u2029' := by simpa using separator
  simp only [beq_iff_eq, backslash, lineFeed, return', tab, null, line, paragraph, if_false]
  split
  · next dollar =>
    simp only [Bool.and_eq_true, beq_iff_eq] at dollar
    rw [dollar.1.1]
    exact .short _ rfl rfl (by decide)
  split
  · next quote =>
    subst quote
    rcases isMark with rfl | rfl <;> exact .short _ rfl rfl (by decide)
  split
  · next control => exact .hex (Nat.lt_trans control (by decide))
  · next noDollar notMark _ =>
    refine .itself notMark backslash (by simp [endsLine, lineFeed, return', line, paragraph])
      fun isTemplate isDollar => ?_
    simpa [isTemplate, isDollar] using noDollar

/-- A character reads back as it is written, in front of what the next piece is written as. -/
theorem readLiteral_escapeChar (isMark : mark = '"' ∨ mark = templateMark) (c : Char)
    {rest : List Piece} (digits : tail.head?.any Char.isDigit → startsWithDigit rest)
    (brace : tail.head? = some '\x7b' → startsWithBrace rest) :
    readLiteral mark (escapeChar mark c rest ++ tail) =
      prepend (unitsOfChar c) (readLiteral mark tail) := by
  have spelling := spelling_escapeChar isMark c rest
  generalize escapeChar mark c rest = written at spelling
  cases spelling with
  | short letter value line plain =>
    obtain ⟨notHex, notUnicode, notDigit⟩ := plain
    have notZero : letter ≠ '0' := by
      rintro rfl
      cases notDigit
    have escape : readEscape (letter :: tail) = some (unitsOfChar c, tail) := by
      rw [readEscape, if_neg (by simp [line]), if_neg (by simpa using notHex),
        if_neg (by simpa using notUnicode), if_neg (by simpa using notZero),
        if_neg (by simp [notDigit]), value]
    exact readLiteral_backslash isMark escape
  | null value next =>
    -- A digit behind the zero would have had it written otherwise.
    have noDigit : ¬tail.head?.any Char.isDigit := fun digit => by simp [digits digit] at next
    have escape : readEscape ('0' :: tail) = some (unitsOfChar c, tail) := by
      rw [value, readEscape, if_neg (by decide), if_neg (by decide), if_neg (by decide),
        if_pos (by decide), if_neg noDigit]
      rfl
    exact readLiteral_backslash isMark escape
  | hex small => exact readLiteral_backslash isMark (readEscape_hex tail small)
  | unicode small => exact readLiteral_backslash isMark (readEscape_unicode tail small)
  | itself notMark notEscape line plain =>
    refine readLiteral_char notMark notEscape ?_ fun isTemplate isDollar isBrace => ?_
    · constructor <;> (rintro rfl; cases line)
    · simp [plain isTemplate isDollar] at brace
      exact brace isBrace

/-- A character is written by itself or behind a backslash. -/
theorem head?_escapeChar (isMark : mark = '"' ∨ mark = templateMark) (c : Char)
    (rest : List Piece) :
    (escapeChar mark c rest ++ tail).head? = some '\\' ∨
      (escapeChar mark c rest ++ tail).head? = some c := by
  have spelling := spelling_escapeChar isMark c rest
  generalize escapeChar mark c rest = written at spelling
  cases spelling with
  | itself => exact .inr rfl
  | short | null | hex | unicode => exact .inl rfl

/-- What is written begins as its first piece does, or with a backslash, or is empty. -/
theorem head?_escapePieces (isMark : mark = '"' ∨ mark = templateMark) {value : List Piece}
    {c : Char} (head : (escapePieces mark value ++ tail).head? = some c) :
    c = '\\' ∨ (∃ rest, value = .char c :: rest) ∨ value = [] ∧ tail.head? = some c := by
  match value with
  | [] => exact .inr (.inr ⟨rfl, head⟩)
  | .lone _ :: _ => exact .inl (Option.some.inj head).symm
  | .char first :: rest =>
    rw [escapePieces, List.append_assoc] at head
    rcases head?_escapeChar isMark first rest with same | same
    · exact .inl (Option.some.inj (head.symm.trans same))
    · obtain rfl := Option.some.inj (head.symm.trans same)
      exact .inr (.inl ⟨rest, rfl⟩)

/-- A literal reads back piece by piece, up to what ends it. -/
theorem readLiteral_escapePieces (isMark : mark = '"' ∨ mark = templateMark)
    (noDigit : tail.head?.any Char.isDigit = false) (noBrace : tail.head? ≠ some '\x7b')
    (value : List Piece) :
    readLiteral mark (escapePieces mark value ++ tail) =
      prepend (value.flatMap Piece.units) (readLiteral mark tail) := by
  induction value with
  | nil => exact (prepend_nil _).symm
  | cons piece rest ih =>
    rw [List.flatMap_cons, prepend_append, ← ih]
    cases piece with
    | lone unit =>
      have escape := readEscape_unicode (escapePieces mark rest ++ tail) unit.toNat_lt
      rw [unitsOfPoint_unit] at escape
      rw [escapePieces, List.cons_append, List.cons_append, List.append_assoc]
      exact readLiteral_backslash isMark escape
    | char c =>
      rw [escapePieces, List.append_assoc]
      -- What the writer asks of the next piece holds of what is written next.
      refine readLiteral_escapeChar isMark c (fun digit => ?_) fun brace => ?_
      · obtain ⟨d, head, isDigit⟩ := (Option.any_eq_true _ _).mp digit
        rcases head?_escapePieces isMark head with rfl | ⟨others, rfl⟩ | ⟨rfl, last⟩
        · exact absurd isDigit (by decide)
        · exact isDigit
        · rw [last] at noDigit
          exact absurd isDigit (by simpa using noDigit)
      · rcases head?_escapePieces isMark brace with same | ⟨others, rfl⟩ | ⟨rfl, last⟩
        · exact absurd same (by decide)
        · rfl
        · exact absurd last noBrace

end Writing

theorem endsLine_of_mem_toDigits {n : Nat} :
    ∀ c ∈ Nat.toDigits 16 n, endsLine c.toUpper = false := by
  have known : ∀ digit : Fin 16, endsLine (Nat.digitChar digit).toUpper = false := by decide
  induction n using Nat.base_induction 16 (by decide) with
  | single n small =>
    rw [Nat.toDigits_of_lt_base small]
    simpa using known ⟨n, small⟩
  | digit n digit small positive ih =>
    rw [← Nat.toDigits_append_toDigits (by decide) positive small, Nat.toDigits_of_lt_base small]
    intro c member
    rcases List.mem_append.mp member with before | last
    · exact ih c before
    · rw [List.mem_singleton.mp last]
      exact known ⟨digit, small⟩

/-- The digits of a number do not end a line. -/
theorem endsLine_of_mem_upperHex {width n : Nat} {c : Char} (member : c ∈ upperHex width n) :
    endsLine c = false := by
  rcases List.mem_append.mp member with zero | isDigit
  · rw [(List.mem_replicate.mp zero).2]
    decide
  · obtain ⟨digit, held, rfl⟩ := List.mem_map.mp isDigit
    exact endsLine_of_mem_toDigits digit held

theorem endsLine_of_mem_escapeChar {mark : Char} (isMark : mark = '"' ∨ mark = templateMark)
    {c d : Char} {rest : List Piece} (member : d ∈ escapeChar mark c rest) :
    endsLine d = false := by
  have spelling := spelling_escapeChar isMark c rest
  generalize escapeChar mark c rest = written at spelling member
  have backslash : endsLine '\\' = false := rfl
  cases spelling with
  | short letter value line plain =>
    have found : d = '\\' ∨ d = letter := by simpa using member
    rcases found with rfl | rfl
    · exact backslash
    · exact line
  | null value next =>
    have found : d = '\\' ∨ d = '0' := by simpa using member
    rcases found with rfl | rfl <;> rfl
  | hex small | unicode small =>
    rcases List.mem_cons.mp member with rfl | behind
    · exact backslash
    rcases List.mem_cons.mp behind with rfl | digit
    · rfl
    · exact endsLine_of_mem_upperHex digit
  | itself notMark notEscape line plain => exact List.mem_singleton.mp member ▸ line

/-- No line ends in what is written of a literal. -/
theorem endsLine_of_mem_escapePieces {mark : Char} (isMark : mark = '"' ∨ mark = templateMark)
    {value : List Piece} {c : Char} (member : c ∈ escapePieces mark value) :
    endsLine c = false := by
  induction value with
  | nil => cases member
  | cons piece rest ih =>
    cases piece with
    | lone unit =>
      rw [escapePieces, List.cons_append, List.cons_append, List.mem_cons, List.mem_cons,
        List.mem_append] at member
      rcases member with rfl | rfl | digit | later
      · decide
      · decide
      · exact endsLine_of_mem_upperHex digit
      · exact ih later
    | char d =>
      rcases List.mem_append.mp member with here | later
      · exact endsLine_of_mem_escapeChar isMark here
      · exact ih later

/-- What a text stands for that is one string literal between double quotes and nothing else. -/
def stringValue? (text : String) : Option (List UInt16) :=
  match text.toList with
  | '"' :: inside =>
    match readLiteral '"' inside with
    | some (value, .mark, []) => some value
    | _ => none
  | _ => none

/-- The characters of a string literal behind its first mark. -/
def quotedInside (value : List UInt16) : List Char := escapePieces '"' (pieces value) ++ ['"']

theorem toList_quoted (value : List UInt16) :
    (quoted value).toList = '"' :: quotedInside value := by
  rw [quoted, String.toList_ofList]
  rfl

theorem toList_templateSegment (value : List UInt16) :
    (templateSegment value).toList = escapePieces templateMark (pieces value) :=
  String.toList_ofList

/-- A string literal ends where it says it ends. -/
theorem readLiteral_quotedInside (value : List UInt16) (rest : List Char) :
    readLiteral '"' (quotedInside value ++ rest) = some (value, .mark, rest) := by
  -- No mark inside is left without a backslash, so the last one ends the literal.
  have closed : readLiteral '"' ('"' :: rest) = some ([], .mark, rest) := by
    rw [readLiteral, if_pos (by decide)]
  rw [quotedInside, List.append_assoc, List.singleton_append,
    readLiteral_escapePieces (.inl rfl) rfl (by simp), closed, prepend_some,
    flatMap_units_pieces, List.append_nil]

/-- A piece of a template ends where the template or a substitution does. -/
theorem readLiteral_templateSegment (value : List UInt16) (rest : List Char) :
    readLiteral templateMark ((templateSegment value).toList ++ templateMark :: rest) =
        some (value, .mark, rest) ∧
      readLiteral templateMark ((templateSegment value).toList ++ '$' :: '\x7b' :: rest) =
        some (value, .substitution, rest) := by
  have closed : readLiteral templateMark (templateMark :: rest) = some ([], .mark, rest) := by
    rw [readLiteral, if_pos (by decide)]
  have substituted : readLiteral templateMark ('$' :: '\x7b' :: rest) =
      some ([], .substitution, rest) := by
    rw [readLiteral, if_neg (by decide), if_pos (by rfl)]
    rfl
  rw [toList_templateSegment, readLiteral_escapePieces (.inr rfl) rfl (by simp [templateMark]),
    closed, readLiteral_escapePieces (.inr rfl) rfl (by simp), substituted, prepend_some,
    prepend_some, flatMap_units_pieces, List.append_nil]
  exact ⟨rfl, rfl⟩

/--
Strings read back from what is written of them.

A string literal is one that holds no end of a line. A piece of a template ends at the mark or
substitution behind it, and holds no end of a line either.
-/
theorem value_written (value : List UInt16) :
    (stringValue? (quoted value) = some value ∧ ∀ c ∈ (quoted value).toList, ¬endsLine c) ∧
      (∀ rest : List Char,
        readLiteral templateMark ((templateSegment value).toList ++ templateMark :: rest) =
            some (value, .mark, rest) ∧
          readLiteral templateMark ((templateSegment value).toList ++ '$' :: '\x7b' :: rest) =
            some (value, .substitution, rest)) ∧
      ∀ c ∈ (templateSegment value).toList, ¬endsLine c := by
  refine ⟨⟨?_, fun c member => ?_⟩, readLiteral_templateSegment value, fun c member => ?_⟩
  · have inside := readLiteral_quotedInside value []
    rw [List.append_nil] at inside
    unfold stringValue?
    rw [toList_quoted]
    simp only [inside]
  · rw [toList_quoted, quotedInside] at member
    have found : c = '"' ∨ c ∈ escapePieces '"' (pieces value) := by
      simpa [or_comm, or_assoc] using member
    rcases found with rfl | written
    · decide
    · simp [endsLine_of_mem_escapePieces (.inl rfl) written]
  · rw [toList_templateSegment] at member
    simp [endsLine_of_mem_escapePieces (.inr rfl) member]

-- A number in octal and the end of a line stand in no string literal of strict code.
example : stringValue? "\"\\01\"" = none ∧ stringValue? "\"\n\"" = none ∧
    stringValue? "\"\\u\x7b1F600\x7d\"" = some [0xD83D, 0xDE00] := by
  decide +kernel

end EcmaPrune.Text
