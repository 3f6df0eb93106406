import EcmaPrune.Proofs.Print.Scanner
import Mathlib.Data.List.Find
import Mathlib.Data.List.TakeWhile

/-!
What a scanner takes from a text that begins with a lexeme.

Each kind of lexeme is taken as a whole and no longer, as long as what stands behind it does not
make it longer.
-/

namespace EcmaPrune.Scanner

open Text

/-- What is known of the first character of a text, if there is one. -/
def Begins (tail : List Char) (holds : Char → Prop) : Prop := ∀ c ∈ tail.head?, holds c

theorem Begins.imp {tail : List Char} {holds weaker : Char → Prop} (begins : Begins tail holds)
    (weakens : ∀ c, holds c → weaker c) : Begins tail weaker :=
  fun c first => weakens c (begins c first)

theorem takeWhile_append_of_begins {p : Char → Bool} {text tail : List Char}
    (all : ∀ c ∈ text, p c) (stops : Begins tail (p · = false)) :
    (text ++ tail).takeWhile p = text ∧ (text ++ tail).dropWhile p = tail := by
  rw [List.takeWhile_append_of_pos all, List.dropWhile_append_of_pos all]
  cases tail with
  | nil => simp
  | cons c rest =>
    have stop : p c = false := stops c rfl
    simp [stop]

/-- What stands before the rest of a text is what the rest was put behind. -/
theorem before_append (text rest : List Char) :
    before (text ++ rest) rest = String.ofList text := by
  simp [before]

section Comments

theorem mem_commentMarks {fresh : Bool} {mark : String} (member : mark ∈ commentMarks fresh) :
    mark = "//" ∨ mark = "/*" ∨ mark = "<!--" ∨ fresh ∧ mark = "-->" := by
  cases fresh <;> simpa [commentMarks] using member

/-- No comment begins with a character that begins none of their marks. -/
theorem commentMark?_of_head {c : Char} (plain : c ∉ ['/', '<', '-']) (fresh : Bool)
    (rest : List Char) : commentMark? fresh (c :: rest) = none := by
  refine List.find?_eq_none.mpr fun mark member => ?_
  simp only [List.mem_cons, List.not_mem_nil, or_false, not_or] at plain
  rcases mem_commentMarks member with rfl | rfl | rfl | ⟨-, rfl⟩ <;>
    simp [List.isPrefixOf, Ne.symm plain.1, Ne.symm plain.2.1, Ne.symm plain.2.2]

/-- No comment begins with a slash that is followed by neither a star nor another slash. -/
theorem commentMark?_slash {c : Char} (star : c ≠ '*') (slash : c ≠ '/') (fresh : Bool)
    (rest : List Char) : commentMark? fresh ('/' :: c :: rest) = none := by
  refine List.find?_eq_none.mpr fun mark member => ?_
  rcases mem_commentMarks member with rfl | rfl | rfl | ⟨-, rfl⟩ <;>
    simp [List.isPrefixOf, star.symm, slash.symm]

end Comments

/-- Digits and letters are of ASCII. -/
theorem ascii_of_isAlphanum {c : Char} (isAlphanum : c.isAlphanum) : c.toNat < 128 := by
  unfold Char.isAlphanum Char.isAlpha Char.isUpper Char.isLower Char.isDigit at isAlphanum
  simp only [Bool.or_eq_true, Bool.and_eq_true, decide_eq_true_eq, UInt32.le_iff_toNat_le,
    ge_iff_le] at isAlphanum
  change ((65 ≤ c.toNat ∧ c.toNat ≤ 90) ∨ 97 ≤ c.toNat ∧ c.toNat ≤ 122) ∨
    48 ≤ c.toNat ∧ c.toNat ≤ 57 at isAlphanum
  omega

variable {names : NameChars} {goal : Goal} {fresh : Bool} {tail : List Char}

namespace NameChars

theorem part_of_isAlphanum {c : Char} (isAlphanum : c.isAlphanum) : names.part c := by
  simp [names.part_ascii c (ascii_of_isAlphanum isAlphanum), isAlphanum]

theorem part_of_isDigit {c : Char} (isDigit : c.isDigit) : names.part c :=
  part_of_isAlphanum (by simp [Char.isAlphanum, isDigit])

/-- Whether a text is a name, though it may be a reserved one. -/
def isName (names : NameChars) (text : String) : Bool :=
  match text.toList with
  | [] => false
  | c :: rest => names.start c && rest.all names.part

theorem isName_iff {text : String} :
    names.isName text ↔
      ∃ c rest, text.toList = c :: rest ∧ names.start c ∧ ∀ d ∈ rest, names.part d := by
  unfold isName
  cases text.toList with
  | nil => simp
  | cons c rest =>
    constructor
    · intro isName
      exact ⟨c, rest, rfl, by simpa using isName⟩
    · rintro ⟨_, _, same, parts⟩
      cases same
      simpa using parts

/-- A plain name is a name, whatever the characters outside of ASCII are. -/
theorem isName_of_isPlainName {text : String} (plain : isPlainName text) : names.isName text := by
  unfold isPlainName at plain
  unfold isName
  cases chars : text.toList with
  | nil => rw [chars] at plain; cases plain
  | cons c rest =>
    -- Within ASCII, the characters of names are known.
    have ascii (d : Char) (known : d.isAlphanum ∨ d = '_' ∨ d = '$') : d.toNat < 128 := by
      rcases known with isAlphanum | rfl | rfl
      · exact ascii_of_isAlphanum isAlphanum
      · decide
      · decide
    simp only [chars, Bool.and_eq_true, Bool.or_eq_true, beq_iff_eq, List.all_eq_true] at plain
    have first : names.start c := by
      rw [names.start_ascii c (ascii c (by simp [Char.isAlphanum]; grind))]
      simpa using plain.1
    have later : ∀ d ∈ rest, names.part d := fun d member => by
      rw [names.part_ascii d (ascii d (by simpa [or_assoc] using plain.2 d member))]
      simpa using plain.2 d member
    simpa [first] using later

end NameChars

/-- Names of ASCII characters alone. -/
def asciiNames : NameChars where
  start c := c.isAlpha || c == '_' || c == '$'
  part c := c.isAlphanum || c == '_' || c == '$'
  start_ascii _ _ := rfl
  part_ascii _ _ := rfl
  part_of_start c start := by
    simp only [Char.isAlphanum, Bool.or_eq_true] at start ⊢
    exact start.imp_left (.imp_left .inl)
  visible_of_start c start := by
    -- No space and no end of a line is a letter; there are few of either.
    have noSpace : spaces.all fun d => !(d.isAlpha || d == '_' || d == '$') := by decide
    have noEnd : ∀ d, endsLine d → (d.isAlpha || d == '_' || d == '$') = false := by
      intro d ends
      simp only [endsLine, Bool.or_eq_true, beq_iff_eq] at ends
      rcases ends with ((rfl | rfl) | rfl) | rfl <;> decide
    rw [← Bool.not_eq_true, ← Bool.not_eq_true]
    refine ⟨fun isSpace => ?_, fun ends => ?_⟩
    · have noStart := List.all_eq_true.mp noSpace c (by simpa [Scanner.isSpace] using isSpace)
      rw [start] at noStart
      cases noStart
    · rw [noEnd c ends] at start
      cases start

/-- A name is taken up to the first character that cannot belong to it. -/
theorem readElement_word {text : String} (isName : names.isName text)
    (apart : Begins tail (names.part · = false)) :
    readElement names goal fresh (text.toList ++ tail) = some (.lexeme (.word text), tail) := by
  obtain ⟨c, rest, chars, start, parts⟩ := NameChars.isName_iff.mp isName
  obtain ⟨noSpace, noEnd⟩ := names.visible_of_start c start
  -- None of the characters that comments open with starts a name.
  have noComment : c ∉ ['/', '<', '-'] := by
    intro member
    simp only [List.mem_cons, List.not_mem_nil, or_false] at member
    rcases member with rfl | rfl | rfl <;>
      exact absurd start (by rw [names.start_ascii _ (by decide)]; decide)
  have all : ∀ d ∈ c :: rest, names.part d := by
    simpa [names.part_of_start c start] using parts
  obtain ⟨taken, left⟩ := takeWhile_append_of_begins all apart
  rw [List.cons_append] at taken left
  rw [chars, List.cons_append, readElement, if_neg (by simp [noSpace]), if_neg (by simp [noEnd]),
    commentMark?_of_head noComment]
  simp only [readLexeme, start, if_true, taken, left, Option.map_some, Prod.map, id]
  rw [← chars, String.ofList_toList]

section Numerals

/-- A radix has a letter, and an `n` is never a digit. -/
theorem radix?_eq_some {c : Char} {isDigit : Char → Bool} (radix : radix? c = some isDigit) :
    c.isAlphanum ∧ c.isDigit = false ∧ isDigit 'n' = false := by
  -- A character that is none of the six letters has no radix.
  have letter : c ∈ ['x', 'X', 'o', 'O', 'b', 'B'] := by
    by_contra other
    simp only [List.mem_cons, List.not_mem_nil, or_false, not_or] at other
    simp [radix?, other] at radix
  simp only [List.mem_cons, List.not_mem_nil, or_false] at letter
  rcases letter with rfl | rfl | rfl | rfl | rfl | rfl <;> (cases radix; decide)

theorem radix?_of_not_part {c : Char} (apart : names.part c = false) : radix? c = none := by
  cases radix : radix? c with
  | none => rfl
  | some isDigit => simp [NameChars.part_of_isAlphanum (radix?_eq_some radix).1] at apart

theorem radix?_of_isDigit {c : Char} (digit : c.isDigit) : radix? c = none := by
  cases radix : radix? c with
  | none => rfl
  | some isDigit =>
    have letter := (radix?_eq_some radix).2.1
    simp [digit] at letter

/-- Digits and separators are taken up to the first character that is neither. -/
theorem takeDigits_append {isDigit : Char → Bool} {digits : List Char}
    (all : ∀ c ∈ digits, isDigit c ∨ c = '_')
    (stops : Begins tail fun c => isDigit c = false ∧ c ≠ '_') :
    takeDigits isDigit (digits ++ tail) = digits :=
  (takeWhile_append_of_begins (p := fun c => isDigit c || c == '_') (by simpa using all)
    (stops.imp fun c stop => by simpa using stop)).1

theorem areDigits_mem {isDigit : Char → Bool} {digits : List Char}
    (are : areDigits isDigit digits) : ∀ c ∈ digits, isDigit c ∨ c = '_' := by
  fun_induction areDigits isDigit digits with
  | case1 => cases are
  | case2 c => simpa using .inl are
  | case3 c d rest behindSeparator behindDigit =>
    rw [Bool.and_eq_true] at are
    by_cases separator : d = '_'
    · rw [if_pos (by simpa using separator)] at are
      have later := behindSeparator are.2
      simp_all
    · rw [if_neg (by simpa using separator)] at are
      have later := behindDigit are.2
      simp_all

theorem areDigits_of_all {isDigit : Char → Bool} {digits : List Char} (some : digits ≠ [])
    (all : ∀ c ∈ digits, isDigit c ∧ c ≠ '_') : areDigits isDigit digits := by
  fun_induction areDigits isDigit digits with
  | case1 => exact absurd rfl some
  | case2 c => exact (all c (by simp)).1
  | case3 c d rest behindSeparator behindDigit =>
    have noSeparator : d ≠ '_' := (all d (by simp)).2
    rw [if_neg (by simpa using noSeparator), Bool.and_eq_true]
    exact ⟨(all c (by simp)).1, behindDigit (by simp) fun e member => all e (by simp [member])⟩

/-- An integer in decimal is taken up to the first character that is no digit. -/
theorem takeInteger_decimal {digits : List Char} (radix : hasRadix (digits ++ tail) = false) :
    takeInteger (digits ++ tail) = takeDigits Char.isDigit (digits ++ tail) := by
  unfold hasRadix at radix
  unfold takeInteger
  split
  · next c rest same =>
    rw [same] at radix
    simp only [Option.isSome_eq_false_iff, Option.isNone_iff_eq_none] at radix
    rw [radix, same]
  · rfl

theorem hasRadix_of_ne {c : Char} (noZero : c ≠ '0') (rest : List Char) :
    hasRadix (c :: rest) = false := by
  unfold hasRadix
  split
  · next same => exact absurd (List.cons.inj same).1 noZero
  · rfl

/-- An integer in front of an `n` is taken as it is. -/
theorem takeInteger_big {text : List Char} (integer : isInteger text) :
    takeInteger (text ++ 'n' :: tail) = text := by
  unfold isInteger at integer
  split at integer
  · rfl
  · next c rest =>
    obtain ⟨isDigit, radix, are⟩ := (Option.any_eq_true _ _).mp integer
    simp only [List.cons_append, takeInteger, radix]
    rw [takeDigits_append (areDigits_mem are) (by simp [Begins, (radix?_eq_some radix).2.2])]
  · -- Digits that begin with a zero are one of the first two kinds.
    next onlyZero zeroFirst =>
    have noRadix : hasRadix (text ++ 'n' :: tail) = false := by
      match text with
      | [] => rfl
      | [c] =>
        refine hasRadix_of_ne ?_ _
        rintro rfl
        exact onlyZero rfl
      | c :: d :: rest =>
        refine hasRadix_of_ne ?_ _
        rintro rfl
        exact zeroFirst d rest rfl
    rw [takeInteger_decimal noRadix,
      takeDigits_append (areDigits_mem integer) (by simp [Begins])]

/-- What is no part of a name neither begins a name nor is a digit. -/
theorem any_head?_of_apart (apart : Begins tail (names.part · = false)) :
    tail.head?.any (fun c => names.start c || c.isDigit) = false := by
  cases first : tail.head? with
  | none => rfl
  | some c =>
    have noPart := apart c first
    -- What starts a name may also stand inside one, and so may a digit.
    have noStart : names.start c = false := by
      by_contra start
      simp [names.part_of_start c (by simpa using start)] at noPart
    have noDigit : c.isDigit = false := by
      by_contra digit
      have part : names.part c := NameChars.part_of_isDigit (by simpa using digit)
      simp [part] at noPart
    simp [noStart, noDigit]

/-- Behind an integer, an `n` ends a numeral, whatever stands behind it but for another name. -/
theorem numeral?_big {text : List Char} (integer : isInteger text)
    (apart : Begins tail (names.part · = false)) :
    numeral? names (text ++ 'n' :: tail) = some (text ++ ['n']) := by
  have noFraction : takeFraction ('n' :: tail) = [] := rfl
  have noExponent : takeExponent ('n' :: tail) = [] := by
    cases tail <;> rfl
  simp [numeral?, takeInteger_big integer, noFraction, noExponent, integer,
    any_head?_of_apart apart]

/-- Decimal digits without a needless zero in front, and with or without a fraction. -/
inductive IsDecimal : List Char → Prop where
  | whole {digits : List Char} (all : ∀ c ∈ digits, c.isDigit) (integer : isInteger digits) :
    IsDecimal digits
  | fraction {digits places : List Char} (all : ∀ c ∈ digits, c.isDigit)
    (integer : isInteger digits) (some : places ≠ []) (allPlaces : ∀ c ∈ places, c.isDigit) :
    IsDecimal (digits ++ '.' :: places)

theorem ne_underscore_of_isDigit {c : Char} (digit : c.isDigit) : c ≠ '_' := by
  rintro rfl
  cases digit

/-- Digits have no radix, if none of its letters follows. -/
theorem hasRadix_append {digits : List Char} (all : ∀ c ∈ digits, c.isDigit)
    (some : digits ≠ []) (noLetter : Begins tail (radix? · = none)) :
    hasRadix (digits ++ tail) = false := by
  unfold hasRadix
  split
  · next c rest same =>
    have second : radix? c = none := by
      match digits, some with
      | [d], _ =>
        obtain ⟨-, rfl⟩ := List.cons.inj same
        exact noLetter c rfl
      | d :: e :: digits, _ =>
        obtain ⟨rfl, -⟩ := List.cons.inj (List.cons.inj same).2
        exact radix?_of_isDigit (all e (by simp))
    rw [second]
    rfl
  · rfl

theorem takeInteger_append {digits : List Char} (all : ∀ c ∈ digits, c.isDigit)
    (some : digits ≠ []) (noLetter : Begins tail (radix? · = none))
    (stops : Begins tail fun c => c.isDigit = false ∧ c ≠ '_') :
    takeInteger (digits ++ tail) = digits := by
  rw [takeInteger_decimal (hasRadix_append all some noLetter),
    takeDigits_append (fun c member => .inl (all c member)) stops]

theorem isInteger_ne_nil {digits : List Char} (integer : isInteger digits) : digits ≠ [] := by
  rintro rfl
  cases integer

theorem takeFraction_of_begins (noPoint : Begins tail (· ≠ '.')) : takeFraction tail = [] := by
  unfold takeFraction
  split
  · exact absurd rfl (noPoint '.' rfl)
  · rfl

theorem takeExponent_of_begins (noLetter : Begins tail fun c => c ≠ 'e' ∧ c ≠ 'E') :
    takeExponent tail = [] := by
  unfold takeExponent
  split
  · next c d rest =>
    obtain ⟨small, large⟩ := noLetter c rfl
    simp [small, large]
  · rfl

/-- A number is taken as far as its digits go. -/
theorem numeral?_decimal {text : List Char} (decimal : IsDecimal text)
    (apart : Begins tail fun c => names.part c = false ∧ c ≠ '.') :
    numeral? names (text ++ tail) = some text := by
  have noPart : Begins tail (names.part · = false) := apart.imp fun c stop => stop.1
  have other {c : Char} (stop : names.part c = false) (d : Char) (isPart : d.isAlphanum) :
      c ≠ d := by
    rintro rfl
    simp [NameChars.part_of_isAlphanum isPart] at stop
  have noLetter : Begins tail (radix? · = none) := noPart.imp fun c => radix?_of_not_part
  have stops : Begins tail fun c => c.isDigit = false ∧ c ≠ '_' := by
    refine noPart.imp fun c stop => ⟨?_, ?_⟩
    · by_contra digit
      have part : names.part c := NameChars.part_of_isDigit (by simpa using digit)
      simp [part] at stop
    · rintro rfl
      simp [names.part_ascii '_' (by decide)] at stop
  have noFraction : takeFraction tail = [] :=
    takeFraction_of_begins (apart.imp fun c stop => stop.2)
  have noExponent : takeExponent tail = [] :=
    takeExponent_of_begins (noPart.imp fun c stop => ⟨other stop 'e' rfl, other stop 'E' rfl⟩)
  have small : tail.head? ≠ some 'n' := fun first => other (noPart 'n' first) 'n' rfl rfl
  have atEnd {digits : List Char} (all : ∀ c ∈ digits, c.isDigit) (integer : isInteger digits) :
      hasRadix digits = false := by
    have nothing : Begins [] (radix? · = none) := by simp [Begins]
    simpa using hasRadix_append all (isInteger_ne_nil integer) nothing
  cases decimal with
  | whole all integer =>
    simp [numeral?, takeInteger_append all (isInteger_ne_nil integer) noLetter stops, noFraction,
      noExponent, integer, any_head?_of_apart noPart, atEnd all integer, small]
  | @fraction digits places all integer some allPlaces =>
    have front : takeInteger (digits ++ '.' :: (places ++ tail)) = digits :=
      takeInteger_append all (isInteger_ne_nil integer) (by simp [Begins, radix?])
        (by simp [Begins])
    have back : takeFraction ('.' :: (places ++ tail)) = '.' :: places := by
      rw [takeFraction, takeDigits_append (fun c member => .inl (allPlaces c member)) stops]
    have are : areDigits Char.isDigit places :=
      areDigits_of_all some fun c member =>
        ⟨allPlaces c member, ne_underscore_of_isDigit (allPlaces c member)⟩
    simp [numeral?, front, back, atEnd all integer, noExponent, integer, are,
      any_head?_of_apart noPart]

end Numerals

theorem isAlpha_of_isDigit {c : Char} (digit : c.isDigit) : c.isAlpha = false := by
  by_contra letter
  rw [Bool.not_eq_false] at letter
  unfold Char.isAlpha Char.isUpper Char.isLower at letter
  unfold Char.isDigit at digit
  simp only [Bool.or_eq_true, Bool.and_eq_true, decide_eq_true_eq, UInt32.le_iff_toNat_le,
    ge_iff_le] at digit letter
  change 48 ≤ c.toNat ∧ c.toNat ≤ 57 at digit
  change (65 ≤ c.toNat ∧ c.toNat ≤ 90) ∨ 97 ≤ c.toNat ∧ c.toNat ≤ 122 at letter
  omega

/-- A digit is visible and begins neither a name nor a comment. -/
theorem visible_of_isDigit {c : Char} (digit : c.isDigit) :
    isSpace c = false ∧ endsLine c = false ∧ names.start c = false ∧ c ∉ ['/', '<', '-'] := by
  have notSpace : spaces.all fun d => !d.isDigit := by decide
  have notMark : ['/', '<', '-'].all fun d => !d.isDigit := by decide
  rw [List.all_eq_true] at notSpace notMark
  refine ⟨?_, ?_, ?_, fun member => by simpa [digit] using notMark c member⟩
  · by_contra space
    simpa [digit] using notSpace c (by simpa [isSpace] using space)
  · by_contra ends
    simp only [endsLine, Bool.not_eq_false, Bool.or_eq_true, beq_iff_eq] at ends
    rcases ends with ((rfl | rfl) | rfl) | rfl <;> cases digit
  · rw [names.start_ascii c (ascii_of_isAlphanum (by simp [Char.isAlphanum, digit])),
      isAlpha_of_isDigit digit]
    have noDollar : c ≠ '$' := by
      rintro rfl
      cases digit
    simp [ne_underscore_of_isDigit digit, noDollar]

/-- A numeral is taken as it is. -/
theorem readElement_numeral {text : List Char} (first : Begins text (·.isDigit)) (some : text ≠ [])
    (numeral : numeral? names (text ++ tail) = Option.some text) :
    readElement names goal fresh (text ++ tail) =
      Option.some (.lexeme (.numeral (String.ofList text)), tail) := by
  obtain ⟨c, rest, rfl⟩ := List.exists_cons_of_ne_nil some
  have digit : c.isDigit := first c rfl
  obtain ⟨noSpace, noEnd, noStart, noComment⟩ := @visible_of_isDigit names c digit
  rw [List.cons_append] at numeral ⊢
  rw [readElement, if_neg (by simp [noSpace]), if_neg (by simp [noEnd]),
    commentMark?_of_head noComment]
  simp [readLexeme, noStart, digit, numeral]

section Literals

/-- A string literal is taken as it is, whatever stands behind it. -/
theorem readElement_string (value : List UInt16) :
    readElement names goal fresh ((quoted value).toList ++ tail) =
      some (.lexeme (.literal (quoted value)), tail) := by
  have noStart : names.start '"' = false := by
    rw [names.start_ascii _ (by decide)]
    decide
  have whole : before ('"' :: (quotedInside value ++ tail)) tail = quoted value := by
    rw [← List.cons_append, before_append, ← toList_quoted, String.ofList_toList]
  rw [toList_quoted, List.cons_append, readElement, if_neg (by decide), if_neg (by decide),
    commentMark?_of_head (by decide)]
  simp only [readLexeme, noStart, readLiteral_quotedInside, whole]
  simp

/-- Whether a text is a regular expression literal: a body between slashes, and letters as flags. -/
def isRegExp (text : String) : Bool :=
  match text.toList with
  | '/' :: c :: rest =>
    c != '*' && c != '/' &&
      match behindRegExpBody? false (c :: rest) with
      | some flags => flags.all Char.isAlpha
      | none => false
  | _ => false

theorem exists_of_isRegExp {text : String} (isRegExp : isRegExp text) :
    ∃ c rest flags, text.toList = '/' :: c :: rest ∧ c ≠ '*' ∧ c ≠ '/' ∧
      behindRegExpBody? false (c :: rest) = some flags ∧ ∀ d ∈ flags, d.isAlpha := by
  unfold Scanner.isRegExp at isRegExp
  split at isRegExp
  · next c rest chars =>
    simp only [Bool.and_eq_true, bne_iff_ne] at isRegExp
    obtain ⟨⟨star, slash⟩, body⟩ := isRegExp
    split at body
    · next flags ends =>
      exact ⟨c, rest, flags, chars, star, slash, ends, List.all_eq_true.mp body⟩
    · cases body
  · cases isRegExp

theorem behindRegExpBody?_cons {inClass : Bool} {c : Char} (plain : c ≠ '\\') (rest : List Char) :
    behindRegExpBody? inClass (c :: rest) =
      if endsLine c then none
      else if c == '/' && !inClass then some rest
      else behindRegExpBody? (c == '[' || inClass && c != ']') rest :=
  behindRegExpBody?.eq_3 _ _ _ fun _ _ escape _ => plain escape

/-- The body of a regular expression ends where it does, whatever stands behind it. -/
theorem behindRegExpBody?_append {inClass : Bool} {cs rest : List Char}
    (ends : behindRegExpBody? inClass cs = some rest) (tail : List Char) :
    behindRegExpBody? inClass (cs ++ tail) = some (rest ++ tail) := by
  fun_induction behindRegExpBody? inClass cs with
  | case1 | case2 | case4 => cases ends
  | case3 inClass c others line ih =>
    rw [List.cons_append, List.cons_append, behindRegExpBody?, if_neg line]
    exact ih ends
  | case5 inClass c others noEscape line closes =>
    -- The slash that closes the body is no escape, so the body is read the same way.
    have isSlash : c = '/' := by
      rw [Bool.and_eq_true, beq_iff_eq] at closes
      exact closes.1
    have plain : c ≠ '\\' := by
      rw [isSlash]
      decide
    cases ends
    rw [List.cons_append, behindRegExpBody?_cons plain, if_neg line, if_pos closes]
  | case6 inClass c others noEscape line goesOn ih =>
    have plain : c ≠ '\\' := by
      rintro rfl
      -- A backslash at the end of all escapes nothing, and the body does not end.
      cases others with
      | nil => cases ends
      | cons d others => exact noEscape d others rfl rfl
    rw [List.cons_append, behindRegExpBody?_cons plain, if_neg line, if_neg goesOn]
    exact ih ends

/--
Where an operand is expected, a regular expression is taken together with all that could be flags.
-/
theorem readElement_regExp {text : String} (isRegExp : isRegExp text) :
    readElement names .operand fresh (text.toList ++ tail) =
      some (.lexeme (.literal (String.ofList (text.toList ++ tail.takeWhile names.part))),
        tail.dropWhile names.part) := by
  obtain ⟨c, rest, flags, chars, star, slash, ends, letters⟩ := exists_of_isRegExp isRegExp
  have noStart : names.start '/' = false := by
    rw [names.start_ascii _ (by decide)]
    decide
  have parts : ∀ c ∈ flags, names.part c := fun c member =>
    NameChars.part_of_isAlphanum (by simp [Char.isAlphanum, letters c member])
  have read := behindRegExpBody?_append ends tail
  rw [List.cons_append] at read
  -- The flags are parts of a name, and so the word is taken to its end.
  have left : (flags ++ tail).dropWhile names.part = tail.dropWhile names.part :=
    List.dropWhile_append_of_pos parts
  have whole : before ('/' :: c :: (rest ++ tail)) (tail.dropWhile names.part) =
      String.ofList ('/' :: c :: rest ++ tail.takeWhile names.part) := by
    rw [← before_append, List.append_assoc, List.takeWhile_append_dropWhile]
    rfl
  rw [chars, List.cons_append, List.cons_append, readElement, if_neg (by decide),
    if_neg (by decide), commentMark?_slash star slash]
  simp only [readLexeme, noStart, read, Option.map_some, left, whole]
  rfl

end Literals

section Marks

/-- The characters that would make a longer mark of a mark, or a comment. -/
def extensions (mark : String) : List Char :=
  (["//", "/*"] ++ punctuators).filterMap fun longer =>
    if mark.toList.isPrefixOf longer.toList then longer.toList[mark.toList.length]? else none

/-- Where nothing extends a mark, only its own beginnings are marks that a text begins with. -/
theorem isPrefix_of_apart {mark longer : String}
    (known : longer = "//" ∨ longer = "/*" ∨ longer ∈ punctuators)
    (apart : Begins tail (· ∉ extensions mark)) (matches' : longer.toList <+: mark.toList ++ tail) :
    longer.toList <+: mark.toList := by
  rcases List.prefix_or_prefix_of_prefix matches' (List.prefix_append mark.toList tail) with
    shorter | ⟨more, same⟩
  · exact shorter
  · cases more with
    | nil => simp [← same]
    | cons c more =>
      -- What is longer goes on with the first character behind the mark.
      rw [← same, List.prefix_append_right_inj] at matches'
      obtain ⟨rest, rfl⟩ := matches'
      refine absurd ?_ (apart c rfl)
      refine List.mem_filterMap.mpr ⟨longer, by simpa [or_assoc] using known, ?_⟩
      rw [if_pos (List.isPrefixOf_iff_prefix.mpr ⟨c :: more, same⟩), ← same]
      simp

/-- A mark is taken as it is if nothing extends it. -/
theorem mark?_append {mark : String} (known : mark ∈ punctuators)
    (apart : Begins tail (· ∉ extensions mark))
    (optional : mark = "?." → Begins tail (·.isDigit = false)) :
    mark? (mark.toList ++ tail) = some mark := by
  -- Of the marks that a text may begin with, the longest is found first.
  have first : ∀ mark ∈ punctuators,
      punctuators.find? (fun other => other.toList.isPrefixOf mark.toList) = some mark := by
    decide +kernel
  have optionalOnly : ∀ mark ∈ punctuators, "?.".toList <+: mark.toList → mark = "?." := by
    decide +kernel
  rw [mark?, ← first mark known]
  -- So it is enough that the same marks fit with and without what stands behind.
  refine List.find?_congr fun other member => ?_
  by_cases fits : other.toList <+: mark.toList
  · have allowed :
        (other == "?." && ((mark.toList ++ tail).drop 2).head?.any Char.isDigit) = false := by
      by_cases isOptional : other = "?."
      · obtain rfl := optionalOnly mark known (isOptional ▸ fits)
        have noDigit := optional rfl
        cases first : tail.head? with
        | none => simp [first]
        | some c => simp [first, noDigit c first]
      · simp [isOptional]
    have here := List.isPrefixOf_iff_prefix.mpr fits
    have there := List.isPrefixOf_iff_prefix.mpr (fits.trans (List.prefix_append mark.toList tail))
    rw [here, there, allowed]
    rfl
  · have noMatch : ¬other.toList <+: mark.toList ++ tail := fun matches' =>
      fits (isPrefix_of_apart (.inr (.inr member)) apart matches')
    simp only [← List.isPrefixOf_iff_prefix, Bool.not_eq_true] at fits noMatch
    rw [fits, noMatch, Bool.false_and]

/-- Where nothing extends a mark, a comment begins with it only if four characters of its do. -/
theorem commentMark?_of_apart {mark : String} (known : mark ∈ punctuators)
    (apart : Begins tail (· ∉ extensions mark))
    (noOpening : mark = "<" → ¬['!', '-', '-'] <+: tail)
    (noClosing : fresh → mark = "--" → Begins tail (· ≠ '>')) :
    commentMark? fresh (mark.toList ++ tail) = none := by
  have inNoMark : ∀ opening ∈ ["//", "/*", "<!--", "-->"], ∀ mark ∈ punctuators,
      ¬opening.toList <+: mark.toList := by
    decide +kernel
  have inOpening : ∀ mark ∈ punctuators, mark.toList <+: "<!--".toList → mark = "<" := by
    decide +kernel
  have inClosing : ∀ mark ∈ punctuators, mark.toList <+: "-->".toList →
      mark = "-" ∨ mark = "--" := by
    decide +kernel
  -- A comment that opens here is longer than the mark, and begins with all of it.
  have within {opening : String} (isOpening : opening ∈ ["//", "/*", "<!--", "-->"])
      (begins : opening.toList <+: mark.toList ++ tail) : mark.toList <+: opening.toList :=
    (List.prefix_or_prefix_of_prefix begins (List.prefix_append mark.toList tail)).resolve_left
      (inNoMark opening isOpening mark known)
  refine List.find?_eq_none.mpr fun opening member begins => ?_
  rw [List.isPrefixOf_iff_prefix] at begins
  rcases mem_commentMarks member with rfl | rfl | rfl | ⟨isFresh, rfl⟩
  · exact inNoMark _ (by decide) mark known (isPrefix_of_apart (.inl rfl) apart begins)
  · exact inNoMark _ (by decide) mark known (isPrefix_of_apart (.inr (.inl rfl)) apart begins)
  · obtain rfl := inOpening mark known (within (by decide) begins)
    exact noOpening rfl ((List.prefix_append_right_inj ['<']).mp begins)
  · rcases inClosing mark known (within (by decide) begins) with rfl | rfl
    · -- A single minus sign is extended by a second one, which is excluded.
      have behind : ['-', '>'] <+: tail := (List.prefix_append_right_inj ['-']).mp begins
      obtain ⟨rest, rfl⟩ := behind
      exact apart '-' rfl (by decide +kernel)
    · have behind : ['>'] <+: tail := (List.prefix_append_right_inj ['-', '-']).mp begins
      obtain ⟨rest, rfl⟩ := behind
      exact noClosing isFresh rfl '>' rfl rfl

/-- The characters that marks begin with are visible, of ASCII and in no name, number or string. -/
def beginsMark (c : Char) : Bool :=
  !isSpace c && !endsLine c && c.toNat < 128 && !(c.isAlphanum || c == '_' || c == '$') &&
    c != '"' && c != '\x27'

theorem exists_head_of_punctuator {mark : String} (known : mark ∈ punctuators) :
    ∃ c rest, mark.toList = c :: rest ∧ beginsMark c ∧
      (c = '/' → mark = "/" ∨ mark = "/=") ∧ (c = '.' → rest = [] ∨ rest.head? = some '.') := by
  -- There are finitely many marks.
  have checked : ∀ mark ∈ punctuators, mark.toList.head?.any beginsMark ∧
      (mark.toList.head? = some '/' → mark = "/" ∨ mark = "/=") ∧
      (mark.toList.head? = some '.' → mark.toList.tail = [] ∨
        mark.toList.tail.head? = some '.') := by
    decide +kernel
  obtain ⟨begins, slash, point⟩ := checked mark known
  cases chars : mark.toList with
  | nil => rw [chars] at begins; cases begins
  | cons c rest =>
    rw [chars] at begins slash point
    exact ⟨c, rest, rfl, begins, fun same => slash (by rw [same]; rfl),
      fun same => point (by rw [same]; rfl)⟩

/-- No name contains what a mark begins with. -/
theorem part_of_beginsMark {c : Char} (begins : beginsMark c) : names.part c = false := by
  simp only [beginsMark, Bool.and_eq_true, decide_eq_true_eq, Bool.not_eq_true'] at begins
  rw [names.part_ascii c begins.1.1.1.2]
  exact begins.1.1.2

/--
A mark is taken as it is if nothing extends it; a slash is one where no operand is expected.
-/
theorem readElement_mark {mark : String} (known : mark ∈ punctuators)
    (apart : Begins tail (· ∉ extensions mark))
    (noDigit : mark = "." ∨ mark = "?." → Begins tail (·.isDigit = false))
    (noOpening : mark = "<" → ¬['!', '-', '-'] <+: tail)
    (noClosing : fresh → mark = "--" → Begins tail (· ≠ '>'))
    (division : mark = "/" ∨ mark = "/=" → goal ≠ .operand) :
    readElement names goal fresh (mark.toList ++ tail) = some (.lexeme (.mark mark), tail) := by
  have noComment := @commentMark?_of_apart fresh tail mark known apart noOpening noClosing
  have taken := mark?_append known apart fun isOptional => noDigit (.inr isOptional)
  obtain ⟨c, rest, chars, begins, slash, point⟩ := exists_head_of_punctuator known
  have noPart : names.part c = false := part_of_beginsMark begins
  have noStart : names.start c = false := by
    by_contra start
    simp [names.part_of_start c (by simpa using start)] at noPart
  -- A point begins a number only before a digit.
  have noNumeral : (c.isDigit || c == '.' && (rest ++ tail).head?.any Char.isDigit) = false := by
    have noDigitHere : c.isDigit = false := by
      by_contra digit
      have part : names.part c := NameChars.part_of_isDigit (by simpa using digit)
      simp [part] at noPart
    by_cases isPoint : c = '.'
    · rcases point isPoint with rfl | two
      · have isPoint : mark = "." := String.toList_injective (by simp [chars, isPoint])
        cases first : tail.head? with
        | none => simp [noDigitHere, first]
        | some d => simp [noDigitHere, first, noDigit (.inl isPoint) d first]
      · obtain ⟨others, rfl⟩ := List.head?_eq_some_iff.mp two
        simp [noDigitHere]
    · simp [noDigitHere, isPoint]
  have noRegExp : (c == '/' && goal == .operand) = false := by
    by_cases isSlash : c = '/'
    · simp [division (slash isSlash)]
    · simp [isSlash]
  simp only [beginsMark, Bool.and_eq_true, Bool.not_eq_true', bne_iff_ne] at begins
  obtain ⟨⟨⟨⟨⟨noSpace, noEnd⟩, -⟩, -⟩, noQuote⟩, noApostrophe⟩ := begins
  rw [chars, List.cons_append] at noComment taken ⊢
  rw [readElement, if_neg (by simp [noSpace]), if_neg (by simp [noEnd]), noComment]
  have length : mark.length = rest.length + 1 := by
    rw [← String.length_toList, chars, List.length_cons]
  rw [readLexeme, if_neg (by simp [noStart]), if_neg (by rw [noNumeral]; simp),
    if_neg (by simp [noQuote, noApostrophe]), if_neg (by simp [noRegExp]), taken]
  simp [length]

end Marks

section Steps

variable {cs behind : List Char}

/-- A scan goes on behind the input element that it begins with. -/
theorem scan_of_readElement {element : InputElement}
    (read : readElement names goal fresh cs = some (element, behind))
    (shorter : behind.length < cs.length) :
    scan names goal fresh cs =
      (scan names (element.goalBehind goal) (element.freshBehind fresh) behind).map
        (element.shown ++ ·) := by
  cases cs with
  | nil => cases read
  | cons c rest =>
    rw [scan, read]
    exact if_pos shorter

/-- A space is passed over. -/
theorem scan_space : scan names goal fresh (' ' :: tail) = scan names goal fresh tail := by
  have read : readElement names goal fresh (' ' :: tail) = some (.space, tail) := by
    rw [readElement, if_pos (by decide)]
  rw [scan_of_readElement read (by simp)]
  simp [InputElement.goalBehind, InputElement.freshBehind, InputElement.shown]

/-- A lexeme is scanned, and the rest is scanned behind it. -/
theorem scan_lexeme {l : Lexeme} {text : List Char}
    (read : readElement names goal fresh (text ++ tail) = some (.lexeme l, behind))
    (shorter : behind.length < (text ++ tail).length) :
    scan names goal fresh (text ++ tail) =
      (scan names (goalBehind goal l) false behind).map (.lexeme l :: ·) :=
  scan_of_readElement read shorter

end Steps

end EcmaPrune.Scanner
