import EcmaPrune.Proofs.Print.Layout
import EcmaPrune.Proofs.Print.ScannerLaws

/-!
Fragments that a scanner takes apart again.

What may stand where an operand is expected, behind an operand and behind a point is told apart by
few first characters. Together with the spaces that the printer puts between fragments, these keep
a scanner from taking more than one fragment at once, but for two places.
-/

namespace EcmaPrune

open Scanner

/-- The text of fragments behind one that ends in a given way. -/
def layout (boundary : Boundary) (fragments : List Fragment) : List Char :=
  (fragments.foldl Emitter.write ⟨"", boundary⟩).output.toList

@[simp]
theorem layout_nil (boundary : Boundary) : layout boundary [] = [] := rfl

theorem layout_cons {f : Fragment} (notRaw : f.isRaw = false) (text : f.text.isEmpty = false)
    (boundary : Boundary) (rest : List Fragment) :
    layout boundary (f :: rest) =
      (boundary.gap f.leading).toList ++ (f.text.toList ++ layout f.boundary rest) := by
  rw [layout, List.foldl_cons, Emitter.write_of_text notRaw text, Emitter.foldl_write]
  simp [layout]

theorem toList_render (fragments : List Fragment) :
    (Emitter.render fragments).toList = layout .none fragments := rfl

namespace Scanner

/-- The marks of the operators between two operands. -/
def binaryMarks : List String :=
  (Operator.all.filter fun op => op.arity == .binary && !op.isKeyword).map Operator.text

/-- The marks that may stand in an expression; brackets may be closed behind no operand at all. -/
def marksAt : Goal → List String
  | .operand => ["(", "[", ")", "]", "+", "-", "~", "!", "++", "--"]
  | .operator => ["(", "[", ")", "]", ".", "?.", "++", "--", "?", ":"] ++ binaryMarks
  | .member => ["(", "["]

variable (names : NameChars)

/-- A fragment that may stand in an expression where something is expected. -/
inductive Fits : Goal → Fragment → Prop where
  | keyword {goal : Goal} {text : String} (isName : names.isName text) : Fits goal (.keyword text)
  | identifier {goal : Goal} {text : String} (isName : names.isName text) :
    Fits goal (.identifier text)
  | number {text : String} (decimal : IsDecimal text.toList) : Fits .operand (.number text)
  | bigInt {text : String} (integer : isInteger text.toList) : Fits .operand (.number (text ++ "n"))
  | string (value : List UInt16) : Fits .operand (.literal (Text.quoted value))
  | regExp {text : String} (isRegExp : isRegExp text) : Fits .operand (.literal text)
  | mark {goal : Goal} {text : String} (isMark : text ∈ marksAt goal) : Fits goal (.punct text)

/-- Fragments in turn, from where something is expected to where something else is. -/
inductive Flows : Goal → List Fragment → Goal → Prop where
  | nil (goal : Goal) : Flows goal [] goal
  | cons {goal last : Goal} {f : Fragment} {rest : List Fragment} (fits : Fits names goal f)
    (later : Flows (goalBehind goal f.lexeme) rest last) : Flows goal (f :: rest) last

variable {names} {goal next last : Goal}

theorem Flows.append {first second : List Fragment} (flows : Flows names goal first next)
    (later : Flows names next second last) : Flows names goal (first ++ second) last := by
  induction flows with
  | nil => exact later
  | cons fits _ ih => exact .cons fits (ih later)

/-- Every mark of an expression is a mark that is known. -/
theorem marksAt_subset (goal : Goal) : ∀ mark ∈ marksAt goal, mark ∈ punctuators := by
  cases goal <;> decide +kernel

section FirstCharacter

theorem first_of_isDecimal {text : List Char} (decimal : IsDecimal text) :
    ∃ c rest, text = c :: rest ∧ c.isDigit := by
  cases decimal with
  | whole all integer =>
    obtain ⟨c, rest, rfl⟩ := List.exists_cons_of_ne_nil (isInteger_ne_nil integer)
    exact ⟨c, rest, rfl, all c (by simp)⟩
  | fraction all integer =>
    obtain ⟨c, rest, rfl⟩ := List.exists_cons_of_ne_nil (isInteger_ne_nil integer)
    exact ⟨c, _, rfl, all c (by simp)⟩

theorem first_of_isInteger {text : List Char} (integer : isInteger text) :
    ∃ c rest, text = c :: rest ∧ c.isDigit := by
  unfold isInteger at integer
  -- Zero stands alone or before the mark of a radix; else there is a first digit.
  split at integer
  · exact ⟨'0', _, rfl, rfl⟩
  · exact ⟨'0', _, rfl, rfl⟩
  · unfold areDigits at integer
    split at integer
    · cases integer
    · exact ⟨_, _, rfl, integer⟩
    · exact ⟨_, _, rfl, (Bool.and_eq_true_iff.mp integer).1⟩

/-- What the first character of a fragment tells where something is expected. -/
inductive Opens (names : NameChars) (goal : Goal) (f : Fragment) (c : Char) : Prop where
  | word (leading : f.leading = .word) (start : names.start c)
  | digit (expected : goal = .operand) (leading : f.leading = .number) (isDigit : c.isDigit)
  | quote (expected : goal = .operand) (leading : f.leading = .other) (isQuote : c = '"')
  | slash (expected : goal = .operand) (leading : f.leading = .slash) (isSlash : c = '/')
  | mark {mark : String} (isMark : mark ∈ marksAt goal) (same : f = .punct mark)
    (first : mark.toList.head? = some c)

theorem leading_of_digit {c : Char} (digit : c.isDigit) {text : String} {rest : List Char}
    (chars : text.toList = c :: rest) : (Fragment.number text).leading = .number := by
  have noPoint : c ≠ '.' := by
    rintro rfl
    cases digit
  simp [Fragment.leading, chars, noPoint]

/-- Every fragment that may stand somewhere is told by its first character. -/
theorem Fits.opens {f : Fragment} (fits : Fits names goal f) :
    ∃ c rest, f.text.toList = c :: rest ∧ Opens names goal f c := by
  cases fits with
  | keyword isName | identifier isName =>
    obtain ⟨c, rest, chars, start, -⟩ := NameChars.isName_iff.mp isName
    exact ⟨c, rest, chars, .word rfl start⟩
  | number decimal =>
    obtain ⟨c, rest, chars, digit⟩ := first_of_isDecimal decimal
    exact ⟨c, rest, chars, .digit rfl (leading_of_digit digit chars) digit⟩
  | @bigInt text integer =>
    obtain ⟨c, rest, chars, digit⟩ := first_of_isInteger integer
    -- The mark behind the digits does not change what they begin with.
    have withMark : (text ++ "n").toList = c :: (rest ++ ['n']) := by
      rw [String.toList_append, chars]
      rfl
    exact ⟨c, _, withMark, .digit rfl (leading_of_digit digit withMark) digit⟩
  | string value =>
    have chars := Text.toList_quoted value
    refine ⟨_, _, chars, .quote rfl ?_ rfl⟩
    rw [Fragment.leading, chars]
    rfl
  | @regExp text isRegExp =>
    obtain ⟨c, rest, flags, chars, -⟩ := exists_of_isRegExp isRegExp
    refine ⟨_, _, chars, .slash rfl ?_ rfl⟩
    rw [Fragment.leading, chars]
    rfl
  | @mark goal text isMark =>
    obtain ⟨c, rest, chars, -⟩ := exists_head_of_punctuator (marksAt_subset goal text isMark)
    exact ⟨c, rest, chars, .mark isMark rfl (by rw [chars]; rfl)⟩

theorem Fits.isRaw {f : Fragment} (fits : Fits names goal f) : f.isRaw = false := by
  cases fits <;> rfl

theorem Fits.text {f : Fragment} (fits : Fits names goal f) : f.text.isEmpty = false := by
  obtain ⟨c, rest, chars, -⟩ := fits.opens
  rw [Bool.eq_false_iff, ne_eq, String.isEmpty_iff]
  intro empty
  rw [empty] at chars
  cases chars

theorem Fits.layout {f : Fragment} (fits : Fits names goal f) (boundary : Boundary)
    (rest : List Fragment) :
    layout boundary (f :: rest) =
      (boundary.gap f.leading).toList ++ (f.text.toList ++ layout f.boundary rest) :=
  layout_cons fits.isRaw fits.text boundary rest

/-- A text begins with a space or with what its first fragment begins with. -/
theorem Flows.begins {fragments : List Fragment} (flows : Flows names goal fragments last)
    {boundary : Boundary} {holds : Char → Prop} (space : holds ' ')
    (opens : ∀ f ∈ fragments.head?, ∀ c, boundary.needsSpace f.leading = false →
      Opens names goal f c → holds c) : Begins (EcmaPrune.layout boundary fragments) holds := by
  intro c first
  cases flows with
  | nil => cases first
  | @cons _ _ f rest fits later =>
    obtain ⟨d, others, chars, isOpening⟩ := fits.opens
    rw [fits.layout, Boundary.gap] at first
    -- Either a space is put before the fragment, or the text begins with the fragment itself.
    cases gap : boundary.needsSpace f.leading with
    | true =>
      rw [gap] at first
      cases first
      exact space
    | false =>
      rw [gap, chars] at first
      cases first
      exact opens f rfl _ gap isOpening

end FirstCharacter

section Apart

variable {fragments : List Fragment} {boundary : Boundary}

theorem part_of_plain {c : Char} (plain : c ∈ [' ', '"', '/']) : names.part c = false := by
  simp only [List.mem_cons, List.not_mem_nil, or_false] at plain
  rcases plain with rfl | rfl | rfl
  · exact names.part_ascii ' ' (by decide)
  · exact names.part_ascii '"' (by decide)
  · exact names.part_ascii '/' (by decide)

/-- No name contains what a mark of an expression begins with. -/
theorem part_of_mark {mark : String} {c : Char} (isMark : mark ∈ marksAt goal)
    (first : mark.toList.head? = some c) : names.part c = false := by
  obtain ⟨d, rest, chars, begins, -⟩ :=
    exists_head_of_punctuator (marksAt_subset goal mark isMark)
  rw [chars] at first
  exact Option.some.inj first ▸ part_of_beginsMark begins

/-- Nothing that is not kept apart from a word or a number goes on with it. -/
theorem Flows.begins_apart (flows : Flows names goal fragments last)
    (words : boundary.needsSpace .word) (numbers : boundary.needsSpace .number) :
    Begins (EcmaPrune.layout boundary fragments) (names.part · = false) := by
  refine flows.begins (part_of_plain (by decide)) fun f _ c close opens => ?_
  -- What begins as a name or a number does is kept apart; nothing else goes on with one.
  cases opens with
  | word leading => rw [leading, words] at close; cases close
  | digit _ leading => rw [leading, numbers] at close; cases close
  | quote _ _ isQuote => exact isQuote ▸ part_of_plain (by decide)
  | slash _ _ isSlash => exact isSlash ▸ part_of_plain (by decide)
  | mark isMark _ first => exact part_of_mark isMark first

/-- A point is kept apart from a number. -/
theorem Flows.begins_noPoint (flows : Flows names goal fragments last) :
    Begins (EcmaPrune.layout .number fragments) (· ≠ '.') := by
  -- The marks are finitely many, so this is checked of each.
  have points : ∀ goal, ∀ mark ∈ marksAt goal, mark.toList.head? = some '.' →
      (Fragment.punct mark).leading = .dot := by
    intro goal
    cases goal <;> decide +kernel
  refine flows.begins (by decide) fun f _ c close opens => ?_
  rintro rfl
  cases opens with
  | word _ start =>
    rw [names.start_ascii _ (by decide)] at start
    exact absurd start (by decide)
  | digit _ _ isDigit => cases isDigit
  | quote _ _ isQuote | slash _ _ isQuote => exact absurd isQuote (by decide)
  | mark isMark same first =>
    rw [same, points _ _ isMark first] at close
    cases close

/-- What extends a mark is a mark. -/
theorem beginsMark_of_mem_extensions {mark : String} (known : mark ∈ punctuators) {c : Char}
    (extends' : c ∈ extensions mark) : beginsMark c := by
  have checked : ∀ mark ∈ punctuators, (extensions mark).all beginsMark := by decide +kernel
  exact List.all_eq_true.mp (checked mark known) c extends'

/-- Nothing that may stand behind a mark and is not kept apart from it extends it. -/
theorem Flows.begins_mark {mark : String} (isMark : mark ∈ marksAt goal)
    (flows : Flows names (goalBehind goal (.mark mark)) fragments last) :
    Begins (EcmaPrune.layout (Fragment.punct mark).boundary fragments) (· ∉ extensions mark) := by
  have known := marksAt_subset goal mark isMark
  have onlyMarks {c : Char} (noMark : beginsMark c = false) : c ∉ extensions mark :=
    fun member => by simp [beginsMark_of_mem_extensions known member] at noMark
  have ofPart {c : Char} (part : names.part c) : c ∉ extensions mark := by
    refine onlyMarks ?_
    by_contra begins
    have noPart : names.part c = false := part_of_beginsMark (by simpa using begins)
    simp [noPart] at part
  -- A regular expression opens with a slash, which is kept apart where it would extend a mark.
  have slashes : ∀ goal, ∀ mark ∈ marksAt goal, goalBehind goal (.mark mark) = .operand →
      (Fragment.punct mark).boundary.needsSpace .slash = false → '/' ∉ extensions mark := by
    intro goal
    cases goal <;> decide +kernel
  -- Two marks in a row are kept apart wherever the second would extend the first.
  have pairs : ∀ goal, ∀ mark ∈ marksAt goal, ∀ other ∈ marksAt (goalBehind goal (.mark mark)),
      (Fragment.punct mark).boundary.needsSpace (Fragment.punct other).leading = false →
        other.toList.head?.all fun c => !(extensions mark).contains c := by
    intro goal
    cases goal <;> decide +kernel
  refine flows.begins (onlyMarks (by decide)) fun f _ c close opens => ?_
  cases opens with
  | word _ start => exact ofPart (names.part_of_start c start)
  | digit _ _ isDigit => exact ofPart (NameChars.part_of_isDigit isDigit)
  | quote _ _ isQuote => exact isQuote ▸ onlyMarks (by decide)
  | slash expected leading isSlash =>
    rw [leading] at close
    exact isSlash ▸ slashes goal mark isMark expected close
  | mark isOther same first =>
    rw [same] at close
    have apart := pairs goal mark isMark _ isOther close
    rw [first] at apart
    simpa using apart

/-- Only a mark or a regular expression begins as a mark does. -/
theorem Opens.exists_mark {f : Fragment} {c : Char} (opens : Opens names goal f c)
    (begins : beginsMark c) (noSlash : c ≠ '/') :
    ∃ mark ∈ marksAt goal, f = .punct mark ∧ mark.toList.head? = some c := by
  have noPart : names.part c = false := part_of_beginsMark begins
  -- Names and numbers begin with what no mark begins with, and no mark is a quote.
  cases opens with
  | word _ start => simp [names.part_of_start c start] at noPart
  | digit _ _ isDigit =>
    have part : names.part c := NameChars.part_of_isDigit isDigit
    simp [part] at noPart
  | quote _ _ isQuote => exact absurd begins (by simp [isQuote, beginsMark])
  | slash _ _ isSlash => exact absurd isSlash noSlash
  | mark isMark same first => exact ⟨_, isMark, same, first⟩

/-- Behind a point, no digit stands. -/
theorem Flows.begins_noDigit (flows : Flows names .member fragments last) :
    Begins (EcmaPrune.layout boundary fragments) (·.isDigit = false) := by
  refine flows.begins (by decide) fun f _ c _ opens => ?_
  by_contra digit
  obtain ⟨-, -, noStart, -⟩ := @visible_of_isDigit names c (by simpa using digit)
  cases opens with
  | word _ start => simp [start] at noStart
  | digit expected | quote expected | slash expected => cases expected
  | @mark mark isMark _ first =>
    have noDigits : ∀ mark ∈ marksAt .member, mark.toList.head?.all (!·.isDigit) := by
      decide +kernel
    have noDigit := noDigits mark isMark
    rw [first] at noDigit
    exact digit (by simpa using noDigit)

/-- An update in front of its operand is not the end of a comment. -/
theorem Flows.begins_noClosing (flows : Flows names .operand fragments last) :
    Begins (EcmaPrune.layout boundary fragments) (· ≠ '>') := by
  refine flows.begins (by decide) fun f _ c _ opens => ?_
  rintro rfl
  obtain ⟨mark, isMark, -, first⟩ := opens.exists_mark (by decide) (by decide)
  have none : ∀ mark ∈ marksAt .operand, mark.toList.head? ≠ some '>' := by decide +kernel
  exact none mark isMark first

/-- A text that begins with a character that a mark begins with begins with such a mark. -/
theorem Flows.cons_of_head {c : Char} (flows : Flows names goal fragments last)
    (first : (EcmaPrune.layout boundary fragments).head? = some c) (begins : beginsMark c)
    (noSlash : c ≠ '/') :
    ∃ mark ∈ marksAt goal, mark.toList.head? = some c ∧
      boundary.needsSpace (Fragment.punct mark).leading = false ∧
      ∃ rest, fragments = .punct mark :: rest ∧
        Flows names (goalBehind goal (.mark mark)) rest last := by
  have noSpace : c ≠ ' ' := by
    rintro rfl
    exact absurd begins (by decide)
  -- Only the first fragment is known so far; what is behind it comes from the flow.
  have found : Begins (EcmaPrune.layout boundary fragments) fun d => d = c →
      ∃ mark ∈ marksAt goal, mark.toList.head? = some c ∧
        boundary.needsSpace (Fragment.punct mark).leading = false ∧
          fragments.head? = some (.punct mark) := by
    refine flows.begins (fun same => absurd same.symm noSpace) fun f isHead d close opens same => ?_
    subst same
    obtain ⟨mark, isMark, rfl, first⟩ := opens.exists_mark begins noSlash
    exact ⟨mark, isMark, first, close, isHead⟩
  obtain ⟨mark, isMark, head, close, isHead⟩ := found c first rfl
  cases flows with
  | nil => cases isHead
  | @cons _ _ f rest fits later =>
    obtain rfl := Option.some.inj isHead
    exact ⟨mark, isMark, head, close, rest, rfl, later⟩

theorem layout_not (rest : List Fragment) :
    EcmaPrune.layout .none (.punct "!" :: rest) = '!' :: EcmaPrune.layout .none rest := by
  rw [layout_cons rfl rfl]
  rfl

theorem layout_minus (mark : String) (isMinus : mark = "-" ∨ mark = "--") (rest : List Fragment) :
    EcmaPrune.layout .none (.punct mark :: rest) =
      mark.toList ++ EcmaPrune.layout .minus rest := by
  obtain rfl | rfl := isMinus
  · rw [layout_cons rfl rfl]
    rfl
  · rw [layout_cons rfl rfl]
    rfl

/-- Two marks in front of an operand write the end of the mark `<!--` and nothing else does. -/
theorem Flows.opening_iff (flows : Flows names .operand fragments last) :
    ['!', '-', '-'] <+: EcmaPrune.layout .none fragments ↔
      ∃ rest, fragments = .punct "!" :: .punct "--" :: rest := by
  constructor
  · -- Each of the three characters is the first one of the fragments that are left.
    rintro ⟨tail, same⟩
    have first : (EcmaPrune.layout .none fragments).head? = some '!' := by rw [← same]; rfl
    obtain ⟨mark, isMark, head, -, others, rfl, behindNot⟩ :=
      flows.cons_of_head first (by decide) (by decide)
    have isNot : ∀ mark ∈ marksAt .operand, mark.toList.head? = some '!' → mark = "!" := by
      decide +kernel
    obtain rfl := isNot mark isMark head
    have behind : EcmaPrune.layout .none others = '-' :: '-' :: tail := by
      rw [layout_not] at same
      exact (List.cons.inj same).2.symm
    have second : (EcmaPrune.layout .none others).head? = some '-' := by rw [behind]; rfl
    obtain ⟨minus, isMinus, head, -, rest, rfl, behindMinus⟩ :=
      Flows.cons_of_head behindNot second (by decide) (by decide)
    have single : ∀ mark ∈ marksAt .operand, mark.toList.head? = some '-' →
        mark = "-" ∨ mark = "--" := by
      decide +kernel
    rw [layout_minus minus (single minus isMinus head)] at behind
    obtain rfl | rfl := single minus isMinus head
    · -- A single minus sign is kept apart from another one behind it.
      have another : EcmaPrune.layout .minus rest = '-' :: tail := (List.cons.inj behind).2
      have third : (EcmaPrune.layout .minus rest).head? = some '-' := by rw [another]; rfl
      obtain ⟨mark, isMark, head, close, -⟩ :=
        Flows.cons_of_head behindMinus third (by decide) (by decide)
      have spaced : ∀ mark ∈ marksAt .operand, mark.toList.head? = some '-' →
          (Fragment.punct mark).leading = .minus := by
        decide +kernel
      rw [spaced mark isMark head] at close
      cases close
    · exact ⟨rest, rfl⟩
  · rintro ⟨rest, rfl⟩
    rw [layout_not, layout_minus "--" (.inr rfl)]
    exact ⟨_, rfl⟩

end Apart

end Scanner

end EcmaPrune
