import EcmaPrune.Proofs.Print.Apart
import EcmaPrune.Proofs.Print.ReadBack

/-!
Printed expressions scan as the fragments that they were written in.

What is printed of an expression guides a scan from where an operand is expected to where an
operator is. It is taken apart as it was written, unless one of the two ways in which fragments join
comes about.
-/

namespace EcmaPrune

open Scanner

section Numbers

/-- Only zero is written with a zero in front. -/
theorem head?_toDigits_ne {n : Nat} (positive : 0 < n) : (Nat.toDigits 10 n).head? ≠ some '0' := by
  induction n using Nat.strongRecOn with
  | ind n ih =>
    rw [Nat.toDigits_eq_if (by decide)]
    -- The first digit is that of the number without its last one.
    split
    · next small =>
      have digit : ∀ n < 10, 0 < n → [n.digitChar].head? ≠ some '0' := by decide
      exact digit n small positive
    · have front := ih (n / 10) (by omega) (by omega)
      rw [List.head?_append]
      cases first : (Nat.toDigits 10 (n / 10)).head? with
      | none => exact absurd (List.head?_eq_none_iff.mp first) Nat.toDigits_ne_nil
      | some c =>
        rw [first] at front
        exact front

theorem isInteger_of_head {digits : List Char} (some : digits ≠ [])
    (noZero : digits.head? ≠ Option.some '0') (all : ∀ c ∈ digits, c.isDigit) :
    isInteger digits := by
  unfold isInteger
  split
  · exact absurd rfl noZero
  · exact absurd rfl noZero
  · exact areDigits_of_all some fun c member =>
      ⟨all c member, ne_underscore_of_isDigit (all c member)⟩

/-- Digits around a point are a decimal, wherever the point is. -/
theorem isDecimal_positional {digits : List Char} (point : Int) (all : ∀ c ∈ digits, c.isDigit)
    (noZero : digits.head? ≠ some '0') (notZero : Nat.ofDigitChars 10 digits 0 ≠ 0) :
    IsDecimal (Number.Digits.positional ⟨digits, point⟩).toList := by
  obtain ⟨zeros, same⟩ := Number.exists_trailingZeros digits
  unfold Number.Digits.positional
  rw [show (digits.reverse.dropWhile (· == '0')).reverse = Number.significantDigits digits from rfl]
  -- A number with no significant digit is zero.
  have notEmpty : Number.significantDigits digits ≠ [] := by
    intro empty
    rw [empty, List.nil_append] at same
    rw [same, Nat.ofDigitChars_replicate_zero] at notZero
    exact notZero (Nat.mul_zero _)
  obtain ⟨c, rest, shown⟩ := List.exists_cons_of_ne_nil notEmpty
  rw [same, shown] at all noZero
  have allShown : ∀ d ∈ c :: rest, d.isDigit := fun d member => all d (by simp; grind)
  have first : c ≠ '0' := by simpa using noZero
  have integer {more : List Char} (digits : ∀ d ∈ c :: more, d.isDigit) :
      isInteger (c :: more) :=
    isInteger_of_head (by simp) (by simpa using first) digits
  -- Zeros are put in front or behind where the point is outside of the digits.
  have padding (count : Nat) : ∀ d ∈ List.replicate count '0', d.isDigit := fun d isZero => by
    rw [List.eq_of_mem_replicate isZero]
    decide
  rw [shown]
  dsimp only
  split
  · rw [String.toList_ofList]
    change IsDecimal (['0'] ++ '.' :: (List.replicate _ '0' ++ c :: rest))
    refine .fraction (by simp) (by decide) (by simp) fun d member => ?_
    exact (List.mem_append.mp member).elim (padding _ d) (allShown d)
  split
  · have all (count : Nat) : ∀ d ∈ c :: rest ++ List.replicate count '0', d.isDigit :=
      fun d member => (List.mem_append.mp member).elim (allShown d) (padding count d)
    rw [String.toList_ofList]
    exact .whole (all _) (integer (all _))
  · next positive inside =>
    have front : ∀ d ∈ (c :: rest).take point.toNat, d.isDigit :=
      fun d member => allShown d (List.mem_of_mem_take member)
    obtain ⟨places, count⟩ : ∃ places, point.toNat = places + 1 := ⟨point.toNat - 1, by omega⟩
    rw [String.toList_ofList, count]
    rw [count] at front inside
    refine .fraction front (integer front) ?_ fun d member =>
      allShown d (List.mem_of_mem_drop member)
    rw [ne_eq, List.drop_eq_nil_iff]
    exact inside

/-- The digits of a number are a decimal. -/
theorem isDecimal_magnitudeText {x : Number} (finite : x.isInfinite = false) :
    IsDecimal x.magnitudeText.toList := by
  unfold Number.magnitudeText
  rw [if_neg (by simp [finite])]
  split
  · exact .whole (by simp) (by decide)
  · next notZero =>
    have positive : 0 < x.magnitude :=
      Nat.pos_of_ne_zero fun none => notZero (Number.magnitude_eq_zero.mp none)
    -- The digits are those of a point of some grid, written without zeros in front.
    obtain ⟨step, point, chosen, shortest⟩ := Number.exists_shortest positive
    have some := Number.gridPoint?_pos positive chosen
    rw [shortest]
    refine isDecimal_positional _ (fun c member => ?_) (head?_toDigits_ne some) ?_
    · exact Nat.isDigit_of_mem_toDigits (by decide) (by decide) member
    · rw [Nat.ofDigitChars_ten_toDigits]
      omega

end Numbers

/-- An expression of names, literals and operators that have lexemes of their own. -/
inductive IsScannable (names : NameChars) : Expr → Prop where
  | identifier (loc : Loc) (ref : Ref) (isRemovable mustKeepInWith : Bool) :
    IsScannable names (.identifier loc ref isRemovable mustKeepInWith)
  | number (loc : Loc) (value : Number) : IsScannable names (.number loc value)
  | bigInt (loc : Loc) {literal : String} (integer : isInteger literal.toList) :
    IsScannable names (.bigInt loc literal)
  | string (loc : Loc) (value : List UInt16) : IsScannable names (.string loc value)
  | regExp (loc : Loc) {text : String} (isRegExp : isRegExp text) :
    IsScannable names (.regExp loc text)
  | unary (loc : Loc) (fromIdentifier : Bool) {op : Operator} {value : Expr}
    (arity : op.arity = .unary) (operand : IsScannable names value) :
    IsScannable names (.unary loc op value fromIdentifier)
  | binary (loc : Loc) {op : Operator} {left right : Expr} (arity : op.arity = .binary)
    (first : IsScannable names left) (second : IsScannable names right) :
    IsScannable names (.binary loc op left right)
  | conditional (loc : Loc) {test yes no : Expr} (first : IsScannable names test)
    (second : IsScannable names yes) (third : IsScannable names no) :
    IsScannable names (.conditional loc test yes no)
  | call (loc : Loc) (link : ChainLink) (isPure : Bool) (kind : CallKind) {target : Expr}
    {args : List Expr} (callee : IsScannable names target)
    (arguments : ∀ arg ∈ args, IsScannable names arg) :
    IsScannable names (.call loc target args link isPure kind)
  | new (loc : Loc) (isPure : Bool) {target : Expr} {args : List Expr}
    (callee : IsScannable names target) (arguments : ∀ arg ∈ args, IsScannable names arg) :
    IsScannable names (.new loc target args isPure)
  | dot (loc : Loc) (link : ChainLink) (isRemovable : Bool) {target : Expr} {name : String}
    (isName : names.isName name) (object : IsScannable names target) :
    IsScannable names (.dot loc target name link isRemovable)
  | index (loc : Loc) (link : ChainLink) (isRemovable : Bool) {target key : Expr}
    (object : IsScannable names target) (inside : IsScannable names key) :
    IsScannable names (.index loc target key link isRemovable)
  | array (loc : Loc) {items : List Expr} (each : ∀ item ∈ items, IsScannable names item) :
    IsScannable names (.array loc items)

variable {names : NameChars} {table : SymbolTable} {goal next last : Goal}
  {tokens more : List Token}

/-- Behind most words, an operator is expected. -/
theorem goalBehind_of_not_mem {text : String} (free : text ∉ operandWords) (goal : Goal) :
    goalBehind goal (.word text) = .operator := by
  simp [goalBehind, free]

/-- Behind an operator that is a word, an operand is expected. -/
theorem goalBehind_of_mem {text : String} (operandWord : text ∈ operandWords)
    (notMember : goal ≠ .member) : goalBehind goal (.word text) = .operand := by
  simp [goalBehind, operandWord, notMember]

/-- What tokens write guides a scan from where one thing is expected to where another is. -/
def Guides (names : NameChars) (table : SymbolTable) (goal : Goal) (tokens : List Token)
    (last : Goal) : Prop :=
  ∃ fragments, fragmentsOf table tokens = .ok fragments ∧ Flows names goal fragments last

namespace Guides

theorem nil (goal : Goal) : Guides names table goal [] goal := ⟨[], rfl, .nil goal⟩

/-- A token that writes a fragment. -/
theorem cons {token : Token} {f : Fragment} (written : token.fragments table = .ok [f])
    (fits : Fits names goal f) (rest : Guides names table (goalBehind goal f.lexeme) tokens last) :
    Guides names table goal (token :: tokens) last := by
  obtain ⟨fragments, restWritten, flows⟩ := rest
  refine ⟨f :: fragments, ?_, .cons fits flows⟩
  rw [fragmentsOf, written, restWritten]
  rfl

theorem punct {mark : String} (isMark : mark ∈ marksAt goal)
    (behind : goalBehind goal (.mark mark) = next) (rest : Guides names table next tokens last) :
    Guides names table goal (.punct mark :: tokens) last :=
  cons rfl (.mark isMark) (behind ▸ rest)

theorem append (first : Guides names table goal tokens next)
    (second : Guides names table next more last) :
    Guides names table goal (tokens ++ more) last := by
  obtain ⟨firstFragments, firstWritten, firstFlows⟩ := first
  obtain ⟨secondFragments, secondWritten, secondFlows⟩ := second
  exact ⟨_, fragmentsOf_append firstWritten secondWritten, firstFlows.append secondFlows⟩

/-- An operator that an operand is expected behind: a binary one, or one in front of its operand. -/
theorem operator {op : Operator}
    (known : op.isPrefixed ∧ goal = .operand ∨ op.arity = .binary ∧ goal = .operator)
    (rest : Guides names table .operand tokens last) :
    Guides names table goal (op.token :: tokens) last := by
  have notMember : goal ≠ .member := by
    rintro rfl
    simp at known
  cases keyword : op.isKeyword with
  | true =>
    have checked : ∀ op : Operator, op.isKeyword →
        isPlainName op.text ∧ op.text ∈ operandWords := by
      intro op
      cases op <;> decide
    obtain ⟨plain, operandWord⟩ := checked op keyword
    rw [Operator.token, if_pos keyword]
    refine .cons rfl (.keyword (NameChars.isName_of_isPlainName plain)) ?_
    rw [Fragment.lexeme, goalBehind_of_mem operandWord notMember]
    exact rest
  | false =>
    have inFront : ∀ op : Operator, op.isKeyword = false → op.isPrefixed →
        op.text ∈ marksAt .operand ∧ goalBehind .operand (.mark op.text) = .operand := by
      intro op
      cases op <;> decide
    have between : ∀ op : Operator, op.isKeyword = false → op.arity = .binary →
        op.text ∈ marksAt .operator ∧ goalBehind .operator (.mark op.text) = .operand := by
      intro op
      cases op <;> decide +kernel
    rw [Operator.token, if_neg (by simp [keyword])]
    rcases known with ⟨prefixed, rfl⟩ | ⟨binary, rfl⟩
    · exact .punct (inFront op keyword prefixed).1 (inFront op keyword prefixed).2 rest
    · exact .punct (between op keyword binary).1 (between op keyword binary).2 rest

/-- The mark of an optional link stands in front of a bracket. -/
theorem optional {mark : String} (link : ChainLink) (opens : mark = "(" ∨ mark = "[")
    (rest : Guides names table .operand tokens last) :
    Guides names table .operator (link.mark ++ .punct mark :: tokens) last := by
  cases link with
  | start =>
    refine .punct (by decide) rfl ?_
    rcases opens with rfl | rfl
    · exact .punct (by decide) rfl rest
    · exact .punct (by decide) rfl rest
  | plain | continued =>
    rcases opens with rfl | rfl
    · exact .punct (by decide) rfl rest
    · exact .punct (by decide) rfl rest

/-- A name, which no operator is taken for. -/
theorem name {token : Token} {text : String}
    (written : token.fragments table = .ok [.identifier text]) (isName : names.isName text)
    (free : text ∉ operandWords) : Guides names table .operand [token] .operator := by
  refine .cons written (.identifier isName) ?_
  rw [Fragment.lexeme, goalBehind_of_not_mem free]
  exact .nil .operator

/-- An update behind its operand. -/
theorem update {op : Operator} (arity : op.arity = .unary) (behind : op.isPrefixed = false) :
    Guides names table .operator [.punct op.text] .operator := by
  have checked : ∀ op : Operator, op.arity = .unary → op.isPrefixed = false →
      op.text ∈ marksAt .operator ∧ goalBehind .operator (.mark op.text) = .operator := by
    intro op
    cases op <;> decide
  obtain ⟨isMark, goesOn⟩ := checked op arity behind
  exact .punct isMark goesOn (.nil .operator)

/-- The name of a member may be any word. -/
theorem member {text : String} (link : ChainLink) (isName : names.isName text) :
    Guides names table .operator
      [.punct (if link == .start then "?." else "."), .identifier text] .operator := by
  have checked : ∀ link : ChainLink, (if link == .start then "?." else ".") ∈ marksAt .operator ∧
      goalBehind .operator (.mark (if link == .start then "?." else ".")) = .member := by
    intro link
    cases link <;> decide
  obtain ⟨isMark, behind⟩ := checked link
  exact .punct isMark behind (.cons rfl (.identifier isName) (.nil .operator))

end Guides

namespace Expr

/-- Where it is printed without parentheses, an expression is an operand. -/
def ScansAsOperand (names : NameChars) (table : SymbolTable) (e : Expr) : Prop :=
  Guides names table .operand e.tokens .operator

theorem ScansAsOperand.enclosed {e : Expr} (operand : e.ScansAsOperand names table)
    (parens : Bool) : Guides names table .operand (e.enclosed parens) .operator := by
  cases parens with
  | false => exact operand
  | true =>
    exact .punct (by decide) rfl (operand.append (.punct (by decide) rfl (.nil .operator)))

theorem guides_number (value : Number) : Guides names table .operand value.tokens .operator := by
  have word {text : String} (plain : isPlainName text) (free : text ∉ operandWords) :
      Guides names table .operand [.identifier text] .operator :=
    .name rfl (NameChars.isName_of_isPlainName plain) free
  unfold Number.tokens
  split
  · exact word (by decide) (by decide)
  · have digits : Guides names table .operand
        (if value.isInfinite then [.identifier "Infinity"] else [.number value.magnitudeText])
        .operator := by
      split
      · exact word (by decide) (by decide)
      · next finite =>
        exact .cons rfl (.number (isDecimal_magnitudeText (by simpa using finite))) (.nil .operator)
    split
    · exact .punct (by decide) rfl digits
    · exact digits

/-- Items with commas between them, and the bracket that closes them. -/
theorem guides_items {items : List Expr} {close : String} (closes : close = ")" ∨ close = "]")
    (each : ∀ item ∈ items, item.ScansAsOperand names table) :
    Guides names table .operand (commaSeparated (tokensList items) ++ [.punct close])
      .operator := by
  have closing (goal : Goal) (notMember : goal ≠ .member) :
      Guides names table goal [.punct close] .operator := by
    have allowed : ∀ goal, goal ≠ .member → ∀ close ∈ [")", "]"],
        close ∈ marksAt goal ∧ goalBehind goal (.mark close) = .operator := by
      intro goal
      cases goal <;> decide
    obtain ⟨isMark, behind⟩ := allowed goal notMember close (by simpa using closes)
    exact .punct isMark behind (.nil .operator)
  induction items with
  | nil => exact closing .operand (by decide)
  | cons item rest ih =>
    have first := (each item List.mem_cons_self).enclosed (item.precedence < itemPrecedence)
    rw [← guarded_eq] at first
    -- A comma is only written in front of another item.
    cases rest with
    | nil => exact first.append (closing .operator (by decide))
    | cons next rest =>
      have later := ih fun other member => each other (List.mem_cons_of_mem item member)
      have behind : Guides names table .operator (.punct "," :: _) .operator :=
        .punct (by decide) rfl later
      have whole := first.append behind
      simpa [tokensList, commaSeparated] using whole

/-- An array without holes is written as its items between brackets. -/
theorem tokens_array {loc : Loc} {items : List Expr}
    (each : ∀ item ∈ items, IsScannable names item) :
    (array loc items).tokens =
      .punct "[" :: (commaSeparated (tokensList items) ++ [.punct "]"]) := by
  have noHole : endsInHole items = false := by
    unfold endsInHole
    split
    · next last =>
      cases each _ (List.mem_of_getLast? last)
    · rfl
  rw [tokens, noHole]
  simp [bracketed]

/-- Where every name is one, each scannable expression is an operand where it is printed. -/
theorem scansAsOperand_of_isScannable {e : Expr} (scannable : IsScannable names e)
    (named : ∀ ref ∈ e.marks Mark.identifier?, ∃ name, table.name? ref = some name ∧
      names.isName name ∧ name ∉ operandWords) : e.ScansAsOperand names table := by
  induction scannable with
  | identifier loc ref =>
    obtain ⟨name, hasName, isName, free⟩ := named ref (by simp [Mark.identifier?])
    exact .name (by simp [Token.fragments, SymbolTable.resolve, hasName]) isName free
  | number loc value => exact guides_number value
  | bigInt loc integer => exact .cons rfl (.bigInt integer) (.nil .operator)
  | string loc value => exact .cons rfl (.string value) (.nil .operator)
  | regExp loc isRegExp => exact .cons rfl (.regExp isRegExp) (.nil .operator)
  | @unary loc fromIdentifier op value arity operand ih =>
    have inside := (ih fun ref member => named ref (by simp [member])).enclosed
      (value.precedence < op.precedence)
    cases isPrefixed : op.isPrefixed with
    | true =>
      rw [ScansAsOperand, tokens_unary_prefixed loc value fromIdentifier isPrefixed]
      exact .operator (.inl ⟨isPrefixed, rfl⟩) inside
    | false =>
      rw [ScansAsOperand, tokens_unary_behind loc value fromIdentifier isPrefixed]
      exact inside.append (.update arity isPrefixed)
  | @binary loc op left right arity first second firstIh secondIh =>
    rw [ScansAsOperand, tokens_binary]
    refine ((firstIh fun ref member => named ref (by simp [member])).enclosed _).append ?_
    exact .operator (.inr ⟨arity, rfl⟩)
      ((secondIh fun ref member => named ref (by simp [member])).enclosed _)
  | conditional loc first second third firstIh secondIh thirdIh =>
    have test := (firstIh fun ref member => named ref (by simp [member])).enclosed
    have yes := (secondIh fun ref member => named ref (by simp [member])).enclosed
    have no := (thirdIh fun ref member => named ref (by simp [member])).enclosed
    rw [ScansAsOperand, tokens_conditional]
    exact (test _).append (.punct (by decide) rfl
      ((yes _).append (.punct (by decide) rfl (no _))))
  | call loc link isPure kind callee arguments calleeIh argumentsIh =>
    have target := (calleeIh fun ref member => named ref (by simp [member])).enclosed
    have args := guides_items (.inl rfl) fun arg isArg => argumentsIh arg isArg fun ref member =>
      named ref (by
        simp only [marks_call, List.mem_append, List.mem_flatMap]
        exact .inr (.inr ⟨arg, isArg, member⟩))
    rw [ScansAsOperand, tokens_call]
    exact (target _).append (.optional link (.inl rfl) args)
  | new loc isPure callee arguments calleeIh argumentsIh =>
    have target := (calleeIh fun ref member => named ref (by simp [member])).enclosed
    have args := guides_items (.inl rfl) fun arg isArg => argumentsIh arg isArg fun ref member =>
      named ref (by
        simp only [marks_new, List.mem_append, List.mem_flatMap]
        exact .inr (.inr ⟨arg, isArg, member⟩))
    rw [ScansAsOperand, tokens_new]
    exact .cons rfl (.keyword (NameChars.isName_of_isPlainName (by decide)))
      ((target _).append (.punct (by decide) rfl args))
  | @dot loc link isRemovable target name isName object ih =>
    have inside := (ih fun ref member => named ref (by simp [member])).enclosed
    rw [ScansAsOperand, tokens_dot]
    exact (inside _).append (.member link isName)
  | index loc link isRemovable object inside objectIh insideIh =>
    have target := (objectIh fun ref member => named ref (by simp [member])).enclosed
    have key := insideIh fun ref member => named ref (by simp [member])
    rw [ScansAsOperand, tokens_index]
    exact (target _).append (.optional link (.inr rfl)
      (key.append (.punct (by decide) rfl (.nil .operator))))
  | @array loc items each ih =>
    have items := guides_items (.inr rfl) fun item isItem => ih item isItem fun ref member =>
      named ref (by
        simp only [marks_array, List.mem_append, List.mem_flatMap]
        exact .inr ⟨item, isItem, member⟩)
    rw [ScansAsOperand, tokens_array each]
    exact .punct (by decide) rfl items

end Expr

/--
A printed expression scans as the fragments that were written, exactly if these keep apart.

They do unless `<` is written straight before `!` and `--`, or a regular expression without flags
straight before a word.
-/
theorem Expr.scan_print_iff {e : Expr} (scannable : IsScannable names e)
    (named : ∀ ref ∈ e.marks Mark.identifier?, ∃ name, table.name? ref = some name ∧
      names.isName name ∧ name ∉ operandWords) :
    ∃ fragments text, fragmentsOf table e.tokens = .ok fragments ∧ e.print table = .ok text ∧
      (scanScript names text = some (fragments.map fun f => .lexeme f.lexeme) ↔
        keepApart fragments) := by
  obtain ⟨fragments, written, flows⟩ := scansAsOperand_of_isScannable scannable named
  refine ⟨fragments, _, written, printTokens_eq_ok.mpr ⟨fragments, written, rfl⟩, ?_⟩
  rw [scanScript, toList_render]
  exact flows.scan_eq_some_iff (fun _ => rfl) .none

/-- The lexemes of `a<!- --b,/[/]/g in[1 .b,"in"]` are those that were written. -/
theorem Expr.scan_print_iff_spaced :
    let table : SymbolTable := ⟨#[⟨"a", .hoisted⟩, ⟨"b", .hoisted⟩]⟩
    let a := Expr.identifier default ⟨0⟩ false false
    let b := Expr.identifier default ⟨1⟩ false false
    let comparison := Expr.binary default .lessThan a (.unary default .logicalNot
      (.unary default .unaryNegation (.unary default .prefixDecrement b false) false) false)
    let items := Expr.array default
      [.dot default (.number default .one) "b" .plain false, .string default (Text.units "in")]
    let e := Expr.binary default .comma comparison
      (.binary default .in_ (.regExp default "/[/]/g") items)
    ∃ fragments, fragmentsOf table e.tokens = .ok fragments ∧
      e.print table = .ok "a<!- --b,/[/]/g in[1 .b,\"in\"]" ∧
      scanScript asciiNames "a<!- --b,/[/]/g in[1 .b,\"in\"]" =
        some (fragments.map fun f => .lexeme f.lexeme) := by
  intro table a b comparison items e
  have scannable : IsScannable asciiNames e := by
    refine .binary _ rfl (.binary _ rfl (.identifier ..) (.unary _ _ rfl (.unary _ _ rfl
      (.unary _ _ rfl (.identifier ..))))) (.binary _ rfl (.regExp _ (by decide)) (.array _ ?_))
    rintro item (_ | ⟨_, _ | ⟨_, ⟨⟩⟩⟩)
    · exact .dot _ _ _ (by decide) (.number ..)
    · exact .string ..
  have refs : e.marks Mark.identifier? = [⟨0⟩, ⟨1⟩] := by
    simp [e, comparison, items, a, b, Mark.identifier?, Expr.mark]
  have named : ∀ ref ∈ e.marks Mark.identifier?, ∃ name, table.name? ref = some name ∧
      asciiNames.isName name ∧ name ∉ operandWords := by
    rw [refs]
    simp [table, SymbolTable.name?, SymbolTable.get?]
    decide
  obtain ⟨fragments, text, written, printed, scanned⟩ := scan_print_iff scannable named
  have whole : fragmentsOf table e.tokens = .ok
      [.identifier "a", .punct "<", .punct "!", .punct "-", .punct "--", .identifier "b",
        .punct ",", .literal "/[/]/g", .keyword "in", .punct "[", .number "1", .punct ".",
        .identifier "b", .punct ",", .literal "\"in\"", .punct "]"] := by
    decide +kernel
  have same := Except.ok.inj (written.symm.trans whole)
  subst same
  have shown : text = "a<!- --b,/[/]/g in[1 .b,\"in\"]" :=
    Except.ok.inj (printed.symm.trans (by decide +kernel))
  subst shown
  exact ⟨_, written, printed, scanned.mpr (by decide)⟩

/-- The marks of `a<!--b` are taken for a comment, and the word in `/x/in a` for flags. -/
theorem Expr.scan_print_joined :
    let table : SymbolTable := ⟨#[⟨"a", .hoisted⟩, ⟨"b", .hoisted⟩]⟩
    let a := Expr.identifier default ⟨0⟩ false false
    let b := Expr.identifier default ⟨1⟩ false false
    let comparison := Expr.binary default .lessThan a (.unary default .logicalNot
      (.unary default .prefixDecrement b false) false)
    let search := Expr.binary default .in_ (.regExp default "/x/") a
    (IsScannable asciiNames comparison ∧ comparison.print table = .ok "a<!--b" ∧
      ∃ fragments, fragmentsOf table comparison.tokens = .ok fragments ∧
        scanScript asciiNames "a<!--b" ≠ some (fragments.map fun f => .lexeme f.lexeme)) ∧
    (IsScannable asciiNames search ∧ search.print table = .ok "/x/in a" ∧
      ∃ fragments, fragmentsOf table search.tokens = .ok fragments ∧
        scanScript asciiNames "/x/in a" ≠ some (fragments.map fun f => .lexeme f.lexeme)) := by
  intro table a b comparison search
  have known : ∀ ref ∈ [(⟨0⟩ : Ref), ⟨1⟩], ∃ name, table.name? ref = some name ∧
      asciiNames.isName name ∧ name ∉ operandWords := by
    simp [table, SymbolTable.name?, SymbolTable.get?]
    decide
  have comparable : IsScannable asciiNames comparison :=
    .binary _ rfl (.identifier ..) (.unary _ _ rfl (.unary _ _ rfl (.identifier ..)))
  have searchable : IsScannable asciiNames search :=
    .binary _ rfl (.regExp _ (by decide)) (.identifier ..)
  obtain ⟨fragments, written, flows⟩ := scansAsOperand_of_isScannable comparable fun ref member =>
    known ref (by simpa [comparison, a, b, Mark.identifier?, Expr.mark] using member)
  obtain ⟨others, otherWritten, otherFlows⟩ := scansAsOperand_of_isScannable searchable
    fun ref member => known ref (by
      have isA : ref = ⟨0⟩ := by simpa [search, a, Mark.identifier?, Expr.mark] using member
      simp [isA])
  have opening : fragmentsOf table comparison.tokens = .ok [.identifier "a", .punct "<",
      .punct "!", .punct "--", .identifier "b"] := by
    decide +kernel
  have flags : fragmentsOf table search.tokens =
      .ok [.literal "/x/", .keyword "in", .identifier "a"] := by
    decide +kernel
  have sameFragments := Except.ok.inj (written.symm.trans opening)
  have sameOthers := Except.ok.inj (otherWritten.symm.trans flags)
  subst sameFragments sameOthers
  refine ⟨⟨comparable, by decide +kernel, _, written, fun scanned => ?_⟩,
    ⟨searchable, by decide +kernel, _, otherWritten, fun scanned => ?_⟩⟩
  · exact absurd ((flows.scan_eq_some_iff (fun _ => rfl) .none).mp scanned) (by decide)
  · exact absurd ((otherFlows.scan_eq_some_iff (fun _ => rfl) .none).mp scanned) (by decide)

end EcmaPrune
