import EcmaPrune.Proofs.Print.Grammar

/-!
Reading pieces of code one after another.

A piece reads as a phrase if it does so in front of whatever cannot go on with it, in any place
that the phrase is strong enough for. How a piece is made of smaller ones says how it reads.
-/

namespace EcmaPrune

/-- The lexeme of an operator. -/
def Operator.lexeme (op : Operator) : Lexeme :=
  if op.isKeyword then .word op.text else .mark op.text

/-- How the grammar reads a binary operator. -/
def Operator.reading (op : Operator) : Infix :=
  match op with
  | .comma => ⟨op, 1, 1, 3⟩
  | .exponentiation => ⟨op, 14, 16, 14⟩
  | .nullishCoalescing => ⟨op, 4, 6, 6⟩
  | _ =>
    if op.isAssignment then ⟨op, 3, 17, 3⟩
    else ⟨op, op.precedence, op.precedence, op.precedence + 1⟩

/-- The strength of a unary operation. -/
def Operator.unaryStrength (op : Operator) : Nat := if op.isUpdate then 16 else 15

namespace Grammar

/-- No member access is stronger than what it is made to. -/
theorem accessStrength_le {link : ChainLink} {target : Nat} (enough : 17 ≤ target) :
    link.accessStrength target ≤ target := by
  unfold ChainLink.accessStrength
  split <;> omega

theorem accessStrength_le_member {link : ChainLink} {target : Nat} :
    link.accessStrength target ≤ 18 := by
  unfold ChainLink.accessStrength
  split <;> omega

theorem le_accessStrength {link : ChainLink} {target : Nat} (enough : 17 ≤ target) :
    17 ≤ link.accessStrength target := by
  unfold ChainLink.accessStrength
  split <;> omega

/-- A binary operator goes on with its left operand. -/
theorem following_operator {op : Operator} (binary : op.arity = .binary) :
    op.lexeme.following = .operator op.reading := by
  cases op <;> first | rfl | cases binary

/-- An operator in front of its operand begins a unary operation. -/
theorem opening_operator {op : Operator} (prefixed : op.isPrefixed) :
    op.lexeme.opening = .operation op := by
  cases op <;> first | rfl | cases prefixed

/-- An operator behind its operand is an update, and goes on with it. -/
theorem following_update {op : Operator} (isUnary : op.isUnary) (behind : op.isPrefixed = false) :
    (Lexeme.mark op.text).following = .update op ∧ op.isUpdate := by
  cases op <;>
    first
    | exact ⟨rfl, rfl⟩
    | exact absurd isUnary (by decide)
    | exact absurd behind (by decide)

/-- What begins something by itself is a reserved word or a mark. -/
theorem key_openings {entry : Lexeme × Opening} (listed : entry ∈ openings) :
    (∃ text ∈ reservedWords, entry.1 = .word text) ∨ ∃ text, entry.1 = .mark text := by
  simp only [openings, List.mem_cons, List.not_mem_nil, or_false] at listed
  rcases listed with rfl | rfl | rfl | rfl | rfl | rfl | rfl | rfl | rfl | rfl | rfl <;>
    first
    | exact .inr ⟨_, rfl⟩
    | exact .inl ⟨_, by decide, rfl⟩

/-- A word that is not reserved is a name. -/
theorem opening_name {name : String} (free : name ∉ reservedWords) :
    (Lexeme.word name).opening = .name name := by
  -- All that the table lists is a reserved word or a mark.
  have unlisted : openings.lookup (.word name) = none := by
    refine List.lookup_eq_none_iff.mpr fun entry listed => ?_
    rcases key_openings listed with ⟨text, reserved, key⟩ | ⟨text, key⟩
    · have apart : name ≠ text := fun same => free (same ▸ reserved)
      simpa [key] using apart
    · simp [key]
  simp [Lexeme.opening, unlisted, free]

theorem opening_numeral (text : String) : (Lexeme.numeral text).opening = .numeral text := by
  have unlisted : openings.lookup (.numeral text) = none := by
    refine List.lookup_eq_none_iff.mpr fun entry listed => ?_
    rcases key_openings listed with ⟨word, _, key⟩ | ⟨mark, key⟩ <;> simp [key]
  simp [Lexeme.opening, unlisted]

@[simp] theorem op_reading (op : Operator) : op.reading.op = op := by
  cases op <;> rfl

/-- Operators are read by the strength they are written with. -/
theorem strength_reading (op : Operator) : op.reading.strength = op.precedence := by
  cases op <;> rfl

/-- A choice by `??` without parentheses has the strength of one. -/
theorem strength_of_coalesces {p : Phrase} (coalesces : p.coalesces) : p.strength = 4 := by
  unfold Phrase.coalesces at coalesces
  split at coalesces
  · simpa using coalesces
  · cases coalesces

/-- An operation is no stronger than its left operand. -/
theorem strength_le_of_takes {op : Operator} {p : Phrase} (takes : op.reading.takes p) :
    op.reading.strength ≤ p.strength := by
  -- All operators but one ask for a left operand that is no weaker than they are.
  have left : op.reading.strength ≤ op.reading.left := by
    cases op <;> decide
  rw [Infix.takes, op_reading] at takes
  by_cases both : p.coalesces && op == .nullishCoalescing
  · -- A choice by `??` goes on with one that has no parentheses.
    rw [Bool.and_eq_true, beq_iff_eq] at both
    rw [both.2, strength_of_coalesces both.1]
    exact Nat.le_refl 4
  · rw [if_neg both] at takes
    split at takes
    · cases takes
    · simp only [Bool.and_eq_true, decide_eq_true_eq] at takes
      exact Nat.le_trans left takes.1

/-- A left operand that is strong enough is taken, but for a choice by `??` in front of `||`. -/
theorem takes_of_enough {op : Operator} {p : Phrase} (enough : op.reading.left ≤ p.strength)
    (apart : op = .logicalOr → p.coalesces = false) (place : op.isAssignment → p.expr.isPlace) :
    op.reading.takes p := by
  rw [Infix.takes, op_reading]
  split
  · rfl
  split
  · -- Only `||` could stand next to a choice.
    rename_i mixed
    rw [Bool.and_eq_true, beq_iff_eq] at mixed
    rw [apart mixed.2] at mixed
    cases mixed.1
  · rw [Bool.and_eq_true, Bool.or_eq_true]
    refine ⟨decide_eq_true enough, ?_⟩
    cases assigns : op.isAssignment with
    | false => exact .inl rfl
    | true => exact .inr (place assigns)

/-- A choice by `??` is taken by another one. -/
theorem takes_of_coalesces {p : Phrase} (coalesces : p.coalesces) :
    Operator.nullishCoalescing.reading.takes p := by
  simp [Infix.takes, op_reading, coalesces]

@[simp] theorem afterMark_self (text : String) (rest : List Lexeme) :
    afterMark text (.mark text :: rest) = some rest := by
  simp [afterMark]

section

variable {scope : String → Option Ref} {least edge : Nat} {p : Phrase} {ts rest : List Lexeme}

/-- Nothing goes on by a strength of at least the given one. -/
def Stops (edge : Nat) (rest : List Lexeme) : Prop :=
  ∀ t ∈ rest.head?, t.following.strength < edge

theorem Stops.mono {least : Nat} (stops : Stops least rest) (le : least ≤ edge) :
    Stops edge rest :=
  fun t head => Nat.lt_of_lt_of_le (stops t head) le

@[simp] theorem stops_nil : Stops edge [] := by
  intro t head
  cases head

@[simp] theorem stops_cons {t : Lexeme} : Stops edge (t :: ts) ↔ t.following.strength < edge := by
  simp [Stops]

/-- A phrase is complete in front of what does not go on. -/
theorem climb_stops (stops : Stops least rest) : climb scope least p rest = some (p, rest) := by
  cases rest with
  | nil => rw [climb]
  | cons t rest =>
    -- The next lexeme is too weak, whether it would take the phrase or not.
    rw [climb, if_neg]
    simp only [stops_cons] at stops
    simp only [Bool.and_eq_true, decide_eq_true_eq, not_and]
    omega

/-- A phrase goes on by a lexeme that takes it. -/
theorem climb_extend {t : Lexeme} {next : Phrase} (strong : least ≤ t.following.strength)
    (takes : t.following.takes p) (extended : extend scope p t.following ts = some (next, rest))
    (shorter : rest.length ≤ ts.length) :
    climb scope least p (t :: ts) = climb scope least next rest := by
  rw [climb]
  simp only [strong, takes, extended, decide_true, Bool.and_self, if_true, Option.bind_eq_bind,
    Option.bind_some, shorter]

/-- What begins nothing cannot be read. -/
theorem read_nothing {t : Lexeme} (nothing : t.opening = .nothing) :
    read scope least (t :: ts) = none := by
  rw [read, readOperand]
  simp [nothing]

/-- A piece of code reads as a phrase in front of what is too weak to go on inside of it. -/
def ReadsAs (scope : String → Option Ref) (piece : List Lexeme) (p : Phrase) (edge : Nat) : Prop :=
  ∀ least rest, least ≤ p.strength → Stops edge rest →
    read scope least (piece ++ rest) = climb scope least p rest

theorem ReadsAs.mono {piece : List Lexeme} {inner : Nat} (reads : ReadsAs scope piece p edge)
    (le : inner ≤ edge) : ReadsAs scope piece p inner :=
  fun least rest enough stops => reads least rest enough (stops.mono le)

/-- An operand reads as what it is read as at its beginning. -/
theorem ReadsAs.of_operand {piece : List Lexeme} (nonempty : piece ≠ [])
    (reads : ∀ least rest, least ≤ p.strength → Stops edge rest →
      readOperand scope least (piece ++ rest) = some (p, rest)) :
    ReadsAs scope piece p edge := by
  intro least rest enough stops
  -- The reader goes on only if the operand took something away.
  have shorter : rest.length < (piece ++ rest).length := by
    have := List.length_pos_iff.mpr nonempty
    rw [List.length_append]
    omega
  rw [read, reads least rest enough stops]
  simp only [Option.bind_eq_bind, Option.bind_some, shorter, if_true]

/-- A piece is read as far as nothing goes on with it. -/
theorem ReadsAs.stopped {piece : List Lexeme} (reads : ReadsAs scope piece p edge)
    (enough : least ≤ p.strength) (within : least ≤ edge) (stops : Stops least rest) :
    read scope least (piece ++ rest) = some (p, rest) := by
  rw [reads least rest enough (stops.mono within), climb_stops stops]

theorem ReadsAs.name {name : String} {ref : Ref} (free : name ∉ reservedWords)
    (inScope : scope name = some ref) :
    ReadsAs scope [.word name] ⟨.identifier default ref false false, 19⟩ 19 := by
  refine .of_operand (by simp) fun least rest _ _ => ?_
  rw [List.singleton_append, readOperand]
  simp [opening_name free, inScope]

theorem ReadsAs.numeral {text : String} {value : Number}
    (reads : Number.ofDecimal? false text.toList = some value) :
    ReadsAs scope [.numeral text] ⟨.number default value, 19⟩ 19 := by
  refine .of_operand (by simp) fun least rest _ _ => ?_
  rw [List.singleton_append, readOperand]
  simp [opening_numeral, reads]

/-- Parentheses make any expression stand alone. -/
theorem ReadsAs.group {piece : List Lexeme} (reads : ReadsAs scope piece p edge)
    (enough : 1 ≤ p.strength) (within : 1 ≤ edge) :
    ReadsAs scope (.mark "(" :: piece ++ [.mark ")"]) ⟨p.expr, 19⟩ 19 := by
  refine .of_operand (by simp) fun least rest _ _ => ?_
  have opening : (Lexeme.mark "(").opening = .group := rfl
  -- The closing parenthesis goes on with nothing, so all of the piece is read.
  have inner : read scope 1 (piece ++ .mark ")" :: rest) = some (p, .mark ")" :: rest) :=
    reads.stopped enough within (stops_cons.mpr (by decide))
  rw [List.append_assoc, List.cons_append, List.singleton_append, readOperand]
  simp [opening, inner, afterMark]

/-- An operator in front of its operand. -/
theorem ReadsAs.operation {piece : List Lexeme} {op : Operator} (prefixed : op.isPrefixed)
    (reads : ReadsAs scope piece p edge) (enough : 15 ≤ p.strength) (within : 15 ≤ edge)
    (place : op.isUpdate → p.expr.isPlace) :
    ReadsAs scope (op.lexeme :: piece) ⟨.unary default op p.expr false, op.unaryStrength⟩ 15 := by
  refine .of_operand (by simp) fun least rest strong stops => ?_
  rw [List.cons_append, readOperand]
  have allowed : least ≤ op.unaryStrength ∧ (op.isUpdate → p.expr.isPlace) := ⟨strong, place⟩
  simp only [opening_operator prefixed, reads.stopped enough within stops]
  simpa [Operator.unaryStrength] using allowed

/-- A piece goes on by a lexeme that takes it and what the lexeme needs behind it. -/
theorem ReadsAs.extended {piece more : List Lexeme} {t : Lexeme} {next : Phrase} {last : Nat}
    (reads : ReadsAs scope piece p edge) (within : t.following.strength < edge)
    (takes : t.following.takes p) (weaker : next.strength ≤ p.strength)
    (weak : next.strength ≤ t.following.strength)
    (extended : ∀ rest, Stops last rest →
      extend scope p t.following (more ++ rest) = some (next, rest)) :
    ReadsAs scope (piece ++ t :: more) next last := by
  intro least rest enough stops
  -- The piece is complete in front of the lexeme, and the lexeme then takes it.
  have goesOn : Stops edge (t :: (more ++ rest)) := stops_cons.mpr within
  rw [List.append_assoc, List.cons_append,
    reads least _ (Nat.le_trans enough weaker) goesOn]
  exact climb_extend (Nat.le_trans enough weak) takes (extended rest stops) (by simp)

/-- A binary operator between its operands. -/
theorem ReadsAs.infix {piece more : List Lexeme} {op : Operator} {q : Phrase} {last : Nat}
    (binary : op.arity = .binary) (left : ReadsAs scope piece p edge)
    (within : op.reading.strength < edge) (takes : (Following.operator op.reading).takes p)
    (right : ReadsAs scope more q last) (enough : op.reading.right ≤ q.strength)
    (lastWithin : op.reading.right ≤ last) :
    ReadsAs scope (piece ++ op.lexeme :: more)
      ⟨.binary default op p.expr q.expr, op.reading.strength⟩ op.reading.right := by
  have goesOn := following_operator binary
  refine left.extended (by rwa [goesOn]) (by rwa [goesOn]) (strength_le_of_takes takes)
    (by rw [goesOn]; exact Nat.le_refl _) fun rest stops => ?_
  rw [goesOn, extend, right.stopped enough lastWithin stops]
  simp

/-- A conditional expression. -/
theorem ReadsAs.choice {piece yes no : List Lexeme} {q r : Phrase} {yesEdge noEdge : Nat}
    (test : ReadsAs scope piece p edge) (enough : 4 ≤ p.strength) (within : 3 < edge)
    (yesReads : ReadsAs scope yes q yesEdge) (yesEnough : 3 ≤ q.strength)
    (yesWithin : 3 ≤ yesEdge) (noReads : ReadsAs scope no r noEdge) (noEnough : 3 ≤ r.strength)
    (noWithin : 3 ≤ noEdge) :
    ReadsAs scope (piece ++ .mark "?" :: (yes ++ .mark ":" :: no))
      ⟨.conditional default p.expr q.expr r.expr, 3⟩ 3 := by
  have goesOn : (Lexeme.mark "?").following = .choice := rfl
  refine test.extended (by rwa [goesOn]) (by simpa [goesOn, Following.takes] using enough)
    (Nat.le_of_succ_le enough) (Nat.le_refl 3) fun rest stops => ?_
  -- Each branch ends at a mark that goes on with nothing, or where the whole ends.
  have yesRead : read scope 3 (yes ++ .mark ":" :: (no ++ rest)) = some (q, _) :=
    yesReads.stopped yesEnough yesWithin (stops_cons.mpr (by decide))
  have noRead : read scope 3 (no ++ rest) = some (r, rest) :=
    noReads.stopped noEnough noWithin stops
  have shorter : (no ++ rest).length < (yes ++ .mark ":" :: (no ++ rest)).length := by
    simp only [List.length_append, List.length_cons]
    omega
  rw [goesOn, List.append_assoc, List.cons_append, extend]
  simp only [yesRead, noRead, afterMark_self, Option.bind_eq_bind, Option.bind_some, shorter,
    if_true, Option.pure_def]

/-- An update behind its operand. -/
theorem ReadsAs.update {piece : List Lexeme} {op : Operator} (isUnary : op.isUnary)
    (behind : op.isPrefixed = false) (reads : ReadsAs scope piece p edge)
    (enough : 17 ≤ p.strength) (within : 16 < edge) (place : p.expr.isPlace) :
    ReadsAs scope (piece ++ [.mark op.text])
      ⟨.unary default op p.expr false, op.unaryStrength⟩ 19 := by
  obtain ⟨goesOn, isUpdate⟩ := following_update isUnary behind
  have strength : op.unaryStrength = 16 := if_pos isUpdate
  refine reads.extended (by rwa [goesOn]) (by simp [goesOn, Following.takes, enough, place])
    (by rw [strength]; exact Nat.le_of_succ_le enough)
    (by rw [goesOn, strength]; exact Nat.le_refl 16) fun rest _ => ?_
  rw [goesOn, extend, strength, List.nil_append]

end

section

variable {scope : String → Option Ref} {edge : Nat} {p : Phrase} {piece : List Lexeme}

/-- Arguments up to the parenthesis behind them. -/
def ReadsArguments (scope : String → Option Ref) (piece : List Lexeme) (args : List Expr) : Prop :=
  ∀ rest, readArguments scope (piece ++ .mark ")" :: rest) = some (args, rest)

theorem ReadsArguments.nil : ReadsArguments scope [] [] := by
  intro rest
  rw [List.nil_append, readArguments]
  simp [afterMark]

/-- What can be read does not begin with the mark that closes it. -/
theorem afterMark_close {ts : List Lexeme} {least : Nat} {found : Phrase × List Lexeme}
    (reads : read scope least ts = some found) : afterMark ")" ts = none := by
  unfold afterMark
  split
  · rename_i text rest
    split
    · -- A closing mark begins nothing, so nothing could have been read.
      rename_i close
      have nothing : (Lexeme.mark text).opening = .nothing := by rw [close]; rfl
      rw [read_nothing nothing] at reads
      cases reads
    · rfl
  · rfl

theorem ReadsArguments.single (reads : ReadsAs scope piece p edge) (enough : 3 ≤ p.strength)
    (within : 3 ≤ edge) : ReadsArguments scope piece [p.expr] := by
  intro rest
  have argument : read scope 3 (piece ++ .mark ")" :: rest) = some (p, .mark ")" :: rest) :=
    reads.stopped enough within (stops_cons.mpr (by decide))
  rw [readArguments]
  simp only [afterMark_close argument, argument, Option.bind_eq_bind, Option.bind_some,
    afterMark_self, Option.pure_def]
  rfl

theorem ReadsArguments.cons {more : List Lexeme} {args : List Expr}
    (reads : ReadsAs scope piece p edge) (enough : 3 ≤ p.strength) (within : 3 ≤ edge)
    (others : ReadsArguments scope more args) :
    ReadsArguments scope (piece ++ .mark "," :: more) (p.expr :: args) := by
  intro rest
  -- A comma is weaker than an argument, which therefore ends before it.
  have argument : read scope 3 (piece ++ .mark "," :: (more ++ .mark ")" :: rest)) =
      some (p, .mark "," :: (more ++ .mark ")" :: rest)) :=
    reads.stopped enough within (stops_cons.mpr (by decide))
  have shorter : (more ++ .mark ")" :: rest).length <
      (piece ++ .mark "," :: (more ++ .mark ")" :: rest)).length := by
    simp only [List.length_append, List.length_cons]
    omega
  rw [List.append_assoc, List.cons_append, readArguments]
  simp only [afterMark_close argument, argument, Option.bind_eq_bind, Option.bind_some,
    afterMark_self, if_true, shorter, others rest, Option.pure_def]

/-- A constructor call; the target ends where its arguments begin. -/
theorem ReadsAs.construction {inside : List Lexeme} {args : List Expr}
    (reads : ReadsAs scope piece p edge) (enough : 18 ≤ p.strength) (within : 18 ≤ edge)
    (arguments : ReadsArguments scope inside args) :
    ReadsAs scope (.word "new" :: (piece ++ .mark "(" :: (inside ++ [.mark ")"])))
      ⟨.new default p.expr args false, 18⟩ 19 := by
  refine .of_operand (by simp) fun least rest _ _ => ?_
  have opening : (Lexeme.word "new").opening = .construction := rfl
  -- The parenthesis of the arguments is no stronger than a target has to be.
  have target : read scope 18 (piece ++ .mark "(" :: (inside ++ .mark ")" :: rest)) =
      some (p, .mark "(" :: (inside ++ .mark ")" :: rest)) :=
    reads.stopped enough within (stops_cons.mpr (by decide))
  have shorter : (inside ++ .mark ")" :: rest).length <
      (piece ++ .mark "(" :: (inside ++ .mark ")" :: rest)).length := by
    simp only [List.length_append, List.length_cons]
    omega
  simp only [List.cons_append, List.append_assoc, List.nil_append]
  rw [readOperand]
  simp only [opening, target, Option.bind_eq_bind, Option.bind_some, afterMark_self, if_true,
    shorter, arguments rest, Option.pure_def]

/-- What stands behind the mark of a link makes a phrase of it and what is linked to. -/
def ReadsLink (scope : String → Option Ref) (p : Phrase) (link : ChainLink) (form : Following)
    (more : List Lexeme) (next : Phrase) : Prop :=
  ∀ rest, readLink scope p link form (more ++ rest) = some (next, rest)

variable {link : ChainLink}

theorem ReadsLink.name (name : String) :
    ReadsLink scope p link .name [.word name]
      ⟨.dot default p.expr name link false, link.accessStrength p.strength⟩ := by
  intro rest
  rw [List.singleton_append, readLink]

theorem ReadsLink.key {q : Phrase} (reads : ReadsAs scope piece q edge) (enough : 1 ≤ q.strength)
    (within : 1 ≤ edge) :
    ReadsLink scope p link .key (piece ++ [.mark "]"])
      ⟨.index default p.expr q.expr link false, link.accessStrength p.strength⟩ := by
  intro rest
  have key : read scope 1 (piece ++ .mark "]" :: rest) = some (q, .mark "]" :: rest) :=
    reads.stopped enough within (stops_cons.mpr (by decide))
  rw [List.append_assoc, List.singleton_append, readLink]
  simp only [key, afterMark_self, Option.bind_eq_bind, Option.bind_some, Option.pure_def]

theorem ReadsLink.arguments {inside : List Lexeme} {args : List Expr}
    (arguments : ReadsArguments scope inside args) :
    ReadsLink scope p link .arguments (inside ++ [.mark ")"])
      ⟨.call default p.expr args link false .normal, 17⟩ := by
  intro rest
  rw [List.append_assoc, List.singleton_append, readLink]
  simp only [arguments rest, Option.bind_eq_bind, Option.bind_some, Option.pure_def]

/-- A form of link and the mark that it begins with where it is not optional. -/
inductive LinkMark : Following → String → Prop where
  | name : LinkMark .name "."
  | key : LinkMark .key "["
  | arguments : LinkMark .arguments "("

/-- The link that a phrase goes on by where it is not optional. -/
def nextLink (p : Phrase) : ChainLink := if p.isOpen then .continued else .plain

variable {form : Following} {text : String} {more : List Lexeme} {next : Phrase}

/-- A link without an optional mark. -/
theorem ReadsAs.linked (reads : ReadsAs scope piece p edge) (enough : 17 ≤ p.strength)
    (within : 18 < edge) (mark : LinkMark form text)
    (linked : ReadsLink scope p (nextLink p) form more next)
    (weaker : next.strength ≤ p.strength) (weak : next.strength ≤ form.strength) :
    ReadsAs scope (piece ++ .mark text :: more) next 19 := by
  have goesOn : (Lexeme.mark text).following = form := by cases mark <;> rfl
  have atMost : form.strength ≤ 18 := by cases mark <;> decide
  refine reads.extended (by rw [goesOn]; omega) ?takes weaker (by rwa [goesOn]) fun rest _ => ?_
  case takes =>
    rw [goesOn]
    cases mark <;> simpa [Following.takes] using enough
  · -- What was linked to says whether the link goes on with a chain.
    have link : ∀ ts, extend scope p form ts = readLink scope p (nextLink p) form ts := by
      intro ts
      cases mark <;> rw [extend] <;> simp [nextLink]
    rw [goesOn, link, linked rest]

/-- A link behind an optional mark. -/
theorem ReadsAs.optionallyLinked {behind : List Lexeme} (reads : ReadsAs scope piece p edge)
    (enough : 17 ≤ p.strength) (within : 18 < edge)
    (begins : ∀ rest, optionalLink (behind ++ rest) = (form, more ++ rest))
    (shorter : more.length ≤ behind.length)
    (linked : ReadsLink scope p .start form more next) (weak : next.strength ≤ 17) :
    ReadsAs scope (piece ++ .mark "?." :: behind) next 19 := by
  have goesOn : (Lexeme.mark "?.").following = .optional := rfl
  refine reads.extended (by rw [goesOn]; exact Nat.lt_of_succ_lt within)
    (by simpa [goesOn, Following.takes] using enough) (Nat.le_trans weak enough)
    (by rwa [goesOn]) fun rest _ => ?_
  have guard : (more ++ rest).length ≤ (behind ++ rest).length := by
    simpa using shorter
  rw [goesOn, extend]
  simp only [begins rest, guard, if_true, linked rest]

/-- The mark of an optional link. -/
def linkMarks : ChainLink → List Lexeme
  | .start => [.mark "?."]
  | _ => []

theorem nextLink_ne_start (p : Phrase) : nextLink p ≠ .start := by
  unfold nextLink
  split <;> decide

@[simp] theorem linkMarks_nextLink (p : Phrase) : linkMarks (nextLink p) = [] := by
  unfold nextLink
  split <;> rfl

/-- A member access by name; what is linked to says which links can be read. -/
theorem ReadsAs.dot (reads : ReadsAs scope piece p edge) (enough : 17 ≤ p.strength)
    (within : 18 < edge) (agrees : link = .start ∨ link = nextLink p) (name : String) :
    ReadsAs scope (piece ++ [.mark (if link == .start then "?." else "."), .word name])
      ⟨.dot default p.expr name link false, link.accessStrength p.strength⟩ 19 := by
  rcases agrees with rfl | rfl
  · exact reads.optionallyLinked enough within (fun _ => rfl) (Nat.le_refl _) (.name name)
      (Nat.le_refl 17)
  · have plain : (nextLink p == .start) = false := by simpa using nextLink_ne_start p
    rw [plain]
    exact reads.linked enough within .name (.name name) (accessStrength_le enough)
      accessStrength_le_member

/-- A member access by key. -/
theorem ReadsAs.index {key : List Lexeme} {q : Phrase} {keyEdge : Nat}
    (reads : ReadsAs scope piece p edge) (enough : 17 ≤ p.strength) (within : 18 < edge)
    (agrees : link = .start ∨ link = nextLink p) (keyReads : ReadsAs scope key q keyEdge)
    (keyEnough : 1 ≤ q.strength) (keyWithin : 1 ≤ keyEdge) :
    ReadsAs scope (piece ++ (linkMarks link ++ .mark "[" :: (key ++ [.mark "]"])))
      ⟨.index default p.expr q.expr link false, link.accessStrength p.strength⟩ 19 := by
  rcases agrees with rfl | rfl
  · exact reads.optionallyLinked enough within (fun _ => by simp [optionalLink])
      (Nat.le_succ _) (.key keyReads keyEnough keyWithin) (Nat.le_refl 17)
  · rw [linkMarks_nextLink]
    exact reads.linked enough within .key (.key keyReads keyEnough keyWithin)
      (accessStrength_le enough) accessStrength_le_member

/-- A call. -/
theorem ReadsAs.call {inside : List Lexeme} {args : List Expr}
    (reads : ReadsAs scope piece p edge) (enough : 17 ≤ p.strength) (within : 18 < edge)
    (agrees : link = .start ∨ link = nextLink p) (arguments : ReadsArguments scope inside args) :
    ReadsAs scope (piece ++ (linkMarks link ++ .mark "(" :: (inside ++ [.mark ")"])))
      ⟨.call default p.expr args link false .normal, 17⟩ 19 := by
  rcases agrees with rfl | rfl
  · exact reads.optionallyLinked enough within (fun _ => by simp [optionalLink])
      (Nat.le_succ _) (.arguments arguments) (Nat.le_refl 17)
  · rw [linkMarks_nextLink]
    exact reads.linked enough within .arguments (.arguments arguments) enough (Nat.le_refl 17)

end

end Grammar

end EcmaPrune
