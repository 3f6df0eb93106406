import EcmaPrune.Proofs.Print.Nesting

/-!
Which `if` an `else` belongs to in printed code.

Printing puts a block around a statement in front of an `else` if that statement is an `if` without
one. What it does not see is an `if` at the end of a loop, a label or another `else` there.
-/

namespace EcmaPrune

open Grammar

/-- The words that begin a statement with other statements in it, or that go on with one. -/
def statementWords : List String := ["do", "else", "if", "while", "with"]

/-- Whether lexemes begin a statement that is no more than an expression. -/
def beginsPlain : List Lexeme → Bool
  | .mark text :: _ => text != "\x7b" && text != "\x7d"
  | .word text :: rest =>
    !statementWords.contains text &&
      (reservedWords.contains text || (afterMark ":" rest).isNone)
  | _ :: _ => true
  | [] => false

/-- Whether a lexeme can stand behind an operand at the start of an expression. -/
def Lexeme.continues : Lexeme → Bool
  | mark text => text != "\x7b" && text != "\x7d" && text != ":"
  | word text => reservedWords.contains text && !statementWords.contains text
  | literal _ => true
  | numeral _ => false

theorem beginsPlain_of_continues {t : Lexeme} (continues : t.continues) (rest : List Lexeme) :
    beginsPlain (t :: rest) := by
  cases t with
  | numeral text => rfl
  | literal text => rfl
  | mark text => simp_all [Lexeme.continues, beginsPlain]
  | word text => simp_all [Lexeme.continues, beginsPlain]

/-- A name that nothing labels begins an expression. -/
theorem beginsPlain_of_free {name : String} (free : name ∉ reservedWords) {t : Lexeme}
    (continues : t.continues) (rest : List Lexeme) : beginsPlain (.word name :: t :: rest) := by
  -- The words that begin other statements are all reserved.
  have ordinary : name ∉ statementWords := fun member =>
    free (List.Subset.trans (by decide) (List.Subset.refl _) member)
  cases t with
  | mark text =>
    -- Only a colon behind a name makes a label of it.
    have notColon : text ≠ ":" := by
      rintro rfl
      cases continues
    simp [beginsPlain, ordinary, afterMark, notColon]
  | _ => simp [beginsPlain, ordinary, afterMark]

theorem Operator.continues_lexeme (op : Operator) : op.lexeme.continues := by
  cases op <;> decide

theorem Operator.lexemes_token (table : SymbolTable) (op : Operator) :
    op.token.lexemes table = [op.lexeme] := by
  unfold Operator.token Operator.lexeme
  split <;> rfl

mutual

/-- How the statements of a tree stand in one another. -/
def Stmt.outline : Stmt → Outline
  | .block _ body => .block (Stmt.outlineList body)
  | .doWhile _ body _ => .doLoop body.outline
  | .ifElse _ _ yes none => .branch yes.outline
  | .ifElse _ _ yes (some no) => .choice yes.outline no.outline
  | .label _ name stmt => .label name stmt.outline
  | .whileLoop _ _ body => .under "while" body.outline
  | .withObject _ _ body => .under "with" body.outline
  | _ => .plain

/-- The same for statements in turn. -/
def Stmt.outlineList : List Stmt → List Outline
  | [] => []
  | s :: rest => s.outline :: Stmt.outlineList rest

end

mutual

/-- How the statements of a tree stand in one another if every `else` goes to the nearest `if`. -/
def Stmt.reading : Stmt → Outline
  | .block _ body => .block (Stmt.readingList body)
  | .doWhile _ body _ => .doLoop body.reading
  | .ifElse _ _ yes none => .branch yes.reading
  | .ifElse _ _ yes (some no) =>
    (Outline.branch (if yes.takesElse then .block [yes.reading] else yes.reading)).attach no.reading
  | .label _ name stmt => .label name stmt.reading
  | .whileLoop _ _ body => .under "while" body.reading
  | .withObject _ _ body => .under "with" body.reading
  | _ => .plain

/-- The same for statements in turn. -/
def Stmt.readingList : List Stmt → List Outline
  | [] => []
  | s :: rest => s.reading :: Stmt.readingList rest

end

/-- Whether the text of a statement ends in an `if` that an `else` behind it would belong to. -/
def Stmt.endsOpen : Stmt → Bool
  | .ifElse _ _ _ none => true
  | .ifElse _ _ _ (some no) => no.endsOpen
  | .label _ _ body | .whileLoop _ _ body | .withObject _ _ body => body.endsOpen
  | _ => false

mutual

/-- Whether all that ends in an open `if` in front of an `else` gets a block of its own. -/
def Stmt.closesOff : Stmt → Bool
  | .block _ body => Stmt.closesOffList body
  | .doWhile _ body _ | .label _ _ body | .whileLoop _ _ body | .withObject _ _ body =>
    body.closesOff
  | .ifElse _ _ yes none => yes.closesOff
  | .ifElse _ _ yes (some no) =>
    (yes.takesElse || !yes.endsOpen) && yes.closesOff && no.closesOff
  | _ => true

/-- The same for statements in turn. -/
def Stmt.closesOffList : List Stmt → Bool
  | [] => true
  | s :: rest => s.closesOff && Stmt.closesOffList rest

end

mutual

/-- Whether a statement is made of expressions, blocks, branches, loops and labels alone. -/
def Stmt.isNesting : Stmt → Bool
  | .block _ body => Stmt.isNestingList body
  | .doWhile _ body _ | .whileLoop _ _ body | .withObject _ _ body => body.isNesting
  | .empty _ | .expr .. => true
  | .ifElse _ _ yes none => yes.isNesting
  | .ifElse _ _ yes (some no) => yes.isNesting && no.isNesting
  | .label _ name stmt => !reservedWords.contains name && stmt.isNesting
  | _ => false

/-- The same for statements in turn. -/
def Stmt.isNestingList : List Stmt → Bool
  | [] => true
  | s :: rest => s.isNesting && Stmt.isNestingList rest

end

section

variable {table : SymbolTable}

/-- An operand begins an expression if it does so without parentheses of its own. -/
theorem Expr.beginsPlain_enclosed {e : Expr} {rest : List Lexeme}
    (plain : beginsPlain (lexemesOf table e.tokens ++ rest)) (parens : Bool) :
    beginsPlain (lexemesOf table (e.enclosed parens) ++ rest) := by
  cases parens with
  | true => rfl
  | false => exact plain

variable (free : ∀ ref, table.written ref ∉ reservedWords)
include free

/--
An expression without an object, function or class in front begins no other statement.

What follows its first operand goes on with an expression, so that no name in front is a label.
-/
theorem Expr.beginsPlain_tokens {t : Lexeme} (continues : t.continues) (rest : List Lexeme) :
    (e : Expr) → e.stmtNeedsParens = false → beginsPlain (lexemesOf table e.tokens ++ t :: rest)
  | .binary loc op left right, shown => by
    rw [Expr.tokens_binary, lexemesOf_append, List.append_assoc, lexemesOf_cons,
      Operator.lexemes_token]
    exact Expr.beginsPlain_enclosed
      (Expr.beginsPlain_tokens op.continues_lexeme _ left shown) _
  | .call loc target args link isPure kind, shown => by
    rw [Expr.tokens_call, lexemesOf_append, List.append_assoc]
    refine Expr.beginsPlain_enclosed ?_ _
    cases link with
    | start => exact Expr.beginsPlain_tokens (t := .mark "?.") rfl _ target shown
    | _ => exact Expr.beginsPlain_tokens (t := .mark "(") rfl _ target shown
  | .dot loc target name link isRemovable, shown => by
    rw [Expr.tokens_dot, lexemesOf_append, List.append_assoc]
    refine Expr.beginsPlain_enclosed ?_ _
    cases link with
    | start => exact Expr.beginsPlain_tokens (t := .mark "?.") rfl _ target shown
    | _ => exact Expr.beginsPlain_tokens (t := .mark ".") rfl _ target shown
  | .index loc target key link isRemovable, shown => by
    rw [Expr.tokens_index, lexemesOf_append, List.append_assoc]
    refine Expr.beginsPlain_enclosed ?_ _
    cases link with
    | start => exact Expr.beginsPlain_tokens (t := .mark "?.") rfl _ target shown
    | _ => exact Expr.beginsPlain_tokens (t := .mark "[") rfl _ target shown
  | .conditional loc test yes no, shown => by
    rw [Expr.tokens_conditional, lexemesOf_append, List.append_assoc]
    exact Expr.beginsPlain_enclosed
      (Expr.beginsPlain_tokens (t := .mark "?") rfl _ test shown) _
  | .template loc (some tag) head parts, shown => by
    have tokens : (Expr.template loc (some tag) head parts).tokens =
        tag.enclosed (tag.precedence < memberPrecedence) ++ TemplatePart.tokensList
          (Text.templateMark.toString ++ Text.templateSegment head) parts := by
      rw [← Expr.guarded_eq]
      rfl
    rw [tokens, lexemesOf_append, List.append_assoc]
    refine Expr.beginsPlain_enclosed ?_ _
    rcases parts with _ | ⟨⟨value, tail⟩, others⟩
    · exact Expr.beginsPlain_tokens (t := .literal _) rfl _ tag shown
    · exact Expr.beginsPlain_tokens (t := .literal _) rfl _ tag shown
  | .unary loc op value fromIdentifier, shown => by
    have split : (Expr.unary loc op value fromIdentifier).leftmost =
        if op.isPrefixed then .unary loc op value fromIdentifier else value.leftmost := rfl
    cases prefixed : op.isPrefixed with
    | true =>
      rw [Expr.tokens_unary_prefixed loc value fromIdentifier prefixed, lexemesOf_cons,
        Operator.lexemes_token]
      exact beginsPlain_of_continues op.continues_lexeme _
    | false =>
      have inside : value.stmtNeedsParens = false := by
        rwa [Expr.stmtNeedsParens, split, prefixed] at shown
      have mark : (Lexeme.mark op.text).continues := by
        cases op <;> decide
      rw [Expr.tokens_unary_behind loc value fromIdentifier prefixed, lexemesOf_append,
        List.append_assoc]
      exact Expr.beginsPlain_enclosed (Expr.beginsPlain_tokens mark _ value inside) _
  | .inlinedEnum _ value _, shown => Expr.beginsPlain_tokens continues rest value shown
  | .identifier _ ref _ _, _ | .importIdentifier _ ref, _ =>
    beginsPlain_of_free (free ref) continues rest
  | .missing _, _ => beginsPlain_of_continues continues rest
  | .number loc value, _ => by
    have noName (name : String) (ordinary : name ∉ reservedWords) :
        beginsPlain (.word name :: t :: rest) := beginsPlain_of_free ordinary continues rest
    have tokens : (Expr.number loc value).tokens = value.tokens := rfl
    rw [tokens, Number.tokens]
    split
    · exact noName "NaN" (by decide)
    · split
      · rfl
      · split
        · exact noName "Infinity" (by decide)
        · rfl
  | .arrow _ params body isAsync prefersExpr, _ => by
    cases isAsync <;> rfl
  | .boolean _ value, _ => by cases value <;> rfl
  | .template _ none _ parts, _ => by rcases parts with _ | ⟨⟨value, tail⟩, others⟩ <;> rfl
  | .array .., _ | .bigInt .., _ | .importMeta _, _ | .new .., _ | .null _, _ | .regExp .., _
  | .spread .., _ | .string .., _ | .this _, _ | .undefined _, _ => rfl
  | .classExpr .., shown | .function .., shown | .object .., shown => nomatch shown

end

theorem Stmt.isNesting_label {loc : Loc} {name : String} {stmt : Stmt}
    (nesting : (Stmt.label loc name stmt).isNesting) : name ∉ reservedWords ∧ stmt.isNesting := by
  simpa [isNesting] using nesting

/-- A statement that begins with an expression is read up to the semicolon behind it. -/
theorem readFront_of_beginsPlain {ts : List Lexeme} (plain : beginsPlain ts) :
    readFront ts = (behindMark ";" 0 ts).map (Outline.plain, ·) := by
  cases ts with
  | nil => cases plain
  | cons t ts =>
    cases t with
    | mark text =>
      have notBlock : text ≠ "\x7b" := by
        rintro rfl
        cases plain
      rw [readFront, if_neg notBlock]
      exact Option.map_eq_bind.symm
    | word text =>
      obtain ⟨ordinary, label⟩ : text ∉ statementWords ∧
          (text ∈ reservedWords ∨ afterMark ":" ts = none) := by
        simpa [beginsPlain] using plain
      -- So none of the branches for a word of a statement is taken.
      obtain ⟨notDo, notElse, notIf, notWhile, notWith⟩ :
          text ≠ "do" ∧ text ≠ "else" ∧ text ≠ "if" ∧ text ≠ "while" ∧ text ≠ "with" := by
        simpa [statementWords] using ordinary
      rw [readFront, if_neg notIf, if_neg (by simp [notWhile, notWith]), if_neg notDo,
        if_neg notElse]
      split
      · -- A colon behind a reserved word makes no label of it.
        next inside found =>
        have reserved : text ∈ reservedWords := label.resolve_right (by simp [found])
        rw [if_neg (by simp [reserved])]
        exact Option.map_eq_bind.symm
      · exact Option.map_eq_bind.symm
    | numeral text | literal text =>
      rw [readFront]
      · exact Option.map_eq_bind.symm
      all_goals simp

theorem readElses_of_none {o : Outline} {ts : List Lexeme} (none : afterWord "else" ts = none) :
    readElses o ts = some (o, ts) := by
  cases ts with
  | nil => rw [readElses]; simp
  | cons t ts =>
    cases t with
    | word text =>
      have other : text ≠ "else" := by
        rintro rfl
        cases none
      rw [readElses, if_neg (by simp [other])]
    | _ => rw [readElses]; simp

/-- An `else` behind what ends in an open `if` belongs to that. -/
theorem readElses_else {o no : Outline} {ts rest : List Lexeme} (isOpen : o.isOpen)
    (read : readFront ts = some (no, rest)) (shorter : rest.length ≤ ts.length) :
    readElses o (.word "else" :: ts) = readElses (o.attach no) rest := by
  rw [readElses, if_pos ⟨rfl, isOpen⟩, read]
  exact if_pos shorter

theorem readFront_if {ts inside left : List Lexeme} {yes : Outline}
    (head : afterHead ts = some inside) (shorter : inside.length ≤ ts.length)
    (read : readFront inside = some (yes, left)) :
    readFront (.word "if" :: ts) = some (.branch yes, left) := by
  simp [readFront, head, shorter, read]

theorem readFront_under {word : String} {ts inside left : List Lexeme} {body : Outline}
    (keyword : word = "while" ∨ word = "with")
    (head : afterHead ts = some inside) (shorter : inside.length ≤ ts.length)
    (read : readFront inside = some (body, left)) :
    readFront (.word word :: ts) = some (.under word body, left) := by
  have notIf : word ≠ "if" := by rintro rfl; simp at keyword
  simp [readFront, notIf, keyword, head, shorter, read]

theorem readFront_label {name : String} {ts left : List Lexeme} {body : Outline}
    (free : name ∉ reservedWords) (read : readFront ts = some (body, left)) :
    readFront (.word name :: .mark ":" :: ts) = some (.label name body, left) := by
  obtain ⟨notDo, notElse, notIf, notWhile, notWith⟩ :
      name ≠ "do" ∧ name ≠ "else" ∧ name ≠ "if" ∧ name ≠ "while" ∧ name ≠ "with" := by
    refine ⟨?_, ?_, ?_, ?_, ?_⟩ <;> rintro rfl <;> exact free (by decide)
  simp [readFront, notDo, notElse, notIf, notWhile, notWith, afterMark, free, read]

theorem readFront_do {ts rest left : List Lexeme} {body : Outline}
    (read : readStmt ts = some (body, .word "while" :: rest))
    (head : afterHead rest = some (.mark ";" :: left)) :
    readFront (.word "do" :: ts) = some (.doLoop body, left) := by
  simp [readFront, read, afterWord, head, afterMark]

theorem readBody_end {ts : List Lexeme} (ends : ts.isEmpty || (afterMark "\x7d" ts).isSome) :
    readBody ts = some ([], ts) := by
  rw [readBody, if_pos ends]

theorem lexemesOf_braced (table : SymbolTable) (tokens : List Token) (rest : List Lexeme) :
    lexemesOf table (braced tokens) ++ rest =
      .mark "\x7b" :: (lexemesOf table tokens ++ .mark "\x7d" :: rest) := by
  simp [braced, Token.lexemes]

theorem afterHead_parenthesized (table : SymbolTable) (e : Expr) (rest : List Lexeme) :
    afterHead (lexemesOf table (parenthesized e.tokens) ++ rest) = some rest := by
  have balanced : e.tokens.foldlM Token.depthBehind 0 = some 0 := e.balanced 0 (Nat.le_refl 0)
  have text : lexemesOf table (parenthesized e.tokens) ++ rest =
      .mark "(" :: (lexemesOf table e.tokens ++ (.mark ")" :: rest)) := by
    simp [parenthesized, Token.lexemes]
  rw [text]
  exact behindMark_of_depth rfl e.tokens _ balanced

theorem behindMark_semicolon (table : SymbolTable) {tokens : List Token} (rest : List Lexeme)
    (balanced : Balanced 0 tokens) :
    behindMark ";" 0 (lexemesOf table (tokens ++ [.punct ";"]) ++ rest) = some rest := by
  rw [lexemesOf_append, List.append_assoc,
    behindMark_of_depth rfl tokens _ (balanced 0 (Nat.le_refl 0))]
  rfl

/-- Whether lexemes begin a statement. -/
def beginsStatement : List Lexeme → Bool
  | .mark text :: _ => text != "\x7d"
  | .word text :: _ => text != "else"
  | _ :: _ => true
  | [] => false

theorem beginsStatement_of_beginsPlain {ts : List Lexeme} (plain : beginsPlain ts) :
    beginsStatement ts := by
  cases ts with
  | nil => cases plain
  | cons t ts =>
    cases t with
    | mark text => simp_all [beginsPlain, beginsStatement]
    | word text => simp_all [beginsPlain, beginsStatement, statementWords]
    | _ => rfl

theorem afterWord_of_begins {ts : List Lexeme} (begins : beginsStatement ts) :
    afterWord "else" ts = none := by
  cases ts with
  | nil => cases begins
  | cons t ts => cases t <;> simp_all [beginsStatement, afterWord]

theorem afterWord_of_end {ts : List Lexeme} (ends : ts.isEmpty || (afterMark "\x7d" ts).isSome) :
    afterWord "else" ts = none := by
  cases ts with
  | nil => rfl
  | cons t ts => cases t <;> simp_all [afterWord, afterMark]

theorem not_end_of_begins {ts : List Lexeme} (begins : beginsStatement ts) :
    (ts.isEmpty || (afterMark "\x7d" ts).isSome) = false := by
  cases ts with
  | nil => cases begins
  | cons t ts => cases t <;> simp_all [beginsStatement, afterMark]

section

variable {table : SymbolTable} (free : ∀ ref, table.written ref ∉ reservedWords)
include free

/-- An expression statement without its semicolon, in parentheses where it needs them. -/
theorem Stmt.beginsPlain_expr (loc : Loc) (value : Expr) (isGlue : Bool) (rest : List Lexeme) :
    beginsPlain (lexemesOf table (Stmt.expr loc value isGlue).tokens ++ rest) := by
  have tokens : (Stmt.expr loc value isGlue).tokens =
      (if value.stmtNeedsParens then parenthesized value.tokens else value.tokens) ++
        [.punct ";"] := rfl
  rw [tokens, lexemesOf_append, List.append_assoc]
  split
  · rfl
  · next shown =>
    exact Expr.beginsPlain_tokens free (t := .mark ";") rfl rest value (by simpa using shown)

theorem Stmt.begins_tokens (rest : List Lexeme) :
    (s : Stmt) → s.isNesting → beginsStatement (lexemesOf table s.tokens ++ rest)
  | .expr loc value isGlue, _ =>
    beginsStatement_of_beginsPlain (Stmt.beginsPlain_expr free loc value isGlue rest)
  | .label _ name stmt, nesting => by
    obtain ⟨named, -⟩ := Stmt.isNesting_label nesting
    have notElse : name ≠ "else" := by
      rintro rfl
      exact named (by decide)
    exact bne_iff_ne.mpr notElse
  | .block .., _ | .doWhile .., _ | .empty _, _ | .ifElse .., _ | .whileLoop .., _
  | .withObject .., _ => rfl

end

/--
Tokens that read as a statement in front of any rest.

The reader may stop short of the end, in front of an `else`. In every place where a statement ends,
reading on from there comes to the same as what the tokens are meant to be, followed by the rest.
-/
def Nests (table : SymbolTable) (tokens : List Token) (o : Outline) : Prop :=
  ∀ rest, ∃ front left, readFront (lexemesOf table tokens ++ rest) = some (front, left) ∧
    left.length ≤ (lexemesOf table tokens ++ rest).length ∧
      ∀ place, Outline.IsEdge place → readElses (place front) left = readElses (place o) rest

namespace Nests

variable {table : SymbolTable} {tokens : List Token} {o : Outline}

/-- A statement that is read to its end at once. -/
theorem closed (read : ∀ rest, readFront (lexemesOf table tokens ++ rest) = some (o, rest)) :
    Nests table tokens o :=
  fun rest => ⟨o, rest, read rest, by simp, fun _ _ => rfl⟩

theorem readStmt (nests : Nests table tokens o) (rest : List Lexeme) :
    readStmt (lexemesOf table tokens ++ rest) = readElses o rest := by
  obtain ⟨front, left, read, shorter, elses⟩ := nests rest
  rw [Grammar.readStmt, read]
  -- A whole statement is the place where nothing is around it.
  exact (if_pos shorter).trans (elses id .whole)

/-- What stands behind a head that the reader passes over. -/
theorem behind {before : List Token} {frame : Outline → Outline} (nests : Nests table tokens o)
    (edge : ∀ place, Outline.IsEdge place → Outline.IsEdge fun o => place (frame o))
    (read : ∀ ts front left, readFront ts = some (front, left) →
      readFront (lexemesOf table before ++ ts) = some (frame front, left)) :
    Nests table (before ++ tokens) (frame o) := by
  intro rest
  obtain ⟨front, left, readInside, shorter, elses⟩ := nests rest
  rw [lexemesOf_append, List.append_assoc]
  exact ⟨frame front, left, read _ front left readInside,
    Nat.le_trans shorter (by simp), fun place isEdge => elses _ (edge place isEdge)⟩

theorem branch (test : Expr) (nests : Nests table tokens o) :
    Nests table (.keyword "if" :: parenthesized test.tokens ++ tokens) (.branch o) := by
  refine nests.behind (fun place edge => edge.branch) fun ts front left read => ?_
  rw [lexemesOf_cons, List.append_assoc]
  exact readFront_if (afterHead_parenthesized table test ts) (by simp) read

theorem under (word : String) (head : Expr) (keyword : word = "while" ∨ word = "with")
    (nests : Nests table tokens o) :
    Nests table (.keyword word :: parenthesized head.tokens ++ tokens) (.under word o) := by
  refine nests.behind (fun place edge => edge.under word) fun ts front left read => ?_
  rw [lexemesOf_cons, List.append_assoc]
  exact readFront_under keyword (afterHead_parenthesized table head ts) (by simp) read

theorem label {name : String} (free : name ∉ reservedWords) (nests : Nests table tokens o) :
    Nests table (.identifier name :: .punct ":" :: tokens) (.label name o) := by
  have read (ts : List Lexeme) (front : Outline) (left : List Lexeme)
      (inside : readFront ts = some (front, left)) :
      readFront (lexemesOf table [.identifier name, .punct ":"] ++ ts) =
        some (.label name front, left) := readFront_label free inside
  exact nests.behind (fun place edge => edge.label name) read

/-- An `else` goes to the last open `if` in front of it. -/
theorem orElse {others : List Token} {no : Outline} (isOpen : o.isOpen)
    (nests : Nests table tokens o) (elseNests : Nests table others no) :
    Nests table (tokens ++ .keyword "else" :: others) (o.attach no) := by
  intro rest
  obtain ⟨second, left, readSecond, shorter, elseElses⟩ := elseNests rest
  obtain ⟨front, mid, read, within, elses⟩ :=
    nests (.word "else" :: (lexemesOf table others ++ rest))
  refine ⟨front, mid, ?_, ?_, fun place edge => ?_⟩
  · rw [lexemesOf_append, List.append_assoc]
    exact read
  · rw [lexemesOf_append, List.append_assoc]
    exact within
  · -- Here the reader takes the `else`, which brings a place of its own for further ones.
    rw [elses place edge, readElses_else (edge.isOpen isOpen) readSecond shorter,
      edge.attach second isOpen]
    exact elseElses _ (edge.behind isOpen)

/-- A statement in front of others in a block. -/
theorem readBody {rest after : List Lexeme} {others : List Outline} (nests : Nests table tokens o)
    (begins : ∀ rest, beginsStatement (lexemesOf table tokens ++ rest))
    (next : afterWord "else" rest = none) (readOthers : readBody rest = some (others, after)) :
    Grammar.readBody (lexemesOf table tokens ++ rest) = some (o :: others, after) := by
  -- Reading on in a block asks that the statement took something away.
  have some : lexemesOf table tokens ≠ [] := by
    intro empty
    have none := begins []
    rw [empty] at none
    cases none
  have shorter : rest.length < (lexemesOf table tokens ++ rest).length := by
    simpa using List.length_pos_iff.mpr some
  rw [Grammar.readBody, not_end_of_begins (begins rest), nests.readStmt, readElses_of_none next]
  exact (if_pos shorter).trans (by rw [readOthers]; rfl)

/-- A block of one statement. -/
theorem single (nests : Nests table tokens o)
    (begins : ∀ rest, beginsStatement (lexemesOf table tokens ++ rest)) :
    Nests table (braced tokens) (.block [o]) := by
  refine closed fun rest => ?_
  have ends : Grammar.readBody (.mark "\x7d" :: rest) = some ([], .mark "\x7d" :: rest) :=
    readBody_end rfl
  have inside := nests.readBody begins rfl ends
  rw [lexemesOf_braced, readFront, if_pos rfl, inside]
  rfl

end Nests

section

variable {table : SymbolTable} (free : ∀ ref, table.written ref ∉ reservedWords)
include free

mutual

/-- The text of a statement reads as the outline that gives every `else` to the nearest `if`. -/
theorem Stmt.nests : (s : Stmt) → s.isNesting → Nests table s.tokens s.reading
  | .block loc body, nesting => by
    refine Nests.closed fun rest => ?_
    have inside := Stmt.readBody_tokens body nesting (.mark "\x7d" :: rest) rfl
    have tokens : (Stmt.block loc body).tokens = braced (Stmt.tokensList body) := rfl
    rw [tokens, lexemesOf_braced, readFront, if_pos rfl, inside]
    rfl
  | .expr loc value isGlue, _ => by
    refine Nests.closed fun rest => ?_
    have whole : Balanced 0 (if value.stmtNeedsParens then parenthesized value.tokens
        else value.tokens) := .ite (.parenthesized value.balanced.everywhere) value.balanced
    rw [readFront_of_beginsPlain (Stmt.beginsPlain_expr free loc value isGlue rest)]
    exact congrArg (Option.map _) (behindMark_semicolon table rest whole)
  | .empty _, _ => Nests.closed fun rest => readFront_of_beginsPlain rfl
  | .doWhile loc body test, nesting => by
    refine Nests.closed fun rest => ?_
    have inside := (Stmt.nests body nesting).readStmt (.word "while" ::
      (lexemesOf table (parenthesized test.tokens) ++ .mark ";" :: rest))
    rw [readElses_of_none rfl] at inside
    have text : lexemesOf table (Stmt.doWhile loc body test).tokens ++ rest =
        .word "do" :: (lexemesOf table body.tokens ++ .word "while" ::
          (lexemesOf table (parenthesized test.tokens) ++ .mark ";" :: rest)) := by
      have tokens : (Stmt.doWhile loc body test).tokens = .keyword "do" :: body.tokens ++
          .keyword "while" :: parenthesized test.tokens ++ [.punct ";"] := rfl
      simp [tokens, Token.lexemes]
    rw [text]
    exact readFront_do inside (afterHead_parenthesized table test _)
  | .ifElse loc test yes none, nesting => by
    have tokens : (Stmt.ifElse loc test yes none).tokens =
        .keyword "if" :: parenthesized test.tokens ++ yes.tokens := List.append_nil _
    rw [tokens]
    exact (Stmt.nests yes nesting).branch test
  | .ifElse loc test yes (some no), nesting => by
    obtain ⟨onYes, onNo⟩ : yes.isNesting ∧ no.isNesting := by
      simpa [Stmt.isNesting] using nesting
    have nests := Stmt.nests yes onYes
    -- The printer's own block closes off what an `else` could be added to.
    have first : Nests table (if yes.takesElse then braced yes.tokens else yes.tokens)
        (if yes.takesElse then .block [yes.reading] else yes.reading) := by
      split
      · exact nests.single fun rest => Stmt.begins_tokens free rest yes onYes
      · exact nests
    exact (first.branch test).orElse rfl (Stmt.nests no onNo)
  | .label loc name stmt, nesting => by
    obtain ⟨named, inside⟩ := Stmt.isNesting_label nesting
    exact (Stmt.nests stmt inside).label named
  | .whileLoop loc test body, nesting => (Stmt.nests body nesting).under "while" test (.inl rfl)
  | .withObject loc value body, nesting => (Stmt.nests body nesting).under "with" value (.inr rfl)

theorem Stmt.readBody_tokens :
    (body : List Stmt) → Stmt.isNestingList body → (rest : List Lexeme) →
      (rest.isEmpty || (afterMark "\x7d" rest).isSome) →
      readBody (lexemesOf table (Stmt.tokensList body) ++ rest) =
        some (Stmt.readingList body, rest)
  | [], _, _, ends => readBody_end ends
  | s :: others, nesting, rest, ends => by
    obtain ⟨first, later⟩ : s.isNesting ∧ Stmt.isNestingList others := by
      simpa [Stmt.isNestingList] using nesting
    have next : afterWord "else" (lexemesOf table (Stmt.tokensList others) ++ rest) = none := by
      cases others with
      | nil => exact afterWord_of_end ends
      | cons s more =>
        have begins : s.isNesting := by simp_all [Stmt.isNestingList]
        have tokens : Stmt.tokensList (s :: more) = s.tokens ++ Stmt.tokensList more := rfl
        rw [tokens, lexemesOf_append, List.append_assoc]
        exact afterWord_of_begins (Stmt.begins_tokens free _ s begins)
    have tokens : Stmt.tokensList (s :: others) = s.tokens ++ Stmt.tokensList others := rfl
    rw [tokens, lexemesOf_append, List.append_assoc]
    exact (Stmt.nests s first).readBody (fun rest => Stmt.begins_tokens free rest s first) next
      (Stmt.readBody_tokens others later rest ends)

end

end

/-- What the printer writes between an `if` and its `else`, as it reads. -/
def Stmt.thenReading (yes : Stmt) : Outline :=
  if yes.takesElse then .block [yes.reading] else yes.reading

/-- An `else` is read where it stands if no `if` is open in front of it. -/
theorem Stmt.reading_choice {loc : Loc} {test : Expr} {yes no : Stmt}
    (closed : yes.thenReading.isOpen = false) :
    (Stmt.ifElse loc test yes (some no)).reading = .choice yes.thenReading no.reading :=
  if_neg (by rw [← Stmt.thenReading, closed]; decide)

/-- An open `if` takes the `else` that stands behind it. -/
theorem Stmt.reading_branch {loc : Loc} {test : Expr} {yes no : Stmt}
    (isOpen : yes.thenReading.isOpen) :
    (Stmt.ifElse loc test yes (some no)).reading = .branch (yes.thenReading.attach no.reading) :=
  if_pos isOpen

theorem Stmt.bare_thenReading (yes : Stmt) : yes.thenReading.bare = yes.reading.bare := by
  unfold Stmt.thenReading
  split <;> rfl

/-- Up to the end of a statement, every `else` is read as the tree has it if all is closed off. -/
theorem Stmt.isOpen_reading : (s : Stmt) → s.closesOff → s.reading.isOpen = s.endsOpen
  | .ifElse _ _ yes none, _ => rfl
  | .ifElse _ _ yes (some no), closed => by
    obtain ⟨⟨first, onYes⟩, onNo⟩ : ((yes.takesElse ∨ yes.endsOpen = false) ∧ yes.closesOff) ∧
        no.closesOff := by
      simpa [Stmt.closesOff] using closed
    have before : yes.thenReading.isOpen = false := by
      unfold Stmt.thenReading
      split
      · rfl
      · next plain => rw [Stmt.isOpen_reading yes onYes, first.resolve_left plain]
    rw [Stmt.reading_choice before]
    exact Stmt.isOpen_reading no onNo
  | .label _ _ body, closed | .whileLoop _ _ body, closed | .withObject _ _ body, closed =>
    Stmt.isOpen_reading body closed
  | .block .., _ | .breakTo .., _ | .classDecl .., _ | .continueTo .., _ | .debugger _, _
  | .doWhile .., _ | .empty _, _ | .exportClause .., _ | .exportDefaultClass .., _
  | .exportDefaultExpr .., _ | .exportDefaultFunction .., _ | .exportFrom .., _ | .expr .., _
  | .function .., _ | .importFrom .., _ | .localDecl .., _ | .returnValue .., _
  | .throwValue .., _ | .tryCatch .., _ => rfl

/-- Where a statement is closed off inside, it needs a block exactly if it ends in an open `if`. -/
theorem Stmt.isOpen_thenReading {yes : Stmt} (closed : yes.closesOff) :
    yes.thenReading.isOpen = false ↔ yes.takesElse ∨ yes.endsOpen = false := by
  unfold Stmt.thenReading
  split
  · next closedOff => simp [closedOff, Outline.isOpen]
  · next plain => simp [plain, Stmt.isOpen_reading yes closed]

theorem Outline.bare_block {body other : List Outline} (lengths : body.length = other.length) :
    (block body).bare = (block other).bare ↔ bareList body = bareList other := by
  match body, other with
  | [], [] => simp
  | [o], [p] => simp [bare, bareList]
  | _ :: _ :: _, _ :: _ :: _ => simp [bare, bareList]
  | [], _ :: _ | _ :: _, [] | [_], _ :: _ :: _ | _ :: _ :: _, [_] => simp at lengths

theorem Stmt.length_readingList (body : List Stmt) :
    (Stmt.readingList body).length = (Stmt.outlineList body).length := by
  induction body with
  | nil => rfl
  | cons s rest ih => exact congrArg (· + 1) ih

mutual

/-- Every `else` is read as the tree has it just if all is closed off that has to be. -/
theorem Stmt.bare_reading : (s : Stmt) → (s.reading.bare = s.outline.bare ↔ s.closesOff)
  | .block _ body =>
    (Outline.bare_block (Stmt.length_readingList body)).trans (Stmt.bareList_reading body)
  | .doWhile _ body _ | .label _ _ body | .whileLoop _ _ body | .withObject _ _ body => by
    simpa [Stmt.reading, Stmt.outline, Outline.bare, Stmt.closesOff] using Stmt.bare_reading body
  | .ifElse _ _ yes none => by
    simpa [Stmt.reading, Stmt.outline, Outline.bare, Stmt.closesOff] using Stmt.bare_reading yes
  | .ifElse _ _ yes (some no) => by
    have onYes := Stmt.bare_reading yes
    have onNo := Stmt.bare_reading no
    rw [Stmt.closesOff, Stmt.outline, Outline.bare, Bool.and_eq_true, Bool.and_eq_true,
      Bool.or_eq_true, Bool.not_eq_true', ← onNo, and_assoc]
    cases before : yes.thenReading.isOpen with
    | true =>
      -- The `else` goes astray, and so the statement reads as an `if` without one.
      rw [Stmt.reading_branch before, Outline.bare]
      refine iff_of_false (by simp) ?_
      rintro ⟨first, closed, -⟩
      have after := (Stmt.isOpen_thenReading closed).mpr first
      rw [before] at after
      cases after
    | false =>
      rw [Stmt.reading_choice before, Outline.bare, Outline.choice.injEq, Stmt.bare_thenReading,
        onYes]
      refine ⟨fun ⟨closed, rest⟩ => ⟨?_, closed, rest⟩, fun ⟨_, closed, rest⟩ => ⟨closed, rest⟩⟩
      exact (Stmt.isOpen_thenReading closed).mp before
  | .breakTo .. | .classDecl .. | .continueTo .. | .debugger _ | .empty _ | .exportClause ..
  | .exportDefaultClass .. | .exportDefaultExpr .. | .exportDefaultFunction .. | .exportFrom ..
  | .expr .. | .function .. | .importFrom .. | .localDecl .. | .returnValue .. | .throwValue ..
  | .tryCatch .. => ⟨fun _ => rfl, fun _ => rfl⟩

theorem Stmt.bareList_reading : (body : List Stmt) →
    (Outline.bareList (Stmt.readingList body) = Outline.bareList (Stmt.outlineList body) ↔
      Stmt.closesOffList body)
  | [] => by simp [Stmt.readingList, Stmt.outlineList, Stmt.closesOffList]
  | s :: rest => by
    rw [Stmt.readingList, Stmt.outlineList, Outline.bareList, Outline.bareList, List.cons.injEq,
      Stmt.bare_reading s, Stmt.bareList_reading rest, Stmt.closesOffList, Bool.and_eq_true]

end

section

variable {table : SymbolTable} {body : List Stmt} {fragments : List Fragment}

/-- No reference is written by a reserved word if no symbol has one for its name. -/
theorem SymbolTable.written_notMem_reservedWords
    (free : ∀ symbol ∈ table.symbols, symbol.name ∉ reservedWords) (ref : Ref) :
    table.written ref ∉ reservedWords := by
  unfold written name? get?
  cases found : table.symbols[ref.index.toNat]? with
  | none => decide
  | some symbol => exact free symbol (Array.mem_of_getElem? found)

/-- Printed statements read with every `else` at the nearest `if`. -/
theorem Stmt.readProgram_tokens (nesting : Stmt.isNestingList body)
    (free : ∀ symbol ∈ table.symbols, symbol.name ∉ reservedWords)
    (printed : fragmentsOf table (Stmt.tokensList body) = .ok fragments) :
    readProgram (fragments.map Fragment.lexeme) = some (Stmt.readingList body) := by
  have read := Stmt.readBody_tokens (SymbolTable.written_notMem_reservedWords free) body nesting
    [] rfl
  rw [List.append_nil] at read
  rw [lexemes_of_fragmentsOf printed, readProgram, read]

/--
An `else` in printed statements belongs to the `if` that it belongs to in the tree, exactly if no
statement in front of an `else` ends in an open `if` without being one itself.

This is about trees of expression statements, blocks, branches, loops and labels, nested to any
depth, whose names and labels are no reserved words. Whatever is printed can be read, with every
`else` going to the nearest `if` that has none; blocks around a single statement do not count.
-/
theorem Stmt.readProgram_fragmentsOf (nesting : Stmt.isNestingList body)
    (free : ∀ symbol ∈ table.symbols, symbol.name ∉ reservedWords)
    (printed : fragmentsOf table (Stmt.tokensList body) = .ok fragments) :
    ∃ outlines, readProgram (fragments.map Fragment.lexeme) = some outlines ∧
      (Outline.bareList outlines = Outline.bareList (Stmt.outlineList body) ↔
        Stmt.closesOffList body) :=
  ⟨_, Stmt.readProgram_tokens nesting free printed, Stmt.bareList_reading body⟩

/-- Printing puts a block in front of the `else` of `if(a){if(b)a;}else while(b)if(a)b;`. -/
theorem Stmt.readProgram_fragmentsOf_closed :
    let table : SymbolTable := ⟨#[⟨"a", .hoisted⟩, ⟨"b", .hoisted⟩]⟩
    let a := Expr.identifier default ⟨0⟩ false false
    let b := Expr.identifier default ⟨1⟩ false false
    let inner := Stmt.ifElse default b (.expr default a false) none
    let loop := Stmt.whileLoop default b (.ifElse default a (.expr default b false) none)
    let body := [Stmt.ifElse default a inner (some loop)]
    ∃ fragments, fragmentsOf table (Stmt.tokensList body) = .ok fragments ∧
      ∃ outlines, readProgram (fragments.map Fragment.lexeme) = some outlines ∧
        (Outline.bareList outlines = Outline.bareList (Stmt.outlineList body) ↔
          Stmt.closesOffList body) := by
  intro table a b inner loop body
  have free : ∀ symbol ∈ table.symbols, symbol.name ∉ reservedWords := by decide
  exact ⟨_, rfl, Stmt.readProgram_fragmentsOf rfl free rfl⟩

/-- The `else` of an `if` goes to the one at the end of the loop in front of it. -/
theorem Stmt.readProgram_lostElse :
    let table : SymbolTable :=
      ⟨#[⟨"a", .hoisted⟩, ⟨"b", .hoisted⟩, ⟨"c", .hoisted⟩, ⟨"x", .hoisted⟩, ⟨"y", .hoisted⟩]⟩
    let name (place : UInt32) := Expr.identifier default ⟨place⟩ false false
    let loop := Stmt.whileLoop default (name 1)
      (.ifElse default (name 2) (.expr default (name 3) false) none)
    let body := [Stmt.ifElse default (name 0) loop (some (.expr default (name 4) false))]
    let read := [Outline.branch (.under "while" (.choice .plain .plain))]
    Stmt.printList table body = .ok "if(a)while(b)if(c)x;else y;" ∧
      ∃ fragments, fragmentsOf table (Stmt.tokensList body) = .ok fragments ∧
        readProgram (fragments.map Fragment.lexeme) = some read ∧
          Outline.bareList read ≠ Outline.bareList (Stmt.outlineList body) := by
  intro table name loop body read
  have free : ∀ symbol ∈ table.symbols, symbol.name ∉ reservedWords := by decide
  have differ : Outline.bareList read ≠ Outline.bareList (Stmt.outlineList body) := nofun
  obtain ⟨fragments, printed⟩ : ∃ fragments, fragmentsOf table (Stmt.tokensList body) =
      .ok fragments := ⟨_, rfl⟩
  have reading : Stmt.readingList body = read := rfl
  have reads := Stmt.readProgram_tokens rfl free printed
  rw [reading] at reads
  exact ⟨by decide +kernel, fragments, printed, reads, differ⟩

end

end EcmaPrune
