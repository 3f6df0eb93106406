import EcmaPrune.Proofs.Number.Decimal
import EcmaPrune.Proofs.Print.Strength
import EcmaPrune.Proofs.Tree.Marks

/-!
Printed operator expressions read back as the trees that they were printed from.

A printed piece of code is followed through both: what it writes, given the names of the symbols,
and what the grammar reads of that, given the symbols of the names.
-/

namespace EcmaPrune

open Grammar

/-- The reference of an identifier. -/
def Mark.identifier? : Mark → Option Ref
  | identifier ref => some ref
  | _ => none

namespace Expr

/-- The tokens of an expression with or without parentheses around it. -/
def enclosed (e : Expr) (parens : Bool) : List Token :=
  if parens then parenthesized e.tokens else e.tokens

theorem guarded_eq (e : Expr) (least : Nat) :
    e.guarded least e.tokens = e.enclosed (e.precedence < least) := by
  simp [guarded, enclosed]

theorem guardedTarget_eq (target : Expr) (link : ChainLink) :
    target.guardedTarget link target.tokens = target.enclosed (target.targetParens link) := by
  unfold guardedTarget targetParens
  rw [guarded_eq]
  cases link == .plain && target.isChainLink <;> simp [enclosed]

theorem tokens_binary (loc : Loc) (op : Operator) (left right : Expr) :
    (binary loc op left right).tokens =
      left.enclosed (left.leftParens op) ++ op.token :: right.enclosed (right.rightParens op) := by
  -- The printer asks for the reasons of parentheses one after another.
  have leftTokens : (if left.mixesNullish op || (op == .exponentiation && left.isUnaryLike) then
        parenthesized left.tokens
      else left.guarded op.leftPrecedence left.tokens) = left.enclosed (left.leftParens op) := by
    rw [guarded_eq, leftParens]
    cases left.mixesNullish op || (op == .exponentiation && left.isUnaryLike) <;> simp [enclosed]
  have rightTokens : (if right.mixesNullish op then parenthesized right.tokens
      else right.guarded op.rightPrecedence right.tokens) =
        right.enclosed (right.rightParens op) := by
    rw [guarded_eq, rightParens]
    cases right.mixesNullish op <;> simp [enclosed]
  rw [← leftTokens, ← rightTokens]
  rfl

theorem tokens_conditional (loc : Loc) (test yes no : Expr) :
    (conditional loc test yes no).tokens =
      test.enclosed (test.precedence < Operator.conditional.precedence + 1) ++ .punct "?" ::
        (yes.enclosed (yes.precedence < itemPrecedence) ++ .punct ":" ::
          no.enclosed (no.precedence < itemPrecedence)) := by
  have tokens : (conditional loc test yes no).tokens =
      test.guarded (Operator.conditional.precedence + 1) test.tokens ++
        .punct "?" :: yes.guarded itemPrecedence yes.tokens ++
        .punct ":" :: no.guarded itemPrecedence no.tokens := rfl
  rw [tokens, guarded_eq, guarded_eq, guarded_eq, List.append_assoc, List.cons_append]

theorem tokens_unary_prefixed (loc : Loc) {op : Operator} (value : Expr) (fromIdentifier : Bool)
    (prefixed : op.isPrefixed) :
    (unary loc op value fromIdentifier).tokens =
      op.token :: value.enclosed (value.precedence < op.precedence) := by
  rw [← guarded_eq]
  exact if_pos prefixed

theorem tokens_unary_behind (loc : Loc) {op : Operator} (value : Expr) (fromIdentifier : Bool)
    (behind : op.isPrefixed = false) :
    (unary loc op value fromIdentifier).tokens =
      value.enclosed (value.precedence < op.precedence) ++ [.punct op.text] := by
  rw [← guarded_eq]
  exact if_neg (by simp [behind])

theorem tokens_new (loc : Loc) (target : Expr) (args : List Expr) (isPure : Bool) :
    (new loc target args isPure).tokens =
      .keyword "new" :: (target.enclosed target.newTargetParens ++ .punct "(" ::
        (commaSeparated (tokensList args) ++ [.punct ")"])) := by
  have targetTokens : (if target.newTargetNeedsParens then parenthesized target.tokens
      else target.guarded memberPrecedence target.tokens) =
        target.enclosed target.newTargetParens := by
    rw [guarded_eq, newTargetParens]
    cases target.newTargetNeedsParens <;> simp [enclosed]
  rw [← targetTokens]
  rfl

theorem tokens_call (loc : Loc) (target : Expr) (args : List Expr) (link : ChainLink)
    (isPure : Bool) (kind : CallKind) :
    (call loc target args link isPure kind).tokens =
      target.enclosed (target.targetParens link) ++ (link.mark ++ .punct "(" ::
        (commaSeparated (tokensList args) ++ [.punct ")"])) := by
  rw [← guardedTarget_eq, ← List.append_assoc]
  rfl

theorem tokens_dot (loc : Loc) (target : Expr) (name : String) (link : ChainLink)
    (isRemovable : Bool) :
    (dot loc target name link isRemovable).tokens =
      target.enclosed (target.targetParens link) ++
        [.punct (if link == .start then "?." else "."), .identifier name] := by
  rw [← guardedTarget_eq]
  rfl

theorem tokens_index (loc : Loc) (target key : Expr) (link : ChainLink) (isRemovable : Bool) :
    (index loc target key link isRemovable).tokens =
      target.enclosed (target.targetParens link) ++ (link.mark ++ .punct "[" ::
        (key.tokens ++ [.punct "]"])) := by
  rw [← guardedTarget_eq, ← List.append_assoc]
  rfl

end Expr

section

variable {table : SymbolTable} {tokens more : List Token} {lexemes others : List Lexeme}

/-- Tokens write lexemes, given the names of all symbols in them. -/
def Writes (table : SymbolTable) (tokens : List Token) (lexemes : List Lexeme) : Prop :=
  ∃ fragments, fragmentsOf table tokens = .ok fragments ∧ fragments.map Fragment.lexeme = lexemes

theorem Writes.nil : Writes table [] [] := ⟨[], rfl, rfl⟩

/-- A token that writes a single fragment. -/
theorem Writes.cons {token : Token} (fragment : Fragment)
    (first : token.fragments table = .ok [fragment]) (rest : Writes table tokens lexemes) :
    Writes table (token :: tokens) (fragment.lexeme :: lexemes) := by
  obtain ⟨fragments, written, rfl⟩ := rest
  refine ⟨fragment :: fragments, ?_, rfl⟩
  rw [fragmentsOf, first, written]
  rfl

theorem Writes.punct (text : String) (rest : Writes table tokens lexemes) :
    Writes table (.punct text :: tokens) (.mark text :: lexemes) :=
  rest.cons (.punct text) rfl

theorem Writes.operator (op : Operator) (rest : Writes table tokens lexemes) :
    Writes table (op.token :: tokens) (op.lexeme :: lexemes) := by
  unfold Operator.token Operator.lexeme
  split
  · exact rest.cons (.keyword op.text) rfl
  · exact rest.punct op.text

/-- What tokens write is written behind what is in front of them. -/
theorem fragmentsOf_append {first second : List Fragment}
    (firstWritten : fragmentsOf table tokens = .ok first)
    (secondWritten : fragmentsOf table more = .ok second) :
    fragmentsOf table (tokens ++ more) = .ok (first ++ second) := by
  induction tokens generalizing first with
  | nil =>
    cases firstWritten
    exact secondWritten
  | cons token tokens ih =>
    rw [List.cons_append, fragmentsOf]
    rw [fragmentsOf] at firstWritten
    -- Both the token and what is behind it have been written.
    cases written : token.fragments table with
    | error => rw [written] at firstWritten; cases firstWritten
    | ok fragments =>
      cases restWritten : fragmentsOf table tokens with
      | error => rw [written, restWritten] at firstWritten; cases firstWritten
      | ok rest =>
        rw [written, restWritten] at firstWritten
        cases firstWritten
        rw [ih restWritten, List.append_assoc]
        rfl

theorem Writes.append (first : Writes table tokens lexemes) (second : Writes table more others) :
    Writes table (tokens ++ more) (lexemes ++ others) := by
  obtain ⟨firstFragments, firstWritten, rfl⟩ := first
  obtain ⟨secondFragments, secondWritten, rfl⟩ := second
  exact ⟨_, fragmentsOf_append firstWritten secondWritten, List.map_append⟩

end

section

variable {table : SymbolTable} {scope : String → Option Ref}

/-- Printed tokens read as a phrase. -/
def Prints (table : SymbolTable) (scope : String → Option Ref) (tokens : List Token) (p : Phrase)
    (edge : Nat) : Prop :=
  ∃ lexemes, Writes table tokens lexemes ∧ ReadsAs scope lexemes p edge

/-- An expression reads back where it is printed without parentheses. -/
def Expr.ReadsBack (table : SymbolTable) (scope : String → Option Ref) (e : Expr) : Prop :=
  Prints table scope e.tokens ⟨e.bare, e.strength⟩ e.edge

namespace Expr

variable {loc : Loc} {op : Operator} {target left right value test yes no key : Expr}
  {args : List Expr} {link : ChainLink}

/-- An expression reads back with parentheses around it or without. -/
theorem ReadsBack.enclosed {e : Expr} (reads : e.ReadsBack table scope)
    (operators : IsOperatorExpr e) (parens : Bool) :
    Prints table scope (e.enclosed parens) (e.phrase parens) (e.edgeIn parens) := by
  cases parens with
  | false => exact reads
  | true =>
    obtain ⟨lexemes, writes, readsAs⟩ := reads
    -- Anything at all may stand between parentheses.
    have enough : 1 ≤ e.strength := le_strength (one_le_precedence operators) (by decide)
    have within : 1 ≤ e.edge :=
      Nat.le_trans (one_le_precedence operators) (precedence_le_edge operators)
    refine ⟨_, ?_, readsAs.group enough within⟩
    exact .punct "(" (writes.append (.punct ")" .nil))

theorem readsBack_identifier {ref : Ref} {name : String} {isRemovable mustKeepInWith : Bool}
    (named : table.name? ref = some name) (free : name ∉ reservedWords)
    (inScope : scope name = some ref) :
    (identifier loc ref isRemovable mustKeepInWith).ReadsBack table scope := by
  refine ⟨[.word name], ?_, .name free inScope⟩
  exact .cons (.identifier name)
    (by simp [Token.fragments, SymbolTable.resolve, named]) .nil

theorem readsBack_number {value : Number} (positive : value.isNegative = false)
    (finite : value.exponentField < Number.lastExponent) :
    (number loc value).ReadsBack table scope := by
  -- A finite number is written as its digits alone.
  have isNumber : value.isNaN = false := by
    unfold Number.isNaN
    simp only [Bool.and_eq_false_imp, beq_iff_eq]
    omega
  have notInfinite : value.isInfinite = false := by
    unfold Number.isInfinite
    simp only [Bool.and_eq_false_imp, beq_iff_eq]
    omega
  have tokens : (number loc value).tokens = [.number value.magnitudeText] := by
    show value.tokens = _
    simp [Number.tokens, isNumber, notInfinite, printsMinus_of_positive positive]
  refine ⟨[.numeral value.magnitudeText], ?_,
    .numeral (Number.ofDecimal?_magnitudeText positive finite)⟩
  rw [tokens]
  exact .cons (.number value.magnitudeText) rfl .nil

theorem readsBack_unary {fromIdentifier : Bool} (arity : op.arity = .unary)
    (place : op.isUpdate → value.isPlace) (operators : IsOperatorExpr value)
    (reads : value.ReadsBack table scope) :
    (unary loc op value fromIdentifier).ReadsBack table scope := by
  obtain ⟨lexemes, writes, readsAs⟩ := reads.enclosed operators (value.precedence < op.precedence)
  have level : 15 ≤ op.precedence := Operator.precedence_of_unary arity
  have place' : op.isUpdate → value.bare.isPlace := by simpa using place
  cases prefixed : op.isPrefixed with
  | true =>
    refine ⟨op.lexeme :: lexemes, ?_, ?_⟩
    · rw [tokens_unary_prefixed loc value fromIdentifier prefixed]
      exact writes.operator op
    · have edge : (unary loc op value fromIdentifier).edge = 15 :=
        Operator.rightPrecedence_of_prefixed prefixed
      rw [edge]
      exact readsAs.operation prefixed (le_strengthIn_guarded level (by decide))
        (le_edgeIn_guarded operators level (by decide)) place'
  | false =>
    -- What is assigned to has no parentheses around it, and can be gone on from.
    have isUnary : op.isUnary := by simp [Operator.isUnary, arity]
    have isPlace := place (following_update isUnary prefixed).2
    have member : 18 ≤ value.precedence := precedence_of_isPlace isPlace
    refine ⟨lexemes ++ [.mark op.text], ?_, ?_⟩
    · rw [tokens_unary_behind loc value fromIdentifier prefixed]
      exact writes.append (.punct op.text .nil)
    · have behind : op.rightPrecedence ≤ 19 :=
        Nat.le_trans (Operator.rightPrecedence_le op) (by decide)
      have place' : (value.phrase (value.precedence < op.precedence)).expr.isPlace := by
        simpa [phrase] using isPlace
      refine (readsAs.update isUnary prefixed ?_ ?_ place').mono behind
      · exact le_enclosedStrength (by decide) fun _ =>
          le_strength (Nat.le_of_succ_le member) (by decide)
      · refine le_enclosedStrength (by decide) fun _ => ?_
        rw [edge_of_member operators member]
        decide

theorem readsBack_binary (arity : op.arity = .binary) (place : op.isAssignment → left.isPlace)
    (leftOperators : IsOperatorExpr left) (rightOperators : IsOperatorExpr right)
    (leftReads : left.ReadsBack table scope) (rightReads : right.ReadsBack table scope) :
    (binary loc op left right).ReadsBack table scope := by
  obtain ⟨leftLexemes, leftWrites, leftAs⟩ := leftReads.enclosed leftOperators (left.leftParens op)
  obtain ⟨rightLexemes, rightWrites, rightAs⟩ :=
    rightReads.enclosed rightOperators (right.rightParens op)
  -- The operator is read by the strength it is printed with, and stops the left operand.
  have strength := strength_reading op
  have within : op.reading.strength < left.edgeIn (left.leftParens op) := by
    rw [strength]
    exact lt_leftEdge leftOperators
  have reads := leftAs.infix arity within (takes_leftParens leftOperators place) rightAs
    (le_rightStrength rightOperators arity) (le_rightEdge rightOperators arity)
  rw [strength] at reads
  refine ⟨leftLexemes ++ op.lexeme :: rightLexemes, ?_,
    reads.mono (Operator.rightPrecedence_le_reading op)⟩
  rw [tokens_binary]
  exact leftWrites.append (rightWrites.operator op)

theorem readsBack_conditional (testOperators : IsOperatorExpr test)
    (yesOperators : IsOperatorExpr yes) (noOperators : IsOperatorExpr no)
    (testReads : test.ReadsBack table scope) (yesReads : yes.ReadsBack table scope)
    (noReads : no.ReadsBack table scope) :
    (conditional loc test yes no).ReadsBack table scope := by
  obtain ⟨testLexemes, testWrites, testAs⟩ := testReads.enclosed testOperators
    (test.precedence < Operator.conditional.precedence + 1)
  obtain ⟨yesLexemes, yesWrites, yesAs⟩ :=
    yesReads.enclosed yesOperators (yes.precedence < itemPrecedence)
  obtain ⟨noLexemes, noWrites, noAs⟩ :=
    noReads.enclosed noOperators (no.precedence < itemPrecedence)
  refine ⟨testLexemes ++ .mark "?" :: (yesLexemes ++ .mark ":" :: noLexemes), ?_, ?_⟩
  · rw [tokens_conditional]
    exact testWrites.append (.punct "?" (yesWrites.append (.punct ":" noWrites)))
  · -- Only the test is asked for more than an item of a list.
    have item : 3 ≤ itemPrecedence := Nat.le_refl 3
    exact testAs.choice (le_strengthIn_guarded (Nat.le_refl 4) (by decide))
      (le_edgeIn_guarded testOperators (Nat.le_refl 4) (by decide))
      yesAs (le_strengthIn_guarded item (by decide))
      (le_edgeIn_guarded yesOperators item (by decide))
      noAs (le_strengthIn_guarded item (by decide))
      (le_edgeIn_guarded noOperators item (by decide))

/-- Printed arguments read back one by one. -/
theorem readsBack_arguments (operators : ∀ arg ∈ args, IsOperatorExpr arg)
    (reads : ∀ arg ∈ args, arg.ReadsBack table scope) :
    ∃ lexemes, Writes table (commaSeparated (tokensList args)) lexemes ∧
      ReadsArguments scope lexemes (bareList args) := by
  induction args with
  | nil => exact ⟨[], .nil, .nil⟩
  | cons arg rest ih =>
    have argOperators := operators arg List.mem_cons_self
    obtain ⟨lexemes, writes, readsAs⟩ := (reads arg List.mem_cons_self).enclosed argOperators
      (arg.precedence < itemPrecedence)
    obtain ⟨others, othersWrite, othersRead⟩ := ih
      (fun other member => operators other (List.mem_cons_of_mem arg member))
      (fun other member => reads other (List.mem_cons_of_mem arg member))
    have enough : 3 ≤ (arg.phrase (arg.precedence < itemPrecedence)).strength :=
      le_strengthIn_guarded (Nat.le_refl 3) (by decide)
    have within : 3 ≤ arg.edgeIn (arg.precedence < itemPrecedence) :=
      le_edgeIn_guarded argOperators (Nat.le_refl 3) (by decide)
    rw [← guarded_eq] at writes
    -- A comma is only written in front of another argument.
    cases rest with
    | nil => exact ⟨lexemes, writes, .single readsAs enough within⟩
    | cons next rest =>
      exact ⟨lexemes ++ .mark "," :: others, writes.append (.punct "," othersWrite),
        .cons readsAs enough within othersRead⟩

theorem readsBack_new {isPure : Bool} (targetOperators : IsOperatorExpr target)
    (operators : ∀ arg ∈ args, IsOperatorExpr arg) (targetReads : target.ReadsBack table scope)
    (reads : ∀ arg ∈ args, arg.ReadsBack table scope) :
    (new loc target args isPure).ReadsBack table scope := by
  obtain ⟨lexemes, writes, readsAs⟩ := targetReads.enclosed targetOperators target.newTargetParens
  obtain ⟨inside, insideWrites, arguments⟩ := readsBack_arguments operators reads
  refine ⟨.word "new" :: (lexemes ++ .mark "(" :: (inside ++ [.mark ")"])), ?_, ?_⟩
  · rw [tokens_new]
    exact .cons (.keyword "new") rfl
      (writes.append (.punct "(" (insideWrites.append (.punct ")" .nil))))
  · exact readsAs.construction (le_newTargetStrength target) (le_newTargetEdge targetOperators)
      arguments

theorem writes_mark {tokens : List Token} {lexemes : List Lexeme} (link : ChainLink)
    (rest : Writes table tokens lexemes) :
    Writes table (link.mark ++ tokens) (linkMarks link ++ lexemes) := by
  cases link with
  | start => exact rest.punct "?."
  | plain | continued => exact rest

theorem readsBack_call {isPure : Bool} {kind : CallKind}
    (inChain : link = .continued → target.isChainLink) (targetOperators : IsOperatorExpr target)
    (operators : ∀ arg ∈ args, IsOperatorExpr arg) (targetReads : target.ReadsBack table scope)
    (reads : ∀ arg ∈ args, arg.ReadsBack table scope) :
    (call loc target args link isPure kind).ReadsBack table scope := by
  obtain ⟨lexemes, writes, readsAs⟩ :=
    targetReads.enclosed targetOperators (target.targetParens link)
  obtain ⟨inside, insideWrites, arguments⟩ := readsBack_arguments operators reads
  refine ⟨_, ?_, readsAs.call (le_targetStrength target link) (lt_targetEdge targetOperators link)
    (nextLink_target targetOperators inChain) arguments⟩
  rw [tokens_call]
  exact writes.append (writes_mark link (.punct "(" (insideWrites.append (.punct ")" .nil))))

theorem readsBack_dot {name : String} {isRemovable : Bool}
    (inChain : link = .continued → target.isChainLink) (targetOperators : IsOperatorExpr target)
    (targetReads : target.ReadsBack table scope) :
    (dot loc target name link isRemovable).ReadsBack table scope := by
  obtain ⟨lexemes, writes, readsAs⟩ :=
    targetReads.enclosed targetOperators (target.targetParens link)
  refine ⟨_, ?_, readsAs.dot (le_targetStrength target link) (lt_targetEdge targetOperators link)
    (nextLink_target targetOperators inChain) name⟩
  rw [tokens_dot]
  exact writes.append (.punct _ (.cons (.identifier name) rfl .nil))

theorem readsBack_index {isRemovable : Bool} (inChain : link = .continued → target.isChainLink)
    (targetOperators : IsOperatorExpr target) (keyOperators : IsOperatorExpr key)
    (targetReads : target.ReadsBack table scope) (keyReads : key.ReadsBack table scope) :
    (index loc target key link isRemovable).ReadsBack table scope := by
  obtain ⟨lexemes, writes, readsAs⟩ :=
    targetReads.enclosed targetOperators (target.targetParens link)
  obtain ⟨inside, insideWrites, keyAs⟩ := keyReads.enclosed keyOperators false
  have enough : 1 ≤ (key.phrase false).strength :=
    le_strength (one_le_precedence keyOperators) (by decide)
  have within : 1 ≤ key.edgeIn false :=
    Nat.le_trans (one_le_precedence keyOperators) (precedence_le_edge keyOperators)
  refine ⟨_, ?_, readsAs.index (le_targetStrength target link) (lt_targetEdge targetOperators link)
    (nextLink_target targetOperators inChain) keyAs enough within⟩
  rw [tokens_index]
  exact writes.append (writes_mark link (.punct "[" (insideWrites.append (.punct "]" .nil))))

/-- An operator expression reads back if each of its names is that of one symbol. -/
theorem readsBack_of_named {e : Expr} (operators : IsOperatorExpr e)
    (named : ∀ ref ∈ e.marks Mark.identifier?, ∃ name, table.name? ref = some name ∧
      name ∉ reservedWords ∧ scope name = some ref) : e.ReadsBack table scope := by
  induction operators with
  | identifier loc ref =>
    obtain ⟨name, hasName, free, inScope⟩ := named ref (by simp [Mark.identifier?])
    exact readsBack_identifier hasName free inScope
  | number loc positive finite => exact readsBack_number positive finite
  | unary loc fromIdentifier arity place operators ih =>
    exact readsBack_unary arity place operators (ih fun ref member => named ref (by simp [member]))
  | binary loc arity place leftOperators rightOperators leftIh rightIh =>
    exact readsBack_binary arity place leftOperators rightOperators
      (leftIh fun ref member => named ref (by simp [member]))
      (rightIh fun ref member => named ref (by simp [member]))
  | conditional loc testOperators yesOperators noOperators testIh yesIh noIh =>
    exact readsBack_conditional testOperators yesOperators noOperators
      (testIh fun ref member => named ref (by simp [member]))
      (yesIh fun ref member => named ref (by simp [member]))
      (noIh fun ref member => named ref (by simp [member]))
  | call loc isPure kind inChain targetOperators operators targetIh ih =>
    refine readsBack_call inChain targetOperators operators
      (targetIh fun ref member => named ref (by simp [member])) fun arg isArg =>
        ih arg isArg fun ref member => named ref ?_
    simp only [marks_call, List.mem_append, List.mem_flatMap]
    exact .inr (.inr ⟨arg, isArg, member⟩)
  | new loc isPure targetOperators operators targetIh ih =>
    refine readsBack_new targetOperators operators
      (targetIh fun ref member => named ref (by simp [member])) fun arg isArg =>
        ih arg isArg fun ref member => named ref ?_
    simp only [marks_new, List.mem_append, List.mem_flatMap]
    exact .inr (.inr ⟨arg, isArg, member⟩)
  | dot loc name isRemovable inChain operators ih =>
    exact readsBack_dot inChain operators (ih fun ref member => named ref (by simp [member]))
  | index loc isRemovable inChain targetOperators keyOperators targetIh keyIh =>
    exact readsBack_index inChain targetOperators keyOperators
      (targetIh fun ref member => named ref (by simp [member]))
      (keyIh fun ref member => named ref (by simp [member]))

end Expr

/-- The reference in an expression to the symbol of a name. -/
def Expr.refNamed? (table : SymbolTable) (e : Expr) (name : String) : Option Ref :=
  (e.marks Mark.identifier?).find? fun ref => table.name? ref == some name

/-- The symbol of a name is found if no two symbols share one. -/
theorem Expr.refNamed?_name {e : Expr} {ref : Ref} {name : String}
    (member : ref ∈ e.marks Mark.identifier?) (named : table.name? ref = some name)
    (distinct : ∀ ref ∈ e.marks Mark.identifier?, ∀ other ∈ e.marks Mark.identifier?,
      table.name? ref = table.name? other → ref = other) : e.refNamed? table name = some ref := by
  cases found : e.refNamed? table name with
  | none =>
    have absent := List.find?_eq_none.mp found ref member
    exact absurd (by simpa using named) absent
  | some other =>
    have otherNamed : table.name? other = some name := by simpa using List.find?_some found
    have otherMember := List.mem_of_find?_eq_some found
    rw [distinct ref member other otherMember (named.trans otherNamed.symm)]

/--
Printed operator expressions read back as the same tree.

The names of the symbols tell them apart and are not reserved. What is read back has the same
operators, operands and optional chains; positions and flags are not printed.
-/
theorem readExpr_fragmentsOf {e : Expr} (operators : IsOperatorExpr e)
    (named : ∀ ref ∈ e.marks Mark.identifier?, ∃ name,
      table.name? ref = some name ∧ name ∉ reservedWords)
    (distinct : ∀ ref ∈ e.marks Mark.identifier?, ∀ other ∈ e.marks Mark.identifier?,
      table.name? ref = table.name? other → ref = other) :
    ∃ fragments, fragmentsOf table e.tokens = .ok fragments ∧
      readExpr (e.refNamed? table) (fragments.map Fragment.lexeme) = some e.bare := by
  have reads : e.ReadsBack table (e.refNamed? table) := by
    refine Expr.readsBack_of_named operators fun ref member => ?_
    obtain ⟨name, hasName, free⟩ := named ref member
    exact ⟨name, hasName, free, Expr.refNamed?_name member hasName distinct⟩
  obtain ⟨lexemes, ⟨fragments, written, rfl⟩, readsAs⟩ := reads
  refine ⟨fragments, written, ?_⟩
  have enough : 1 ≤ e.strength := Expr.le_strength (Expr.one_le_precedence operators) (by decide)
  have within : 1 ≤ e.edge :=
    Nat.le_trans (Expr.one_le_precedence operators) (Expr.precedence_le_edge operators)
  have all : read (e.refNamed? table) 1 (fragments.map Fragment.lexeme ++ []) = some (_, []) :=
    readsAs.stopped enough within stops_nil
  rw [List.append_nil] at all
  rw [readExpr, all]

/-- The chain in `(a?.b).c ?? (-b)**1` stays broken, and the minus sign stays in the base. -/
theorem readExpr_fragmentsOf_brokenChain :
    let table : SymbolTable := ⟨#[⟨"a", .hoisted⟩, ⟨"b", .hoisted⟩]⟩
    let a := Expr.identifier default ⟨0⟩ false false
    let b := Expr.identifier default ⟨1⟩ false false
    let broken := Expr.dot default (.dot default a "b" .start false) "c" .plain false
    let power := Expr.binary default .exponentiation (.unary default .unaryNegation b false)
      (.number default .one)
    let e := Expr.binary default .nullishCoalescing broken power
    ∃ fragments, fragmentsOf table e.tokens = .ok fragments ∧
      readExpr (e.refNamed? table) (fragments.map Fragment.lexeme) = some e.bare := by
  intro table a b broken power e
  have operators : IsOperatorExpr e :=
    .binary _ rfl (by decide)
      (.dot _ _ _ (by decide) (.dot _ _ _ (by decide) (.identifier ..)))
      (.binary _ rfl (by decide) (.unary _ _ rfl (by decide) (.identifier ..))
        (.number _ (by decide) (by decide)))
  have refs : e.marks Mark.identifier? = [⟨0⟩, ⟨1⟩] := by
    simp [e, broken, power, a, b, Mark.identifier?, Expr.mark]
  refine readExpr_fragmentsOf operators ?_ ?_
  · rw [refs]
    simp [table, SymbolTable.name?, SymbolTable.get?, reservedWords]
  · rw [refs]
    simp [table, SymbolTable.name?, SymbolTable.get?]

-- Without the parentheses, neither the base of a power nor a mixed choice would be read.
example : (readExpr (fun _ => some default)
    [.mark "-", .word "a", .mark "**", .word "b"]).isNone := by
  decide +kernel

example : (readExpr (fun _ => some default)
    [.word "a", .mark "??", .word "b", .mark "||", .word "c"]).isNone := by
  decide +kernel

end

end EcmaPrune
