import EcmaPrune.Print
import EcmaPrune.Proofs.Tree.Operands

/-!
The grammar of operator expressions, as a reader of printed code follows it.

What is read has the strength of the production it is read by: 1 for a sequence, 3 for an assignment
or a conditional, 4 to 14 for the levels of binary operators, 15 for a unary operation, 16 for an
update, 17 for a call or an optional chain, 18 for a member access and 19 for what stands alone.
-/

namespace EcmaPrune

/-- A piece of printed code as a reader sees it. -/
inductive Lexeme where
  | word (text : String)
  | numeral (text : String)
  | mark (text : String)
  | literal (text : String)
deriving DecidableEq, Repr

/-- A word reads the same whether it was written as a keyword or as a name. -/
def Fragment.lexeme : Fragment → Lexeme
  | keyword text | identifier text => .word text
  | number text => .numeral text
  | punct text => .mark text
  | literal text | raw text => .literal text

/-- The words that are never names. -/
def reservedWords : List String :=
  ["await", "break", "case", "catch", "class", "const", "continue", "debugger", "default", "delete",
    "do", "else", "enum", "export", "extends", "false", "finally", "for", "function", "if",
    "import", "in", "instanceof", "new", "null", "return", "super", "switch", "this", "throw",
    "true", "try", "typeof", "var", "void", "while", "with", "yield"]

/-- What can be assigned to: a name, or a member access outside of every optional chain. -/
def Expr.isPlace : Expr → Bool
  | identifier .. => true
  | dot _ _ _ link _ | index _ _ _ link _ => link == .plain
  | _ => false

/-- An expression that has been read and the strength of the production it was read by. -/
structure Phrase where
  expr : Expr
  strength : Nat

namespace Phrase

/-- Whether a link behind the phrase belongs to the optional chain that the phrase ends in. -/
def isOpen (p : Phrase) : Bool := p.strength < 18 && p.expr.isChainLink

/-- A choice by `??` without parentheses around it. -/
def coalesces (p : Phrase) : Bool :=
  match p.expr with
  | .binary _ .nullishCoalescing _ _ => p.strength == 4
  | _ => false

end Phrase

/-- The strength of a member access to what has a given one; calls and chains in it stay as weak. -/
def ChainLink.accessStrength (link : ChainLink) (target : Nat) : Nat :=
  if link == .start then 17 else min 18 target

/-- A binary operator: its level, and the least strengths of its operands. -/
structure Infix where
  op : Operator
  strength : Nat
  left : Nat
  right : Nat

/--
Whether an operator may have a phrase as its left operand.

Choices by `??` may stand beside one another, but on neither side of another logical operator.
-/
def Infix.takes (i : Infix) (left : Phrase) : Bool :=
  if left.coalesces && i.op == .nullishCoalescing then true
  else if left.coalesces && i.op == .logicalOr then false
  else i.left ≤ left.strength && (!i.op.isAssignment || left.expr.isPlace)

/-- What a lexeme can begin. -/
inductive Opening where
  | group
  | numeral (text : String)
  | name (text : String)
  | construction
  | operation (op : Operator)
  | nothing

/-- The lexemes that begin something by themselves. -/
def openings : List (Lexeme × Opening) :=
  [(.mark "(", .group), (.word "new", .construction),
    (.word "delete", .operation .delete), (.word "void", .operation .void),
    (.word "typeof", .operation .typeof), (.mark "+", .operation .unaryPlus),
    (.mark "-", .operation .unaryNegation), (.mark "~", .operation .bitwiseNot),
    (.mark "!", .operation .logicalNot), (.mark "++", .operation .prefixIncrement),
    (.mark "--", .operation .prefixDecrement)]

/-- What a lexeme begins where an operand is to be read. -/
def Lexeme.opening (t : Lexeme) : Opening :=
  match openings.lookup t with
  | some opening => opening
  | none =>
    match t with
    | word text => if reservedWords.contains text then .nothing else .name text
    | numeral text => .numeral text
    | mark _ | literal _ => .nothing

/-- How an expression can go on. -/
inductive Following where
  | name
  | optional
  | key
  | arguments
  | update (op : Operator)
  | choice
  | operator (i : Infix)
  | nothing

/-- The operators of one level, which nest to the left. -/
def leftLevel (strength : Nat) (ops : List (Lexeme × Operator)) : List (Lexeme × Following) :=
  ops.map fun (t, op) => (t, .operator ⟨op, strength, strength, strength + 1⟩)

/-- The assignments, which nest to the right and assign to what a call or member access may be. -/
def assignmentLevel (ops : List (String × Operator)) : List (Lexeme × Following) :=
  ops.map fun (text, op) => (.mark text, .operator ⟨op, 3, 17, 3⟩)

/-- The lexemes by which an expression goes on. -/
def followings : List (Lexeme × Following) :=
  [(.mark ".", .name), (.mark "?.", .optional), (.mark "[", .key), (.mark "(", .arguments),
    (.mark "++", .update .postfixIncrement), (.mark "--", .update .postfixDecrement),
    (.mark "?", .choice), (.mark ",", .operator ⟨.comma, 1, 1, 3⟩),
    (.mark "**", .operator ⟨.exponentiation, 14, 16, 14⟩),
    (.mark "??", .operator ⟨.nullishCoalescing, 4, 6, 6⟩)] ++
  leftLevel 13 [(.mark "*", .multiplication), (.mark "/", .division), (.mark "%", .remainder)] ++
  leftLevel 12 [(.mark "+", .addition), (.mark "-", .subtraction)] ++
  leftLevel 11 [(.mark "<<", .bitwiseLeftShift), (.mark ">>", .bitwiseRightShift),
    (.mark ">>>", .bitwiseUnsignedRightShift)] ++
  leftLevel 10 [(.mark "<", .lessThan), (.mark ">", .greaterThan), (.mark "<=", .lessThanOrEqual),
    (.mark ">=", .greaterThanOrEqual), (.word "in", .in_), (.word "instanceof", .instanceof)] ++
  leftLevel 9 [(.mark "==", .equality), (.mark "!=", .inequality), (.mark "===", .strictEquality),
    (.mark "!==", .strictInequality)] ++
  leftLevel 8 [(.mark "&", .bitwiseAnd)] ++ leftLevel 7 [(.mark "^", .bitwiseXor)] ++
  leftLevel 6 [(.mark "|", .bitwiseOr)] ++ leftLevel 5 [(.mark "&&", .logicalAnd)] ++
  leftLevel 4 [(.mark "||", .logicalOr)] ++
  assignmentLevel [("=", .assignment), ("+=", .assignmentAddition), ("-=", .assignmentSubtraction),
    ("*=", .assignmentMultiplication), ("/=", .assignmentDivision), ("%=", .assignmentRemainder),
    ("**=", .assignmentExponentiation), ("<<=", .assignmentBitwiseLeftShift),
    (">>=", .assignmentBitwiseRightShift), (">>>=", .assignmentBitwiseUnsignedRightShift),
    ("&=", .assignmentBitwiseAnd), ("^=", .assignmentBitwiseXor), ("|=", .assignmentBitwiseOr),
    ("&&=", .assignmentLogicalAnd), ("||=", .assignmentLogicalOr),
    ("??=", .assignmentNullishCoalescing)]

/-- How an expression goes on by a lexeme. -/
def Lexeme.following (t : Lexeme) : Following := (followings.lookup t).getD .nothing

namespace Following

/-- The strength of what an expression becomes by going on, at most. -/
def strength : Following → Nat
  | name | key => 18
  | optional | arguments => 17
  | update _ => 16
  | choice => 3
  | operator i => i.strength
  | nothing => 0

/-- Whether a phrase may go on so. -/
def takes : Following → Phrase → Bool
  | name, left | key, left | optional, left | arguments, left => 17 ≤ left.strength
  | update _, left => 17 ≤ left.strength && left.expr.isPlace
  | choice, left => 4 ≤ left.strength
  | operator i, left => i.takes left
  | nothing, _ => false

end Following

/-- What is left behind a given mark. -/
def afterMark (text : String) : List Lexeme → Option (List Lexeme)
  | .mark found :: rest => if found = text then some rest else none
  | _ => none

/-- The link that an optional mark begins, and what is left to read of it. -/
def optionalLink : List Lexeme → Following × List Lexeme
  | .word name :: rest => (.name, .word name :: rest)
  | .mark text :: rest =>
    if text = "[" then (.key, rest)
    else if text = "(" then (.arguments, rest)
    else (.nothing, rest)
  | ts => (.nothing, ts)

namespace Grammar

-- The names that are in scope.
variable (scope : String → Option Ref)

mutual

/-- Reads an expression of a given strength or a higher one, as far as it goes. -/
def read (least : Nat) (ts : List Lexeme) : Option (Phrase × List Lexeme) := do
  let (first, rest) ← readOperand least ts
  -- An operand takes up a lexeme at least.
  if rest.length < ts.length then climb least first rest else none
termination_by 5 * ts.length + 1

/-- Reads an operand together with the operators in front of it. -/
def readOperand (least : Nat) : List Lexeme → Option (Phrase × List Lexeme)
  | [] => none
  | t :: ts =>
    match t.opening with
    | .group => do
      let (inner, rest) ← read 1 ts
      return (⟨inner.expr, 19⟩, ← afterMark ")" rest)
    | .numeral text => do
      return (⟨.number default (← Number.ofDecimal? false text.toList), 19⟩, ts)
    | .name text => do
      return (⟨.identifier default (← scope text) false false, 19⟩, ts)
    | .construction => do
      let (target, rest) ← read 18 ts
      match afterMark "(" rest with
      -- Without arguments, a constructor call is too weak to go on by a link.
      | none => return (⟨.new default target.expr [] false, 16⟩, rest)
      | some inside =>
        if inside.length < ts.length then
          let (args, rest) ← readArguments inside
          return (⟨.new default target.expr args false, 18⟩, rest)
        else none
    | .operation op => do
      let strength := if op.isUpdate then 16 else 15
      let (value, rest) ← read 15 ts
      -- An update assigns to its operand, and so needs a place.
      if least ≤ strength && (!op.isUpdate || value.expr.isPlace) then
        return (⟨.unary default op value.expr false, strength⟩, rest)
      else none
    | .nothing => none
termination_by ts => 5 * ts.length

/-- Goes on with a phrase for as long as what follows binds strongly enough. -/
def climb (least : Nat) (left : Phrase) : List Lexeme → Option (Phrase × List Lexeme)
  | [] => some (left, [])
  | t :: ts =>
    if least ≤ t.following.strength && t.following.takes left then do
      let (next, rest) ← extend left t.following ts
      if rest.length ≤ ts.length then climb least next rest else none
    else some (left, t :: ts)
termination_by ts => 5 * ts.length

/-- Reads what follows a phrase, behind the lexeme that says how it goes on. -/
def extend (left : Phrase) : Following → List Lexeme → Option (Phrase × List Lexeme)
  | .update op, ts => some (⟨.unary default op left.expr false, 16⟩, ts)
  | .choice, ts => do
    let (yes, rest) ← read 3 ts
    let rest ← afterMark ":" rest
    if rest.length < ts.length then
      let (no, rest) ← read 3 rest
      return (⟨.conditional default left.expr yes.expr no.expr, 3⟩, rest)
    else none
  | .operator i, ts => do
    let (right, rest) ← read i.right ts
    return (⟨.binary default i.op left.expr right.expr, i.strength⟩, rest)
  | .optional, ts =>
    -- The name of a member follows at once, a key or arguments behind a mark of their own.
    let (form, rest) := optionalLink ts
    if rest.length ≤ ts.length then readLink left .start form rest else none
  -- Without an optional mark, a link belongs to the chain in front of it if there is one.
  | form, ts => readLink left (if left.isOpen then .continued else .plain) form ts
termination_by _ ts => 5 * ts.length + 4

/-- Reads a link behind the mark that begins it. -/
def readLink (left : Phrase) (link : ChainLink) :
    Following → List Lexeme → Option (Phrase × List Lexeme)
  | .name, .word name :: rest =>
    some (⟨.dot default left.expr name link false, link.accessStrength left.strength⟩, rest)
  | .key, ts => do
    let (key, rest) ← read 1 ts
    return (⟨.index default left.expr key.expr link false, link.accessStrength left.strength⟩,
      ← afterMark "]" rest)
  | .arguments, ts => do
    let (args, rest) ← readArguments ts
    return (⟨.call default left.expr args link false .normal, 17⟩, rest)
  | _, _ => none
termination_by _ ts => 5 * ts.length + 3

/-- Reads arguments up to the parenthesis behind them. -/
def readArguments (ts : List Lexeme) : Option (List Expr × List Lexeme) :=
  match afterMark ")" ts with
  | some rest => some ([], rest)
  | none => do
    let (arg, rest) ← read 3 ts
    match afterMark "," rest with
    | none => return ([arg.expr], ← afterMark ")" rest)
    | some more =>
      if more.length < ts.length then
        let (args, rest) ← readArguments more
        return (arg.expr :: args, rest)
      else none
termination_by 5 * ts.length + 2

end

/-- Reads an expression that nothing follows. -/
def readExpr (ts : List Lexeme) : Option Expr :=
  match read scope 1 ts with
  | some (p, []) => some p.expr
  | _ => none

end Grammar

end EcmaPrune
