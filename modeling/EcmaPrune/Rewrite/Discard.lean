import EcmaPrune.Analysis.Removable
import EcmaPrune.Rewrite.Chain
import EcmaPrune.Rewrite.Condition

/-! What must still run of an expression whose value is discarded. -/

namespace EcmaPrune

/-- What discarding depends on besides the expression. -/
structure DiscardContext where
  /-- Whether the engines that run the result know optional chains. -/
  chainsSupported : Bool
  /-- Whether nothing declares a reference, so that reading it may throw. -/
  unbound : Ref → Bool

namespace Expr

/-- The empty string. -/
def emptyString (loc : Loc) : Expr := string loc []

/-- Whether an expression stands for several items of the list it is in. -/
def isSpread : Expr → Bool
  | spread .. => true
  | _ => false

/-- An expression without its value, if it must stay as it is as one of several arguments. -/
def spreadArgument? : Expr → Option Expr
  | spread loc value => some (array loc [spread loc value])
  | _ => none

/-- The identifier that a comparison asks about whether it is null, if nothing can redefine it. -/
def nullGuard? (unbound : Ref → Bool) (op : Operator) : Expr → Option Expr
  | binary _ test left right =>
    if (test == .inequality && op == .logicalAnd) || (test == .equality && op == .logicalOr) then
      match left, right with
      | identifier loc ref isRemovable false, null _ =>
        if unbound ref then none else some (identifier loc ref isRemovable false)
      | null _, identifier loc ref isRemovable false =>
        if unbound ref then none else some (identifier loc ref isRemovable false)
      | _, _ => none
    else none
  | _ => none

/-- A logical operation whose right side must still run, as an optional chain where that says it. -/
def logicalOrChain (cx : DiscardContext) (loc : Loc) (op : Operator) (left right : Expr) : Expr :=
  let chain := if cx.chainsSupported then
      (left.nullGuard? cx.unbound op).bind fun guard => right.insertChain? guard
    else none
  chain.getD (binary loc op left right)

/--
Blanks the string literals of a sum that is known to concatenate strings, and tells whether it is.

A concatenation converts every operand, whatever the literals in it say.
-/
def blankStrings : Expr → Expr × Bool
  | string loc _ => (emptyString loc, true)
  | binary loc .addition left right =>
    let (left, isConcatenation) := left.blankStrings
    match right with
    | string rightLoc _ =>
      if isConcatenation then (left, true)
      else (binary loc .addition left (emptyString rightLoc), true)
    | right => (binary loc .addition left right, isConcatenation)
  | e => (e, false)

/-- What must still run of a sum. -/
def discardSum (e : Expr) : Option Expr :=
  match e.blankStrings with
  | (string .., true) => none
  | (blanked, _) => some blanked

/-- A template of the given substitutions and no text. -/
def bareTemplate : List TemplatePart → Option Expr
  | [] => none
  | first :: rest => some (template first.value.loc none [] (first :: rest))

/--
What must still run of a template, given what must still run of each substitution.

Converting an object to a string may run code of the program, so such substitutions stay together
in a template; a sum would convert them in another way. The pending ones come first.
-/
def discardParts (pending : List TemplatePart) :
    List (TemplatePart × Option Expr) → List (Option Expr)
  | [] => [bareTemplate pending]
  | (part, rest) :: parts =>
    if part.value.primitiveType == .unknown then
      discardParts (pending ++ [⟨part.value, []⟩]) parts
    else bareTemplate pending :: rest :: discardParts [] parts

/-- What must still run of a computed key that is converted to a property name. -/
def discardKey (key : Expr) (rest : Option Expr) : Option Expr :=
  if key.primitiveType == .unknown then
    some (binary key.loc .addition key (emptyString key.loc))
  else rest

/-- What stays of a member of an object literal that must stay, given the rest of its value. -/
def trimProperty (p : Property) (rest : Option Expr) : Option Property :=
  if p.kind == .spread then some p
  else match rest with
    | some value => some { p with value := some value }
    | none =>
      -- A computed key still has to be computed, with the shortest value there is.
      if p.isComputed then some { p with value := some (number p.key.loc .zero) } else none

/-- A call of an arrow function without parameters, in which the body has become a given value. -/
def returnFromArrow (loc arrowLoc stmtLoc : Loc) (value : Expr) (link : ChainLink)
    (kind : CallKind) : Expr :=
  call loc (arrow arrowLoc [] [.returnValue stmtLoc (some value)] true true) [] link false kind

/--
Reduces an expression whose value is discarded to the parts that must still run.

Nothing is left of an expression that need not run at all.
-/
def discard (cx : DiscardContext) (e : Expr) : Option Expr :=
  match e with
  | inlinedEnum _ value _ => value.discard cx
  | null _ | undefined _ | missing _ | boolean .. | number .. | bigInt .. | string .. | this _
  | regExp .. | function .. | arrow .. | importMeta _ | importIdentifier .. => none
  | dot _ _ _ _ isRemovable => if isRemovable then none else some e
  | index _ _ key _ isRemovable =>
    if isRemovable && key.isRemovable cx.unbound then none else some e
  | identifier _ ref isRemovable mustKeepInWith =>
    if !mustKeepInWith && (isRemovable || !cx.unbound ref) then none else some e
  | classExpr _ definition => if definition.isRemovable cx.unbound then none else some e
  | template _ none _ parts =>
    sequence (discardParts [] (parts.map fun part => (part, part.value.discard cx)))
  | array loc items =>
    -- Spreading iterates, so the literal has to stay.
    if items.any isSpread then some (array loc (items.filterMap fun item => item.discard cx))
    else sequence (items.map fun item => item.discard cx)
  | object loc properties =>
    -- Spreading reads properties, so the literal has to stay.
    if properties.any fun p => p.kind == .spread then
      some (object loc (properties.filterMap fun p =>
        trimProperty p (match _held : p.value with
          | none => none
          | some value => value.discard cx)))
    else
      sequence (properties.flatMap fun p =>
        [if p.isComputed then discardKey p.key (p.key.discard cx) else none,
          match _held : p.value with
          | none => none
          | some value => value.discard cx])
  | conditional loc test yes no =>
    let guard := test.simplifyCondition
    let yesRest := if yes.isGuardedBy guard true cx.unbound then none else yes.discard cx
    let noRest := if no.isGuardedBy guard false cx.unbound then none else no.discard cx
    match yesRest, noRest with
    | none, none => guard.discard cx
    | none, some no => some (logicalOrChain cx loc .logicalOr guard no)
    | some yes, none => some (logicalOrChain cx loc .logicalAnd guard yes)
    | some yes, some no => some (conditional loc guard yes no)
  | unary _ op value fromIdentifier =>
    match op with
    | .void | .logicalNot => value.discard cx
    | .typeof =>
      -- Asking for the type of an identifier does not throw, but reading it may.
      if fromIdentifier && value.isIdentifier then none else value.discard cx
    | _ => some e
  | binary loc op left right =>
    match op with
    | .strictEquality | .strictInequality | .comma =>
      sequence [left.discard cx, right.discard cx]
    | .equality | .inequality =>
      -- A comparison of primitives converts nothing that the program defines.
      if (left.producesPrimitive && right.producesPrimitive) || left.strictMayBeLoose right then
        sequence [left.discard cx, right.discard cx]
      else some e
    | .logicalAnd | .logicalOr =>
      -- The left side decides whether the right one runs, until nothing is left of the right one.
      let guard := left.simplifyCondition
      let rest :=
        if right.isGuardedBy guard (op == .logicalAnd) cx.unbound then none else right.discard cx
      match rest with
      | some right => some (logicalOrChain cx loc op guard right)
      | none => guard.discard cx
    | .nullishCoalescing =>
      match right.discard cx with
      | some right => some (logicalOrChain cx loc op left right)
      | none => left.discard cx
    | .addition => discardSum e
    | _ => some e
  | call loc target args link isPure kind =>
    if isPure then
      sequence (args.map fun arg =>
        match arg.spreadArgument? with
        | some kept => some kept
        | none => arg.discard cx)
    else match target, args with
      | function _ func, [] => if func.params.isEmpty && func.body.isEmpty then none else some e
      | arrow _ [] [] _ _, [] => none
      | arrow _ [] [.expr _ value _] false _, [] => value.discard cx
      | arrow arrowLoc [] [.expr stmtLoc value _] true _, [] =>
        some (returnFromArrow loc arrowLoc stmtLoc value link kind)
      | arrow _ [] [.returnValue _ none] false _, [] => none
      | arrow _ [] [.returnValue _ (some value)] false _, [] => value.discard cx
      | _, _ => some e
  | new _ _ args isPure =>
    if isPure then
      sequence (args.map fun arg =>
        match arg.spreadArgument? with
        | some kept => some kept
        | none => arg.discard cx)
    else some e
  | spread .. | template _ (some _) _ _ => some e
termination_by e.nodeCount
decreasing_by
  -- Every recursive call is on a part of the expression or on a condition made smaller.
  all_goals
    grind only [nodeCount_inlinedEnum, nodeCount_unary, nodeCount_binary, nodeCount_conditional,
      nodeCount_array, nodeCount_call, nodeCount_new, nodeCount_object,
      nodeCount_template_untagged, nodeCount_arrow_plain, Stmt.nodeCountList_expr,
      Stmt.nodeCountList_return, nodeCount_pos, nodeCount_simplifyCondition,
      → nodeCount_le_of_mem, → TemplatePart.nodeCount_le_of_mem,
      → Property.nodeCount_key_le_of_mem, → Property.nodeCount_value_le_of_mem]

end Expr

end EcmaPrune
