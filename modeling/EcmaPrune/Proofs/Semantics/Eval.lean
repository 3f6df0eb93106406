import EcmaPrune.Proofs.Semantics.Host

/-! Evaluation of expressions in the order of ECMAScript. -/

namespace EcmaPrune

variable {W : Type}

/-- The result of a computation, as what an expression refers to. -/
def Run.asValue (run : Run W Value) : Run W (Option Referent) :=
  run >>= fun value => pure (some (.value value))

/-- A value, or a default in the place of `undefined`. -/
def Run.orDefault (source fallback : Run W Value) : Run W Value := do
  let value ← source
  if value = .undefined then fallback else pure value

namespace Host

variable (host : Host W)

/-- The value of what an expression refers to; a chain that is cut short gives `undefined`. -/
def settle : Option Referent → Run W Value
  | none => pure .undefined
  | some referent => host.load referent

/-- The value that comes of computing what an expression refers to. -/
def value (run : Run W (Option Referent)) : Run W Value := run >>= host.settle

/-- The target of a link, ready and with its value, unless the chain is cut short there. -/
def enter (link : ChainLink) : Option Referent → Run W (Option (Referent × Value))
  | none => pure (if link = .plain then some (.value .undefined, .undefined) else none)
  | some referent => do
    let place ← host.resolve referent
    let value ← host.loadResolved place
    pure (if link = .start ∧ value.isNullish then none else some (place, value))

/-- What a link refers to, given what becomes of its target; nothing if the chain is cut short. -/
def follow (link : ChainLink) (target : Run W (Option Referent))
    (rest : Referent → Value → Run W Referent) : Run W (Option Referent) := do
  match ← target >>= host.enter link with
  | none => pure none
  | some (place, value) => return some (← rest place value)

/-- Calls a function, which has to be one. -/
def invoke (event : Event) : Value → Run W Value
  | .object identity =>
    if host.isCallable identity then host.emit event else Run.abort .typeError
  | _ => Run.abort .typeError

/-- Constructs an object; whether it can be done is for the world to say. -/
def construct (function : Value) (args : List Value) : Run W Value :=
  if function.isObject then host.emit (.construct function args) else Run.abort .typeError

/-- Copies the properties of a value, if it can have any. -/
def copyProperties (value : Value) : Run W Unit :=
  if value.isNullish then pure () else (host.emit (.copyProperties value)).ignored

/-- The object that a literal creates, which nobody sees being created. -/
def create (loc : Loc) : Run W Value :=
  Run.inWorld fun w => pure (.object (host.created loc w))

/-- The result of an annotated operation. -/
def believe (loc : Loc) (values : List Value) : Run W Value :=
  Run.inWorld fun w => pure (host.annotated loc values w)

/-- The name of the type of what is stored under an identifier, which exists or not. -/
def typeOfName (ref : Ref) : Run W Value :=
  Run.inWorld fun w => pure (.string (Text.units (host.typeName (host.lookup ref w))))

/-- Whether a call is taken to be unobservable. -/
def isQuietCall (isPure : Bool) (kind : CallKind) : Bool :=
  (host.trustsAnnotations && isPure) || (host.fieldCallsAreQuiet && kind == .publicField)

/-- Assigns the result of an operation on the old value of a place. -/
def assignCompound (op : Operator) (target : Option Referent) (operand : Run W Value) :
    Run W Value :=
  match target with
  | none => Run.abort .syntaxError
  | some referent => do
    let place ← host.resolve referent
    let old ← host.loadResolved place
    let new ← host.applyBinary op old (← operand)
    host.storeResolved place new
    pure new

/-- Assigns to a place unless its old value is kept. -/
def assignUnless (keeps : Value → Bool) (target : Option Referent) (operand : Run W Value) :
    Run W Value :=
  match target with
  | none => Run.abort .syntaxError
  | some referent => do
    let place ← host.resolve referent
    let old ← host.loadResolved place
    if keeps old then pure old
    else
      let new ← operand
      host.storeResolved place new
      pure new

/-- Assigns to a target that is a place; it is found before the source is evaluated. -/
def assignPlace (target : Run W (Option Referent)) (source : Run W Value) : Run W Value := do
  match ← target with
  | none => Run.abort .syntaxError
  | some referent =>
    let value ← source
    host.store referent value
    pure value

/-- A unary operation; a bare identifier is what `typeof` looks up without reading it. -/
def runUnary (op : Operator) (bare : Option Ref) (operand : Run W (Option Referent)) :
    Run W Value :=
  match op with
  | .typeof =>
    match bare with
    | some ref => host.typeOfName ref
    | none => host.value operand >>= host.applyUnary .typeof
  | .delete => operand >>= host.remove
  | .prefixIncrement | .prefixDecrement | .postfixIncrement | .postfixDecrement =>
    operand >>= host.update op
  | _ => host.value operand >>= host.applyUnary op

/-- A binary operation other than plain assignment, in which each operand runs at most once. -/
def runBinary (op : Operator) (left right : Run W (Option Referent)) : Run W Value :=
  match op with
  | .comma => do
    let _ ← host.value left
    host.value right
  | .logicalAnd => do
    let first ← host.value left
    if first.toBoolean then host.value right else pure first
  | .logicalOr => do
    let first ← host.value left
    if first.toBoolean then pure first else host.value right
  | .nullishCoalescing => do
    let first ← host.value left
    if first.isNullish then host.value right else pure first
  | .assignmentLogicalAnd => do
    host.assignUnless (!·.toBoolean) (← left) (host.value right)
  | .assignmentLogicalOr => do
    host.assignUnless Value.toBoolean (← left) (host.value right)
  | .assignmentNullishCoalescing => do
    host.assignUnless (!·.isNullish) (← left) (host.value right)
  | _ =>
    match op.compound? with
    | some base => do host.assignCompound base (← left) (host.value right)
    | none => do
      let first ← host.value left
      host.applyBinary op first (← host.value right)

/-- The name of a property whose key is not computed. -/
def nameOf : Expr → Value
  | .string _ units => .string units
  | .number _ value => .string (host.arithmetic.textOfNumber value)
  | _ => .undefined

end Host

/-- A target with a default, which only stands inside a pattern. -/
def Expr.isDefaulted : Expr → Bool
  | .binary _ op _ _ => op == .assignment
  | _ => false

mutual

/-- Evaluates an expression as far as what it refers to; nothing if its chain is cut short. -/
def Expr.refer (host : Host W) : Expr → Run W (Option Referent)
  | .null _ => Run.asValue (pure .null)
  | .undefined _ | .missing _ => Run.asValue (pure .undefined)
  | .boolean _ value => Run.asValue (pure (.boolean value))
  | .number _ value => Run.asValue (pure (.number value))
  | .string _ value => Run.asValue (pure (.string value))
  -- A literal without a value is not one that a program can hold.
  | .bigInt _ literal => Run.asValue (pure (.bigInt ((BigInt.value? literal).getD 0)))
  | .this _ => Run.asValue (Run.inWorld fun w => pure (host.this w))
  | .importMeta _ => Run.asValue (pure (.object host.importMeta))
  | .importIdentifier _ ref => Run.asValue (Run.inWorld fun w => pure (host.lookup ref w))
  | .identifier _ ref isRemovable mustKeepInWith =>
    pure (some (.name ref isRemovable mustKeepInWith))
  | .regExp loc _ | .function loc _ | .arrow loc .. => Run.asValue (host.create loc)
  | .classExpr loc definition => Run.asValue do
    definition.eval host loc
    host.create loc
  | .inlinedEnum _ value _ => do
    -- The wrapper is not a link, so a chain ends in it.
    return some ((← value.refer host).getD (.value .undefined))
  | .array loc items => Run.asValue do
    let _ ← Expr.evalList host items
    host.create loc
  | .object loc properties => Run.asValue do
    Property.evalList host properties
    host.create loc
  | .spread _ value => Run.asValue do
    host.emit (.iterate (← host.value (value.refer host)))
  | .template _ none head parts => Run.asValue do
    return .string (head ++ (← TemplatePart.evalTexts host parts))
  | .template loc (some tag) _ parts =>
    host.follow .plain (tag.refer host) fun place function => do
      let values ← TemplatePart.evalValues host parts
      return .value (← host.invoke (.tag loc place function values) function)
  | .dot loc target name link isRemovable =>
    if host.trustsAnnotations && isRemovable then pure (some (.annotated loc []))
    else host.follow link (target.refer host) fun _ base =>
      pure (.member base (.string (Text.units name)))
  | .index loc target key link isRemovable =>
    if host.trustsAnnotations && isRemovable then do
      return some (.annotated loc [← host.value (key.refer host)])
    else host.follow link (target.refer host) fun _ base => do
      return .member base (← host.value (key.refer host))
  | .call loc target args link isPure kind =>
    if host.isQuietCall isPure kind then Run.asValue do
      host.believe loc (← Expr.evalList host args)
    else host.follow link (target.refer host) fun place function => do
      let values ← Expr.evalList host args
      return .value (← host.invoke (.call place function values kind) function)
  | .new loc target args isPure =>
    if host.trustsAnnotations && isPure then Run.asValue do
      host.believe loc (← Expr.evalList host args)
    else Run.asValue do
      let function ← host.value (target.refer host)
      host.construct function (← Expr.evalList host args)
  | .conditional _ test yes no => Run.asValue do
    if (← host.value (test.refer host)).toBoolean then host.value (yes.refer host)
    else host.value (no.refer host)
  | .unary _ op value fromIdentifier => Run.asValue
    (host.runUnary op (if fromIdentifier then value.identifierRef? else none) (value.refer host))
  | .binary _ op left right =>
    if op = .assignment then Run.asValue
      (if left.isDefaulted then Run.abort .syntaxError
      else left.assignFrom host (left.refer host) (host.value (right.refer host)))
    else Run.asValue (host.runBinary op (left.refer host) (right.refer host))

/-- Evaluates the items of a list; a spread contributes all its items as one value. -/
def Expr.evalList (host : Host W) : List Expr → Run W (List Value)
  | [] => pure []
  | item :: rest => do
    let value ← host.value (item.refer host)
    return value :: (← Expr.evalList host rest)

/-- Evaluates an expression that may be absent. -/
def Expr.evalOption (host : Host W) : Option Expr → Run W Value
  | none => pure .undefined
  | some e => host.value (e.refer host)

/-- Evaluates the substitutions of a template, each converted to a string before the next one. -/
def TemplatePart.evalTexts (host : Host W) : List TemplatePart → Run W (List UInt16)
  | [] => pure []
  | ⟨value, tail⟩ :: rest => do
    let text ← host.value (value.refer host) >>= host.toText
    return text ++ tail ++ (← TemplatePart.evalTexts host rest)

/-- Evaluates the substitutions of a template that a function receives. -/
def TemplatePart.evalValues (host : Host W) : List TemplatePart → Run W (List Value)
  | [] => pure []
  | ⟨value, _⟩ :: rest => do
    let first ← host.value (value.refer host)
    return first :: (← TemplatePart.evalValues host rest)

/-- Evaluates the members of an object literal; a computed key is converted before its value. -/
def Property.evalList (host : Host W) : List Property → Run W Unit
  | [] => pure ()
  | ⟨kind, isComputed, _, key, value, _⟩ :: rest => do
    if kind = .spread then host.copyProperties (← Expr.evalOption host value)
    else
      if isComputed then
        let _ ← host.value (key.refer host) >>= host.toKey
      let _ ← Expr.evalOption host value
    Property.evalList host rest

/-- Assigns the value of a source to a target or pattern, given how a target is found. -/
def Expr.assignFrom (host : Host W) (target : Run W (Option Referent)) (source : Run W Value) :
    Expr → Run W Value
  | .array _ items => do
    let value ← source
    let _ ← host.emit (.iterate value)
    Expr.assignItems host value items
    pure value
  | .object _ properties => do
    let value ← source
    if value.isNullish then Run.abort .typeError
    else
      Property.assignList host value properties
      pure value
  | .binary _ op inner fallback =>
    if op = .assignment then
      inner.assignFrom host (inner.refer host)
        (source.orDefault (host.value (fallback.refer host)))
    else host.assignPlace target source
  | _ => host.assignPlace target source

/-- Assigns the items of a value to the targets of an array pattern. -/
def Expr.assignItems (host : Host W) (value : Value) : List Expr → Run W Unit
  | [] => pure ()
  | .missing _ :: rest => do
    let _ ← host.emit (.nextItem value)
    Expr.assignItems host value rest
  | .spread _ target :: rest => do
    let _ ← target.assignFrom host (target.refer host) (host.emit (.restItems value))
    Expr.assignItems host value rest
  | target :: rest => do
    let _ ← target.assignFrom host (target.refer host) (host.emit (.nextItem value))
    Expr.assignItems host value rest

/-- Assigns the properties of a value to the targets of an object pattern. -/
def Property.assignList (host : Host W) (value : Value) : List Property → Run W Unit
  | [] => pure ()
  | ⟨kind, isComputed, _, key, target, fallback⟩ :: rest => do
    if kind = .spread then
      Expr.assignOption host (host.emit (.copyProperties value)) target
    else
      let name ← if isComputed then host.value (key.refer host) >>= host.toKey
        else pure (host.nameOf key)
      let found := host.emit (.get value name)
      if fallback.isNone then Expr.assignOption host found target
      else Expr.assignOption host (found.orDefault (Expr.evalOption host fallback)) target
    Property.assignList host value rest

/-- Assigns to a target that may be absent. -/
def Expr.assignOption (host : Host W) (source : Run W Value) : Option Expr → Run W Unit
  | none => pure ()
  | some target => do
    let _ ← target.assignFrom host (target.refer host) source

/-- Evaluates a class definition: its superclass, its computed keys, and then its static parts. -/
def Class.eval (host : Host W) (loc : Loc) : Class → Run W Unit
  | ⟨_, superclass, members⟩ => do
    let parent ← Expr.evalOption host superclass
    if superclass.isSome then
      let _ ← host.emit (.extend loc parent)
    ClassMember.evalKeys host members
    ClassMember.evalStatics host loc members

/-- Evaluates the computed keys of the members of a class. -/
def ClassMember.evalKeys (host : Host W) : List ClassMember → Run W Unit
  | [] => pure ()
  | .staticBlock _ :: rest => ClassMember.evalKeys host rest
  | .property ⟨_, isComputed, _, key, _, _⟩ :: rest => do
    if isComputed then
      let _ ← host.value (key.refer host) >>= host.toKey
    ClassMember.evalKeys host rest

/-- Evaluates what the static members of a class hold; a static block is for the world to run. -/
def ClassMember.evalStatics (host : Host W) (loc : Loc) : List ClassMember → Run W Unit
  | [] => pure ()
  | .staticBlock _ :: rest => do
    let _ ← host.emit (.staticBlock loc)
    ClassMember.evalStatics host loc rest
  | .property ⟨_, _, isStatic, _, value, initializer⟩ :: rest => do
    if isStatic then
      let _ ← Expr.evalOption host value
      let _ ← Expr.evalOption host initializer
    ClassMember.evalStatics host loc rest

end

/-- Evaluates an expression to its value. -/
def Expr.eval (host : Host W) (e : Expr) : Run W Value := host.value (e.refer host)

/-- Runs an expression for what it does, and drops its value. -/
def Expr.effects (host : Host W) (e : Expr) : Run W Unit := (e.eval host).ignored

/-- Runs an expression for the truth of its value. -/
def Expr.truth (host : Host W) (e : Expr) : Run W Bool := Value.toBoolean <$> e.eval host

end EcmaPrune
