import EcmaPrune.Proofs.Semantics.Eval

/-! Evaluation read off one constructor at a time. -/

namespace EcmaPrune

variable {W : Type}

namespace Operator

/-- Unary operators that look at the value of their operand, whatever it comes from. -/
def takesValue : Operator → Bool
  | typeof | delete | prefixIncrement | prefixDecrement | postfixIncrement | postfixDecrement =>
    false
  | _ => true

/-- Binary operators that look at the values of both of their operands. -/
def takesValues : Operator → Bool
  | comma | logicalAnd | logicalOr | nullishCoalescing | assignment | assignmentLogicalAnd
  | assignmentLogicalOr | assignmentNullishCoalescing => false
  | op => op.compound?.isNone

end Operator

namespace Host

variable (host : Host W)

@[simp] theorem load_value (value : Value) : host.load (.value value) = pure value := by
  simp [load, resolve, loadResolved]

@[simp] theorem settle_none : host.settle none = pure .undefined := rfl

@[simp] theorem settle_some (referent : Referent) :
    host.settle (some referent) = host.load referent := rfl

@[simp] theorem value_pure (referent : Option Referent) :
    host.value (pure referent) = host.settle referent := by
  simp [value]

/-- A computed value is its own referent. -/
@[simp] theorem value_asValue (run : Run W Value) : host.value run.asValue = run := by
  simp [value, Run.asValue]

end Host

namespace Expr

variable (host : Host W) (loc : Loc)

attribute [local simp] eval refer Host.runUnary Host.runBinary

@[simp] theorem eval_null : (null loc).eval host = pure .null := by simp

@[simp] theorem eval_undefined : (undefined loc).eval host = pure .undefined := by simp

@[simp] theorem eval_missing : (missing loc).eval host = pure .undefined := by simp

@[simp] theorem eval_boolean (value : Bool) :
    (boolean loc value).eval host = pure (.boolean value) := by
  simp

@[simp] theorem eval_number (value : Number) :
    (number loc value).eval host = pure (.number value) := by
  simp

@[simp] theorem eval_string (value : List UInt16) :
    (string loc value).eval host = pure (.string value) := by
  simp

@[simp] theorem eval_bigInt (literal : String) :
    (bigInt loc literal).eval host = pure (.bigInt ((BigInt.value? literal).getD 0)) := by
  simp

@[simp] theorem eval_regExp (text : String) : (regExp loc text).eval host = host.create loc := by
  simp

@[simp] theorem eval_function (func : Func) :
    (function loc func).eval host = host.create loc := by
  simp

@[simp] theorem eval_arrow (params : List BindingElement) (body : List Stmt)
    (isAsync prefersExpr : Bool) :
    (arrow loc params body isAsync prefersExpr).eval host = host.create loc := by
  simp

@[simp] theorem eval_importMeta :
    (importMeta loc).eval host = pure (.object host.importMeta) := by
  simp

theorem eval_identifier (ref : Ref) (isRemovable mustKeepInWith : Bool) :
    (identifier loc ref isRemovable mustKeepInWith).eval host =
      host.read ref isRemovable mustKeepInWith := by
  simp [Host.load, Host.resolve, Host.loadResolved]

/-- An imported name is bound before anything runs. -/
theorem eval_importIdentifier (ref : Ref) :
    (importIdentifier loc ref).eval host =
      Run.inWorld fun w => pure (host.lookup ref w) := by
  simp

theorem eval_this : (this loc).eval host = Run.inWorld fun w => pure (host.this w) := by
  simp

@[simp] theorem eval_array (items : List Expr) :
    (array loc items).eval host = evalList host items >>= fun _ => host.create loc := by
  simp

@[simp] theorem eval_object (properties : List Property) :
    (object loc properties).eval host =
      Property.evalList host properties >>= fun _ => host.create loc := by
  simp

@[simp] theorem eval_classExpr (definition : Class) :
    (classExpr loc definition).eval host =
      definition.eval host loc >>= fun _ => host.create loc := by
  simp

/-- An access that is believed to be unobservable does not evaluate its target. -/
theorem eval_dot_annotated (trusts : host.trustsAnnotations) (target : Expr) (name : String)
    (link : ChainLink) :
    (dot loc target name link true).eval host =
      Run.inWorld fun w => pure (host.annotated loc [] w) := by
  simp [trusts, Host.load, Host.resolve, Host.loadResolved]

/-- Only the key of such an access is evaluated. -/
theorem eval_index_annotated (trusts : host.trustsAnnotations) (target key : Expr)
    (link : ChainLink) :
    (index loc target key link true).eval host =
      key.eval host >>= fun value =>
        Run.inWorld fun w => pure (host.annotated loc [value] w) := by
  simp [trusts, Host.value, Host.load, Host.resolve, Host.loadResolved]

/-- Only the arguments of a call are evaluated that is believed to be unobservable. -/
theorem eval_call_quiet {isPure : Bool} {kind : CallKind} (quiet : host.isQuietCall isPure kind)
    (target : Expr) (args : List Expr) (link : ChainLink) :
    (call loc target args link isPure kind).eval host =
      evalList host args >>= host.believe loc := by
  simp [quiet]

/-- Only the arguments of a construction are evaluated that is believed to be unobservable. -/
theorem eval_new_quiet (trusts : host.trustsAnnotations) (target : Expr) (args : List Expr) :
    (new loc target args true).eval host = evalList host args >>= host.believe loc := by
  simp [trusts]

@[simp] theorem eval_spread (value : Expr) :
    (spread loc value).eval host = value.eval host >>= fun v => host.emit (.iterate v) := by
  simp

@[simp] theorem eval_template_untagged (head : List UInt16) (substitutions : List TemplatePart) :
    (template loc none head substitutions).eval host =
      TemplatePart.evalTexts host substitutions >>= fun text =>
        pure (.string (head ++ text)) := by
  simp

/-- The wrapper of an inlined constant does nothing. -/
@[simp] theorem eval_inlinedEnum (value : Expr) (comment : String) :
    (inlinedEnum loc value comment).eval host = value.eval host := by
  -- A chain that is cut short inside the wrapper gives `undefined` either way.
  simp only [eval, refer, Host.value, bind_assoc, pure_bind, Host.settle_some]
  congr
  funext referent
  cases referent <;> simp

@[simp] theorem eval_conditional (test yes no : Expr) :
    (conditional loc test yes no).eval host =
      test.eval host >>= fun first =>
        if first.toBoolean then yes.eval host else no.eval host := by
  simp

/-- An operator on a value is applied to it. -/
theorem eval_unary {op : Operator} (plain : op.takesValue) (value : Expr)
    (fromIdentifier : Bool) :
    (unary loc op value fromIdentifier).eval host =
      value.eval host >>= host.applyUnary op := by
  -- The others look at what their operand refers to, or assign to it.
  cases op with
  | typeof | delete | prefixIncrement | prefixDecrement | postfixIncrement | postfixDecrement =>
    cases plain
  | _ => simp

/-- Asking for the type of a bare identifier looks it up and does not read it. -/
theorem eval_unary_typeof_identifier {value : Expr} {ref : Ref}
    (bare : value.identifierRef? = some ref) :
    (unary loc .typeof value true).eval host = host.typeOfName ref := by
  simp [bare]

/-- Otherwise asking for a type evaluates the operand. -/
theorem eval_unary_typeof {value : Expr} {fromIdentifier : Bool}
    (other : (if fromIdentifier then value.identifierRef? else none) = none) :
    (unary loc .typeof value fromIdentifier).eval host =
      value.eval host >>= host.applyUnary .typeof := by
  simp [other]

/-- An increment or decrement changes what its operand refers to. -/
theorem eval_unary_update {op : Operator}
    (updates : op = .prefixIncrement ∨ op = .prefixDecrement ∨ op = .postfixIncrement ∨
      op = .postfixDecrement) (value : Expr) (fromIdentifier : Bool) :
    (unary loc op value fromIdentifier).eval host =
      value.refer host >>= host.update op := by
  rcases updates with rfl | rfl | rfl | rfl <;> simp

/-- Deleting gives an answer, not the value that is deleted. -/
theorem eval_unary_delete (value : Expr) (fromIdentifier : Bool) :
    (unary loc .delete value fromIdentifier).eval host =
      value.refer host >>= host.remove := by
  simp

/-- An operator on two values is applied to them. -/
theorem eval_binary {op : Operator} (plain : op.takesValues) (left right : Expr) :
    (binary loc op left right).eval host =
      left.eval host >>= fun first =>
        right.eval host >>= fun second => host.applyBinary op first second := by
  cases op with
  | comma | logicalAnd | logicalOr | nullishCoalescing | assignment | assignmentLogicalAnd
  | assignmentLogicalOr | assignmentNullishCoalescing | assignmentAddition
  | assignmentSubtraction | assignmentMultiplication | assignmentDivision | assignmentRemainder
  | assignmentExponentiation | assignmentBitwiseAnd | assignmentBitwiseOr | assignmentBitwiseXor
  | assignmentBitwiseLeftShift | assignmentBitwiseRightShift
  | assignmentBitwiseUnsignedRightShift => cases plain
  | _ => simp [Operator.compound?]

theorem eval_binary_compound {op base : Operator} (compound : op.compound? = some base)
    (left right : Expr) :
    (binary loc op left right).eval host =
      left.refer host >>= fun target => host.assignCompound base target (right.eval host) := by
  cases op <;> simp_all [Operator.compound?]

/-- An assignment of which the target is no pattern with a default of its own. -/
theorem eval_assignment (target value : Expr) :
    (binary loc .assignment target value).eval host =
      if target.isDefaulted then Run.abort .syntaxError
      else target.assignFrom host (target.refer host) (value.eval host) := by
  simp

theorem eval_assignmentLogicalAnd (target value : Expr) :
    (binary loc .assignmentLogicalAnd target value).eval host =
      target.refer host >>= fun place =>
        host.assignUnless (!·.toBoolean) place (value.eval host) := by
  simp

theorem eval_assignmentLogicalOr (target value : Expr) :
    (binary loc .assignmentLogicalOr target value).eval host =
      target.refer host >>= fun place =>
        host.assignUnless Value.toBoolean place (value.eval host) := by
  simp

theorem eval_assignmentNullishCoalescing (target value : Expr) :
    (binary loc .assignmentNullishCoalescing target value).eval host =
      target.refer host >>= fun place =>
        host.assignUnless (!·.isNullish) place (value.eval host) := by
  simp

@[simp] theorem eval_comma (left right : Expr) :
    (binary loc .comma left right).eval host =
      left.eval host >>= fun _ => right.eval host := by
  simp

@[simp] theorem eval_and (left right : Expr) :
    (binary loc .logicalAnd left right).eval host =
      left.eval host >>= fun first =>
        if first.toBoolean then right.eval host else pure first := by
  simp

@[simp] theorem eval_or (left right : Expr) :
    (binary loc .logicalOr left right).eval host =
      left.eval host >>= fun first =>
        if first.toBoolean then pure first else right.eval host := by
  simp

@[simp] theorem eval_coalesce (left right : Expr) :
    (binary loc .nullishCoalescing left right).eval host =
      left.eval host >>= fun first =>
        if first.isNullish then right.eval host else pure first := by
  simp

/-- The items of a list are evaluated in order. -/
theorem evalList_nil : evalList host [] = pure [] := by rw [evalList]

theorem evalList_cons (item : Expr) (rest : List Expr) :
    evalList host (item :: rest) = do
      let value ← item.eval host
      return value :: (← evalList host rest) := by
  rw [evalList, eval]

theorem evalOption_none : evalOption host none = pure .undefined := by rw [evalOption]

theorem evalOption_some (e : Expr) : evalOption host (some e) = e.eval host := by
  rw [evalOption, eval]

end Expr

namespace TemplatePart

variable (host : Host W)

/-- The substitutions of a template are evaluated and converted in order. -/
theorem evalTexts_nil : evalTexts host [] = pure [] := by rw [evalTexts]

theorem evalTexts_cons (part : TemplatePart) (rest : List TemplatePart) :
    evalTexts host (part :: rest) = do
      let text ← part.value.eval host >>= host.toText
      return text ++ part.tail ++ (← evalTexts host rest) := by
  -- The value of a substitution is a part of its own.
  rcases part with ⟨value, tail⟩
  rw [evalTexts, Expr.eval]

end TemplatePart

namespace Property

variable (host : Host W)

/-- The members of an object literal are evaluated in order. -/
theorem evalList_nil : evalList host [] = pure () := by rw [evalList]

/-- What a key does: one that is computed is converted, and any other is only a name. -/
def evalKey (p : Property) : Run W Unit :=
  if p.isComputed then (p.key.eval host >>= host.toKey).ignored else pure ()

/-- What a member of an object literal does, its key first. -/
def eval (p : Property) : Run W Unit :=
  if p.kind = .spread then Expr.evalOption host p.value >>= host.copyProperties
  else p.evalKey host >>= fun _ => (Expr.evalOption host p.value).ignored

theorem evalList_cons (p : Property) (rest : List Property) :
    evalList host (p :: rest) = p.eval host >>= fun _ => evalList host rest := by
  rcases p with ⟨kind, isComputed, isStatic, key, value, initializer⟩
  -- Spreading copies the properties of a value, and anything else has a key and a value.
  rw [evalList, eval, evalKey]
  split
  · simp
  · split <;> simp [Expr.eval, Run.ignored]

end Property

end EcmaPrune
