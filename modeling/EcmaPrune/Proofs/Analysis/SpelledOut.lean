import EcmaPrune.Analysis.Constant
import EcmaPrune.Analysis.Removable
import EcmaPrune.Proofs.Analysis.Canonical
import EcmaPrune.Proofs.Tree.SpelledOut
import EcmaPrune.Rewrite.Condition

/-! Nothing more is known of an expression once the calls in it are spelled out. -/

namespace EcmaPrune.Expr

-- Expressions are spelled out one constructor at a time.
attribute [local simp] spelledOut

/-- What a call that is spelled out has in common with one that stays. -/
theorem apply_spelledOut_call {α : Type} (f : Expr → α) {known : α} {loc : Loc} {target : Expr}
    {args : List Expr} {link : ChainLink} {isPure : Bool} {kind : CallKind}
    (ofVeiled : ∀ value, f (veiled loc value) = known)
    (ofCall : ∀ target args, f (call loc target args link isPure kind) = known) :
    f (call loc target args link isPure kind).spelledOut = known := by
  rcases spelledOut_call_eq loc target args link isPure kind with ⟨value, same⟩ | ⟨_, _, same⟩
  · rw [same, ofVeiled]
  · rw [same, ofCall]

@[simp] theorem loc_spelledOut (e : Expr) : e.spelledOut.loc = e.loc := by
  cases e with
  | call => exact apply_spelledOut_call loc (fun _ => rfl) fun _ _ => rfl
  | _ => rfl

@[simp] theorem isIdentifier_spelledOut (e : Expr) :
    e.spelledOut.isIdentifier = e.isIdentifier := by
  cases e with
  | call => exact apply_spelledOut_call isIdentifier (fun _ => rfl) fun _ _ => rfl
  | _ => rfl

@[simp] theorem identifierRef?_spelledOut (e : Expr) :
    e.spelledOut.identifierRef? = e.identifierRef? := by
  cases e with
  | call => exact apply_spelledOut_call identifierRef? (fun _ => rfl) fun _ _ => rfl
  | _ => rfl

@[simp] theorem stringUnits?_spelledOut (e : Expr) :
    e.spelledOut.stringUnits? = e.stringUnits? := by
  cases e with
  | call => exact apply_spelledOut_call stringUnits? (fun _ => rfl) fun _ _ => rfl
  | _ => rfl

@[simp] theorem isZeroLiteral_spelledOut (e : Expr) :
    e.spelledOut.isZeroLiteral = e.isZeroLiteral := by
  cases e with
  | call => exact apply_spelledOut_call isZeroLiteral (fun _ => rfl) fun _ _ => rfl
  | _ => rfl

@[simp] theorem isPrimitiveLiteral_spelledOut (e : Expr) :
    e.spelledOut.isPrimitiveLiteral = e.isPrimitiveLiteral := by
  rw [isPrimitiveLiteral, isPrimitiveLiteral]
  induction e using induction_on_parts with
  | step e ih =>
    cases e with
    | call =>
      exact apply_spelledOut_call (fun e => e.unwrapped.isPrimitiveLiteralKind) (fun _ => rfl)
        fun _ _ => rfl
    | inlinedEnum loc value comment => exact ih value (by simp [parts])
    | _ => rfl

@[simp] theorem truth?_spelledOut (e : Expr) : e.spelledOut.truth? = e.truth? := by
  induction e using induction_on_parts with
  | step e ih =>
    cases e with
    | call => exact apply_spelledOut_call truth? (fun _ => rfl) fun _ _ => rfl
    | inlinedEnum loc value comment => exact ih value (by simp [parts])
    | unary loc op value fromIdentifier => simp [truth?, ih value (by simp [parts])]
    | binary loc op left right => simp [truth?, ih right (by simp [parts])]
    | _ => rfl

@[simp] theorem pureTruth?_spelledOut (e : Expr) : e.spelledOut.pureTruth? = e.pureTruth? := by
  simp [pureTruth?]

@[simp] theorem primitiveType_spelledOut (e : Expr) :
    e.spelledOut.primitiveType = e.primitiveType := by
  induction e using induction_on_parts with
  | step e ih =>
    cases e with
    | call =>
      -- A choice with `import.meta` may produce an object.
      refine apply_spelledOut_call primitiveType (fun value => ?_) fun _ _ => rfl
      simp [veiled, primitiveType, PrimitiveType.merge]
    | inlinedEnum loc value comment => exact ih value (by simp [parts])
    | unary loc op value fromIdentifier => simp [primitiveType, ih value (by simp [parts])]
    | binary loc op left right =>
      simp [primitiveType, ih left (by simp [parts]), ih right (by simp [parts])]
    | conditional loc test yes no =>
      simp [primitiveType, ih yes (by simp [parts]), ih no (by simp [parts])]
    | template loc tag head substitutions => cases tag <;> rfl
    | _ => rfl

@[simp] theorem strictMayBeLoose_spelledOut (left right : Expr) :
    left.spelledOut.strictMayBeLoose right.spelledOut = left.strictMayBeLoose right := by
  simp [strictMayBeLoose]

@[simp] theorem producesPrimitive_spelledOut (e : Expr) :
    e.spelledOut.producesPrimitive = e.producesPrimitive := by
  induction e using induction_on_parts with
  | step e ih =>
    cases e with
    | call =>
      refine apply_spelledOut_call producesPrimitive (fun value => ?_) fun _ _ => rfl
      simp [veiled, producesPrimitive]
    | inlinedEnum loc value comment => exact ih value (by simp [parts])
    | binary loc op left right =>
      simp [producesPrimitive, ih left (by simp [parts]), ih right (by simp [parts])]
    | conditional loc test yes no =>
      simp [producesPrimitive, ih yes (by simp [parts]), ih no (by simp [parts])]
    | template loc tag head substitutions => cases tag <;> rfl
    | _ => rfl

@[simp] theorem isInt32_spelledOut (e : Expr) : e.spelledOut.isInt32 = e.isInt32 := by
  induction e using induction_on_parts with
  | step e ih =>
    cases e with
    | call => exact apply_spelledOut_call isInt32 (fun _ => rfl) fun _ _ => rfl
    | binary loc op left right =>
      simp [isInt32, ih left (by simp [parts]), ih right (by simp [parts])]
    | conditional loc test yes no =>
      simp [isInt32, ih yes (by simp [parts]), ih no (by simp [parts])]
    | _ => rfl

@[simp] theorem asksForZero_spelledOut (op : Operator) (left right : Expr) :
    asksForZero op left.spelledOut right.spelledOut = asksForZero op left right := by
  simp [asksForZero]

@[simp] theorem typeofRef?_spelledOut (e : Expr) : e.spelledOut.typeofRef? = e.typeofRef? := by
  cases e with
  | call => exact apply_spelledOut_call typeofRef? (fun _ => rfl) fun _ _ => rfl
  | unary loc op value fromIdentifier =>
    cases op with
    | typeof => cases fromIdentifier <;> simp [typeofRef?]
    | _ => rfl
  | _ => rfl

@[simp] theorem typeofTest?_spelledOut (e : Expr) :
    e.spelledOut.typeofTest? = e.typeofTest? := by
  cases e with
  | call => exact apply_spelledOut_call typeofTest? (fun _ => rfl) fun _ _ => rfl
  | binary loc op left right => simp [typeofTest?_binary]
  | _ => rfl

@[simp] theorem isGuardedBy_spelledOut (value guard : Expr) (onYes : Bool) (unbound : Ref → Bool) :
    value.spelledOut.isGuardedBy guard.spelledOut onYes unbound =
      value.isGuardedBy guard onYes unbound := by
  simp [isGuardedBy]

/-- Whether a name is what is asked for does not depend on calls. -/
@[simp] theorem looksLike_spelledOut {guard : Expr} (named : guard.isIdentifier) (e : Expr) :
    guard.looksLike e.spelledOut = guard.looksLike e := by
  cases guard with
  | identifier loc ref isRemovable mustKeepInWith =>
    induction e using induction_on_parts with
    | step e ih =>
      cases e with
      | call => exact apply_spelledOut_call (looksLike _) (fun _ => rfl) fun _ _ => rfl
      | inlinedEnum loc value comment => exact ih value (by simp [parts])
      | _ => rfl
  | _ => cases named

end EcmaPrune.Expr
