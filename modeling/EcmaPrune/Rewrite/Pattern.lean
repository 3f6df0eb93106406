import EcmaPrune.Rewrite.Join

/-! Destructuring patterns as the targets of assignments. -/

namespace EcmaPrune

/-- The identifier bound under a reference, as an expression. -/
def plainTarget (loc : Loc) (ref : Ref) : Expr := .identifier loc ref false false

mutual

/-- The assignment target that binds what a pattern binds, each name written by `target`. -/
def Binding.toTarget (target : Loc → Ref → Expr) : Binding → Expr
  | .missing loc => .missing loc
  | .identifier loc ref => target loc ref
  | .array loc items hasSpread =>
    .array loc (BindingElement.toTargets target hasSpread items)
  | .object loc properties => .object loc (PropertyPattern.toProperties target properties)

/-- The items of an array pattern; the last one may collect the rest and then has no default. -/
def BindingElement.toTargets (target : Loc → Ref → Expr) (hasSpread : Bool) :
    List BindingElement → List Expr
  | [] => []
  | ⟨binding, initializer⟩ :: rest =>
    (if hasSpread && rest.isEmpty then
      .spread (binding.toTarget target).loc (binding.toTarget target)
    else match initializer with
      | some value => (binding.toTarget target).assign value
      | none => binding.toTarget target) ::
      BindingElement.toTargets target hasSpread rest

/-- The members of an object pattern, with their defaults as initializers. -/
def PropertyPattern.toProperties (target : Loc → Ref → Expr) :
    List PropertyPattern → List Property
  | [] => []
  | ⟨key, isComputed, isSpread, ⟨binding, initializer⟩⟩ :: rest =>
    ⟨if isSpread then .spread else .normal, isComputed, false, key,
      some (binding.toTarget target), initializer⟩ ::
      PropertyPattern.toProperties target rest

end

end EcmaPrune
