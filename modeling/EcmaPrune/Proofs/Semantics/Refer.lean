import EcmaPrune.Proofs.Semantics.EvalLaws

/-! What expressions refer to, and links of chains that only look at the value of their target. -/

namespace EcmaPrune

variable {W : Type}

namespace Host

variable (host : Host W)

/-- A link that does not continue a chain looks at nothing but the value of its target. -/
theorem follow_eq_of_value {link : ChainLink} (fresh : link ≠ .continued)
    (target : Run W (Option Referent)) (rest : Value → Run W Referent) :
    host.follow link target (fun _ value => rest value) =
      host.value target >>= fun value =>
        if link = .start ∧ value.isNullish then pure none else some <$> rest value := by
  simp only [follow, value, bind_assoc]
  congr 1
  funext referent
  cases referent with
  | none =>
    -- A chain that was cut short gives `undefined` to a link outside of it.
    cases link with
    | continued => exact absurd rfl fresh
    | plain | start => simp [enter, Value.isNullish]
  | some referent =>
    simp only [enter, settle_some, load, bind_assoc, pure_bind]
    congr 1; funext place; congr 1; funext value
    by_cases stops : link = .start ∧ value.isNullish <;> simp [stops]

/-- A link goes on in the same way from targets with the same value, unless it continues a chain. -/
theorem follow_congr {link : ChainLink} {target other : Run W (Option Referent)}
    (same : host.value target = host.value other) (chain : link = .continued → target = other)
    (rest : Value → Run W Referent) :
    host.follow link target (fun _ value => rest value) =
      host.follow link other (fun _ value => rest value) := by
  by_cases continues : link = .continued
  · rw [chain continues]
  · rw [follow_eq_of_value host continues, follow_eq_of_value host continues, same]

end Host

namespace Expr

/-- Whether an expression refers to nothing but its value. -/
def refersToValue : Expr → Bool
  | identifier .. | dot .. | index .. | call .. | template _ (some _) .. => false
  | inlinedEnum _ value _ => value.refersToValue
  | _ => true

/-- Whether an expression names a place by itself: a name or a property. -/
def isReference : Expr → Bool
  | identifier .. | dot .. | index .. => true
  | _ => false

theorem isReference_of_refersToValue {e : Expr} (plain : e.refersToValue) :
    e.isReference = false := by
  cases e <;> first | rfl | cases plain

/-- What refers to its value has it as its referent. -/
theorem refer_of_refersToValue (host : Host W) {e : Expr} (plain : e.refersToValue) :
    e.refer host = (e.eval host).asValue := by
  cases e with
  | identifier | dot | index | call => cases plain
  | inlinedEnum loc value comment =>
    -- The wrapper of an inlined constant passes a value on.
    have inner : value.refersToValue := plain
    rw [refer, refer_of_refersToValue host inner, eval_inlinedEnum, Run.asValue, bind_assoc]
    simp
  | template loc tag head parts =>
    cases tag with
    | none => simp [eval, refer]
    | some tag => cases plain
  | binary loc op left right =>
    by_cases assigns : op = .assignment <;> simp [eval, refer, assigns]
  | new loc target args isPure =>
    by_cases quiet : (host.trustsAnnotations && isPure) = true <;> simp [eval, refer, quiet]
  | _ => simp [eval, refer]

end Expr

end EcmaPrune
