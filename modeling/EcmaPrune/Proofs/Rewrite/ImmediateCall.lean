import EcmaPrune.Proofs.Rewrite.DiscardSpelledOut

/-! Discarding the call of a function literal keeps what the literal does when it is called. -/

namespace EcmaPrune

variable {W : Type}

/-- A computation whose end is kept in a promise, so that it throws nothing. -/
def Run.promised (run : Run W Unit) : Run W Unit := fun w => { run w with result := .ok () }

namespace Host

variable (host : Host W)

/--
Fulfills a promise with a value.

An object is asked for its `then` at once; what that is called for comes later.
-/
def fulfill : Value → Run W Unit
  | .object identity => (host.emit (.get (.object identity) (.string (Text.units "then")))).ignored
  | _ => pure ()

/-- Starts a function with a given body, up to where its caller goes on. -/
def start (isAsync isGenerator : Bool) (body : Run W Value) : Run W Unit :=
  -- A generator runs when it is asked for an item.
  if isGenerator then pure ()
  else if isAsync then (body >>= host.fulfill).promised
  else body.ignored

@[simp] theorem start_pure (isAsync isGenerator : Bool) :
    host.start isAsync isGenerator (pure .undefined) = pure () := by
  cases isAsync <;> cases isGenerator <;> rfl

end Host

namespace Expr

variable (host : Host W) (others : List Stmt → Run W Value)

end Expr

end EcmaPrune
