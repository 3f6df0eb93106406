import EcmaPrune.Analysis.Constant

/-! Optional chains in the place of tests against null. -/

namespace EcmaPrune

/-- The part of a link behind a new start of its chain. -/
def ChainLink.behindStart : ChainLink → ChainLink
  | .plain => .continued
  | link => link

namespace Expr

/--
Makes a chain of member accesses and calls optional at the outermost link whose target looks like
the guard; nothing if there is no such link.

The links around it join its chain, unless they start or continue one already.
-/
def insertChain? (e guard : Expr) : Option Expr :=
  match e with
  | dot loc target name link isRemovable =>
    if guard.looksLike target then some (dot loc target name .start isRemovable)
    else (target.insertChain? guard).map fun target =>
      dot loc target name link.behindStart isRemovable
  | index loc target key link isRemovable =>
    if guard.looksLike target then some (index loc target key .start isRemovable)
    else (target.insertChain? guard).map fun target =>
      index loc target key link.behindStart isRemovable
  | call loc target args link isPure kind =>
    if guard.looksLike target then some (call loc target args .start isPure kind)
    else (target.insertChain? guard).map fun target =>
      call loc target args link.behindStart isPure kind
  | _ => none

end Expr

end EcmaPrune
