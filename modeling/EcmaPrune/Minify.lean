import EcmaPrune.Minify.Conditions
import EcmaPrune.Minify.Mangle
import EcmaPrune.Minify.Options
import EcmaPrune.Minify.Statements

/-! The rewriting of whole programs, repeated until nothing changes. -/

namespace EcmaPrune

/-- What a run did, and how many times it went over the program. -/
structure MinifyStats where
  passes : Nat
  statementsRemoved : Nat
  rewrites : Nat
deriving DecidableEq, Repr

namespace MinifyStats

/-- A run that has not begun. -/
def zero : MinifyStats := ⟨0, 0, 0⟩

/-- A run that first went over the program once with the given changes. -/
def after (tally : Tally) (later : MinifyStats) : MinifyStats :=
  ⟨later.passes + 1, tally.removed + later.statementsRemoved, tally.rewrites + later.rewrites⟩

end MinifyStats

/-- Goes over a program once: statements, then conditions, then single expressions. -/
def minifyOnce (options : MinifyOptions) (unbound : Ref → Bool) (program : List Stmt) :
    Counted (List Stmt) := do
  let trimmed ← trimProgram ⟨options.optionalChainSupported, unbound⟩ program
  let simplified ← simplifyConditions trimmed
  mangleProgram options.mangleStrictEquality simplified

/-- Goes over a program until nothing changes, or as often as allowed. -/
def minifyUpTo (options : MinifyOptions) (unbound : Ref → Bool) :
    Nat → List Stmt → List Stmt × MinifyStats
  | 0, program => (program, .zero)
  | passes + 1, program =>
    let once := minifyOnce options unbound program
    if once.tally.isChange then
      let (result, later) := minifyUpTo options unbound passes once.value
      (result, later.after once.tally)
    else (once.value, MinifyStats.zero.after once.tally)

/-- Minifies a program. -/
def minify (options : MinifyOptions) (unbound : Ref → Bool) (program : List Stmt) :
    List Stmt × MinifyStats :=
  minifyUpTo options unbound options.passes program

end EcmaPrune
