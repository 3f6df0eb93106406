import EcmaPrune.Proofs.Minify.PassMarks

/-! Minifying a program writes nothing that its options keep from the engines that run it. -/

namespace EcmaPrune

/-- A member access or call, with the part that it plays in an optional chain. -/
inductive LinkUse where
  | dot (link : ChainLink)
  | index (link : ChainLink)
  | call (link : ChainLink)
deriving DecidableEq, Repr

/-- The member access or call that an expression is. -/
def Expr.linkUse? : Expr → Option LinkUse
  | dot _ _ _ link _ => some (.dot link)
  | index _ _ _ link _ => some (.index link)
  | call _ _ _ link _ _ => some (.call link)
  | _ => none

/-- Whether an expression is a comparison by `==` or `!=`. -/
def Expr.isLooseComparison : Expr → Bool
  | binary _ op _ _ => op == .equality || op == .inequality
  | _ => false

/-- The member accesses and calls of a program, in the order in which a walk enters them. -/
def linkUses (program : List Stmt) : List LinkUse :=
  (Stmt.visitsList program).filterMap fun
    | .enter e => e.linkUse?
    | _ => none

/-- How many comparisons of a program are by `==` or `!=`. -/
def looseComparisons (program : List Stmt) : Nat :=
  (Stmt.visitsList program).countP fun
    | .enter e => e.isLooseComparison
    | _ => false

/-- The reading of marks that keeps member accesses and calls. -/
def Mark.linkUse? : Mark → Option LinkUse
  | dot _ link => some (.dot link)
  | index link => some (.index link)
  | call link => some (.call link)
  | _ => none

/-- The reading of marks that keeps loose comparisons and tells none of them from another. -/
def Mark.looseComparison? : Mark → Option Unit
  | looseEquality => some ()
  | _ => none

theorem isReading_linkUse? : IsReading Mark.linkUse? where
  other := rfl
  coalescing := rfl

theorem isReading_looseComparison? : IsReading Mark.looseComparison? where
  other := rfl
  coalescing := rfl

theorem forgetsLinks_looseComparison? : ForgetsLinks Mark.looseComparison? where
  dot _ _ _ := rfl
  index _ _ := rfl
  call _ _ := rfl

/-- Member accesses and calls are read off marks. -/
theorem Expr.linkUse?_mark (e : Expr) : e.mark.linkUse? = e.linkUse? := by
  cases e with
  | binary loc op left right => cases op <;> rfl
  | _ => rfl

/-- Loose comparisons are read off marks. -/
theorem Expr.looseComparison?_mark (e : Expr) :
    e.mark.looseComparison?.isSome = e.isLooseComparison := by
  cases e with
  | binary loc op left right => cases op <;> rfl
  | _ => rfl

theorem readings_linkUse? (program : List Stmt) :
    readings Mark.linkUse? (Stmt.visitsList program) = linkUses program := by
  refine congrArg (List.filterMap · _) (funext fun visit => ?_)
  cases visit with
  | enter e => exact e.linkUse?_mark
  | _ => rfl

theorem length_readings_looseComparison? (program : List Stmt) :
    (readings Mark.looseComparison? (Stmt.visitsList program)).length =
      looseComparisons program := by
  rw [readings, List.length_filterMap_eq_countP, looseComparisons]
  refine congrArg (List.countP · _) (funext fun visit => ?_)
  cases visit with
  | enter e => exact e.looseComparison?_mark
  | _ => rfl

/--
Minifying a program honours the options that speak of the engines that run the result.

Where engines know no optional chains, the member accesses and calls that are left stand in the same
order and play the same parts in chains as before, so no link is made optional. Where a strict
comparison may not become a loose one, there are no more loose comparisons than before.
-/
theorem minify_honoursTarget (options : MinifyOptions) (unbound : Ref → Bool)
    (program : List Stmt) :
    (options.optionalChainSupported = false →
        (linkUses (minify options unbound program).1).Sublist (linkUses program)) ∧
      (options.mangleStrictEquality = false →
        looseComparisons (minify options unbound program).1 ≤ looseComparisons program) := by
  constructor
  · intro unsupported
    rw [← readings_linkUse?, ← readings_linkUse?]
    -- No chain is inserted, so the reading need not be blind to the parts that links play.
    exact readings_minifyUpTo unbound isReading_linkUse?
      (fun supported => by simp [unsupported] at supported) (fun _ => rfl) options.passes program
  · intro strict
    rw [← length_readings_looseComparison?, ← length_readings_looseComparison?]
    exact (readings_minifyUpTo unbound isReading_looseComparison?
      (fun _ => forgetsLinks_looseComparison?) (fun loose => by simp [strict] at loose)
      options.passes program).length_le

/-- Neither `a != null && a.b` nor `typeof a === "s"` is written in a newer or a looser way. -/
theorem minify_honoursTarget_guarded :
    let name := Expr.identifier default default false false
    let guarded := Expr.binary default .logicalAnd
      (.binary default .inequality name (.null default)) (.dot default name "b" .plain false)
    let test := Expr.binary default .strictEquality (.unary default .typeof name true)
      (.string default (Text.units "s"))
    let program := [Stmt.expr default guarded false, .throwValue default test]
    let options : MinifyOptions := ⟨false, false, 2, false⟩
    let minified := (minify options (fun _ => false) program).1
    linkUses program = [.dot .plain] ∧ looseComparisons program = 1 ∧
      (linkUses minified).Sublist (linkUses program) ∧
      looseComparisons minified ≤ looseComparisons program := by
  intro name guarded test program options minified
  have honoured := minify_honoursTarget options (fun _ => false) program
  exact ⟨by cbv, by cbv, honoured.1 rfl, honoured.2 rfl⟩

end EcmaPrune
