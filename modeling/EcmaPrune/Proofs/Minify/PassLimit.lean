import EcmaPrune.Proofs.Minify.PassHonest

/-! The limit on the number of passes only cuts a run short. -/

namespace EcmaPrune

/-- The same options with another limit on the number of passes. -/
def MinifyOptions.within (options : MinifyOptions) (limit : Nat) : MinifyOptions :=
  { options with maxPasses := limit }

variable (options : MinifyOptions) (unbound : Ref → Bool)

/-- Equal programs are rewritten into equal ones, with as many changes. -/
theorem minifyOnce_congr {program program' : List Stmt}
    (equal : Stmt.canonicalList program = Stmt.canonicalList program') :
    Stmt.canonicalList (minifyOnce options unbound program).value =
        Stmt.canonicalList (minifyOnce options unbound program').value ∧
      (minifyOnce options unbound program).tally = (minifyOnce options unbound program').tally := by
  have first := (honest_minifyOnce options unbound program).agrees
  have second := (honest_minifyOnce options unbound program').agrees
  rw [equal] at first
  exact Counted.mk.inj (first.symm.trans second)

/-- A pass without changes leaves an equal program, and one that has no changes left. -/
theorem minifyOnce_of_isChange_eq_false {program : List Stmt}
    (none : (minifyOnce options unbound program).tally.isChange = false) :
    let rest := (minifyOnce options unbound program).value
    Stmt.canonicalList (minifyOnce options unbound rest).value = Stmt.canonicalList rest ∧
      (minifyOnce options unbound rest).tally = .zero := by
  intro rest
  have noChange := Tally.isChange_eq_false.mp none
  have equal : Stmt.canonicalList rest = Stmt.canonicalList program :=
    (honest_minifyOnce options unbound program).counts noChange
  have again : (minifyOnce options unbound rest).tally = .zero :=
    (minifyOnce_congr options unbound equal).2.trans noChange
  exact ⟨(honest_minifyOnce options unbound rest).counts again, again⟩

/-- A run over a program that has no changes left ends after the first pass. -/
theorem minifyUpTo_of_tally_eq_zero {program : List Stmt}
    (none : (minifyOnce options unbound program).tally = .zero) (passes : Nat) :
    minifyUpTo options unbound (passes + 1) program =
      ((minifyOnce options unbound program).value, ⟨1, 0, 0⟩) := by
  rw [minifyUpTo]
  simp only [none]
  rfl

/-- A run whose first pass changes something goes on with what that pass leaves. -/
theorem minifyUpTo_of_isChange {program : List Stmt}
    (change : (minifyOnce options unbound program).tally.isChange) (passes : Nat) :
    minifyUpTo options unbound (passes + 1) program =
      let rest := minifyUpTo options unbound passes (minifyOnce options unbound program).value
      (rest.1, rest.2.after (minifyOnce options unbound program).tally) := by
  rw [minifyUpTo]
  exact if_pos change

/-- How often the passes are repeated at most does not matter to one of them. -/
theorem minifyUpTo_within (limit passes : Nat) (program : List Stmt) :
    minifyUpTo (options.within limit) unbound passes program =
      minifyUpTo options unbound passes program := by
  induction passes generalizing program with
  | zero => rfl
  | succ passes ih =>
    have once : minifyOnce (options.within limit) unbound program =
        minifyOnce options unbound program := rfl
    simp only [minifyUpTo, once, ih]

theorem minify_within {limit : Nat} (positive : 1 ≤ limit) (program : List Stmt) :
    minify (options.within limit) unbound program =
      minifyUpTo options unbound limit program := by
  rw [minify, minifyUpTo_within]
  exact congrArg (minifyUpTo options unbound · program) (Nat.max_eq_left positive)

/-- What a run of at most `m` passes followed by one of at most `n` passes comes to. -/
structure AddsUp (m : Nat) (first second whole : List Stmt × MinifyStats) : Prop where
  result : Stmt.canonicalList second.1 = Stmt.canonicalList whole.1
  removed : first.2.statementsRemoved + second.2.statementsRemoved = whole.2.statementsRemoved
  rewrites : first.2.rewrites + second.2.rewrites = whole.2.rewrites
  settled : first.2.passes < m →
    Stmt.canonicalList second.1 = Stmt.canonicalList first.1 ∧ second.2 = ⟨1, 0, 0⟩

/-- Two runs in turn come to what one run of as many passes comes to. -/
theorem addsUp_minifyUpTo (m : Nat) {n : Nat} (positive : 1 ≤ n) (program : List Stmt) :
    AddsUp m (minifyUpTo options unbound m program)
      (minifyUpTo options unbound n (minifyUpTo options unbound m program).1)
      (minifyUpTo options unbound (m + n) program) := by
  induction m generalizing program with
  | zero =>
    rw [Nat.zero_add, minifyUpTo]
    exact ⟨rfl, Nat.zero_add _, Nat.zero_add _, fun early => absurd early (Nat.not_lt_zero _)⟩
  | succ m ih =>
    rw [Nat.add_right_comm]
    cases change : (minifyOnce options unbound program).tally.isChange with
    | true =>
      -- The first pass is the same in both runs, and the rest adds up.
      have rest := ih (minifyOnce options unbound program).value
      rw [minifyUpTo_of_isChange options unbound change,
        minifyUpTo_of_isChange options unbound change]
      refine ⟨rest.result, ?_, ?_, fun early => rest.settled (Nat.lt_of_succ_lt_succ early)⟩
      · simp only [MinifyStats.after, ← rest.removed, Nat.add_assoc]
      · simp only [MinifyStats.after, ← rest.rewrites, Nat.add_assoc]
    | false =>
      -- Both runs end here, and the one that follows finds nothing left to change.
      have none := Tally.isChange_eq_false.mp change
      obtain ⟨equal, again⟩ := minifyOnce_of_isChange_eq_false options unbound change
      obtain ⟨n, rfl⟩ := Nat.exists_eq_add_of_le' positive
      rw [minifyUpTo_of_tally_eq_zero options unbound none,
        minifyUpTo_of_tally_eq_zero options unbound none,
        minifyUpTo_of_tally_eq_zero options unbound again]
      exact ⟨equal, rfl, rfl, fun _ => ⟨equal, rfl⟩⟩

/--
The limit on the number of passes only cuts a run short.

A run of at most `m` passes and then one of at most `n` passes leave a program that is equal to
what one run of at most `m + n` passes leaves, and their changes add up to those of that run. If
the first run ends before its limit, the second one leaves an equal program after one pass without
changes.
-/
theorem minify_add (program : List Stmt) {m n : Nat} (mPositive : 1 ≤ m) (nPositive : 1 ≤ n) :
    let first := minify (options.within m) unbound program
    let second := minify (options.within n) unbound first.1
    let whole := minify (options.within (m + n)) unbound program
    Stmt.sameList second.1 whole.1 = true ∧
      first.2.statementsRemoved + second.2.statementsRemoved = whole.2.statementsRemoved ∧
      first.2.rewrites + second.2.rewrites = whole.2.rewrites ∧
      (first.2.passes < m → Stmt.sameList second.1 first.1 = true ∧ second.2 = ⟨1, 0, 0⟩) := by
  intro first second whole
  have sumPositive : 1 ≤ m + n := Nat.le_add_right_of_le mPositive
  have together : AddsUp m first second whole := by
    simp only [first, second, whole, minify_within options unbound mPositive,
      minify_within options unbound nPositive, minify_within options unbound sumPositive]
    exact addsUp_minifyUpTo options unbound m nPositive program
  refine ⟨(Stmt.sameList_iff _ _).mpr together.result, together.removed, together.rewrites,
    fun early => ?_⟩
  obtain ⟨equal, settled⟩ := together.settled early
  exact ⟨(Stmt.sameList_iff _ _).mpr equal, settled⟩

/-- A number as a statement, and a loop that tests twice the negation of a name. -/
def negatedTwice : List Stmt :=
  let name := Expr.identifier default default false false
  let negated := Expr.unary default .logicalNot (.unary default .logicalNot name false) false
  [.expr default (.number default .one) false, .whileLoop default negated (.empty default)]

/-- The number is removed and the negations dropped in the first pass, and then nothing changes. -/
theorem minify_add_negatedTwice :
    let first := minify (MinifyOptions.standard.within 3) (fun _ => false) negatedTwice
    let second := minify (MinifyOptions.standard.within 1) (fun _ => false) first.1
    let whole := minify (MinifyOptions.standard.within (3 + 1)) (fun _ => false) negatedTwice
    (first.2 = ⟨2, 1, 1⟩ ∧ whole.2 = ⟨2, 1, 1⟩) ∧
      Stmt.sameList second.1 whole.1 = true ∧
      first.2.statementsRemoved + second.2.statementsRemoved = whole.2.statementsRemoved ∧
      first.2.rewrites + second.2.rewrites = whole.2.rewrites ∧
      Stmt.sameList second.1 first.1 = true ∧ second.2 = ⟨1, 0, 0⟩ := by
  have first : (minify (MinifyOptions.standard.within 3) (fun _ => false) negatedTwice).2 =
      ⟨2, 1, 1⟩ := by decide +kernel
  have whole : (minify (MinifyOptions.standard.within (3 + 1)) (fun _ => false) negatedTwice).2 =
      ⟨2, 1, 1⟩ := by decide +kernel
  have ⟨result, removed, rewrites, settled⟩ := minify_add .standard (fun _ => false) negatedTwice
    (m := 3) (n := 1) (by decide) (by decide)
  have ⟨equal, again⟩ := settled (by rw [first]; decide)
  exact ⟨⟨first, whole⟩, result, removed, rewrites, equal, again⟩

end EcmaPrune
