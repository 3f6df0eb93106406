import EcmaPrune.Proofs.Minify.PassMarks
import EcmaPrune.Proofs.Rewrite.DiscardLiteral
import Mathlib.Data.List.Forall2
import Mathlib.Data.List.TakeWhile

/-!
The directives that a program and its functions start with.

Minifying keeps them all. It adds one only where a choice by `??` comes down to the string literal
on its left, as the expression statement `"use strict" ?? f()` does.
-/

namespace EcmaPrune

/-- The text of a directive. -/
def Stmt.directive? : Stmt → Option (List UInt16)
  | expr _ (.string _ text) _ => some text
  | _ => none

/-- The directives that a statement list starts with. -/
def prologue : List Stmt → List (List UInt16)
  | [] => []
  | s :: rest =>
    match s.directive? with
    | some text => text :: prologue rest
    | none => []

/-- The bodies of the functions that the statements of a list declare. -/
def functionBodies (body : List Stmt) : List (List Stmt) :=
  body.filterMap fun
    | .function _ func _ | .exportDefaultFunction _ _ func _ => some func.body
    | _ => none

/-- The statement lists of a program that directives may start. -/
def scriptBodies (program : List Stmt) : List (List Stmt) := program :: functionBodies program

/-- The directives of a program and of each function that it declares. -/
def prologues (program : List Stmt) : List (List (List UInt16)) :=
  (scriptBodies program).map prologue

/-- A choice by `??` that comes down to the string literal on its left. -/
def Expr.exposesString : Expr → Bool
  | binary _ .nullishCoalescing left _ => left.comesToString
  | _ => false

/-- Whether a choice in a program comes down to the string literal on its left. -/
def exposesString (program : List Stmt) : Bool :=
  (Stmt.visitsList program).any fun
    | .enter e => e.exposesString
    | _ => false

/-- The reading of marks that keeps such choices. -/
def Mark.exposure? : Mark → Option Unit
  | coalescing true => some ()
  | _ => none

theorem isReading_exposure? : IsReading Mark.exposure? where
  other := rfl
  coalescing := rfl

theorem forgetsLinks_exposure? : ForgetsLinks Mark.exposure? where
  dot _ _ _ := rfl
  index _ _ := rfl
  call _ _ := rfl

/-- A program without such choices has nothing to be read off it. -/
theorem readings_exposure? {program : List Stmt} (exposed : exposesString program = false) :
    readings Mark.exposure? (Stmt.visitsList program) = [] := by
  refine List.filterMap_eq_nil_iff.mpr fun visit member => ?_
  have here := List.any_eq_false.mp exposed visit member
  cases visit with
  | enter e =>
    have same : (Mark.exposure? e.mark).isSome = e.exposesString := by
      cases e with
      | binary loc op left right =>
        cases op with
        | nullishCoalescing =>
          simp only [Expr.mark, Expr.exposesString]
          cases left.comesToString <;> rfl
        | _ => rfl
      | _ => rfl
    simpa [Visit.read, ← same] using here
  | _ => rfl

namespace Expr

/-- What comes down to a string is, or falls back to, a literal, or holds a marked choice. -/
theorem endsInString_or_marks {α : Type} {f : Mark → Option α} {e : Expr}
    (comes : e.comesToString) (marked : (f (.coalescing true)).isSome) :
    e.endsInString ∨ e.marks f ≠ [] := by
  fun_induction comesToString e with
  | case1 => exact .inl rfl
  | case2 loc left right leftIh rightIh =>
    rw [marks_binary]
    cases onLeft : left.comesToString with
    | true =>
      -- The choice itself is marked.
      have here : f (binary loc .nullishCoalescing left right).mark = f (.coalescing true) := by
        rw [mark, onLeft]
      rw [here]
      obtain ⟨reading, found⟩ := Option.isSome_iff_exists.mp marked
      simp [found]
    | false =>
      rw [onLeft, Bool.false_or, Bool.and_eq_true] at comes
      refine (rightIh comes.2).imp id fun onRight => ?_
      simp [onRight]
  | case3 => cases comes

end Expr

section Statements

/-- Comes to be a directive where every known choice by `??` is made. -/
def Stmt.comesToDirective : Stmt → Bool
  | expr _ value _ => value.comesToString
  | _ => false

theorem Stmt.comesToDirective_of_directive? {s : Stmt} (directive : s.directive?.isSome) :
    s.comesToDirective := by
  unfold directive? at directive
  split at directive
  · rfl
  · cases directive

/-- Statements of which only the directives come to be directives. -/
def IsSettledBody (body : List Stmt) : Prop :=
  ∀ s ∈ body, s.comesToDirective → s.directive?.isSome

theorem Stmt.isDirective_eq (s : Stmt) : s.isDirective = s.directive?.isSome := by
  cases s with
  | expr loc value isGlue => cases value <;> rfl
  | _ => rfl

/-- Nothing joins the directives of a list if what follows them starts with none. -/
theorem prologue_takeWhile_append (body : List Stmt) {rest : List Stmt}
    (plain : prologue rest = []) :
    prologue (body.takeWhile Stmt.isDirective ++ rest) = prologue body := by
  induction body with
  | nil => exact plain
  | cons s others ih =>
    cases text : s.directive? with
    | none =>
      -- What ends the directives also ends what is taken of the body.
      have stops : s.isDirective = false := by rw [s.isDirective_eq, text]; rfl
      rw [List.takeWhile_cons, stops]
      simpa [prologue, text] using plain
    | some units =>
      have goesOn : s.isDirective = true := by rw [s.isDirective_eq, text]; rfl
      rw [List.takeWhile_cons, goesOn]
      simp [prologue, text, ih]

section

variable {g : Stmt → Stmt} {body : List Stmt}
  (keeps : ∀ s ∈ body, ∀ text ∈ s.directive?, (g s).directive? = some text)
include keeps

/-- Rewriting statements one by one keeps the directives in front, if it keeps each directive. -/
theorem prologue_prefix_map : prologue body <+: prologue (body.map g) := by
  induction body with
  | nil => exact List.prefix_refl _
  | cons s rest ih =>
    have others := ih fun later member => keeps later (List.mem_cons_of_mem _ member)
    cases text : s.directive? with
    | none => simp [prologue, text]
    | some units =>
      have kept := keeps s List.mem_cons_self units text
      simpa [prologue, text, kept] using others

theorem prologue_map (addsNone : ∀ s ∈ body, (g s).directive?.isSome → s.directive?.isSome) :
    prologue (body.map g) = prologue body := by
  induction body with
  | nil => rfl
  | cons s rest ih =>
    have others := ih (fun later member => keeps later (List.mem_cons_of_mem _ member))
      fun later member => addsNone later (List.mem_cons_of_mem _ member)
    cases text : s.directive? with
    | none =>
      have stays : (g s).directive? = none := by
        simpa [text] using addsNone s List.mem_cons_self
      simp [prologue, text, stays]
    | some units =>
      have kept := keeps s List.mem_cons_self units text
      simp [prologue, text, kept, others]

end

end Statements

section Trimming

variable {cx : DiscardContext}

/-- What is left of an expression is no string, and comes down to one only by a marked choice. -/
theorem Expr.notString_discard {e rest : Expr} (left : e.discard cx = some rest) :
    (∀ loc text, rest ≠ string loc text) ∧
      (rest.comesToString → rest.marks Mark.exposure? ≠ []) := by
  have ending := Bool.eq_false_iff.mp (endsInString_discard cx e rest left)
  refine ⟨?_, fun comes => (endsInString_or_marks comes rfl).resolve_left ending⟩
  rintro loc text rfl
  exact ending rfl

/-- What is left of a statement is no directive, and comes to be one only by a marked choice. -/
theorem Stmt.notDirective_trim {s rest : Stmt} (left : (s.trim cx).value = some rest) :
    rest.directive? = none ∧
      (rest.comesToDirective → readings Mark.exposure? rest.visits ≠ []) := by
  cases s with
  | expr loc value isGlue =>
    rw [trim, trimExprStmt] at left
    split at left
    · cases left
    · split at left
      · cases left
      · rename_i found
        cases left
        -- The one statement that is reduced is an expression, and its value is no string.
        obtain ⟨notString, marked⟩ := Expr.notString_discard found
        refine ⟨?_, fun comes => ?_⟩
        · unfold directive?
          split
          · rename_i same
            cases same
            exact absurd rfl (notString _ _)
          · rfl
        · simpa [visits] using marked comes
  | _ =>
    cases left
    refine ⟨rfl, fun comes => ?_⟩
    cases comes

/-- What is left of statements is left of one of them. -/
theorem Stmt.mem_trimList {body : List Stmt} {kept : Stmt}
    (member : kept ∈ (Stmt.trimList cx body).value) :
    ∃ s ∈ body, (s.trim cx).value = some kept := by
  induction body with
  | nil => cases member
  | cons s rest ih =>
    rcases List.mem_append.mp member with here | later
    · exact ⟨s, List.mem_cons_self, Option.mem_toList.mp here⟩
    · obtain ⟨other, held, left⟩ := ih later
      exact ⟨other, List.mem_cons_of_mem _ held, left⟩

theorem prologue_trimList (body : List Stmt) : prologue (Stmt.trimList cx body).value = [] := by
  cases kept : (Stmt.trimList cx body).value with
  | nil => rfl
  | cons s rest =>
    obtain ⟨_, _, left⟩ := Stmt.mem_trimList (kept ▸ List.mem_cons_self)
    rw [prologue, (Stmt.notDirective_trim left).1]

/-- A function that a statement declares stays. -/
theorem functionBodies_trimList (body : List Stmt) :
    functionBodies (Stmt.trimList cx body).value = functionBodies body := by
  induction body with
  | nil => rfl
  | cons s rest ih =>
    have here : functionBodies (s.trim cx).value.toList = functionBodies [s] := by
      cases s with
      | expr loc value isGlue =>
        rw [Stmt.trim, trimExprStmt]
        split
        · rfl
        · split <;> rfl
      | _ => rfl
    have split : functionBodies (s :: rest) = functionBodies [s] ++ functionBodies rest :=
      List.filterMap_append (l := [s])
    rw [split, ← here, ← ih]
    exact List.filterMap_append

/-- Reducing a body keeps its directives. -/
theorem prologue_trimBody (cx : DiscardContext) (body : List Stmt) :
    prologue (Stmt.trimBody cx body).value = prologue body :=
  prologue_takeWhile_append body (prologue_trimList _)

theorem functionBodies_trimBody (body : List Stmt) :
    functionBodies (Stmt.trimBody cx body).value = functionBodies body := by
  calc functionBodies (Stmt.trimBody cx body).value
      = functionBodies (body.takeWhile Stmt.isDirective) ++
          functionBodies (Stmt.trimList cx (body.dropWhile Stmt.isDirective)).value :=
        List.filterMap_append
    _ = functionBodies (body.takeWhile Stmt.isDirective) ++
          functionBodies (body.dropWhile Stmt.isDirective) := by rw [functionBodies_trimList]
    _ = functionBodies (body.takeWhile Stmt.isDirective ++ body.dropWhile Stmt.isDirective) :=
        List.filterMap_append.symm
    _ = functionBodies body := by rw [List.takeWhile_append_dropWhile]

/-- What is read off one of several statements is read off them all. -/
theorem readings_visits_sublist {α : Type} {f : Mark → Option α} {body : List Stmt} {s : Stmt}
    (member : s ∈ body) : (readings f s.visits).Sublist (readings f (Stmt.visitsList body)) := by
  induction member with
  | head rest =>
    rw [Stmt.visitsList, readings_append]
    exact List.sublist_append_left _ _
  | tail other _ ih =>
    rw [Stmt.visitsList, readings_append]
    exact ih.trans (List.sublist_append_right _ _)

/-- A reduced body is settled, if no choice in it comes down to a string. -/
theorem isSettledBody_trimBody {body : List Stmt}
    (plain : readings Mark.exposure? (Stmt.visitsList body) = []) :
    IsSettledBody (Stmt.trimBody cx body).value := by
  intro s member comes
  have whole :
      (readings Mark.exposure? (Stmt.visitsList (Stmt.trimBody cx body).value)).Sublist _ :=
    readings_trimBody isReading_exposure? (fun _ => forgetsLinks_exposure?) body
  have nothing : readings Mark.exposure? s.visits = [] := by
    have part := (readings_visits_sublist member).trans whole
    rwa [plain, List.sublist_nil] at part
  rcases List.mem_append.mp member with inFront | behind
  · -- What is in front of the reduced statements are directives already.
    rw [← Stmt.isDirective_eq]
    exact List.mem_takeWhile_imp inFront
  · obtain ⟨_, _, left⟩ := Stmt.mem_trimList behind
    exact absurd nothing ((Stmt.notDirective_trim left).2 comes)

end Trimming

section Walks

variable (w : Walk)

theorem Stmt.value_walkList (body : List Stmt) :
    (Stmt.walkList w body).value = body.map fun s => (s.walk w).value := by
  induction body with
  | nil => rfl
  | cons s rest ih => simp [Stmt.walkList, ih]

theorem functionBodies_walkList (body : List Stmt) :
    functionBodies (Stmt.walkList w body).value = (functionBodies body).map w.onBody := by
  rw [Stmt.value_walkList, functionBodies, functionBodies, List.filterMap_map, List.map_filterMap]
  refine congrArg (List.filterMap · body) (funext fun s => ?_)
  cases s with
  | function loc func isExport => simp [Stmt.walk, Func.value_walk]
  | exportDefaultFunction loc ref func isExport => simp [Stmt.walk, Func.value_walk]
  | ifElse => simp [Stmt.value_walk_ifElse]
  | whileLoop => simp [Stmt.value_walk_whileLoop]
  | doWhile => simp [Stmt.value_walk_doWhile]
  | _ => simp [Stmt.walk]

section

variable {w} (strings : ∀ loc text, (w.leave (.string loc text)).value = .string loc text)
include strings

/-- A walk that rewrites no string keeps directives. -/
theorem Stmt.directive?_walk {s : Stmt} {text : List UInt16} (directive : text ∈ s.directive?) :
    (s.walk w).value.directive? = some text := by
  unfold directive? at directive
  split at directive
  · cases directive
    rename_i loc textLoc isGlue
    have same : ((Expr.string textLoc text).walk w).value = .string textLoc text := by
      rw [Expr.walk]
      exact strings textLoc text
    simp [Stmt.walk, same, directive?]
  · cases directive

theorem prologue_prefix_walkList (body : List Stmt) :
    prologue body <+: prologue (Stmt.walkList w body).value := by
  rw [Stmt.value_walkList]
  exact prologue_prefix_map fun s _ text => Stmt.directive?_walk strings

variable (keeps : w.KeepsMarks Mark.exposure?)
include keeps

/-- Where only the directives come to be directives, no other statement becomes one. -/
theorem prologue_walkList {body : List Stmt} (settled : IsSettledBody body) :
    prologue (Stmt.walkList w body).value = prologue body ∧
      IsSettledBody (Stmt.walkList w body).value := by
  -- Only an expression statement can come to be a directive.
  have wasDirective : ∀ s ∈ body, (s.walk w).value.comesToDirective → s.directive?.isSome := by
    intro s member comes
    refine settled s member ?_
    cases s with
    | expr loc value isGlue => exact Expr.comesToString_walk keeps value comes
    | ifElse => rw [Stmt.value_walk_ifElse] at comes; cases comes
    | whileLoop => rw [Stmt.value_walk_whileLoop] at comes; cases comes
    | doWhile => rw [Stmt.value_walk_doWhile] at comes; cases comes
    | _ => cases comes
  rw [Stmt.value_walkList]
  constructor
  · refine prologue_map (fun s _ text => Stmt.directive?_walk strings)
      fun s member isDirective => ?_
    exact wasDirective s member (Stmt.comesToDirective_of_directive? isDirective)
  · intro _ member comes
    obtain ⟨s, held, rfl⟩ := List.mem_map.mp member
    obtain ⟨text, directive⟩ := Option.isSome_iff_exists.mp (wasDirective s held comes)
    rw [Stmt.directive?_walk strings directive]
    rfl

end

end Walks

/-- Whether no choice in a statement list comes down to the string literal on its left. -/
def IsPlainBody (body : List Stmt) : Prop := readings Mark.exposure? (Stmt.visitsList body) = []

/-- Lists related element by element to a list in between are related to one another. -/
theorem forall₂_trans {α : Type} {first second both : α → α → Prop} {before between after : List α}
    (left : List.Forall₂ first before between) (right : List.Forall₂ second between after)
    (compose : ∀ a b c, first a b → second b c → both a c) :
    List.Forall₂ both before after := by
  induction left generalizing after with
  | nil =>
    cases right
    exact .nil
  | cons here _ ih =>
    cases right with
    | cons next others => exact .cons (compose _ _ _ here next) (ih others)

/-- Keeps the directives of a body, and adds none where a condition holds of the body. -/
structure KeepsDirectives (condition : List Stmt → Prop) (before after : List Stmt) : Prop where
  kept : prologue before <+: prologue after
  same : condition before → prologue after = prologue before
  settles : condition before → IsSettledBody after

namespace KeepsDirectives

variable {condition : List Stmt → Prop}

/-- A body that one rewriting settles is left alone by the next. -/
theorem trans {before between after : List Stmt} (first : KeepsDirectives condition before between)
    (second : KeepsDirectives IsSettledBody between after) :
    KeepsDirectives condition before after where
  kept := first.kept.trans second.kept
  same holds := (second.same (first.settles holds)).trans (first.same holds)
  settles holds := second.settles (first.settles holds)

/-- The bodies of a program are rewritten if it and its functions are. -/
theorem ofFunctions {program rewritten : List Stmt} {g : List Stmt → List Stmt}
    (functions : functionBodies rewritten = (functionBodies program).map g)
    (whole : KeepsDirectives condition program rewritten)
    (each : ∀ body ∈ functionBodies program, KeepsDirectives condition body (g body)) :
    List.Forall₂ (KeepsDirectives condition) (scriptBodies program) (scriptBodies rewritten) := by
  refine .cons whole ?_
  rw [functions, List.forall₂_map_right_iff, List.forall₂_same]
  exact each

theorem prologues_kept {program rewritten : List Stmt}
    (each : List.Forall₂ (KeepsDirectives condition) (scriptBodies program)
      (scriptBodies rewritten)) :
    List.Forall₂ (· <+: ·) (prologues program) (prologues rewritten) := by
  rw [prologues, prologues, List.forall₂_map_left_iff, List.forall₂_map_right_iff]
  exact each.imp fun _ _ => kept

theorem prologues_same {program rewritten : List Stmt}
    (each : List.Forall₂ (KeepsDirectives condition) (scriptBodies program)
      (scriptBodies rewritten))
    (holds : ∀ body ∈ scriptBodies program, condition body) :
    prologues rewritten = prologues program := by
  rw [prologues, prologues]
  generalize scriptBodies program = before at each holds
  generalize scriptBodies rewritten = after at each
  induction each with
  | nil => rfl
  | cons here _ ih =>
    obtain ⟨first, others⟩ := List.forall_mem_cons.mp holds
    rw [List.map_cons, List.map_cons, here.same first, ih others]

end KeepsDirectives

section Passes

theorem keepsDirectives_walkList {w : Walk}
    (strings : ∀ loc text, (w.leave (.string loc text)).value = .string loc text)
    (keeps : w.KeepsMarks Mark.exposure?) (body : List Stmt) :
    KeepsDirectives IsSettledBody body (Stmt.walkList w body).value where
  kept := prologue_prefix_walkList strings body
  same settled := (prologue_walkList strings keeps settled).1
  settles settled := (prologue_walkList strings keeps settled).2

/-- A walk that leaves bodies to nothing else keeps the directives of a program. -/
theorem keepsDirectives_walk {w : Walk} (noBody : w.body = none)
    (strings : ∀ loc text, (w.leave (.string loc text)).value = .string loc text)
    (keeps : w.KeepsMarks Mark.exposure?) (program : List Stmt) :
    List.Forall₂ (KeepsDirectives IsSettledBody) (scriptBodies program)
      (scriptBodies (Stmt.walkList w program).value) := by
  have each := keepsDirectives_walkList strings keeps
  refine KeepsDirectives.ofFunctions (functionBodies_walkList w program) (each program)
    fun body _ => ?_
  rw [Walk.onBody, noBody]
  exact each body

variable (cx : DiscardContext)

theorem keepsDirectives_trimBodies (depth : Nat) (body : List Stmt) :
    KeepsDirectives IsPlainBody body (trimBodies cx (depth + 1) body).value := by
  have keeps := keepsMarks_trimming isReading_exposure? fun inner =>
    readings_trimBodies isReading_exposure? (fun (_ : cx.chainsSupported) => forgetsLinks_exposure?)
      depth inner
  have walked := keepsDirectives_walkList (fun _ _ => rfl) keeps (Stmt.trimBody cx body).value
  -- The directives in front are not reduced.
  have trimmed : KeepsDirectives IsPlainBody body (Stmt.trimBody cx body).value :=
    { kept := prologue_trimBody cx body ▸ List.prefix_refl _
      same := fun _ => prologue_trimBody cx body
      settles := isSettledBody_trimBody }
  exact trimmed.trans walked

/-- Whoever declares a function has something to walk through. -/
theorem length_visitsList_pos {program : List Stmt} (nonempty : functionBodies program ≠ []) :
    0 < (Stmt.visitsList program).length := by
  cases program with
  | nil => exact absurd rfl nonempty
  | cons s rest =>
    rw [Stmt.visitsList, Stmt.visits.eq_def]
    simp

theorem functionBodies_trimBodies (depth : Nat) (program : List Stmt) :
    functionBodies (trimBodies cx (depth + 1) program).value =
      (functionBodies program).map fun body => (trimBodies cx depth body).value := by
  rw [trimBodies, Counted.value_bind, functionBodies_walkList, functionBodies_trimBody]
  rfl

/-- Reducing the bodies of a program settles them. -/
theorem keepsDirectives_trimProgram (program : List Stmt) :
    List.Forall₂ (KeepsDirectives IsPlainBody) (scriptBodies program)
      (scriptBodies (trimProgram cx program).value) := by
  refine KeepsDirectives.ofFunctions (functionBodies_trimBodies cx _ program)
    (keepsDirectives_trimBodies cx _ program) fun body member => ?_
  -- The depth is not used up before the functions of the program.
  obtain ⟨depth, isDepth⟩ := Nat.exists_eq_add_of_lt
    (length_visitsList_pos (List.ne_nil_of_mem member))
  rw [Nat.zero_add] at isDepth
  rw [isDepth]
  exact keepsDirectives_trimBodies cx depth body

/-- The bodies of the functions that a plain program declares are plain. -/
theorem isPlainBody_of_mem_scriptBodies {program body : List Stmt} (plain : IsPlainBody program)
    (member : body ∈ scriptBodies program) : IsPlainBody body := by
  rcases List.mem_cons.mp member with rfl | inFunction
  · exact plain
  · obtain ⟨s, held, declares⟩ := List.mem_filterMap.mp inFunction
    have inside : (readings Mark.exposure? (Stmt.visitsList body)).Sublist
        (readings Mark.exposure? s.visits) := by
      split at declares
      · cases declares
        rename_i loc func isExport
        rcases func with ⟨name, params, body, isAsync, isGenerator⟩
        simp [Stmt.visits, Func.visits]
      · cases declares
        rename_i loc ref func isExport
        rcases func with ⟨name, params, body, isAsync, isGenerator⟩
        simp [Stmt.visits, Func.visits]
      · cases declares
    have whole := inside.trans (readings_visits_sublist held)
    rwa [plain, List.sublist_nil] at whole

variable (options : MinifyOptions) (unbound : Ref → Bool)

theorem conditionWalk_body (depth : Nat) : (conditionWalk depth).body = none := by
  cases depth <;> rfl

theorem conditionWalk_leave (depth : Nat) :
    (conditionWalk depth).leave = Counted.unchanged := by
  cases depth <;> rfl

/-- One pass over a program keeps its directives, and adds none to a plain one. -/
theorem keepsDirectives_minifyOnce (program : List Stmt) :
    List.Forall₂ (KeepsDirectives IsPlainBody) (scriptBodies program)
      (scriptBodies (minifyOnce options unbound program).value) := by
  have trimmed := keepsDirectives_trimProgram ⟨options.optionalChainSupported, unbound⟩ program
  have simplified := fun depth body =>
    keepsDirectives_walk (conditionWalk_body depth) (fun _ _ => by rw [conditionWalk_leave]; rfl)
      (keepsMarks_conditionWalk isReading_exposure? depth) body
  have mangled := fun body =>
    keepsDirectives_walk (Walk.mangling_body options.mangleStrictEquality) (fun _ _ => rfl)
      (keepsMarks_mangling isReading_exposure? fun _ => rfl) body
  -- Reducing settles every body, and the other two walks keep settled bodies.
  exact forall₂_trans (forall₂_trans trimmed (simplified _ _) fun _ _ _ => KeepsDirectives.trans)
    (mangled _) fun _ _ _ => KeepsDirectives.trans

/-- However often a program is gone over, it keeps its directives, and a plain one gets no more. -/
theorem prologues_minifyUpTo (passes : Nat) (program : List Stmt) :
    List.Forall₂ (· <+: ·) (prologues program)
        (prologues (minifyUpTo options unbound passes program).1) ∧
      (IsPlainBody program →
        prologues (minifyUpTo options unbound passes program).1 = prologues program) := by
  induction passes generalizing program with
  | zero => exact ⟨List.forall₂_same.mpr fun _ _ => List.prefix_refl _, fun _ => rfl⟩
  | succ passes ih =>
    have once := keepsDirectives_minifyOnce options unbound program
    have same := fun plain => KeepsDirectives.prologues_same once fun body =>
      @isPlainBody_of_mem_scriptBodies program body plain
    rw [minifyUpTo]
    dsimp only
    split
    · obtain ⟨kept, stays⟩ := ih (minifyOnce options unbound program).value
      refine ⟨?_, fun plain => ?_⟩
      · exact forall₂_trans (KeepsDirectives.prologues_kept once) kept fun _ _ _ =>
          List.IsPrefix.trans
      · -- A further pass starts from a plain program, as a pass adds no choice.
        have stillPlain : IsPlainBody (minifyOnce options unbound program).value := by
          have read := readings_minifyOnce unbound isReading_exposure?
            (fun (_ : options.optionalChainSupported) => forgetsLinks_exposure?) (fun _ => rfl)
            program
          rwa [plain, List.sublist_nil] at read
        exact (stays stillPlain).trans (same plain)
    · exact ⟨KeepsDirectives.prologues_kept once, same⟩

end Passes

/--
A minified program starts with the directives of the program, and so does each function it declares.
None of them gets more, unless a choice in the program comes down to the string literal on its left.
-/
theorem prologues_minify (options : MinifyOptions) (unbound : Ref → Bool) (program : List Stmt) :
    List.Forall₂ (· <+: ·) (prologues program)
        (prologues (minify options unbound program).1) ∧
      (exposesString program = false →
        prologues (minify options unbound program).1 = prologues program) := by
  obtain ⟨kept, same⟩ := prologues_minifyUpTo options unbound options.passes program
  exact ⟨kept, fun plain => same (readings_exposure? plain)⟩

/-- A string that a choice falls back to is no directive, and never becomes one. -/
theorem prologues_minify_function :
    let text := Text.units "use strict"
    let choice := Expr.binary default .nullishCoalescing (.null default) (.string default text)
    let program := [Stmt.expr default (.string default text) false,
      .function default ⟨none, [], [.expr default choice false], false, false⟩ false]
    exposesString program = false ∧ prologues program = [[text], []] ∧
      prologues (minify .standard (fun _ => false) program).1 = prologues program := by
  intro text choice program
  have plain : exposesString program = false := by cbv
  exact ⟨plain, by cbv, (prologues_minify .standard (fun _ => false) program).2 plain⟩

/-- The choice in `"use strict" ?? a()` is made, so a directive comes to light. -/
theorem prologues_gainsDirective :
    let program := [Stmt.expr default (.binary default .nullishCoalescing
      (.string default (Text.units "use strict"))
      (.call default (.identifier default default false false) [] .plain false .normal)) false]
    prologues program = [[]] ∧
      prologues (minify .standard (fun _ => false) program).1 = [[Text.units "use strict"]] := by
  intro program
  refine ⟨by decide, ?_⟩
  cbv

end EcmaPrune
