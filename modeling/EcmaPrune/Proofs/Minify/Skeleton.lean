import EcmaPrune.Proofs.Minify.Prologue

/-!
The skeleton of a program: its statements without their expressions.

Minifying removes expression statements and rewrites expressions. Everything else of a program
stays, in its order and at its position.
-/

namespace EcmaPrune

/-- What stands in a skeleton for any expression. -/
def Expr.erased (_ : Expr) : Expr := .missing default

section Definitions

mutual

/-- A binding without its expressions; the names it binds stay. -/
def Binding.skeleton : Binding → Binding
  | .array loc items hasSpread => .array loc (BindingElement.skeletonList items) hasSpread
  | .identifier loc ref => .identifier loc ref
  | .missing loc => .missing loc
  | .object loc properties => .object loc (PropertyPattern.skeletonList properties)

/-- A bound element, which keeps whether it has an initializer. -/
def BindingElement.skeleton : BindingElement → BindingElement
  | ⟨binding, initializer⟩ => ⟨binding.skeleton, initializer.map Expr.erased⟩

/-- Bound elements in turn. -/
def BindingElement.skeletonList : List BindingElement → List BindingElement
  | [] => []
  | e :: rest => e.skeleton :: BindingElement.skeletonList rest

/-- The members of an object pattern, which keep whether their keys are computed. -/
def PropertyPattern.skeletonList : List PropertyPattern → List PropertyPattern
  | [] => []
  | ⟨key, isComputed, isSpread, element⟩ :: rest =>
    ⟨key.erased, isComputed, isSpread, element.skeleton⟩ :: PropertyPattern.skeletonList rest

end

/-- A class, of which only the name counts. -/
def Class.skeleton (c : Class) : Class := ⟨c.name, none, []⟩

/-- A statement that evaluates an expression for nothing but its effects. -/
def Stmt.isExprStmt : Stmt → Bool
  | .expr .. => true
  | _ => false

mutual

/-- A function with the skeletons of its parameters and of its body. -/
def Func.skeleton : Func → Func
  | ⟨name, params, body, isAsync, isGenerator⟩ =>
    ⟨name, BindingElement.skeletonList params, Stmt.skeletonList body, isAsync, isGenerator⟩

/--
A statement without its expressions.

An expression statement may become an empty one where a statement has to stand, so both leave the
same hole there.
-/
def Stmt.skeleton : Stmt → Stmt
  | .expr .. | .empty _ => .empty default
  | .block loc body => .block loc (Stmt.skeletonList body)
  | .classDecl loc definition isExport => .classDecl loc definition.skeleton isExport
  | .doWhile loc body test => .doWhile loc body.skeleton test.erased
  | .exportDefaultClass loc ref definition isExport =>
    .exportDefaultClass loc ref definition.skeleton isExport
  | .exportDefaultExpr loc ref value => .exportDefaultExpr loc ref value.erased
  | .exportDefaultFunction loc ref func isExport =>
    .exportDefaultFunction loc ref func.skeleton isExport
  | .function loc func isExport => .function loc func.skeleton isExport
  | .ifElse loc test yes no => .ifElse loc test.erased yes.skeleton (Stmt.skeletonOption no)
  | .label loc name stmt => .label loc name stmt.skeleton
  | .localDecl loc kind decls isExport =>
    .localDecl loc kind (BindingElement.skeletonList decls) isExport
  | .returnValue loc value => .returnValue loc (value.map Expr.erased)
  | .throwValue loc value => .throwValue loc value.erased
  | .tryCatch loc body handler finalizer =>
    .tryCatch loc (Stmt.skeletonList body) (Catch.skeletonOption handler)
      (Stmt.skeletonListOption finalizer)
  | .whileLoop loc test body => .whileLoop loc test.erased body.skeleton
  | .withObject loc value body => .withObject loc value.erased body.skeleton
  | .breakTo loc target => .breakTo loc target
  | .continueTo loc target => .continueTo loc target
  | .debugger loc => .debugger loc
  | .exportClause loc items => .exportClause loc items
  | .exportFrom loc items path => .exportFrom loc items path
  | .importFrom loc default items namespaceRef path =>
    .importFrom loc default items namespaceRef path

/-- A statement list, which expression statements can be taken from without a trace. -/
def Stmt.skeletonList : List Stmt → List Stmt
  | [] => []
  | s :: rest =>
    if s.isExprStmt then Stmt.skeletonList rest else s.skeleton :: Stmt.skeletonList rest

/-- A statement that may be absent. -/
def Stmt.skeletonOption : Option Stmt → Option Stmt
  | none => none
  | some s => some s.skeleton

/-- A statement list that may be absent. -/
def Stmt.skeletonListOption : Option (List Stmt) → Option (List Stmt)
  | none => none
  | some body => some (Stmt.skeletonList body)

/-- A handler that may be absent. -/
def Catch.skeletonOption : Option Catch → Option Catch
  | none => none
  | some ⟨binding, body⟩ => some ⟨binding.map Binding.skeleton, Stmt.skeletonList body⟩

end

end Definitions

/-- The skeleton of two lists is that of one followed by that of the other. -/
theorem Stmt.skeletonList_append (first second : List Stmt) :
    Stmt.skeletonList (first ++ second) = Stmt.skeletonList first ++ Stmt.skeletonList second := by
  induction first with
  | nil => rfl
  | cons s rest ih =>
    rw [List.cons_append, Stmt.skeletonList, Stmt.skeletonList, ih]
    split <;> rfl

section Trimming

variable (cx : DiscardContext)

/-- Nothing is left of an expression statement, or a statement that is one. -/
theorem Stmt.isExprStmt_trim (s : Stmt) :
    (s.trim cx).value.elim true Stmt.isExprStmt = s.isExprStmt := by
  cases s with
  | expr loc value isGlue =>
    rw [Stmt.trim, trimExprStmt]
    split
    · rfl
    · split <;> rfl
  | _ => rfl

/-- A statement may be replaced in a list by one of the same skeleton, or removed if it has none. -/
theorem Stmt.skeletonList_toList_append {kept : Option Stmt} {s : Stmt} {others rest : List Stmt}
    (kind : kept.elim true Stmt.isExprStmt = s.isExprStmt)
    (same : (kept.getD (.empty s.loc)).skeleton = s.skeleton)
    (behind : Stmt.skeletonList others = Stmt.skeletonList rest) :
    Stmt.skeletonList (kept.toList ++ others) = Stmt.skeletonList (s :: rest) := by
  rw [Stmt.skeletonList, ← kind, ← behind]
  cases kept with
  | none => rfl
  | some left =>
    have same : left.skeleton = s.skeleton := same
    rw [← same]
    rfl

-- The equations of both recursions are worked out once, for all the proofs below.
attribute [local simp] Stmt.trim Stmt.trimList Stmt.trimOption Stmt.trimListOption Catch.trimOption

attribute [local simp] Stmt.skeleton Stmt.skeletonList Stmt.skeletonOption Stmt.skeletonListOption
  Catch.skeletonOption

mutual

/-- What is left of a statement has its skeleton, and a hole is left where nothing is. -/
theorem Stmt.skeleton_trim :
    (s : Stmt) → ((s.trim cx).value.getD (.empty s.loc)).skeleton = s.skeleton
  | .expr loc value isGlue => by
    rw [Stmt.trim, trimExprStmt]
    split
    · rfl
    · split <;> rfl
  | .block loc body => by simp [Stmt.skeletonList_trimList body]
  | .ifElse loc test yes no => by
    simp [Stmt.skeleton_trim yes, Stmt.skeletonOption_trimOption no]
  | .whileLoop loc test body => by simp [Stmt.skeleton_trim body]
  | .doWhile loc body test => by simp [Stmt.skeleton_trim body]
  | .label loc name stmt => by simp [Stmt.skeleton_trim stmt]
  | .withObject loc value body => by simp [Stmt.skeleton_trim body]
  | .tryCatch loc body handler finalizer => by
    simp [Stmt.skeletonList_trimList body, Catch.skeletonOption_trimOption handler,
      Stmt.skeletonListOption_trimListOption finalizer]
  | .breakTo .. | .classDecl .. | .continueTo .. | .debugger .. | .empty .. | .exportClause ..
  | .exportDefaultClass .. | .exportDefaultExpr .. | .exportDefaultFunction .. | .exportFrom ..
  | .function .. | .importFrom .. | .localDecl .. | .returnValue .. | .throwValue .. => rfl

theorem Stmt.skeletonList_trimList :
    (body : List Stmt) →
      Stmt.skeletonList (Stmt.trimList cx body).value = Stmt.skeletonList body
  | [] => rfl
  | s :: rest =>
    Stmt.skeletonList_toList_append (Stmt.isExprStmt_trim cx s) (Stmt.skeleton_trim s)
      (Stmt.skeletonList_trimList rest)

theorem Stmt.skeletonOption_trimOption :
    (s : Option Stmt) →
      Stmt.skeletonOption (Stmt.trimOption cx s).value = Stmt.skeletonOption s
  | none => rfl
  | some s => by simp [Stmt.skeleton_trim s]

theorem Stmt.skeletonListOption_trimListOption :
    (body : Option (List Stmt)) →
      Stmt.skeletonListOption (Stmt.trimListOption cx body).value = Stmt.skeletonListOption body
  | none => rfl
  | some body => by simp [Stmt.skeletonList_trimList body]

theorem Catch.skeletonOption_trimOption :
    (handler : Option Catch) →
      Catch.skeletonOption (Catch.trimOption cx handler).value = Catch.skeletonOption handler
  | none => rfl
  | some ⟨binding, body⟩ => by simp [Stmt.skeletonList_trimList body]

end

/-- Only expression statements are removed from a body, and its directives are some of them. -/
theorem skeletonList_trimBody (body : List Stmt) :
    Stmt.skeletonList (Stmt.trimBody cx body).value = Stmt.skeletonList body := by
  -- The directives stay as they are, and only what is behind them is gone over.
  calc Stmt.skeletonList (Stmt.trimBody cx body).value
      = Stmt.skeletonList (body.takeWhile Stmt.isDirective) ++
          Stmt.skeletonList (Stmt.trimList cx (body.dropWhile Stmt.isDirective)).value :=
        Stmt.skeletonList_append ..
    _ = Stmt.skeletonList (body.takeWhile Stmt.isDirective) ++
          Stmt.skeletonList (body.dropWhile Stmt.isDirective) := by
        rw [Stmt.skeletonList_trimList]
    _ = Stmt.skeletonList body := by
        rw [← Stmt.skeletonList_append, List.takeWhile_append_dropWhile]

end Trimming

section Walks

/-- A walk that rewrites bodies without changing their skeletons; it may do anything else. -/
def Walk.KeepsSkeleton (w : Walk) : Prop :=
  ∀ rewrite ∈ w.body, ∀ body, Stmt.skeletonList (rewrite body).value = Stmt.skeletonList body

/-- A walk that leaves bodies to nothing else rewrites none. -/
theorem Walk.keepsSkeleton_of_body_eq_none {w : Walk} (noBody : w.body = none) :
    w.KeepsSkeleton := by
  intro rewrite found
  rw [noBody] at found
  cases found

variable {w : Walk}

/-- A body is left to the rewriting of bodies, if there is one. -/
theorem Walk.KeepsSkeleton.onBody (keeps : w.KeepsSkeleton) {body : List Stmt}
    (walked : Stmt.skeletonList (Stmt.walkList w body).value = Stmt.skeletonList body) :
    Stmt.skeletonList (w.onBody body) = Stmt.skeletonList body := by
  unfold Walk.onBody
  split
  · rename_i rewrite found
    exact keeps rewrite found body
  · exact walked

/-- An expression is in its place after a walk as well, whatever became of it. -/
theorem Expr.map_erased_walkOption (e : Option Expr) :
    (Expr.walkOption w e).value.map Expr.erased = e.map Expr.erased := by
  cases e <;> rfl

theorem Class.skeleton_walk (c : Class) : (c.walk w).value.skeleton = c.skeleton := by
  rcases c with ⟨name, superclass, members⟩
  rfl

theorem Stmt.isExprStmt_walk (s : Stmt) : (s.walk w).value.isExprStmt = s.isExprStmt := by
  -- Whether a test is left to another rewriting has to be decided first where there is a test.
  cases s with
  | ifElse => rw [Stmt.value_walk_ifElse]; rfl
  | whileLoop => rw [Stmt.value_walk_whileLoop]; rfl
  | doWhile => rw [Stmt.value_walk_doWhile]; rfl
  | _ => rfl

attribute [local simp] Binding.walk BindingElement.walk BindingElement.walkList
  PropertyPattern.walkList Expr.map_erased_walkOption Expr.erased

attribute [local simp] Binding.skeleton BindingElement.skeleton BindingElement.skeletonList
  PropertyPattern.skeletonList

mutual

/-- A walk leaves the names that a binding binds. -/
theorem Binding.skeleton_walk : (b : Binding) → (b.walk w).value.skeleton = b.skeleton
  | .array loc items hasSpread => by simp [BindingElement.skeletonList_walkList items]
  | .object loc properties => by simp [PropertyPattern.skeletonList_walkList properties]
  | .identifier .. | .missing _ => rfl

theorem BindingElement.skeleton_walk :
    (e : BindingElement) → (e.walk w).value.skeleton = e.skeleton
  | ⟨binding, initializer⟩ => by simp [Binding.skeleton_walk binding]

theorem BindingElement.skeletonList_walkList :
    (elements : List BindingElement) →
      BindingElement.skeletonList (BindingElement.walkList w elements).value =
        BindingElement.skeletonList elements
  | [] => rfl
  | e :: rest => by
    -- The equations of one element would open it, and the lemma is about it as a whole.
    simp [-BindingElement.walk, -BindingElement.skeleton, BindingElement.skeleton_walk e,
      BindingElement.skeletonList_walkList rest]

theorem PropertyPattern.skeletonList_walkList :
    (properties : List PropertyPattern) →
      PropertyPattern.skeletonList (PropertyPattern.walkList w properties).value =
        PropertyPattern.skeletonList properties
  | [] => rfl
  | ⟨key, isComputed, isSpread, element⟩ :: rest => by
    simp [-BindingElement.walk, -BindingElement.skeleton, BindingElement.skeleton_walk element,
      PropertyPattern.skeletonList_walkList rest]

end

attribute [local simp] Stmt.walk Stmt.walkList Stmt.walkOption Stmt.walkListOption Catch.walkOption
  Binding.walkOption

attribute [local simp] Func.skeleton Stmt.skeleton Stmt.skeletonList Stmt.skeletonOption
  Stmt.skeletonListOption Catch.skeletonOption Class.skeleton_walk

mutual

/-- A walk leaves the skeleton of a function. -/
theorem Func.skeleton_walk (keeps : w.KeepsSkeleton) :
    (func : Func) → (func.walk w).value.skeleton = func.skeleton
  | ⟨name, params, body, isAsync, isGenerator⟩ => by
    simp [Func.value_walk, BindingElement.skeletonList_walkList params,
      keeps.onBody (Stmt.skeletonList_walkList keeps body)]

theorem Stmt.skeleton_walk (keeps : w.KeepsSkeleton) :
    (s : Stmt) → (s.walk w).value.skeleton = s.skeleton
  | .block loc body => by simp [Stmt.skeletonList_walkList keeps body]
  | .classDecl loc definition isExport | .exportDefaultClass loc _ definition isExport => by simp
  | .doWhile loc body test => by
    rw [Stmt.value_walk_doWhile]
    simp [Stmt.skeleton_walk keeps body]
  | .exportDefaultFunction loc ref func isExport => by
    simp [-Func.skeleton, Func.skeleton_walk keeps func]
  | .function loc func isExport => by
    simp [-Func.skeleton, Func.skeleton_walk keeps func]
  | .ifElse loc test yes no => by
    rw [Stmt.value_walk_ifElse]
    simp [Stmt.skeleton_walk keeps yes, Stmt.skeletonOption_walkOption keeps no]
  | .label loc name stmt => by simp [Stmt.skeleton_walk keeps stmt]
  | .localDecl loc kind decls isExport => by
    simp [BindingElement.skeletonList_walkList decls]
  | .returnValue loc value => by simp
  | .tryCatch loc body handler finalizer => by
    simp [Stmt.skeletonList_walkList keeps body, Catch.skeletonOption_walkOption keeps handler,
      Stmt.skeletonListOption_walkListOption keeps finalizer]
  | .whileLoop loc test body => by
    rw [Stmt.value_walk_whileLoop]
    simp [Stmt.skeleton_walk keeps body]
  | .withObject loc value body => by simp [Stmt.skeleton_walk keeps body]
  | .breakTo .. | .continueTo .. | .debugger _ | .empty _ | .exportClause ..
  | .exportDefaultExpr .. | .exportFrom .. | .expr .. | .importFrom .. | .throwValue .. => rfl

/-- A walk leaves the skeleton of a program. -/
theorem Stmt.skeletonList_walkList (keeps : w.KeepsSkeleton) :
    (body : List Stmt) →
      Stmt.skeletonList (Stmt.walkList w body).value = Stmt.skeletonList body
  | [] => rfl
  | s :: rest => by
    simp [-Stmt.walk, -Stmt.skeleton, Stmt.isExprStmt_walk s, Stmt.skeleton_walk keeps s,
      Stmt.skeletonList_walkList keeps rest]

theorem Stmt.skeletonOption_walkOption (keeps : w.KeepsSkeleton) :
    (s : Option Stmt) →
      Stmt.skeletonOption (Stmt.walkOption w s).value = Stmt.skeletonOption s
  | none => rfl
  | some s => by simp [-Stmt.walk, -Stmt.skeleton, Stmt.skeleton_walk keeps s]

theorem Stmt.skeletonListOption_walkListOption (keeps : w.KeepsSkeleton) :
    (body : Option (List Stmt)) →
      Stmt.skeletonListOption (Stmt.walkListOption w body).value = Stmt.skeletonListOption body
  | none => rfl
  | some body => by simp [Stmt.skeletonList_walkList keeps body]

theorem Catch.skeletonOption_walkOption (keeps : w.KeepsSkeleton) :
    (handler : Option Catch) →
      Catch.skeletonOption (Catch.walkOption w handler).value = Catch.skeletonOption handler
  | none => rfl
  | some ⟨none, body⟩ => by simp [Stmt.skeletonList_walkList keeps body]
  | some ⟨some binding, body⟩ => by
    simp [-Binding.walk, -Binding.skeleton, Binding.skeleton_walk binding,
      Stmt.skeletonList_walkList keeps body]

end

end Walks

section Passes

/-- Reducing bodies inside bodies leaves the skeleton of the outermost one, at every depth. -/
theorem skeletonList_trimBodies (cx : DiscardContext) (depth : Nat) (body : List Stmt) :
    Stmt.skeletonList (trimBodies cx depth body).value = Stmt.skeletonList body := by
  induction depth generalizing body with
  | zero => rfl
  | succ depth ih =>
    rw [trimBodies, Counted.value_bind, Stmt.skeletonList_walkList, skeletonList_trimBody]
    -- The walk hands the bodies inside to the same reduction, one level down.
    intro rewrite found inner
    cases found
    exact ih inner

variable (options : MinifyOptions) (unbound : Ref → Bool)

/-- One pass over a program leaves its skeleton. -/
theorem skeletonList_minifyOnce (program : List Stmt) :
    Stmt.skeletonList (minifyOnce options unbound program).value = Stmt.skeletonList program := by
  have trimmed : Stmt.skeletonList
      (trimProgram ⟨options.optionalChainSupported, unbound⟩ program).value =
        Stmt.skeletonList program :=
    skeletonList_trimBodies _ _ program
  have simplified (body : List Stmt) :
      Stmt.skeletonList (simplifyConditions body).value = Stmt.skeletonList body :=
    Stmt.skeletonList_walkList (Walk.keepsSkeleton_of_body_eq_none (conditionWalk_body _)) body
  have mangled (body : List Stmt) :
      Stmt.skeletonList (mangleProgram options.mangleStrictEquality body).value =
        Stmt.skeletonList body :=
    Stmt.skeletonList_walkList (Walk.keepsSkeleton_of_body_eq_none rfl) body
  -- The passes run in turn, so their equations are used from the last one to the first.
  rw [minifyOnce, Counted.value_bind, Counted.value_bind, mangled, simplified, trimmed]

/-- However often a program is gone over, its skeleton stays. -/
theorem skeletonList_minifyUpTo (passes : Nat) (program : List Stmt) :
    Stmt.skeletonList (minifyUpTo options unbound passes program).1 =
      Stmt.skeletonList program := by
  -- The next run starts with what the first pass left, so the program stays general.
  induction passes generalizing program with
  | zero => rfl
  | succ passes ih =>
    have once := skeletonList_minifyOnce options unbound program
    rw [minifyUpTo]
    dsimp only
    split
    · rw [ih, once]
    · exact once

end Passes

/--
A minified program has the statements of the program, but for expression statements in lists, and
each is of the same kind, with the same labels, names, flags and clauses.
-/
theorem skeletonList_minify (options : MinifyOptions) (unbound : Ref → Bool)
    (program : List Stmt) :
    Stmt.skeletonList (minify options unbound program).1 = Stmt.skeletonList program :=
  skeletonList_minifyUpTo options unbound options.passes program

end EcmaPrune
