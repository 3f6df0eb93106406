import EcmaPrune.Tree.NodeCount

/-! The parts of an expression that its own evaluation may evaluate, and induction over them. -/

namespace EcmaPrune

/-- The parts of a member of an object literal; a key that is not computed is only a name. -/
def Property.parts (p : Property) : List Expr :=
  (if p.isComputed then [p.key] else []) ++ p.value.toList

namespace Expr

/-- The expressions directly inside an expression, without those inside functions and classes. -/
def parts : Expr → List Expr
  | array _ items => items
  | object _ properties => properties.flatMap Property.parts
  | template _ tag _ substitutions => tag.toList ++ substitutions.map TemplatePart.value
  | call _ target args .. | new _ target args _ => target :: args
  | binary _ _ left right => [left, right]
  | conditional _ test yes no => [test, yes, no]
  | index _ target key .. => [target, key]
  | dot _ value .. | inlinedEnum _ value _ | spread _ value | unary _ _ value _ => [value]
  | _ => []

section

-- A count is found by walking through one constructor.
attribute [local simp] Visit.isEnter visits visitsOption

@[simp] theorem nodeCount_dot (loc : Loc) (target : Expr) (name : String) (link : ChainLink)
    (isRemovable : Bool) :
    (dot loc target name link isRemovable).nodeCount = target.nodeCount + 1 := by
  simp [nodeCount]

@[simp] theorem nodeCount_index (loc : Loc) (target key : Expr) (link : ChainLink)
    (isRemovable : Bool) :
    (index loc target key link isRemovable).nodeCount =
      target.nodeCount + key.nodeCount + 1 := by
  simp [nodeCount]

@[simp] theorem nodeCount_spread (loc : Loc) (value : Expr) :
    (spread loc value).nodeCount = value.nodeCount + 1 := by
  simp [nodeCount]

@[simp] theorem nodeCount_template_tagged (loc : Loc) (tag : Expr) (head : List UInt16)
    (substitutions : List TemplatePart) :
    (template loc (some tag) head substitutions).nodeCount =
      tag.nodeCount + TemplatePart.nodeCountList substitutions + 1 := by
  simp [nodeCount, TemplatePart.nodeCountList]

end

/-- A part of an expression is smaller than the expression. -/
theorem nodeCount_lt_of_mem_parts {e part : Expr} (member : part ∈ e.parts) :
    part.nodeCount < e.nodeCount := by
  cases e with
  | array loc items =>
    -- An item is counted with the list.
    have counted : part.nodeCount ≤ nodeCountList items := nodeCount_le_of_mem member
    simp only [nodeCount_array]
    omega
  | object loc properties =>
    obtain ⟨p, held, inside⟩ := List.mem_flatMap.mp member
    simp only [Property.parts, List.mem_append, List.mem_ite_nil_right, List.mem_singleton,
      Option.mem_toList] at inside
    simp only [nodeCount_object]
    -- The part is the key or the value of one member, and either is counted with the members.
    rcases inside with ⟨_, same⟩ | found
    · subst same
      have := Property.nodeCount_key_le_of_mem held
      omega
    · have := Property.nodeCount_value_le_of_mem held found
      omega
  | template loc tag head substitutions =>
    simp only [parts, List.mem_append, Option.mem_toList, List.mem_map] at member
    -- The part is the tag or the value of one substitution.
    rcases member with found | ⟨substitution, held, same⟩
    · cases found
      simp only [nodeCount_template_tagged]
      omega
    · subst same
      have := TemplatePart.nodeCount_le_of_mem held
      cases tag with
      | none => simp only [nodeCount_template_untagged]; omega
      | some tag => simp only [nodeCount_template_tagged]; omega
  | call | new =>
    simp only [parts, List.mem_cons] at member
    simp only [nodeCount_call, nodeCount_new]
    -- The part is the target or one of the arguments.
    rcases member with same | held
    · subst same
      omega
    · have := nodeCount_le_of_mem held
      omega
  | binary | index =>
    simp only [parts, List.mem_cons, List.not_mem_nil, or_false] at member
    simp only [nodeCount_binary, nodeCount_index]
    rcases member with same | same <;> subst same <;> omega
  | conditional =>
    simp only [parts, List.mem_cons, List.not_mem_nil, or_false] at member
    simp only [nodeCount_conditional]
    rcases member with same | same | same <;> subst same <;> omega
  | dot | spread | inlinedEnum | unary =>
    simp only [parts, List.mem_singleton] at member
    simp only [nodeCount_dot, nodeCount_spread, nodeCount_inlinedEnum, nodeCount_unary]
    subst member
    omega
  | _ => simp [parts] at member

/-- What holds of an expression whenever it holds of its parts holds of every expression. -/
theorem induction_on_parts {motive : Expr → Prop}
    (step : ∀ e, (∀ part ∈ e.parts, motive part) → motive e) (e : Expr) : motive e :=
  step e fun part _ => induction_on_parts step part
termination_by e.nodeCount
decreasing_by exact nodeCount_lt_of_mem_parts ‹part ∈ e.parts›

/-- A property of an expression and of everything in it that evaluating it may evaluate. -/
inductive Throughout (holds : Expr → Prop) : Expr → Prop
  | intro {e : Expr} (here : holds e) (inside : ∀ part ∈ e.parts, Throughout holds part) :
    Throughout holds e

variable {holds : Expr → Prop}

/-- The property holds of the expression itself. -/
theorem Throughout.here {e : Expr} (all : Throughout holds e) : holds e := by
  cases all
  assumption

/-- The property holds throughout every part. -/
theorem Throughout.inside {e part : Expr} (all : Throughout holds e) (member : part ∈ e.parts) :
    Throughout holds part := by
  cases all with
  | intro _ inside => exact inside part member

theorem throughout_iff {e : Expr} :
    Throughout holds e ↔ holds e ∧ ∀ part ∈ e.parts, Throughout holds part :=
  ⟨fun all => ⟨all.here, fun _ => all.inside⟩, fun ⟨here, inside⟩ => .intro here inside⟩

theorem throughout_unary {loc : Loc} {op : Operator} {value : Expr} {fromIdentifier : Bool} :
    Throughout holds (unary loc op value fromIdentifier) ↔
      holds (unary loc op value fromIdentifier) ∧ Throughout holds value := by
  rw [throughout_iff]
  simp [parts]

theorem throughout_binary {loc : Loc} {op : Operator} {left right : Expr} :
    Throughout holds (binary loc op left right) ↔
      holds (binary loc op left right) ∧ Throughout holds left ∧ Throughout holds right := by
  rw [throughout_iff]
  simp [parts]

theorem throughout_conditional {loc : Loc} {test yes no : Expr} :
    Throughout holds (conditional loc test yes no) ↔
      holds (conditional loc test yes no) ∧ Throughout holds test ∧ Throughout holds yes ∧
        Throughout holds no := by
  rw [throughout_iff]
  simp [parts]

/-- A property of an expression without parts holds throughout it. -/
theorem throughout_of_parts_eq_nil {e : Expr} (none : e.parts = []) (here : holds e) :
    Throughout holds e :=
  .intro here (by simp [none])

/-- A weaker property holds throughout as well. -/
theorem Throughout.imp {weaker : Expr → Prop} {e : Expr} (all : Throughout holds e)
    (weakens : ∀ e, holds e → weaker e) : Throughout weaker e := by
  induction all with
  | intro here _ ih => exact .intro (weakens _ here) ih

/-- Two properties that hold throughout an expression hold together throughout it. -/
theorem Throughout.and {also : Expr → Prop} {e : Expr} (all : Throughout holds e)
    (alsoAll : Throughout also e) : Throughout (fun e => holds e ∧ also e) e := by
  induction all with
  | intro here _ ih =>
    exact .intro ⟨here, alsoAll.here⟩ fun part member => ih part member (alsoAll.inside member)

end Expr

end EcmaPrune
