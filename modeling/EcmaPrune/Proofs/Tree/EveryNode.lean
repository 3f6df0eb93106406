import EcmaPrune.Proofs.Tree.Parts
import EcmaPrune.Tree.Visit

/-! Properties of all expressions in a tree, those inside functions and classes included. -/

namespace EcmaPrune

variable {visit : Visit}

theorem Expr.mem_visitsList {items : List Expr} :
    visit ∈ Expr.visitsList items ↔ ∃ item ∈ items, visit ∈ item.visits := by
  induction items with
  | nil => simp [Expr.visitsList]
  | cons item rest ih => simp [Expr.visitsList, ih]

theorem Expr.mem_visitsOption {e : Option Expr} :
    visit ∈ Expr.visitsOption e ↔ ∃ value ∈ e, visit ∈ value.visits := by
  cases e <;> simp [Expr.visitsOption]

theorem TemplatePart.mem_visitsList {parts : List TemplatePart} :
    visit ∈ TemplatePart.visitsList parts ↔ ∃ part ∈ parts, visit ∈ part.value.visits := by
  induction parts with
  | nil => simp [TemplatePart.visitsList]
  | cons part rest ih =>
    rcases part with ⟨value, tail⟩
    simp [TemplatePart.visitsList, ih]

theorem Property.mem_visitsList {properties : List Property} :
    visit ∈ Property.visitsList properties ↔ ∃ p ∈ properties, visit ∈ p.visits := by
  induction properties with
  | nil => simp [Property.visitsList]
  | cons p rest ih => simp [Property.visitsList, ih]

/-- A walk through a member goes through its key and through its value. -/
theorem Property.mem_visits {p : Property} {part : Expr} (held : part = p.key ∨ part ∈ p.value)
    (inside : visit ∈ part.visits) : visit ∈ p.visits := by
  rcases p with ⟨kind, isComputed, isStatic, key, value, initializer⟩
  rcases held with rfl | isValue
  · simp [Property.visits, inside]
  · simp [Property.visits, Expr.mem_visitsOption.mpr ⟨part, isValue, inside⟩]

namespace Expr

/-- A walk through an object literal goes through the keys and values of its members. -/
theorem mem_visits_object {loc : Loc} {properties : List Property} {p : Property}
    (member : p ∈ properties) {part : Expr} (held : part = p.key ∨ part ∈ p.value)
    (inside : visit ∈ part.visits) : visit ∈ (object loc properties).visits := by
  simp [visits, Property.mem_visitsList.mpr ⟨p, member, Property.mem_visits held inside⟩]

/-- A walk through an expression goes through its parts. -/
theorem mem_visits_of_mem_parts {e part : Expr} (member : part ∈ e.parts)
    (inside : visit ∈ part.visits) : visit ∈ e.visits := by
  cases e with
  | array loc items =>
    have held : part ∈ items := member
    simp [visits, mem_visitsList.mpr ⟨part, held, inside⟩]
  | object loc properties =>
    -- The part is the computed key or the value of one member.
    obtain ⟨p, isMember, isPart⟩ := List.mem_flatMap.mp member
    refine mem_visits_object isMember ?_ inside
    simp only [Property.parts, List.mem_append, List.mem_ite_nil_right, List.mem_singleton,
      Option.mem_toList] at isPart
    exact isPart.imp And.right id
  | template loc tag head substitutions =>
    rcases List.mem_append.mp member with isTag | isValue
    · simp [visits, mem_visitsOption.mpr ⟨part, Option.mem_toList.mp isTag, inside⟩]
    · obtain ⟨substitution, held, rfl⟩ := List.mem_map.mp isValue
      simp [visits, TemplatePart.mem_visitsList.mpr ⟨substitution, held, inside⟩]
  | call | new =>
    -- The target is walked through first, also where the call does not evaluate it.
    rcases List.mem_cons.mp member with rfl | isArg
    · simp [visits, inside]
    · simp [visits, mem_visitsList.mpr ⟨part, isArg, inside⟩]
  | binary | index | conditional | dot | inlinedEnum | spread | unary =>
    simp only [parts, List.mem_cons, List.not_mem_nil, or_false] at member
    rcases member with rfl | rfl | rfl | rfl <;> simp [visits, inside]
  | _ => cases member

/-- A property of all expressions that a walk through an expression enters. -/
def EveryNode (holds : Expr → Prop) (e : Expr) : Prop :=
  ∀ node, .enter node ∈ e.visits → holds node

variable {holds : Expr → Prop}

/-- The property holds of the expression itself. -/
theorem EveryNode.here {e : Expr} (all : e.EveryNode holds) : holds e :=
  all e (by unfold visits; simp)

/-- The property holds of every node of whatever the walk goes through. -/
theorem EveryNode.inside {e part : Expr} (all : e.EveryNode holds)
    (within : ∀ {visit}, visit ∈ part.visits → visit ∈ e.visits) : part.EveryNode holds :=
  fun node entered => all node (within entered)

/-- The property holds of every node of every part. -/
theorem EveryNode.part {e part : Expr} (all : e.EveryNode holds) (member : part ∈ e.parts) :
    part.EveryNode holds :=
  all.inside (mem_visits_of_mem_parts member)

/-- What holds of every node holds throughout what evaluation may evaluate. -/
theorem EveryNode.throughout {e : Expr} (all : e.EveryNode holds) : e.Throughout holds := by
  induction e using induction_on_parts with
  | step e ih => exact .intro all.here fun part member => ih part member (all.part member)

/-- Two properties of every node hold together of every node. -/
theorem EveryNode.and {also : Expr → Prop} {e : Expr} (all : e.EveryNode holds)
    (alsoAll : e.EveryNode also) : e.EveryNode fun node => holds node ∧ also node :=
  fun node entered => ⟨all node entered, alsoAll node entered⟩

theorem everyNode_boolean {loc : Loc} {value : Bool} :
    (boolean loc value).EveryNode holds ↔ holds (boolean loc value) := by
  simp [EveryNode, visits]

theorem everyNode_unary {loc : Loc} {op : Operator} {value : Expr} {fromIdentifier : Bool} :
    (unary loc op value fromIdentifier).EveryNode holds ↔
      holds (unary loc op value fromIdentifier) ∧ value.EveryNode holds := by
  simp [EveryNode, visits]

theorem everyNode_binary {loc : Loc} {op : Operator} {left right : Expr} :
    (binary loc op left right).EveryNode holds ↔
      holds (binary loc op left right) ∧ left.EveryNode holds ∧ right.EveryNode holds := by
  simp [EveryNode, visits, or_imp, forall_and]

theorem everyNode_conditional {loc : Loc} {test yes no : Expr} :
    (conditional loc test yes no).EveryNode holds ↔
      holds (conditional loc test yes no) ∧ test.EveryNode holds ∧ yes.EveryNode holds ∧
        no.EveryNode holds := by
  simp [EveryNode, visits, or_imp, forall_and]

end Expr

end EcmaPrune
