import EcmaPrune.Proofs.Print.ReadBack
import EcmaPrune.Rewrite.Pattern

/-!
Destructuring patterns and the assignment targets made of them print alike.

A pattern is printed by rules of its own, and its target as array and object literals, spreads and
assignments. The two can only differ at the end of an array pattern: a target has no place for a
default of the rest, and the comma behind a hole at the end is left out where the hole is assigned
a default.
-/

namespace EcmaPrune

/-- Whether an item may be the last one: no hole or rest has a default, and the rest is no hole. -/
def BindingElement.endsPlainly (isRest : Bool) : BindingElement → Bool
  | ⟨.missing _, initializer⟩ => !isRest && initializer.isNone
  | ⟨_, initializer⟩ => !isRest || initializer.isNone

mutual

/-- Whether every array pattern in a pattern ends in an item that may be the last one. -/
def Binding.isPlain : Binding → Bool
  | .array _ items hasSpread => BindingElement.arePlain hasSpread items
  | .object _ properties => PropertyPattern.arePlain properties
  | .identifier .. | .missing _ => true

/-- The same for the items of an array pattern, the last of which may be the rest. -/
def BindingElement.arePlain (hasSpread : Bool) : List BindingElement → Bool
  | [] => true
  | ⟨binding, initializer⟩ :: rest =>
    (!rest.isEmpty || BindingElement.endsPlainly hasSpread ⟨binding, initializer⟩) &&
      binding.isPlain && BindingElement.arePlain hasSpread rest

/-- The same for the members of an object pattern. -/
def PropertyPattern.arePlain : List PropertyPattern → Bool
  | [] => true
  | ⟨_, _, _, ⟨binding, _⟩⟩ :: rest => binding.isPlain && PropertyPattern.arePlain rest

end

namespace Expr

/-- What stands alone needs no parentheses. -/
theorem guarded_of_primary {e : Expr} (primary : e.precedence = primaryPrecedence) {least : Nat}
    (enough : least ≤ primaryPrecedence) (tokens : List Token) :
    e.guarded least tokens = tokens := by
  rw [guarded, if_neg (by omega)]

/-- An assignment is written as its target, with its value written as an initializer is. -/
theorem tokens_assign {target : Expr} (primary : target.precedence = primaryPrecedence)
    (value : Expr) :
    (target.assign value).tokens = target.tokens ++ initializerTokens (some value) := by
  -- Only an operator of `??`, `||` or `&&` could need parentheses for being mixed.
  have mixes (e : Expr) : e.mixesNullish .assignment = false := by cases e <;> rfl
  have leftParens : target.leftParens .assignment = false := by
    simp [Expr.leftParens, mixes, primary, primaryPrecedence]
    decide
  have rightParens :
      value.rightParens .assignment = decide (value.precedence < itemPrecedence) := by
    rw [Expr.rightParens, mixes]
    rfl
  rw [assign, tokens_binary, leftParens, rightParens, initializerTokens, guarded_eq]
  rfl

end Expr

/-- A target stands alone, whatever it binds. -/
theorem Binding.precedence_toTarget (b : Binding) :
    (b.toTarget plainTarget).precedence = primaryPrecedence := by
  cases b <;> rfl

theorem Binding.guarded_toTarget (b : Binding) :
    (b.toTarget plainTarget).guarded itemPrecedence (b.toTarget plainTarget).tokens =
      (b.toTarget plainTarget).tokens :=
  Expr.guarded_of_primary b.precedence_toTarget (by decide) _

/-- The target made of one item of an array pattern. -/
def BindingElement.itemTarget (isRest : Bool) : BindingElement → Expr
  | ⟨binding, initializer⟩ =>
    if isRest then
      .spread (binding.toTarget plainTarget).loc (binding.toTarget plainTarget)
    else match initializer with
      | some value => (binding.toTarget plainTarget).assign value
      | none => binding.toTarget plainTarget

theorem BindingElement.toTargets_cons (hasSpread : Bool) (element : BindingElement)
    (rest : List BindingElement) :
    BindingElement.toTargets plainTarget hasSpread (element :: rest) =
      element.itemTarget (hasSpread && rest.isEmpty) ::
        BindingElement.toTargets plainTarget hasSpread rest := by
  obtain ⟨binding, initializer⟩ := element
  cases initializer <;> simp only [toTargets, itemTarget]

/-- The last item of a plain pattern has no default if it is the rest. -/
theorem BindingElement.initializer_of_endsPlainly {binding : Binding} {initializer : Option Expr}
    (plain : BindingElement.endsPlainly true ⟨binding, initializer⟩) : initializer = none := by
  cases binding <;> simp_all [endsPlainly]

/-- An item is written as it is in the pattern if the target has a place for its default. -/
theorem BindingElement.guarded_itemTarget {isRest : Bool} {binding : Binding}
    {initializer : Option Expr} (plain : isRest → initializer = none)
    (same : (binding.toTarget plainTarget).tokens = binding.tokens) :
    let item := BindingElement.itemTarget isRest ⟨binding, initializer⟩
    item.guarded itemPrecedence item.tokens =
      (if isRest then [.punct "..."] else []) ++ BindingElement.tokens ⟨binding, initializer⟩ := by
  have alone := binding.guarded_toTarget
  rw [same] at alone
  cases isRest with
  | true =>
    obtain rfl := plain rfl
    have spread (loc : Loc) (e : Expr) : (Expr.spread loc e).guarded itemPrecedence
        (Expr.spread loc e).tokens = .punct "..." :: e.guarded itemPrecedence e.tokens := rfl
    have element : BindingElement.tokens ⟨binding, none⟩ = binding.tokens := List.append_nil _
    simp only [itemTarget, if_true, spread, same, alone, element, List.singleton_append]
  | false =>
    cases initializer with
    | none =>
      have element : BindingElement.tokens ⟨binding, none⟩ = binding.tokens := List.append_nil _
      simpa [itemTarget, same, element] using alone
    | some value =>
      have assigned (e : Expr) : (e.assign value).guarded itemPrecedence (e.assign value).tokens =
          (e.assign value).tokens := rfl
      have element : BindingElement.tokens ⟨binding, some value⟩ =
          binding.tokens ++ Expr.initializerTokens (some value) := by rw [BindingElement.tokens]
      -- An assignment is no weaker than an item has to be.
      have written := Expr.tokens_assign binding.precedence_toTarget value
      rw [same] at written
      have closed := assigned (binding.toTarget plainTarget)
      rw [written] at closed
      simp [itemTarget, written, closed, element]

/-- Whether a hole stands at the end is the same of a pattern and of the target made of it. -/
theorem BindingElement.endsInHole_toTargets (hasSpread : Bool) : (items : List BindingElement) →
    BindingElement.arePlain hasSpread items →
      Expr.endsInHole (BindingElement.toTargets plainTarget hasSpread items) =
        BindingElement.endsInHole items
  | [], _ => rfl
  | [⟨binding, initializer⟩], plain => by
    -- Only the last item counts, which is plain.
    cases binding with
    | missing loc =>
      have noDefault : hasSpread = false ∧ initializer = none := by
        simpa [arePlain, endsPlainly, Binding.isPlain] using plain
      obtain ⟨rfl, rfl⟩ := noDefault
      rfl
    | array | identifier | object => cases hasSpread <;> cases initializer <;> rfl
  | ⟨binding, initializer⟩ :: next :: rest, plain => by
    simp only [arePlain, Bool.and_eq_true] at plain
    have ends := endsInHole_toTargets hasSpread (next :: rest) plain.2
    rw [toTargets_cons] at ends ⊢
    rw [toTargets_cons]
    simpa only [Expr.endsInHole, endsInHole, List.getLast?_cons_cons] using ends

mutual

theorem Binding.tokens_toTarget : (b : Binding) → b.isPlain →
    (b.toTarget plainTarget).tokens = b.tokens
  | .array _ items hasSpread, plain => by
    have inside := BindingElement.tokensList_toTargets hasSpread items plain
    have holes := BindingElement.endsInHole_toTargets hasSpread items plain
    rw [Binding.toTarget, Expr.tokens, Binding.tokens, inside, holes]
  | .identifier .., _ => rfl
  | .missing _, _ => rfl
  | .object _ properties, plain => by
    rw [Binding.toTarget, Expr.tokens, Binding.tokens,
      PropertyPattern.tokensList_toProperties properties plain]

theorem BindingElement.tokensList_toTargets (hasSpread : Bool) : (items : List BindingElement) →
    BindingElement.arePlain hasSpread items →
      Expr.tokensList (BindingElement.toTargets plainTarget hasSpread items) =
        BindingElement.patternTokens hasSpread items
  | [], _ => rfl
  | ⟨binding, initializer⟩ :: rest, plain => by
    simp only [BindingElement.arePlain, Bool.and_eq_true] at plain
    obtain ⟨⟨last, inside⟩, others⟩ := plain
    have noDefault : hasSpread && rest.isEmpty → initializer = none := by
      intro isRest
      obtain ⟨rfl, alone⟩ := Bool.and_eq_true_iff.mp isRest
      simp only [alone, Bool.not_true, Bool.false_or] at last
      exact BindingElement.initializer_of_endsPlainly last
    have item :=
      BindingElement.guarded_itemTarget noDefault (Binding.tokens_toTarget binding inside)
    rw [BindingElement.toTargets_cons, Expr.tokensList, BindingElement.patternTokens, item,
      BindingElement.tokensList_toTargets hasSpread rest others]

theorem PropertyPattern.tokensList_toProperties : (properties : List PropertyPattern) →
    PropertyPattern.arePlain properties →
      Property.tokensList (PropertyPattern.toProperties plainTarget properties) =
        PropertyPattern.tokensList properties
  | [], _ => rfl
  | ⟨key, isComputed, isSpread, ⟨binding, initializer⟩⟩ :: rest, plain => by
    simp only [PropertyPattern.arePlain, Bool.and_eq_true] at plain
    have same := Binding.tokens_toTarget binding plain.1
    have alone := binding.guarded_toTarget
    rw [same] at alone
    rw [PropertyPattern.toProperties, Property.tokensList, PropertyPattern.tokensList,
      PropertyPattern.tokensList_toProperties rest plain.2]
    cases isSpread with
    | true => simp [Property.tokens, Expr.spreadTokens, same, alone]
    | false => simp [Property.tokens, Expr.valueTokens, same, alone]

end

/--
A plain pattern and the assignment target made of it print alike, under every symbol table: the
same text, or the same complaint about a symbol without a name.
-/
theorem Binding.print_toTarget {b : Binding} (plain : b.isPlain) (table : SymbolTable) :
    (b.toTarget plainTarget).print table = printTokens table b.tokens := by
  rw [Expr.print, b.tokens_toTarget plain]

/-- The pattern `[a=0,,{k:[b,...a],...b},...a]` and its target. -/
theorem Binding.print_toTarget_nested :
    let table : SymbolTable := ⟨#[⟨"a", .hoisted⟩, ⟨"b", .hoisted⟩]⟩
    let a := Binding.identifier default ⟨0⟩
    let b := Binding.identifier default ⟨1⟩
    let pattern := Binding.array default
      [⟨a, some (.number default .zero)⟩, ⟨.missing default, none⟩,
        ⟨.object default
          [⟨.string default (Text.units "k"), false, false,
              ⟨.array default [⟨b, none⟩, ⟨a, none⟩] true, none⟩⟩,
            ⟨.missing default, false, true, ⟨b, none⟩⟩], none⟩,
        ⟨a, none⟩] true
    pattern.isPlain ∧
      (pattern.toTarget plainTarget).print table = printTokens table pattern.tokens ∧
      printTokens table pattern.tokens = .ok "[a=0,,\x7bk:[b,...a],...b\x7d,...a]" :=
  ⟨rfl, Binding.print_toTarget rfl _, by decide +kernel⟩

-- A hole with a default is no plain end: its target is an assignment, behind which no comma is due.
example :
    let pattern := Binding.array default [⟨.missing default, some (.undefined default)⟩] false
    pattern.isPlain = false ∧
      (pattern.toTarget plainTarget).print .empty = .ok "[=void 0]" ∧
      printTokens .empty pattern.tokens = .ok "[=void 0,]" := by
  decide +kernel

end EcmaPrune
