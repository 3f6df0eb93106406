import EcmaPrune.Minify.Walk
import EcmaPrune.Proofs.Print.ReadBack

/-!
Wrappers of inlined constants and what is printed with and without them.

Printing writes the constant and not the wrapper. It asks some questions about an operand before it
writes it, though, and not all of them look through a wrapper. Where none of those is answered in
another way without the wrappers, the text is the same without them.
-/

namespace EcmaPrune

/-- What stands in a wrapper of an inlined constant, or else the expression itself. -/
def Expr.withoutWrapper : Expr → Expr
  | inlinedEnum _ value _ => value
  | e => e

/-- The walk that puts every inlined constant in the place of its wrapper. -/
def Walk.uninlining : Walk :=
  { Walk.idle with leave := fun e => .unchanged e.withoutWrapper }

/-- An expression in which every inlined constant stands in the place of its wrapper. -/
def Expr.uninlined (e : Expr) : Expr := (e.walk .uninlining).value

namespace Expr

/-- Whether wrappers in an expression change the answer to a question about it. -/
def hides {α : Type} [DecidableEq α] (e : Expr) (asked : Expr → α) : Bool :=
  asked e != asked e.uninlined

/-- The name that a string stands for as a key, if it is written without quotes there. -/
def plainName? : Expr → Option String
  | string _ value => if isPlainName (Text.lossy value) then some (Text.lossy value) else none
  | _ => none

/-- Whether an expression is a function with a name of its own. -/
def isFunction : Expr → Bool
  | function .. => true
  | _ => false

/-- Whether what is asked of the operands of an expression is the same without wrappers. -/
def isTransparent : Expr → Bool
  | array _ items => endsInHole (items.map uninlined) == endsInHole items
  | binary _ op left right => !left.hides (·.leftParens op) && !right.hides (·.rightParens op)
  | call _ target _ link _ _ | dot _ target _ link _ | index _ target _ link _ =>
    !target.hides (·.targetParens link)
  | new _ target _ _ => !target.hides newTargetParens
  | _ => true

end Expr

/-- Whether what is asked of the key and the value of a member is the same without wrappers. -/
def Property.isTransparent (p : Property) : Bool :=
  p.kind == .spread ||
    (p.isComputed || !p.key.hides Expr.plainName?) &&
      (p.kind == .normal || !p.value.any (·.hides Expr.isFunction))

/-- Whether what is asked of the keys of a pattern is the same without wrappers. -/
def Binding.isTransparent : Binding → Bool
  | object _ properties =>
    properties.all fun p => p.isSpread || p.isComputed || !p.key.hides Expr.plainName?
  | _ => true

/-- Whether what is asked at one step of a walk is the same without wrappers. -/
def Visit.isTransparent : Visit → Bool
  | enter e => e.isTransparent
  | property p => p.isTransparent
  | binding b => b.isTransparent
  | _ => true

namespace Expr

theorem walkList_uninlining (items : List Expr) :
    (Expr.walkList .uninlining items).value = items.map uninlined := by
  induction items with
  | nil => rfl
  | cons item rest ih => exact congrArg (item.uninlined :: ·) ih

theorem walkOption_uninlining (e : Option Expr) :
    (Expr.walkOption .uninlining e).value = e.map uninlined := by
  cases e <;> rfl

theorem uninlined_array (loc : Loc) (items : List Expr) :
    (array loc items).uninlined = array loc (items.map uninlined) := by
  rw [← walkList_uninlining]
  rfl

theorem uninlined_call (loc : Loc) (target : Expr) (args : List Expr) (link : ChainLink)
    (isPure : Bool) (kind : CallKind) :
    (call loc target args link isPure kind).uninlined =
      call loc target.uninlined (args.map uninlined) link isPure kind := by
  rw [← walkList_uninlining]
  rfl

theorem uninlined_new (loc : Loc) (target : Expr) (args : List Expr) (isPure : Bool) :
    (new loc target args isPure).uninlined =
      new loc target.uninlined (args.map uninlined) isPure := by
  rw [← walkList_uninlining]
  rfl

theorem uninlined_template (loc : Loc) (tag : Option Expr) (head : List UInt16)
    (parts : List TemplatePart) :
    (template loc tag head parts).uninlined =
      template loc (tag.map uninlined) head (TemplatePart.walkList .uninlining parts).value := by
  rw [← walkOption_uninlining]
  rfl

/-- Strength is asked for through wrappers. -/
theorem precedence_uninlined : (e : Expr) → e.uninlined.precedence = e.precedence
  | inlinedEnum _ value _ => precedence_uninlined value
  | template _ tag _ _ => by cases tag <;> rfl
  | array .. | arrow .. | bigInt .. | binary .. | boolean .. | call .. | classExpr .. | dot ..
  | function .. | identifier .. | conditional .. | importIdentifier .. | importMeta _ | index ..
  | missing _ | new .. | null _ | number .. | object .. | regExp .. | spread .. | string ..
  | this _ | unary .. | undefined _ => rfl

/-- What comes first in the text of an expression is looked for through wrappers. -/
theorem leftmost_uninlined : (e : Expr) → e.uninlined.leftmost = e.leftmost.uninlined
  | binary _ _ left _ => leftmost_uninlined left
  | conditional _ test _ _ => leftmost_uninlined test
  | call _ target _ _ _ _ => leftmost_uninlined target
  | dot _ target _ _ _ => leftmost_uninlined target
  | index _ target _ _ _ => leftmost_uninlined target
  | template _ (some tag) _ _ => leftmost_uninlined tag
  | inlinedEnum _ value _ => leftmost_uninlined value
  | unary loc op value fromIdentifier => by
    -- An update behind its operand begins with the operand.
    have split (value : Expr) : (unary loc op value fromIdentifier).leftmost =
        if op.isPrefixed then unary loc op value fromIdentifier else value.leftmost := rfl
    have inside : (unary loc op value fromIdentifier).uninlined =
        unary loc op value.uninlined fromIdentifier := rfl
    rw [inside, split, split, leftmost_uninlined value]
    cases op.isPrefixed <;> rfl
  | template _ none _ _ | array .. | arrow .. | bigInt .. | boolean .. | classExpr ..
  | function .. | identifier .. | importIdentifier .. | importMeta _ | missing _ | new .. | null _
  | number .. | object .. | regExp .. | spread .. | string .. | this _ | undefined _ => rfl

/-- What comes first in the text of an expression is no wrapper. -/
theorem leftmost_ne_inlinedEnum (e : Expr) (loc : Loc) (value : Expr) (comment : String) :
    e.leftmost ≠ inlinedEnum loc value comment := by
  fun_induction leftmost e <;> simp_all

theorem stmtNeedsParens_uninlined (e : Expr) :
    e.uninlined.stmtNeedsParens = e.stmtNeedsParens := by
  unfold stmtNeedsParens
  rw [leftmost_uninlined]
  cases first : e.leftmost with
  | inlinedEnum => exact (leftmost_ne_inlinedEnum e _ _ _ first).elim
  | _ => rfl

theorem arrowBodyNeedsParens_uninlined (e : Expr) :
    e.uninlined.arrowBodyNeedsParens = e.arrowBodyNeedsParens := by
  unfold arrowBodyNeedsParens
  rw [leftmost_uninlined]
  cases first : e.leftmost with
  | inlinedEnum => exact (leftmost_ne_inlinedEnum e _ _ _ first).elim
  | _ => rfl

/-- A key is written as a name, or else as any expression that stands alone. -/
theorem keyTokens_eq (key : Expr) :
    key.keyTokens false key.tokens =
      match key.plainName? with
      | some name => [.identifier name]
      | none => key.guarded primaryPrecedence key.tokens := by
  cases key with
  | string loc value =>
    cases plain : isPlainName (Text.lossy value) <;>
      simp [keyTokens, plainName?, keyToken, plain, guarded, precedence, tokens]
  | _ => rfl

section

variable {e : Expr} (same : e.uninlined.tokens = e.tokens)
include same

theorem guarded_uninlined (least : Nat) :
    e.uninlined.guarded least e.uninlined.tokens = e.guarded least e.tokens := by
  rw [guarded, guarded, precedence_uninlined, same]

/-- What is asked of an operand decides whether it stands in parentheses. -/
theorem enclosed_uninlined {asked : Expr → Bool} (shown : e.hides asked = false) :
    e.uninlined.enclosed (asked e.uninlined) = e.enclosed (asked e) := by
  have answer : asked e = asked e.uninlined := by simpa [hides] using shown
  rw [enclosed, enclosed, same, answer]

theorem keyTokens_uninlined {isComputed : Bool} (shown : isComputed || !e.hides plainName?) :
    e.uninlined.keyTokens isComputed e.uninlined.tokens = e.keyTokens isComputed e.tokens := by
  cases isComputed with
  | true =>
    have computed (key : Expr) : key.keyTokens true key.tokens =
        bracketed (key.guarded itemPrecedence key.tokens) := rfl
    rw [computed, computed, guarded_uninlined same]
  | false =>
    have answer : e.plainName? = e.uninlined.plainName? := by simpa [hides] using shown
    rw [keyTokens_eq, keyTokens_eq, guarded_uninlined same primaryPrecedence, answer]

end

section

variable {e : Option Expr} (same : ∀ value ∈ e, value.uninlined.tokens = value.tokens)
include same

theorem initializerTokens_uninlined :
    initializerTokens (e.map uninlined) = initializerTokens e := by
  cases e with
  | none => rfl
  | some value => exact congrArg (Token.punct "=" :: ·) (guarded_uninlined (same value rfl) _)

theorem valueTokens_uninlined : valueTokens (e.map uninlined) = valueTokens e := by
  cases e with
  | none => rfl
  | some value => exact congrArg (Token.punct ":" :: ·) (guarded_uninlined (same value rfl) _)

theorem spreadTokens_uninlined : spreadTokens (e.map uninlined) = spreadTokens e := by
  cases e with
  | none => rfl
  | some value => exact guarded_uninlined (same value rfl) _

theorem superclassTokens_uninlined :
    superclassTokens (e.map uninlined) = superclassTokens e := by
  cases e with
  | none => rfl
  | some value =>
    exact congrArg (Token.keyword "extends" :: ·) (guarded_uninlined (same value rfl) _)

theorem tagTokens_uninlined : tagTokens (e.map uninlined) = tagTokens e := by
  cases e with
  | none => rfl
  | some value => exact guarded_uninlined (same value rfl) _

theorem tokensOption_uninlined : tokensOption (e.map uninlined) = tokensOption e := by
  cases e with
  | none => rfl
  | some value => exact same value rfl

end

end Expr

/-- A member that holds no function is printed with a key and a value, whatever its kind is. -/
theorem Property.tokens_of_noFunction {p : Property} (member : p.kind ≠ .spread)
    (plain : p.kind = .normal ∨ ∀ e ∈ p.value, e.isFunction = false) :
    p.tokens = (if p.isStatic then [.keyword "static"] else []) ++
      (p.key.keyTokens p.isComputed p.key.tokens ++ (Expr.valueTokens p.value ++
        Expr.initializerTokens p.initializer)) := by
  rcases p with ⟨kind, isComputed, isStatic, key, value, initializer⟩
  cases kind with
  | spread => exact absurd rfl member
  | normal => simp [Property.tokens]
  | getter | setter | method =>
    cases value with
    | none => simp [Property.tokens]
    | some e =>
      have notFunction : e.isFunction = false := by simpa using plain
      cases e with
      | function => cases notFunction
      | _ => simp [Property.tokens]

/-- What a function has behind its name is written the same if the whole function is. -/
theorem Func.restTokens_uninlined {func : Func}
    (same : (func.walk .uninlining).value.tokens = func.tokens) :
    (func.walk .uninlining).value.restTokens = func.restTokens := by
  rcases func with ⟨name, params, body, isAsync, isGenerator⟩
  have walked : (Func.walk .uninlining ⟨name, params, body, isAsync, isGenerator⟩).value =
      ⟨name, (BindingElement.walkList .uninlining params).value,
        (Stmt.walkList .uninlining body).value, isAsync, isGenerator⟩ := rfl
  -- What is before the parameters is the same, and so is what is left without it.
  rw [walked, Func.tokens, Func.tokens, List.append_assoc _ (parenthesized _),
    List.append_assoc _ (parenthesized _)] at same
  exact List.append_cancel_left same

/-- A member is written the same without wrappers if its parts are. -/
theorem Property.tokens_uninlined_of_parts {kind : PropertyKind} {isComputed isStatic : Bool}
    {key : Expr} {value initializer : Option Expr}
    (shown : Property.isTransparent ⟨kind, isComputed, isStatic, key, value, initializer⟩)
    (sameKey : key.uninlined.tokens = key.tokens)
    (onValue : ∀ e ∈ value, e.uninlined.tokens = e.tokens)
    (onInitializer : ∀ e ∈ initializer, e.uninlined.tokens = e.tokens) :
    (Property.walk .uninlining ⟨kind, isComputed, isStatic, key, value, initializer⟩).value.tokens =
      Property.tokens ⟨kind, isComputed, isStatic, key, value, initializer⟩ := by
  have inside : (Property.walk .uninlining
      ⟨kind, isComputed, isStatic, key, value, initializer⟩).value =
        ⟨kind, isComputed, isStatic, key.uninlined, value.map Expr.uninlined,
          initializer.map Expr.uninlined⟩ := by
    rw [← Expr.walkOption_uninlining, ← Expr.walkOption_uninlining]
    rfl
  have sameValue := Expr.valueTokens_uninlined onValue
  have sameInitializer := Expr.initializerTokens_uninlined onInitializer
  rw [inside]
  cases kind with
  | spread => rw [Property.tokens, Property.tokens, Expr.spreadTokens_uninlined onValue]
  | normal =>
    rw [Property.tokens, Property.tokens, sameValue, sameInitializer,
      Expr.keyTokens_uninlined sameKey (by simpa [Property.isTransparent] using shown)]
  | getter | setter | method =>
    obtain ⟨keyShown, valueShown⟩ : (isComputed || !key.hides Expr.plainName?) ∧
        ∀ e ∈ value, e.hides Expr.isFunction = false := by
      simpa [Property.isTransparent, Option.any_eq_false] using shown
    -- A function as the value is written in the short form, and only then.
    by_cases holdsFunction : ∃ e ∈ value, e.isFunction
    · obtain ⟨e, rfl, isFunction⟩ := holdsFunction
      cases e with
      | function loc func =>
        have walked : (Expr.function loc func).uninlined =
            .function loc (func.walk .uninlining).value := rfl
        have flags : (func.walk .uninlining).value.isAsync = func.isAsync ∧
            (func.walk .uninlining).value.isGenerator = func.isGenerator := by
          cases func
          exact ⟨rfl, rfl⟩
        simp only [Option.map_some, walked, Property.tokens, PropertyKind.methodTokens, flags,
          Expr.keyTokens_uninlined sameKey keyShown, Func.restTokens_uninlined (onValue _ rfl)]
      | _ => cases isFunction
    · have noFunction : ∀ e ∈ value, e.isFunction = false := by simpa using holdsFunction
      have noneBehind : ∀ e ∈ value.map Expr.uninlined, e.isFunction = false := by
        intro e member
        obtain ⟨e, held, rfl⟩ := Option.map_eq_some_iff.mp member
        have answer : e.isFunction = e.uninlined.isFunction := by
          simpa [Expr.hides] using valueShown e held
        exact answer ▸ noFunction e held
      rw [Property.tokens_of_noFunction (by simp) (.inr noneBehind),
        Property.tokens_of_noFunction (by simp) (.inr noFunction), sameValue, sameInitializer,
        Expr.keyTokens_uninlined sameKey keyShown]

theorem Stmt.takesElse_uninlined (s : Stmt) :
    (s.walk .uninlining).value.takesElse = s.takesElse := by
  cases s with
  | ifElse loc test yes no => cases no <;> rfl
  | _ => rfl

theorem Stmt.conciseTokens?_of_several (s next : Stmt) (rest : List Stmt) :
    Stmt.conciseTokens? (s :: next :: rest) = none := by
  cases s with
  | returnValue loc value => cases value <;> rfl
  | _ => rfl

/-- Whether a pattern ends in a hole has nothing to do with expressions. -/
theorem BindingElement.endsInHole_uninlined (items : List BindingElement) :
    BindingElement.endsInHole (BindingElement.walkList .uninlining items).value =
      BindingElement.endsInHole items := by
  have each : (BindingElement.walkList .uninlining items).value =
      items.map fun item => (item.walk .uninlining).value := by
    induction items with
    | nil => rfl
    | cons item rest ih => exact congrArg ((item.walk .uninlining).value :: ·) ih
  -- Only the last element is asked for, and the walk keeps the kind of its binding.
  unfold BindingElement.endsInHole
  rw [each, List.getLast?_map]
  cases items.getLast? with
  | none => rfl
  | some last =>
    rcases last with ⟨binding, initializer⟩
    cases binding <;> rfl

section

-- The equations of the walk are worked out once, for all the proofs below.
attribute [-simp] List.all_eq_true

attribute [local simp] Expr.visits Expr.visitsList Expr.visitsOption TemplatePart.visitsList
  Property.visits Property.visitsList Func.visits ClassMember.visits ClassMember.visitsList
  Class.visits Binding.visits Binding.visitsOption BindingElement.visits BindingElement.visitsList
  PropertyPattern.visitsList Stmt.visits Stmt.visitsList Stmt.visitsOption Stmt.visitsListOption
  Catch.visitsOption Visit.isTransparent

mutual

/-- An expression is written the same without its wrappers if printing does not ask for them. -/
theorem Expr.tokens_uninlined :
    (e : Expr) → e.visits.all Visit.isTransparent → e.uninlined.tokens = e.tokens
  | .array loc items, clear => by
    obtain ⟨hole, inside⟩ : Expr.endsInHole (items.map Expr.uninlined) = Expr.endsInHole items ∧
        (Expr.visitsList items).all Visit.isTransparent := by
      simpa [Expr.isTransparent] using clear
    rw [Expr.uninlined_array, Expr.tokens, Expr.tokens, hole,
      Expr.tokensList_uninlined items inside]
  | .arrow loc params body isAsync prefersExpr, clear => by
    obtain ⟨onParams, onBody⟩ : (BindingElement.visitsList params).all Visit.isTransparent ∧
        (Stmt.visitsList body).all Visit.isTransparent := by
      simpa [Expr.isTransparent] using clear
    have inside : (Expr.arrow loc params body isAsync prefersExpr).uninlined =
        .arrow loc (BindingElement.walkList .uninlining params).value
          (Stmt.walkList .uninlining body).value isAsync prefersExpr := rfl
    rw [inside, Expr.tokens, Expr.tokens, BindingElement.tokensList_uninlined params onParams,
      Stmt.tokensList_uninlined body onBody, Stmt.conciseTokens?_uninlined body onBody]
  | .binary loc op left right, clear => by
    obtain ⟨⟨leftShown, rightShown⟩, onLeft, onRight⟩ :
        (left.hides (·.leftParens op) = false ∧ right.hides (·.rightParens op) = false) ∧
          left.visits.all Visit.isTransparent ∧ right.visits.all Visit.isTransparent := by
      simpa [Expr.isTransparent] using clear
    have inside : (Expr.binary loc op left right).uninlined =
        .binary loc op left.uninlined right.uninlined := rfl
    rw [inside, Expr.tokens_binary, Expr.tokens_binary,
      Expr.enclosed_uninlined (Expr.tokens_uninlined left onLeft) leftShown,
      Expr.enclosed_uninlined (Expr.tokens_uninlined right onRight) rightShown]
  | .call loc target args link isPure kind, clear => by
    obtain ⟨shown, onTarget, inside⟩ : target.hides (·.targetParens link) = false ∧
        target.visits.all Visit.isTransparent ∧
          (Expr.visitsList args).all Visit.isTransparent := by
      simpa [Expr.isTransparent] using clear
    rw [Expr.uninlined_call, Expr.tokens_call, Expr.tokens_call,
      Expr.enclosed_uninlined (Expr.tokens_uninlined target onTarget) shown,
      Expr.tokensList_uninlined args inside]
  | .classExpr loc definition, clear => by
    have inside : definition.visits.all Visit.isTransparent := by
      simpa [Expr.isTransparent] using clear
    exact Class.tokens_uninlined definition inside
  | .dot loc target name link isRemovable, clear => by
    obtain ⟨shown, onTarget⟩ : target.hides (·.targetParens link) = false ∧
        target.visits.all Visit.isTransparent := by
      simpa [Expr.isTransparent] using clear
    have inside : (Expr.dot loc target name link isRemovable).uninlined =
        .dot loc target.uninlined name link isRemovable := rfl
    rw [inside, Expr.tokens_dot, Expr.tokens_dot,
      Expr.enclosed_uninlined (Expr.tokens_uninlined target onTarget) shown]
  | .function loc func, clear => by
    have inside : func.visits.all Visit.isTransparent := by
      simpa [Expr.isTransparent] using clear
    exact Func.tokens_uninlined func inside
  | .conditional loc test yes no, clear => by
    obtain ⟨onTest, onYes, onNo⟩ : test.visits.all Visit.isTransparent ∧
        yes.visits.all Visit.isTransparent ∧ no.visits.all Visit.isTransparent := by
      simpa [Expr.isTransparent] using clear
    have inside : (Expr.conditional loc test yes no).uninlined =
        .conditional loc test.uninlined yes.uninlined no.uninlined := rfl
    rw [inside, Expr.tokens, Expr.tokens,
      Expr.guarded_uninlined (Expr.tokens_uninlined test onTest),
      Expr.guarded_uninlined (Expr.tokens_uninlined yes onYes),
      Expr.guarded_uninlined (Expr.tokens_uninlined no onNo)]
  | .index loc target key link isRemovable, clear => by
    obtain ⟨shown, onTarget, onKey⟩ : target.hides (·.targetParens link) = false ∧
        target.visits.all Visit.isTransparent ∧ key.visits.all Visit.isTransparent := by
      simpa [Expr.isTransparent] using clear
    have inside : (Expr.index loc target key link isRemovable).uninlined =
        .index loc target.uninlined key.uninlined link isRemovable := rfl
    rw [inside, Expr.tokens_index, Expr.tokens_index,
      Expr.enclosed_uninlined (Expr.tokens_uninlined target onTarget) shown,
      Expr.tokens_uninlined key onKey]
  | .inlinedEnum loc value comment, clear => by
    have inside : value.visits.all Visit.isTransparent := by
      simpa [Expr.isTransparent] using clear
    exact Expr.tokens_uninlined value inside
  | .new loc target args isPure, clear => by
    obtain ⟨shown, onTarget, inside⟩ : target.hides Expr.newTargetParens = false ∧
        target.visits.all Visit.isTransparent ∧
          (Expr.visitsList args).all Visit.isTransparent := by
      simpa [Expr.isTransparent] using clear
    rw [Expr.uninlined_new, Expr.tokens_new, Expr.tokens_new,
      Expr.enclosed_uninlined (Expr.tokens_uninlined target onTarget) shown,
      Expr.tokensList_uninlined args inside]
  | .object loc properties, clear => by
    have inside : (Property.visitsList properties).all Visit.isTransparent := by
      simpa [Expr.isTransparent] using clear
    exact congrArg (fun tokens => braced (commaSeparated tokens))
      (Property.tokensList_uninlined properties inside)
  | .spread loc value, clear => by
    have inside : value.visits.all Visit.isTransparent := by
      simpa [Expr.isTransparent] using clear
    exact congrArg (Token.punct "..." :: ·)
      (Expr.guarded_uninlined (Expr.tokens_uninlined value inside) itemPrecedence)
  | .template loc tag head parts, clear => by
    obtain ⟨onTag, onParts⟩ : (Expr.visitsOption tag).all Visit.isTransparent ∧
        (TemplatePart.visitsList parts).all Visit.isTransparent := by
      simpa [Expr.isTransparent] using clear
    rw [Expr.uninlined_template, Expr.tokens, Expr.tokens,
      Expr.tagTokens_uninlined (Expr.optionTokens_uninlined tag onTag),
      TemplatePart.tokensList_uninlined _ parts onParts]
  | .unary loc op value fromIdentifier, clear => by
    have onValue : value.visits.all Visit.isTransparent := by
      simpa [Expr.isTransparent] using clear
    have inside : (Expr.unary loc op value fromIdentifier).uninlined =
        .unary loc op value.uninlined fromIdentifier := rfl
    rw [inside, Expr.tokens, Expr.tokens,
      Expr.guarded_uninlined (Expr.tokens_uninlined value onValue)]
  | .bigInt .., _ | .boolean .., _ | .identifier .., _ | .importIdentifier .., _ | .importMeta .., _
  | .missing .., _ | .null .., _ | .number .., _ | .regExp .., _ | .string .., _ | .this .., _
  | .undefined .., _ => rfl

theorem Expr.tokensList_uninlined :
    (items : List Expr) → (Expr.visitsList items).all Visit.isTransparent →
      Expr.tokensList (items.map Expr.uninlined) = Expr.tokensList items
  | [], _ => rfl
  | e :: rest, clear => by
    obtain ⟨first, others⟩ : e.visits.all Visit.isTransparent ∧
        (Expr.visitsList rest).all Visit.isTransparent := by
      simpa using clear
    rw [List.map_cons, Expr.tokensList, Expr.tokensList,
      Expr.guarded_uninlined (Expr.tokens_uninlined e first), Expr.tokensList_uninlined rest others]

theorem Expr.optionTokens_uninlined :
    (e : Option Expr) → (Expr.visitsOption e).all Visit.isTransparent →
      ∀ value ∈ e, value.uninlined.tokens = value.tokens
  | some e, clear, _, rfl => Expr.tokens_uninlined e clear

theorem TemplatePart.tokensList_uninlined (before : String) :
    (parts : List TemplatePart) → (TemplatePart.visitsList parts).all Visit.isTransparent →
      TemplatePart.tokensList before (TemplatePart.walkList .uninlining parts).value =
        TemplatePart.tokensList before parts
  | [], _ => rfl
  | ⟨value, tail⟩ :: rest, clear => by
    obtain ⟨first, others⟩ : value.visits.all Visit.isTransparent ∧
        (TemplatePart.visitsList rest).all Visit.isTransparent := by
      simpa using clear
    have inside : (TemplatePart.walkList .uninlining (⟨value, tail⟩ :: rest)).value =
        ⟨value.uninlined, tail⟩ :: (TemplatePart.walkList .uninlining rest).value := rfl
    rw [inside, TemplatePart.tokensList, TemplatePart.tokensList, Expr.tokens_uninlined value first,
      TemplatePart.tokensList_uninlined _ rest others]

theorem Property.tokens_uninlined :
    (p : Property) → p.visits.all Visit.isTransparent →
      (p.walk .uninlining).value.tokens = p.tokens
  | ⟨kind, isComputed, isStatic, key, value, initializer⟩, clear => by
    obtain ⟨shown, onKey, onValue, onInitializer⟩ :
        Property.isTransparent ⟨kind, isComputed, isStatic, key, value, initializer⟩ ∧
          key.visits.all Visit.isTransparent ∧ (Expr.visitsOption value).all Visit.isTransparent ∧
            (Expr.visitsOption initializer).all Visit.isTransparent := by
      simpa using clear
    exact Property.tokens_uninlined_of_parts shown (Expr.tokens_uninlined key onKey)
      (Expr.optionTokens_uninlined value onValue)
      (Expr.optionTokens_uninlined initializer onInitializer)

theorem Property.tokensList_uninlined :
    (properties : List Property) → (Property.visitsList properties).all Visit.isTransparent →
      Property.tokensList (Property.walkList .uninlining properties).value =
        Property.tokensList properties
  | [], _ => rfl
  | p :: rest, clear => by
    obtain ⟨first, others⟩ : p.visits.all Visit.isTransparent ∧
        (Property.visitsList rest).all Visit.isTransparent := by
      simpa [-Property.visits] using clear
    exact congrArg₂ (· :: ·) (Property.tokens_uninlined p first)
      (Property.tokensList_uninlined rest others)

theorem Func.tokens_uninlined :
    (func : Func) → func.visits.all Visit.isTransparent →
      (func.walk .uninlining).value.tokens = func.tokens
  | ⟨name, params, body, isAsync, isGenerator⟩, clear => by
    obtain ⟨onParams, onBody⟩ : (BindingElement.visitsList params).all Visit.isTransparent ∧
        (Stmt.visitsList body).all Visit.isTransparent := by
      simpa using clear
    have inside : (Func.walk .uninlining ⟨name, params, body, isAsync, isGenerator⟩).value =
        ⟨name, (BindingElement.walkList .uninlining params).value,
          (Stmt.walkList .uninlining body).value, isAsync, isGenerator⟩ := rfl
    rw [inside, Func.tokens, Func.tokens,
      BindingElement.tokensList_uninlined params onParams, Stmt.tokensList_uninlined body onBody]

theorem ClassMember.tokensList_uninlined :
    (members : List ClassMember) → (ClassMember.visitsList members).all Visit.isTransparent →
      ClassMember.tokensList (ClassMember.walkList .uninlining members).value =
        ClassMember.tokensList members
  | [], _ => rfl
  | .property p :: rest, clear => by
    obtain ⟨first, others⟩ : p.visits.all Visit.isTransparent ∧
        (ClassMember.visitsList rest).all Visit.isTransparent := by
      simpa [-Property.visits] using clear
    have inside : (ClassMember.walkList .uninlining (.property p :: rest)).value =
        .property (p.walk .uninlining).value ::
          (ClassMember.walkList .uninlining rest).value := rfl
    have kind : (p.walk .uninlining).value.kind = p.kind := by cases p; rfl
    rw [inside, ClassMember.tokensList, ClassMember.tokensList, Property.tokens_uninlined p first,
      kind, ClassMember.tokensList_uninlined rest others]
  | .staticBlock body :: rest, clear => by
    obtain ⟨onBody, others⟩ : (Stmt.visitsList body).all Visit.isTransparent ∧
        (ClassMember.visitsList rest).all Visit.isTransparent := by
      simpa using clear
    have inside : (ClassMember.walkList .uninlining (.staticBlock body :: rest)).value =
        .staticBlock (Stmt.walkList .uninlining body).value ::
          (ClassMember.walkList .uninlining rest).value := rfl
    rw [inside, ClassMember.tokensList, ClassMember.tokensList,
      Stmt.tokensList_uninlined body onBody, ClassMember.tokensList_uninlined rest others]

theorem Class.tokens_uninlined :
    (definition : Class) → definition.visits.all Visit.isTransparent →
      (definition.walk .uninlining).value.tokens = definition.tokens
  | ⟨name, superclass, members⟩, clear => by
    obtain ⟨onSuper, onMembers⟩ : (Expr.visitsOption superclass).all Visit.isTransparent ∧
        (ClassMember.visitsList members).all Visit.isTransparent := by
      simpa using clear
    have inside : (Class.walk .uninlining ⟨name, superclass, members⟩).value =
        ⟨name, (Expr.walkOption .uninlining superclass).value,
          (ClassMember.walkList .uninlining members).value⟩ := rfl
    rw [inside, Class.tokens, Class.tokens, Expr.walkOption_uninlining,
      Expr.superclassTokens_uninlined (Expr.optionTokens_uninlined superclass onSuper),
      ClassMember.tokensList_uninlined members onMembers]

theorem Binding.tokens_uninlined :
    (b : Binding) → b.visits.all Visit.isTransparent →
      (b.walk .uninlining).value.tokens = b.tokens
  | .array loc items hasSpread, clear => by
    have inside : (BindingElement.visitsList items).all Visit.isTransparent := by
      simpa [Binding.isTransparent] using clear
    have walked : (Binding.walk .uninlining (.array loc items hasSpread)).value =
        .array loc (BindingElement.walkList .uninlining items).value hasSpread := rfl
    rw [walked, Binding.tokens, Binding.tokens, BindingElement.endsInHole_uninlined,
      BindingElement.patternTokens_uninlined hasSpread items inside]
  | .object loc properties, clear => by
    obtain ⟨shown, inside⟩ :
        (properties.all fun p => p.isSpread || p.isComputed || !p.key.hides Expr.plainName?) ∧
          (PropertyPattern.visitsList properties).all Visit.isTransparent := by
      simpa [Binding.isTransparent] using clear
    exact congrArg (fun tokens => braced (commaSeparated tokens))
      (PropertyPattern.tokensList_uninlined properties shown inside)
  | .identifier .., _ | .missing .., _ => rfl

theorem BindingElement.tokens_uninlined :
    (element : BindingElement) → element.visits.all Visit.isTransparent →
      (element.walk .uninlining).value.tokens = element.tokens
  | ⟨binding, initializer⟩, clear => by
    obtain ⟨onBinding, onInitializer⟩ : binding.visits.all Visit.isTransparent ∧
        (Expr.visitsOption initializer).all Visit.isTransparent := by
      simpa [-Binding.visits] using clear
    have walked : (BindingElement.walk .uninlining ⟨binding, initializer⟩).value =
        ⟨(binding.walk .uninlining).value, (Expr.walkOption .uninlining initializer).value⟩ := rfl
    rw [walked, BindingElement.tokens, BindingElement.tokens,
      Binding.tokens_uninlined binding onBinding, Expr.walkOption_uninlining,
      Expr.initializerTokens_uninlined (Expr.optionTokens_uninlined initializer onInitializer)]

theorem BindingElement.tokensList_uninlined :
    (items : List BindingElement) → (BindingElement.visitsList items).all Visit.isTransparent →
      BindingElement.tokensList (BindingElement.walkList .uninlining items).value =
        BindingElement.tokensList items
  | [], _ => rfl
  | e :: rest, clear => by
    obtain ⟨first, others⟩ : e.visits.all Visit.isTransparent ∧
        (BindingElement.visitsList rest).all Visit.isTransparent := by
      simpa [-BindingElement.visits] using clear
    exact congrArg₂ (· :: ·) (BindingElement.tokens_uninlined e first)
      (BindingElement.tokensList_uninlined rest others)

theorem BindingElement.patternTokens_uninlined (hasSpread : Bool) :
    (items : List BindingElement) → (BindingElement.visitsList items).all Visit.isTransparent →
      BindingElement.patternTokens hasSpread (BindingElement.walkList .uninlining items).value =
        BindingElement.patternTokens hasSpread items
  | [], _ => rfl
  | e :: rest, clear => by
    obtain ⟨first, others⟩ : e.visits.all Visit.isTransparent ∧
        (BindingElement.visitsList rest).all Visit.isTransparent := by
      simpa [-BindingElement.visits] using clear
    have walked : (BindingElement.walkList .uninlining (e :: rest)).value =
        (e.walk .uninlining).value :: (BindingElement.walkList .uninlining rest).value := rfl
    have last : (BindingElement.walkList .uninlining rest).value.isEmpty = rest.isEmpty := by
      cases rest <;> rfl
    rw [walked, BindingElement.patternTokens, BindingElement.patternTokens, last,
      BindingElement.tokens_uninlined e first,
      BindingElement.patternTokens_uninlined hasSpread rest others]

theorem PropertyPattern.tokensList_uninlined :
    (properties : List PropertyPattern) →
      (properties.all fun p => p.isSpread || p.isComputed || !p.key.hides Expr.plainName?) →
      (PropertyPattern.visitsList properties).all Visit.isTransparent →
      PropertyPattern.tokensList (PropertyPattern.walkList .uninlining properties).value =
        PropertyPattern.tokensList properties
  | [], _, _ => rfl
  | ⟨key, isComputed, isSpread, ⟨binding, initializer⟩⟩ :: rest, shown, clear => by
    obtain ⟨keyShown, restShown⟩ : (isSpread || isComputed || !key.hides Expr.plainName?) ∧
        rest.all fun p => p.isSpread || p.isComputed || !p.key.hides Expr.plainName? := by
      simpa using shown
    obtain ⟨onKey, onBinding, onInitializer, others⟩ : key.visits.all Visit.isTransparent ∧
        binding.visits.all Visit.isTransparent ∧
          (Expr.visitsOption initializer).all Visit.isTransparent ∧
            (PropertyPattern.visitsList rest).all Visit.isTransparent := by
      simpa [-Binding.visits] using clear
    have walked : (PropertyPattern.walkList .uninlining
        (⟨key, isComputed, isSpread, ⟨binding, initializer⟩⟩ :: rest)).value =
          ⟨key.uninlined, isComputed, isSpread, ⟨(binding.walk .uninlining).value,
            (Expr.walkOption .uninlining initializer).value⟩⟩ ::
              (PropertyPattern.walkList .uninlining rest).value := rfl
    rw [walked, PropertyPattern.tokensList, PropertyPattern.tokensList,
      Binding.tokens_uninlined binding onBinding, Expr.walkOption_uninlining,
      Expr.initializerTokens_uninlined (Expr.optionTokens_uninlined initializer onInitializer),
      PropertyPattern.tokensList_uninlined rest restShown others]
    cases isSpread with
    | true => rfl
    | false =>
      rw [Bool.false_or] at keyShown
      rw [Expr.keyTokens_uninlined (Expr.tokens_uninlined key onKey) keyShown]

theorem Stmt.tokens_uninlined :
    (s : Stmt) → s.visits.all Visit.isTransparent →
      (s.walk .uninlining).value.tokens = s.tokens
  | .block loc body, clear => by
    have inside : (Stmt.visitsList body).all Visit.isTransparent := by simpa using clear
    exact congrArg braced (Stmt.tokensList_uninlined body inside)
  | .classDecl loc definition isExport, clear => by
    have inside : definition.visits.all Visit.isTransparent := by
      simpa [-Class.visits] using clear
    exact congrArg (exportTokens isExport ++ ·) (Class.tokens_uninlined definition inside)
  | .doWhile loc body test, clear => by
    obtain ⟨onBody, onTest⟩ : body.visits.all Visit.isTransparent ∧
        test.visits.all Visit.isTransparent := by
      simpa using clear
    have walked : (Stmt.walk .uninlining (.doWhile loc body test)).value =
        .doWhile loc (body.walk .uninlining).value test.uninlined := rfl
    rw [walked, Stmt.tokens, Stmt.tokens, Stmt.tokens_uninlined body onBody,
      Expr.tokens_uninlined test onTest]
  | .exportDefaultClass loc ref definition isExport, clear => by
    have inside : definition.visits.all Visit.isTransparent := by
      simpa [-Class.visits] using clear
    exact congrArg (Token.keyword "export" :: Token.keyword "default" :: ·)
      (Class.tokens_uninlined definition inside)
  | .exportDefaultExpr loc ref value, clear => by
    have inside : value.visits.all Visit.isTransparent := by simpa using clear
    have same := Expr.tokens_uninlined value inside
    have walked : (Stmt.walk .uninlining (.exportDefaultExpr loc ref value)).value =
        .exportDefaultExpr loc ref value.uninlined := rfl
    rw [walked, Stmt.tokens, Stmt.tokens, Expr.stmtNeedsParens_uninlined,
      Expr.guarded_uninlined same, same]
  | .exportDefaultFunction loc ref func isExport, clear => by
    have inside : func.visits.all Visit.isTransparent := by
      simpa [-Func.visits] using clear
    exact congrArg (Token.keyword "export" :: Token.keyword "default" :: ·)
      (Func.tokens_uninlined func inside)
  | .expr loc value isGlue, clear => by
    have inside : value.visits.all Visit.isTransparent := by simpa using clear
    have walked : (Stmt.walk .uninlining (.expr loc value isGlue)).value =
        .expr loc value.uninlined isGlue := rfl
    rw [walked, Stmt.tokens, Stmt.tokens, Expr.stmtNeedsParens_uninlined,
      Expr.tokens_uninlined value inside]
  | .function loc func isExport, clear => by
    have inside : func.visits.all Visit.isTransparent := by
      simpa [-Func.visits] using clear
    exact congrArg (exportTokens isExport ++ ·) (Func.tokens_uninlined func inside)
  | .ifElse loc test yes no, clear => by
    obtain ⟨onTest, onYes, onNo⟩ : test.visits.all Visit.isTransparent ∧
        yes.visits.all Visit.isTransparent ∧
          (Stmt.visitsOption no).all Visit.isTransparent := by
      simpa using clear
    have walked : (Stmt.walk .uninlining (.ifElse loc test yes no)).value =
        .ifElse loc test.uninlined (yes.walk .uninlining).value
          (Stmt.walkOption .uninlining no).value := rfl
    have there : (Stmt.walkOption .uninlining no).value.isSome = no.isSome := by
      cases no <;> rfl
    rw [walked, Stmt.tokens, Stmt.tokens, there, Stmt.takesElse_uninlined,
      Stmt.tokens_uninlined yes onYes, Expr.tokens_uninlined test onTest,
      Stmt.elseTokens_uninlined no onNo]
  | .label loc name stmt, clear => by
    have inside : stmt.visits.all Visit.isTransparent := by simpa using clear
    exact congrArg (Token.identifier name :: Token.punct ":" :: ·)
      (Stmt.tokens_uninlined stmt inside)
  | .localDecl loc kind decls isExport, clear => by
    have inside : (BindingElement.visitsList decls).all Visit.isTransparent := by simpa using clear
    have walked : (Stmt.walk .uninlining (.localDecl loc kind decls isExport)).value =
        .localDecl loc kind (BindingElement.walkList .uninlining decls).value isExport := rfl
    rw [walked, Stmt.tokens, Stmt.tokens, BindingElement.tokensList_uninlined decls inside]
  | .returnValue loc value, clear => by
    have inside : (Expr.visitsOption value).all Visit.isTransparent := by simpa using clear
    have walked : (Stmt.walk .uninlining (.returnValue loc value)).value =
        .returnValue loc (Expr.walkOption .uninlining value).value := rfl
    rw [walked, Stmt.tokens, Stmt.tokens, Expr.walkOption_uninlining,
      Expr.tokensOption_uninlined (Expr.optionTokens_uninlined value inside)]
  | .throwValue loc value, clear => by
    have inside : value.visits.all Visit.isTransparent := by simpa using clear
    exact congrArg (Token.keyword "throw" :: · ++ [.punct ";"]) (Expr.tokens_uninlined value inside)
  | .tryCatch loc body handler finalizer, clear => by
    obtain ⟨onBody, onHandler, onFinalizer⟩ : (Stmt.visitsList body).all Visit.isTransparent ∧
        (Catch.visitsOption handler).all Visit.isTransparent ∧
          (Stmt.visitsListOption finalizer).all Visit.isTransparent := by
      simpa using clear
    have walked : (Stmt.walk .uninlining (.tryCatch loc body handler finalizer)).value =
        .tryCatch loc (Stmt.walkList .uninlining body).value
          (Catch.walkOption .uninlining handler).value
          (Stmt.walkListOption .uninlining finalizer).value := rfl
    rw [walked, Stmt.tokens, Stmt.tokens, Stmt.tokensList_uninlined body onBody,
      Catch.tokensOption_uninlined handler onHandler,
      Stmt.finallyTokens_uninlined finalizer onFinalizer]
  | .whileLoop loc test body, clear => by
    obtain ⟨onTest, onBody⟩ : test.visits.all Visit.isTransparent ∧
        body.visits.all Visit.isTransparent := by
      simpa using clear
    have walked : (Stmt.walk .uninlining (.whileLoop loc test body)).value =
        .whileLoop loc test.uninlined (body.walk .uninlining).value := rfl
    rw [walked, Stmt.tokens, Stmt.tokens, Expr.tokens_uninlined test onTest,
      Stmt.tokens_uninlined body onBody]
  | .withObject loc value body, clear => by
    obtain ⟨onValue, onBody⟩ : value.visits.all Visit.isTransparent ∧
        body.visits.all Visit.isTransparent := by
      simpa using clear
    have walked : (Stmt.walk .uninlining (.withObject loc value body)).value =
        .withObject loc value.uninlined (body.walk .uninlining).value := rfl
    rw [walked, Stmt.tokens, Stmt.tokens, Expr.tokens_uninlined value onValue,
      Stmt.tokens_uninlined body onBody]
  | .breakTo .., _ | .continueTo .., _ | .debugger .., _ | .empty .., _ | .exportClause .., _
  | .exportFrom .., _ | .importFrom .., _ => rfl

theorem Stmt.tokensList_uninlined :
    (body : List Stmt) → (Stmt.visitsList body).all Visit.isTransparent →
      Stmt.tokensList (Stmt.walkList .uninlining body).value = Stmt.tokensList body
  | [], _ => rfl
  | s :: rest, clear => by
    obtain ⟨first, others⟩ : s.visits.all Visit.isTransparent ∧
        (Stmt.visitsList rest).all Visit.isTransparent := by
      simpa [-Stmt.visits] using clear
    exact congrArg₂ (· ++ ·) (Stmt.tokens_uninlined s first)
      (Stmt.tokensList_uninlined rest others)

/-- The value that a body only returns is written the same without wrappers. -/
theorem Stmt.conciseTokens?_uninlined :
    (body : List Stmt) → (Stmt.visitsList body).all Visit.isTransparent →
      Stmt.conciseTokens? (Stmt.walkList .uninlining body).value = Stmt.conciseTokens? body
  | [.returnValue loc (some value)], clear => by
    have inside : value.visits.all Visit.isTransparent := by simpa using clear
    have same := Expr.tokens_uninlined value inside
    have walked : (Stmt.walkList .uninlining [.returnValue loc (some value)]).value =
        [.returnValue loc (some value.uninlined)] := rfl
    rw [walked, Stmt.conciseTokens?, Stmt.conciseTokens?, Expr.arrowBodyNeedsParens_uninlined,
      Expr.guarded_uninlined same, same]
  | s :: next :: rest, _ =>
    (Stmt.conciseTokens?_of_several _ _ _).trans (Stmt.conciseTokens?_of_several _ _ _).symm
  | [.returnValue _ none], _ | [.block ..], _ | [.breakTo ..], _ | [.classDecl ..], _
  | [.continueTo ..], _ | [.debugger ..], _ | [.doWhile ..], _ | [.empty ..], _
  | [.exportClause ..], _ | [.exportDefaultClass ..], _ | [.exportDefaultExpr ..], _
  | [.exportDefaultFunction ..], _ | [.exportFrom ..], _ | [.expr ..], _ | [.function ..], _
  | [.ifElse ..], _ | [.importFrom ..], _ | [.label ..], _ | [.localDecl ..], _
  | [.throwValue ..], _ | [.tryCatch ..], _ | [.whileLoop ..], _ | [.withObject ..], _
  | [], _ => rfl

theorem Stmt.elseTokens_uninlined :
    (s : Option Stmt) → (Stmt.visitsOption s).all Visit.isTransparent →
      Stmt.elseTokens (Stmt.walkOption .uninlining s).value = Stmt.elseTokens s
  | none, _ => rfl
  | some s, clear => congrArg (Token.keyword "else" :: ·) (Stmt.tokens_uninlined s clear)

theorem Catch.tokensOption_uninlined :
    (handler : Option Catch) → (Catch.visitsOption handler).all Visit.isTransparent →
      Catch.tokensOption (Catch.walkOption .uninlining handler).value = Catch.tokensOption handler
  | none, _ => rfl
  | some ⟨binding, body⟩, clear => by
    obtain ⟨onBinding, onBody⟩ : (Binding.visitsOption binding).all Visit.isTransparent ∧
        (Stmt.visitsList body).all Visit.isTransparent := by
      simpa using clear
    have walked : (Catch.walkOption .uninlining (some ⟨binding, body⟩)).value =
        some ⟨(Binding.walkOption .uninlining binding).value,
          (Stmt.walkList .uninlining body).value⟩ := rfl
    rw [walked, Catch.tokensOption, Catch.tokensOption, Stmt.tokensList_uninlined body onBody,
      Binding.caughtTokens_uninlined binding onBinding]

theorem Binding.caughtTokens_uninlined :
    (b : Option Binding) → (Binding.visitsOption b).all Visit.isTransparent →
      Binding.caughtTokens (Binding.walkOption .uninlining b).value = Binding.caughtTokens b
  | none, _ => rfl
  | some b, clear => congrArg parenthesized (Binding.tokens_uninlined b clear)

theorem Stmt.finallyTokens_uninlined :
    (body : Option (List Stmt)) → (Stmt.visitsListOption body).all Visit.isTransparent →
      Stmt.finallyTokens (Stmt.walkListOption .uninlining body).value = Stmt.finallyTokens body
  | none, _ => rfl
  | some body, clear =>
    congrArg (Token.keyword "finally" :: braced ·) (Stmt.tokensList_uninlined body clear)

end

end

namespace Expr

/--
Inlined constants are printed as if their wrappers were not there.

This holds wherever no question that printing asks about an operand, a key or a method has another
answer without the wrappers. The text and the name that is missing are then the same.
-/
theorem print_uninlined (table : SymbolTable) {e : Expr}
    (clear : e.visits.all Visit.isTransparent) : e.uninlined.print table = e.print table := by
  rw [print, print, tokens_uninlined e clear]

/-- Minus one is printed as `-1*a(-1).b` says, in wrappers or not. -/
theorem print_uninlined_negative :
    let table : SymbolTable := ⟨#[⟨"a", .hoisted⟩]⟩
    let a := identifier default ⟨0⟩ false false
    let minusOne := inlinedEnum default (number default (.nearest true 1 1)) "E.A"
    let e := binary default .multiplication minusOne
      (dot default (call default a [minusOne] .plain false .normal) "b" .plain false)
    e.visits.all Visit.isTransparent ∧ e.uninlined.print table = e.print table := by
  intro table a minusOne e
  have clear : e.visits.all Visit.isTransparent := by decide +kernel
  exact ⟨clear, print_uninlined table clear⟩

/-- As the base of a power, minus one gets its parentheses only without a wrapper. -/
theorem print_uninlined_base :
    let table : SymbolTable := ⟨#[⟨"a", .hoisted⟩]⟩
    let minusOne := inlinedEnum default (number default (.nearest true 1 1)) "E.A"
    let e := binary default .exponentiation minusOne (identifier default ⟨0⟩ false false)
    e.print table = .ok "-1**a" ∧ e.uninlined.print table = .ok "(-1)**a" := by
  decide +kernel

end Expr

end EcmaPrune
