import EcmaPrune.Analysis.Constant
import EcmaPrune.Proofs.Number.Canonical
import EcmaPrune.Proofs.Tree.Parts
import Mathlib.Data.List.Forall2

/-!
Expressions look alike if they show the same and their parts look alike one by one, so looking alike
is symmetric and transitive.
-/

namespace EcmaPrune

/-- What an expression shows of itself, besides its parts. -/
inductive Look where
  | null
  | undefined
  | boolean (value : Bool)
  | number (value : Number)
  | string (value : List UInt16)
  /-- The value of a big integer literal, or its text if that has no value. -/
  | bigInt (value : Int ⊕ String)
  | identifier (ref : Ref)
  | importIdentifier (ref : Ref)
  | dot (link : ChainLink) (name : String)
  | index (link : ChainLink)
  | call (link : ChainLink) (kind : CallKind) (isPure : Bool)
  | conditional
  | unary (op : Operator)
  | binary (op : Operator)

/-- What a big integer literal shows: its value, however it is spelled, if it has one. -/
def BigInt.shown (literal : String) : Int ⊕ String :=
  match value? literal with
  | some value => .inl value
  | none => .inr literal

/-- Two big integer literals show the same if they are known to be equal. -/
theorem BigInt.shown_eq_iff (loc loc' : Loc) (literal literal' : String) :
    Expr.literalEq? (.bigInt loc literal) (.bigInt loc' literal') = some true ↔
      shown literal = shown literal' := by
  unfold Expr.literalEq? shown
  by_cases same : literal = literal'
  · simp [same]
  · cases value : value? literal <;> cases value' : value? literal' <;>
      simp [same, value, value']

/-- Number literals look alike if they are one number, other than NaN. -/
theorem Number.looksLike_iff (x y : Number) :
    (if x.isZero && y.isZero then x.isNegative == y.isNegative else x.numericEq y) = true ↔
      x.isNaN = false ∧ x = y := by
  by_cases zeros : x.isZero && y.isZero
  · obtain ⟨isZero, isZero'⟩ := Bool.and_eq_true_iff.mp zeros
    rw [if_pos zeros, beq_iff_eq, and_iff_right (isNaN_of_isZero isZero)]
    -- Zeros have one magnitude, and the sign tells the two apart.
    have magnitude := (magnitude_eq_zero.mpr isZero).trans (magnitude_eq_zero.mpr isZero').symm
    exact ⟨eq_of_magnitude_eq magnitude, congrArg isNegative⟩
  · rw [if_neg zeros, numericEq]
    constructor
    · intro equal
      cases isNaN : x.isNaN <;> cases isNaN' : y.isNaN <;> simp [place?, isNaN, isNaN'] at equal
      refine ⟨rfl, eq_of_scaled_eq equal ?_⟩
      -- If one of two equal numbers were a zero, both would be.
      rw [Bool.eq_false_iff]
      intro isZero
      have isZero' : y.isZero := scaled_eq_zero.mp (equal ▸ scaled_eq_zero.mpr isZero)
      simp [isZero, isZero'] at zeros
    · rintro ⟨isNumber, rfl⟩
      simp [place?, isNumber]

namespace Expr

/-- What an expression that can be recognized shows; wrappers of constants show nothing. -/
def look? : Expr → Option Look
  | null _ => some .null
  | undefined _ => some .undefined
  | boolean _ value => some (.boolean value)
  | number _ value => if value.isNaN then none else some (.number value)
  | string _ value => some (.string value)
  | bigInt _ literal => some (.bigInt (BigInt.shown literal))
  | identifier _ ref _ _ => some (.identifier ref)
  | importIdentifier _ ref => some (.importIdentifier ref)
  | dot _ _ name link _ => some (.dot link name)
  | index _ _ _ link _ => some (.index link)
  | call _ _ _ link isPure kind => some (.call link kind isPure)
  | conditional .. => some .conditional
  | unary _ op _ _ => some (.unary op)
  | binary _ op _ _ => some (.binary op)
  | _ => none

/-- Only literals are compared as literals. -/
theorem literalEq?_of_isPrimitiveLiteralKind {e : Expr} (other : e.isPrimitiveLiteralKind = false)
    (e' : Expr) : literalEq? e e' = none := by
  cases e with
  | null | undefined | boolean | number | bigInt | string => cases other
  | _ => rfl

theorem looksLikeList_iff (args args' : List Expr) :
    looksLikeList args args' = true ↔
      List.Forall₂ (fun e e' => e.looksLike e' = true) args args' := by
  induction args generalizing args' with
  | nil => cases args' <;> simp [looksLikeList]
  | cons e rest ih => cases args' <;> simp [looksLikeList, ih]

/-- Wrappers of constants do not count. -/
theorem looksLike_unwrapped (e e' : Expr) : e.unwrapped.looksLike e' = e.looksLike e' := by
  -- A wrapper may stand in another one.
  induction e using induction_on_parts with
  | step e ih =>
    cases e with
    | inlinedEnum loc value comment =>
      rw [unwrapped, looksLike]
      exact ih value (by simp [parts])
    | _ => rfl

theorem unwrapped_ne_inlinedEnum {e value : Expr} {loc : Loc} {comment : String} :
    e.unwrapped ≠ inlinedEnum loc value comment := by
  induction e using induction_on_parts with
  | step e ih =>
    cases e with
    | inlinedEnum _ inner _ => exact ih inner (by simp [parts])
    | _ => exact fun same => by cases same

/-- Expressions look alike if they show the same and their parts look alike one by one. -/
theorem looksLike_iff (e e' : Expr) :
    e.looksLike e' = true ↔
      e.unwrapped.look?.isSome ∧ e.unwrapped.look? = e'.unwrapped.look? ∧
        List.Forall₂ (fun part part' => part.looksLike part' = true)
          e.unwrapped.parts e'.unwrapped.parts := by
  rw [← looksLike_unwrapped]
  cases shown : e.unwrapped with
  | inlinedEnum loc value comment => exact absurd shown unwrapped_ne_inlinedEnum
  | dot | index | conditional | unary | binary | identifier | importIdentifier =>
    rw [looksLike]
    cases e'.unwrapped <;> simp [look?, parts, and_assoc]
  | call loc target args link isPure kind =>
    rw [looksLike]
    cases e'.unwrapped <;> simp [look?, parts, looksLikeList_iff, and_assoc]
  | null | undefined | boolean | string =>
    simp only [looksLike]
    cases e'.unwrapped <;> simp [literalEq?, isPrimitiveLiteralKind, look?, parts]
  | bigInt loc literal =>
    simp only [looksLike, beq_iff_eq]
    cases e'.unwrapped with
    | bigInt loc' literal' => simp [BigInt.shown_eq_iff, look?, parts]
    | _ => simp [literalEq?, isPrimitiveLiteralKind, look?, parts]
  | number loc value =>
    rw [looksLike]
    cases e'.unwrapped with
    | number loc' value' =>
      simp only [Number.looksLike_iff, look?, parts]
      constructor
      · rintro ⟨isNumber, rfl⟩
        simp [isNumber]
      · rintro ⟨isNumber, same, _⟩
        split at isNumber
        · cases isNumber
        · rw [if_neg ‹_›] at same
          split at same <;> simp_all
    | _ => cases isNaN : value.isNaN <;> simp [look?, parts, isNaN]
  | _ =>
    simp only [looksLike]
    rw [literalEq?_of_isPrimitiveLiteralKind rfl]
    simp [look?]

theorem nodeCount_unwrapped_le (e : Expr) : e.unwrapped.nodeCount ≤ e.nodeCount := by
  induction e using induction_on_parts with
  | step e ih =>
    cases e with
    | inlinedEnum loc value comment =>
      rw [unwrapped, nodeCount_inlinedEnum]
      exact Nat.le_succ_of_le (ih value (by simp [parts]))
    | _ => exact Nat.le_refl _

/-- What holds of an expression whenever it holds of the parts inside its wrappers always holds. -/
theorem induction_on_unwrapped_parts {motive : Expr → Prop}
    (step : ∀ e, (∀ part ∈ e.unwrapped.parts, motive part) → motive e) (e : Expr) :
    motive e :=
  step e fun part _ => induction_on_unwrapped_parts step part
termination_by e.nodeCount
decreasing_by
  exact Nat.lt_of_lt_of_le (nodeCount_lt_of_mem_parts ‹_›) e.nodeCount_unwrapped_le

/-! ### The laws -/

theorem looksLike_symm {e e' : Expr} (alike : e.looksLike e' = true) : e'.looksLike e = true := by
  induction e using induction_on_unwrapped_parts generalizing e' with
  | step e ih =>
    obtain ⟨shown, same, parts⟩ := (looksLike_iff e e').mp alike
    -- The parts of one side are turned around by induction, pair by pair.
    have turned := (List.forall₂_and_left _ _).mpr ⟨ih, parts⟩
    refine (looksLike_iff e' e).mpr ⟨same ▸ shown, same.symm, .flip ?_⟩
    exact turned.imp fun part part' ⟨turn, alike⟩ => turn alike

/-- Parts that are alike one by one in two steps are so in one, if that holds of each part. -/
theorem forall₂_looksLike_trans {parts parts' parts'' : List Expr}
    (each : ∀ part ∈ parts, ∀ {part' part'' : Expr}, part.looksLike part' = true →
      part'.looksLike part'' = true → part.looksLike part'' = true)
    (first : List.Forall₂ (fun part part' => part.looksLike part' = true) parts parts')
    (second : List.Forall₂ (fun part part' => part.looksLike part' = true) parts' parts'') :
    List.Forall₂ (fun part part' => part.looksLike part' = true) parts parts'' := by
  induction first generalizing parts'' with
  | nil => exact second
  | cons alike _ ih =>
    obtain ⟨part'', rest, alike', others, rfl⟩ := List.forall₂_cons_left_iff.mp second
    exact .cons (each _ (by simp) alike alike')
      (ih (fun part member => each part (by simp [member])) others)

theorem looksLike_trans {e e' e'' : Expr} (first : e.looksLike e' = true)
    (second : e'.looksLike e'' = true) : e.looksLike e'' = true := by
  induction e using induction_on_unwrapped_parts generalizing e' e'' with
  | step e ih =>
    obtain ⟨shown, same, parts⟩ := (looksLike_iff e e').mp first
    obtain ⟨_, same', parts'⟩ := (looksLike_iff e' e'').mp second
    exact (looksLike_iff e e'').mpr
      ⟨shown, same.trans same', forall₂_looksLike_trans (fun part member => ih part member)
        parts parts'⟩

/-- An expression looks like itself if it shows something and its parts look like themselves. -/
theorem looksLike_self_iff (e : Expr) :
    e.looksLike e = true ↔
      e.unwrapped.look?.isSome ∧ ∀ part ∈ e.unwrapped.parts, part.looksLike part = true := by
  rw [looksLike_iff, List.forall₂_same, and_iff_right rfl]

/--
What can be recognized: constants other than NaN, names, and what is made of such by member
accesses, calls, choices and operators.
-/
inductive IsRecognizable : Expr → Prop where
  | inlinedEnum {loc : Loc} {value : Expr} {comment : String} (inner : IsRecognizable value) :
    IsRecognizable (inlinedEnum loc value comment)
  | null {loc : Loc} : IsRecognizable (null loc)
  | undefined {loc : Loc} : IsRecognizable (undefined loc)
  | boolean {loc : Loc} {value : Bool} : IsRecognizable (boolean loc value)
  | string {loc : Loc} {value : List UInt16} : IsRecognizable (string loc value)
  | bigInt {loc : Loc} {literal : String} : IsRecognizable (bigInt loc literal)
  | number {loc : Loc} {value : Number} (isNumber : value.isNaN = false) :
    IsRecognizable (number loc value)
  | identifier {loc : Loc} {ref : Ref} {isRemovable mustKeepInWith : Bool} :
    IsRecognizable (identifier loc ref isRemovable mustKeepInWith)
  | importIdentifier {loc : Loc} {ref : Ref} : IsRecognizable (importIdentifier loc ref)
  | dot {loc : Loc} {target : Expr} {name : String} {link : ChainLink} {isRemovable : Bool}
    (onTarget : IsRecognizable target) : IsRecognizable (dot loc target name link isRemovable)
  | index {loc : Loc} {target key : Expr} {link : ChainLink} {isRemovable : Bool}
    (onTarget : IsRecognizable target) (onKey : IsRecognizable key) :
    IsRecognizable (index loc target key link isRemovable)
  | conditional {loc : Loc} {test yes no : Expr} (onTest : IsRecognizable test)
    (onYes : IsRecognizable yes) (onNo : IsRecognizable no) :
    IsRecognizable (conditional loc test yes no)
  | unary {loc : Loc} {op : Operator} {value : Expr} {fromIdentifier : Bool}
    (onValue : IsRecognizable value) : IsRecognizable (unary loc op value fromIdentifier)
  | binary {loc : Loc} {op : Operator} {left right : Expr} (onLeft : IsRecognizable left)
    (onRight : IsRecognizable right) : IsRecognizable (binary loc op left right)
  | call {loc : Loc} {target : Expr} {args : List Expr} {link : ChainLink} {isPure : Bool}
    {kind : CallKind} (onTarget : IsRecognizable target)
    (onArgs : ∀ arg ∈ args, IsRecognizable arg) :
    IsRecognizable (call loc target args link isPure kind)

/-- What can be recognized looks like itself. -/
theorem IsRecognizable.looksLike_self {e : Expr} (recognizable : e.IsRecognizable) :
    e.looksLike e = true := by
  induction recognizable with
  | inlinedEnum _ ih =>
    obtain ⟨shown, inside⟩ := (looksLike_self_iff _).mp ih
    exact (looksLike_self_iff _).mpr ⟨shown, inside⟩
  | _ =>
    rw [looksLike_self_iff]
    simp_all [unwrapped, look?, parts]

/-- What looks like itself can be recognized. -/
theorem isRecognizable_of_looksLike_self {e : Expr} (alike : e.looksLike e = true) :
    e.IsRecognizable := by
  induction e using induction_on_parts with
  | step e ih =>
    obtain ⟨shown, inside⟩ := (looksLike_self_iff e).mp alike
    -- The parts of what is no wrapper look like themselves, too.
    have each (bare : e.unwrapped = e) : ∀ part ∈ e.parts, part.IsRecognizable :=
      fun part member => ih part member (inside part (by rwa [bare]))
    cases e with
    | inlinedEnum loc value comment =>
      exact .inlinedEnum
        (ih value (by simp [parts]) ((looksLike_self_iff value).mpr ⟨shown, inside⟩))
    | null => exact .null
    | undefined => exact .undefined
    | boolean => exact .boolean
    | string => exact .string
    | bigInt => exact .bigInt
    | number loc value =>
      -- A NaN shows nothing.
      cases isNaN : value.isNaN with
      | false => exact .number isNaN
      | true => simp [unwrapped, look?, isNaN] at shown
    | identifier => exact .identifier
    | importIdentifier => exact .importIdentifier
    | dot => exact .dot (each rfl _ (by simp [parts]))
    | index => exact .index (each rfl _ (by simp [parts])) (each rfl _ (by simp [parts]))
    | conditional =>
      exact .conditional (each rfl _ (by simp [parts])) (each rfl _ (by simp [parts]))
        (each rfl _ (by simp [parts]))
    | unary => exact .unary (each rfl _ (by simp [parts]))
    | binary => exact .binary (each rfl _ (by simp [parts])) (each rfl _ (by simp [parts]))
    | call =>
      exact .call (each rfl _ (by simp [parts])) fun arg isArg =>
        each rfl arg (by simp [parts, isArg])
    | _ => cases shown

/--
Looking alike is symmetric and transitive, and holds of an expression and itself exactly if it can
be recognized.
-/
theorem looksLike_partialEquivalence :
    (∀ e e' : Expr, e.looksLike e' → e'.looksLike e) ∧
      (∀ e e' e'' : Expr, e.looksLike e' → e'.looksLike e'' → e.looksLike e'') ∧
      ∀ e : Expr, e.looksLike e ↔ e.IsRecognizable :=
  ⟨fun _ _ => looksLike_symm, fun _ _ _ => looksLike_trans,
    fun _ => ⟨isRecognizable_of_looksLike_self, IsRecognizable.looksLike_self⟩⟩

/-- Big integers look alike however they are spelled, also through other spellings. -/
theorem looksLike_partialEquivalence_spelled :
    let spelled (literal : String) := dot default (bigInt default literal) "a" .plain false
    (spelled "0x10").looksLike (spelled "16") ∧ (spelled "16").looksLike (spelled "1_6n") ∧
      (spelled "0x10").looksLike (spelled "1_6n") ∧ (spelled "16").IsRecognizable := by
  intro spelled
  have hexadecimal : (spelled "0x10").looksLike (spelled "16") := by decide +kernel
  have separated : (spelled "16").looksLike (spelled "1_6n") := by decide +kernel
  obtain ⟨symm, trans, self⟩ := looksLike_partialEquivalence
  exact ⟨hexadecimal, separated, trans _ _ _ hexadecimal separated,
    (self _).mp (trans _ _ _ (symm _ _ hexadecimal) hexadecimal)⟩

end Expr

end EcmaPrune
