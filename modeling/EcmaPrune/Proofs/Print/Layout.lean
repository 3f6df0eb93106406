import EcmaPrune.Print

/-!
Where the pieces of printed code stand in its text.

Writing only ever adds to the text, and what it adds depends on how the text ends and on nothing
else. Between parentheses, a piece of code is thus written as it would be on its own.
-/

namespace EcmaPrune

/-- What begins with none of the critical characters is never kept apart. -/
@[simp]
theorem Boundary.needsSpace_other (boundary : Boundary) : boundary.needsSpace .other = false := by
  cases boundary <;> rfl

/-- The space that is put before what would otherwise merge with the text before it. -/
def Boundary.gap (boundary : Boundary) (leading : Leading) : String :=
  if boundary.needsSpace leading then " " else ""

theorem Boundary.gap_cases (boundary : Boundary) (leading : Leading) :
    boundary.gap leading = "" ∨ boundary.gap leading = " " := by
  unfold gap
  cases boundary.needsSpace leading <;> simp

@[simp]
theorem Boundary.gap_none (leading : Leading) : Boundary.none.gap leading = "" := rfl

/-- Whether a fragment is raw text. -/
def Fragment.isRaw : Fragment → Bool
  | raw _ => true
  | _ => false

namespace Emitter

/-- A fragment is written behind the space that keeps it apart. -/
theorem write_of_text {fragment : Fragment} (notRaw : fragment.isRaw = false)
    (text : fragment.text.isEmpty = false) (output : String) (boundary : Boundary) :
    write ⟨output, boundary⟩ fragment =
      ⟨output ++ (boundary.gap fragment.leading ++ fragment.text), fragment.boundary⟩ := by
  unfold Boundary.gap
  -- With the need of a space and the kind of the fragment fixed, both sides compute.
  cases space : boundary.needsSpace fragment.leading <;>
    cases fragment <;> simp_all [write, Fragment.isRaw, String.append_assoc]

/-- A fragment without text leaves everything as it is. -/
theorem write_of_isEmpty {fragment : Fragment} (notRaw : fragment.isRaw = false)
    (nothing : fragment.text.isEmpty) (emitter : Emitter) : emitter.write fragment = emitter := by
  cases fragment <;> simp_all [write, Fragment.isRaw]

/-- A fragment leaves all as it is, or is added behind a space that does not hang on the text. -/
theorem write_cases (fragment : Fragment) :
    (∀ emitter : Emitter, emitter.write fragment = emitter) ∨
      ∃ gap : Boundary → String, gap .none = "" ∧
        (∀ boundary, gap boundary = "" ∨ gap boundary = " ") ∧
        ∀ output boundary, write ⟨output, boundary⟩ fragment =
          ⟨output ++ (gap boundary ++ fragment.text), fragment.boundary⟩ := by
  by_cases notRaw : fragment.isRaw
  · -- Raw text asks for no space, whatever is before it.
    obtain ⟨text, rfl⟩ : ∃ text, fragment = .raw text := by
      cases fragment with
      | raw text => exact ⟨text, rfl⟩
      | _ => cases notRaw
    exact .inr ⟨fun _ => "", rfl, fun _ => .inl rfl, fun _ _ => by
      simp [write, Fragment.text, Fragment.boundary]⟩
  · rw [Bool.not_eq_true] at notRaw
    -- Among the others, only one without text is passed over.
    by_cases nothing : fragment.text.isEmpty
    · exact .inl (write_of_isEmpty notRaw nothing)
    · exact .inr ⟨(·.gap fragment.leading), rfl, (·.gap_cases fragment.leading),
        write_of_text notRaw (by simpa using nothing)⟩

/-- Fragments are added to the text, whatever the text is. -/
theorem foldl_write (output : String) (boundary : Boundary) (fragments : List Fragment) :
    fragments.foldl write ⟨output, boundary⟩ =
      ⟨output ++ (fragments.foldl write ⟨"", boundary⟩).output,
        (fragments.foldl write ⟨"", boundary⟩).boundary⟩ := by
  induction fragments generalizing output boundary with
  | nil => simp
  | cons fragment rest ih =>
    simp only [List.foldl_cons]
    rcases write_cases fragment with nothing | ⟨gap, -, -, written⟩
    · rw [nothing, nothing]
      exact ih output boundary
    · -- The fragment leaves the same boundary behind either text, so both go on alike.
      rw [written, written, ih, ih ("" ++ _)]
      simp [String.append_assoc]

/-- Behind a text that ends in none of the critical characters, all is written as on its own. -/
theorem foldl_write_none (output : String) (fragments : List Fragment) :
    (fragments.foldl write ⟨output, .none⟩).output = output ++ render fragments := by
  rw [foldl_write]
  rfl

/-- Nothing is kept apart from a parenthesis, on either side. -/
theorem write_parenthesis (emitter : Emitter) {text : String} (paren : text = "(" ∨ text = ")") :
    emitter.write (.punct text) = ⟨emitter.output ++ text, .none⟩ := by
  obtain rfl | rfl := paren
  · simp [write, Fragment.text, Fragment.leading, Fragment.boundary, Fragment.punctLeading,
      Fragment.punctBoundary]
  · simp [write, Fragment.text, Fragment.leading, Fragment.boundary, Fragment.punctLeading,
      Fragment.punctBoundary]

/-- What stands in parentheses is written there as it would be on its own. -/
theorem render_parenthesized (before inside after : List Fragment) :
    render (before ++ .punct "(" :: inside ++ .punct ")" :: after) =
      render before ++ "(" ++ render inside ++ ")" ++ render after := by
  -- Each parenthesis leaves nothing to be kept apart from what follows it.
  simp only [render, List.foldl_append, List.foldl_cons]
  rw [write_parenthesis _ (.inl rfl), write_parenthesis _ (.inr rfl), foldl_write_none,
    foldl_write_none]
  rfl

/-- What is written anywhere is at most kept apart by a space from what is before it. -/
theorem output_foldl_write (boundary : Boundary) (fragments : List Fragment) :
    ∃ gap : String, (gap = "" ∨ gap = " ") ∧
      (fragments.foldl write ⟨"", boundary⟩).output = gap ++ render fragments := by
  induction fragments generalizing boundary with
  | nil => exact ⟨"", .inl rfl, rfl⟩
  | cons fragment rest ih =>
    simp only [render, List.foldl_cons]
    rcases write_cases fragment with nothing | ⟨gap, unneeded, space, written⟩
    · rw [nothing, nothing]
      exact ih boundary
    · -- Only the first fragment that writes anything sees what is before all of them.
      refine ⟨gap boundary, space boundary, ?_⟩
      rw [empty, written, written, unneeded, foldl_write, foldl_write ("" ++ _)]
      simp [String.append_assoc]

/-- Nothing keeps the text of a template apart from what is before it. -/
theorem write_template (emitter : Emitter) (rest : String) :
    emitter.write (.literal ("`" ++ rest)) =
      ⟨emitter.output ++ ("`" ++ rest), (Fragment.literal ("`" ++ rest)).boundary⟩ := by
  have text : (Fragment.literal ("`" ++ rest)).text.isEmpty = false := by
    simp [Fragment.text]
  have leading : (Fragment.literal ("`" ++ rest)).leading = .other := by
    simp [Fragment.leading]
  rw [write_of_text rfl text, leading, Boundary.gap, Boundary.needsSpace_other]
  simp [Fragment.text]

/-- Before a template, code is written as on its own but for a space before it. -/
theorem render_template (before inside : List Fragment) (rest : String) (after : List Fragment) :
    ∃ gap : String, (gap = "" ∨ gap = " ") ∧ ∃ back,
      render (before ++ (inside ++ .literal ("`" ++ rest) :: after)) =
        render before ++ gap ++ render inside ++ "`" ++ back := by
  obtain ⟨gap, space, written⟩ := output_foldl_write (before.foldl write empty).boundary inside
  -- The text before decides on the space alone, and the mark resets what comes after.
  refine ⟨gap, space, ?_⟩
  simp only [render, List.foldl_append, List.foldl_cons]
  rw [write_template, foldl_write, foldl_write (before.foldl write empty).output, written]
  exact ⟨_, by simp only [String.append_assoc]; rfl⟩

end Emitter

/-- Code that is written in parts is written part by part. -/
theorem fragmentsOf_append_eq_ok {table : SymbolTable} {tokens more : List Token}
    {fragments : List Fragment} (written : fragmentsOf table (tokens ++ more) = .ok fragments) :
    ∃ first second, fragmentsOf table tokens = .ok first ∧ fragmentsOf table more = .ok second ∧
      fragments = first ++ second := by
  induction tokens generalizing fragments with
  | nil => exact ⟨[], fragments, rfl, written, rfl⟩
  | cons token rest ih =>
    rw [List.cons_append, fragmentsOf] at written
    rw [fragmentsOf]
    -- An error of any token would be the error of all of them.
    cases here : token.fragments table with
    | error => rw [here] at written; cases written
    | ok first =>
      cases later : fragmentsOf table (rest ++ more) with
      | error => rw [here, later] at written; cases written
      | ok others =>
        rw [here, later] at written
        obtain rfl := Except.ok.inj written
        obtain ⟨inside, second, restWritten, moreWritten, rfl⟩ := ih later
        exact ⟨first ++ inside, second, by rw [restWritten]; rfl, moreWritten,
          (List.append_assoc ..).symm⟩

/-- Behind a token that writes one fragment, the rest is written by itself. -/
theorem fragmentsOf_cons_eq_ok {table : SymbolTable} {token : Token} {tokens : List Token}
    {fragment : Fragment} {fragments : List Fragment} (one : token.fragments table = .ok [fragment])
    (written : fragmentsOf table (token :: tokens) = .ok fragments) :
    ∃ rest, fragmentsOf table tokens = .ok rest ∧ fragments = fragment :: rest := by
  rw [fragmentsOf, one] at written
  cases later : fragmentsOf table tokens with
  | error => rw [later] at written; cases written
  | ok rest =>
    rw [later] at written
    exact ⟨rest, rfl, (Except.ok.inj written).symm⟩

/-- Code that can be printed has fragments, and its text is theirs. -/
theorem printTokens_eq_ok {table : SymbolTable} {tokens : List Token} {text : String} :
    printTokens table tokens = .ok text ↔
      ∃ fragments, fragmentsOf table tokens = .ok fragments ∧ Emitter.render fragments = text := by
  unfold printTokens
  cases fragmentsOf table tokens with
  | error => simp [Bind.bind, Except.bind]
  | ok fragments => simp [Bind.bind, Except.bind, Pure.pure, Except.pure]

section

open Emitter

variable {table : SymbolTable} {before inside after : List Token} {text : String}

/-- Code in parentheses is printed as on its own, and so is what is before and behind it. -/
theorem printTokens_parenthesized
    (printed : printTokens table (before ++ (parenthesized inside ++ after)) = .ok text) :
    ∃ front inner back, printTokens table before = .ok front ∧
      printTokens table inside = .ok inner ∧ printTokens table after = .ok back ∧
      text = front ++ "(" ++ inner ++ ")" ++ back := by
  obtain ⟨fragments, written, rfl⟩ := printTokens_eq_ok.mp printed
  -- A parenthesis writes one fragment, so the fragments fall apart where the tokens do.
  simp only [parenthesized, List.cons_append, List.append_assoc] at written
  obtain ⟨first, opened, firstWritten, fromOpening, rfl⟩ := fragmentsOf_append_eq_ok written
  obtain ⟨enclosed, fromInside, rfl⟩ := fragmentsOf_cons_eq_ok rfl fromOpening
  obtain ⟨second, closed, secondWritten, fromClosing, rfl⟩ := fragmentsOf_append_eq_ok fromInside
  obtain ⟨last, lastWritten, rfl⟩ := fragmentsOf_cons_eq_ok rfl fromClosing
  exact ⟨_, _, _, printTokens_eq_ok.mpr ⟨first, firstWritten, rfl⟩,
    printTokens_eq_ok.mpr ⟨second, secondWritten, rfl⟩,
    printTokens_eq_ok.mpr ⟨last, lastWritten, rfl⟩,
    by simpa using render_parenthesized first second last⟩

/-- Before a template, code is printed as on its own but for a space before it. -/
theorem printTokens_template {rest : String}
    (printed : printTokens table (before ++ (inside ++ .literal ("`" ++ rest) :: after)) =
      .ok text) :
    ∃ front inner gap back, printTokens table before = .ok front ∧
      printTokens table inside = .ok inner ∧ (gap = "" ∨ gap = " ") ∧
      text = front ++ gap ++ inner ++ "`" ++ back := by
  obtain ⟨fragments, written, rfl⟩ := printTokens_eq_ok.mp printed
  obtain ⟨first, others, firstWritten, fromInside, rfl⟩ := fragmentsOf_append_eq_ok written
  obtain ⟨second, template, secondWritten, fromMark, rfl⟩ := fragmentsOf_append_eq_ok fromInside
  obtain ⟨last, lastWritten, rfl⟩ := fragmentsOf_cons_eq_ok rfl fromMark
  obtain ⟨gap, space, back, same⟩ := render_template first second rest last
  exact ⟨_, _, gap, back, printTokens_eq_ok.mpr ⟨first, firstWritten, rfl⟩,
    printTokens_eq_ok.mpr ⟨second, secondWritten, rfl⟩, space, same⟩

end

end EcmaPrune
