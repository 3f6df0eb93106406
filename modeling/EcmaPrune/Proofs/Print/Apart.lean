import EcmaPrune.Proofs.Print.Flow

/-!
Fragments that a scanner does and does not take apart.

A scan gives back the fragments of a text exactly if none of them joins with what is behind it, and
there are two ways in which one does.
-/

namespace EcmaPrune

open Scanner

/-- Whether a fragment is a word. -/
def Fragment.isWord : Fragment → Bool
  | keyword _ | identifier _ => true
  | _ => false

/--
Whether a fragment is written together with what is behind it, though it should not be: `<` and the
marks `!` and `--` open a comment, and a word behind the last slash of a regular expression is
taken for its flags.
-/
def Fragment.joins : Fragment → List Fragment → Bool
  | punct text, second :: third :: _ =>
    text == "<" && second == .punct "!" && third == .punct "--"
  | literal text, next :: _ => text.toList.getLast? == some '/' && next.isWord
  | _, _ => false

/-- There are two ways in which a fragment joins with what is behind it. -/
theorem Fragment.joins_cases {f : Fragment} {rest : List Fragment} (joined : f.joins rest) :
    (∃ others, f = .punct "<" ∧ rest = .punct "!" :: .punct "--" :: others) ∨
      ∃ text next others, f = .literal text ∧ rest = next :: others ∧
        text.toList.getLast? = some '/' ∧ next.isWord := by
  unfold joins at joined
  split at joined
  · simp only [Bool.and_eq_true, beq_iff_eq] at joined
    obtain ⟨⟨rfl, rfl⟩, rfl⟩ := joined
    exact .inl ⟨_, rfl, rfl⟩
  · simp only [Bool.and_eq_true, beq_iff_eq] at joined
    exact .inr ⟨_, _, _, rfl, rfl, joined⟩
  · cases joined

namespace Scanner

variable {names : NameChars} {goal last : Goal} {fresh : Bool} {rest : List Fragment}

theorem exists_body_of_behindRegExpBody? {inClass : Bool} {cs flags : List Char}
    (ends : behindRegExpBody? inClass cs = some flags) : ∃ body, cs = body ++ '/' :: flags := by
  fun_induction behindRegExpBody? inClass cs with
  | case1 | case2 | case4 => cases ends
  | case3 inClass c others line ih =>
    obtain ⟨body, rfl⟩ := ih ends
    exact ⟨'\\' :: c :: body, rfl⟩
  | case5 inClass c others noEscape line closes =>
    rw [Bool.and_eq_true, beq_iff_eq] at closes
    cases ends
    exact ⟨[], by rw [closes.1]; rfl⟩
  | case6 inClass c others noEscape line goesOn ih =>
    obtain ⟨body, rfl⟩ := ih ends
    exact ⟨c :: body, rfl⟩

/-- What ends a regular expression literal: its last slash, or a flag. -/
theorem getLast?_of_isRegExp {text : String} (isRegExp : isRegExp text) :
    text.toList.getLast? = some '/' ∨ ∃ c, text.toList.getLast? = some c ∧ c.isAlpha := by
  obtain ⟨c, others, flags, chars, -, -, ends, letters⟩ := exists_of_isRegExp isRegExp
  obtain ⟨body, same⟩ := exists_body_of_behindRegExpBody? ends
  rw [chars, same]
  -- Without flags, the slash that closes the body is the last character.
  cases last : flags.getLast? with
  | none =>
    left
    rw [List.getLast?_eq_none_iff] at last
    rw [last, ← List.cons_append, List.getLast?_append]
    rfl
  | some d =>
    right
    refine ⟨d, ?_, letters d (List.mem_of_getLast? last)⟩
    rw [← List.cons_append, List.getLast?_append, List.getLast?_cons, last]
    rfl

theorem boundary_of_isDecimal {text : String} (decimal : IsDecimal text.toList) :
    (Fragment.number text).boundary = .number := by
  have ends : ∃ c, text.toList.getLast? = some c ∧ c.isDigit := by
    generalize text.toList = chars at decimal
    cases decimal with
    | whole all integer =>
      have last := List.getLast?_eq_some_getLast (isInteger_ne_nil integer)
      exact ⟨_, last, all _ (List.getLast_mem _)⟩
    | @fraction digits places all integer some allPlaces =>
      have last := List.getLast?_eq_some_getLast some
      exact ⟨_, by simp [List.getLast?_cons, last], allPlaces _ (List.getLast_mem some)⟩
  obtain ⟨c, last, digit⟩ := ends
  simp [Fragment.boundary, last, digit]

theorem isWord_of_leading {f : Fragment} (leading : f.leading = .word) : f.isWord := by
  -- Only keywords and names begin as a word does.
  have never (c : Char) : Fragment.punctLeading c ≠ .word := by
    unfold Fragment.punctLeading
    split <;> decide
  cases f with
  | keyword | identifier => rfl
  | number text =>
    rw [Fragment.leading] at leading
    split at leading <;> cases leading
  | punct text =>
    rw [Fragment.leading] at leading
    cases first : text.toList.head? with
    | none => rw [first] at leading; cases leading
    | some c => rw [first] at leading; exact absurd leading (never c)
  | literal text =>
    rw [Fragment.leading] at leading
    split at leading <;> cases leading
  | raw => cases leading

/-- Behind a regular expression, only a word that it joins goes on with it. -/
theorem begins_behindRegExp {text : String} (isRegExp : isRegExp text)
    (flows : Flows names .operator rest last) (apart : (Fragment.literal text).joins rest = false) :
    Begins (EcmaPrune.layout (Fragment.literal text).boundary rest) (names.part · = false) := by
  rcases getLast?_of_isRegExp isRegExp with slash | ⟨c, ends, letter⟩
  · -- Behind the slash, no space is put, and a word is excluded.
    refine flows.begins (part_of_plain (by decide)) fun f first c _ opens => ?_
    cases opens with
    | word leading =>
      obtain ⟨others, rfl⟩ := List.head?_eq_some_iff.mp first
      simp [Fragment.joins, slash, isWord_of_leading leading] at apart
    | digit expected | quote expected | slash expected => cases expected
    | mark isMark _ first => exact part_of_mark isMark first
  · -- Behind a flag, what would go on with it is kept apart.
    have word : (Fragment.literal text).boundary = .word := by
      simp [Fragment.boundary, ends, Char.isAlphanum, letter]
    rw [word]
    exact flows.begins_apart rfl rfl

/-- A fragment that is not joined with what is behind it is taken as it is. -/
theorem Fits.readElement {f : Fragment} (fits : Fits names goal f)
    (flows : Flows names (goalBehind goal f.lexeme) rest last) (start : fresh → goal = .operand)
    (apart : f.joins rest = false) :
    Scanner.readElement names goal fresh (f.text.toList ++ EcmaPrune.layout f.boundary rest) =
      some (.lexeme f.lexeme, EcmaPrune.layout f.boundary rest) := by
  cases fits with
  | keyword isName | identifier isName =>
    exact readElement_word isName (flows.begins_apart rfl rfl)
  | @number text decimal =>
    have tail : Begins (EcmaPrune.layout .number rest) fun c => names.part c = false ∧ c ≠ '.' :=
      fun c first => ⟨flows.begins_apart rfl rfl c first, flows.begins_noPoint c first⟩
    rw [boundary_of_isDecimal decimal]
    obtain ⟨c, others, chars, digit⟩ := first_of_isDecimal decimal
    have first : Begins text.toList (·.isDigit) := by
      rw [chars]
      simpa [Begins] using digit
    change Scanner.readElement names .operand fresh (text.toList ++ _) =
      some (.lexeme (.numeral text), _)
    rw [readElement_numeral first (by simp [chars]) (numeral?_decimal decimal tail),
      String.ofList_toList]
  | @bigInt text integer =>
    have word : (Fragment.number (text ++ "n")).boundary = .word := by
      simp [Fragment.boundary]
    have inner : (text ++ "n").toList = text.toList ++ ['n'] := String.toList_append
    have tail : Begins (EcmaPrune.layout .word rest) (names.part · = false) :=
      flows.begins_apart rfl rfl
    have numeral := numeral?_big integer tail
    obtain ⟨c, others, chars, digit⟩ := first_of_isInteger integer
    have first : Begins (text.toList ++ ['n']) (·.isDigit) := by
      rw [chars]
      simpa [Begins] using digit
    rw [word]
    change Scanner.readElement names .operand fresh ((text ++ "n").toList ++ _) =
      some (.lexeme (.numeral (text ++ "n")), _)
    rw [inner, readElement_numeral first (by simp) (by simpa using numeral), ← inner,
      String.ofList_toList]
  | string value => exact readElement_string value
  | @regExp text isRegExp =>
    have tail := begins_behindRegExp isRegExp flows apart
    have nothing : ∀ c ∈ ([] : List Char), names.part c := by simp
    obtain ⟨none, all⟩ := takeWhile_append_of_begins nothing tail
    rw [List.nil_append] at none all
    change Scanner.readElement names .operand fresh (text.toList ++ _) =
      some (.lexeme (.literal text), _)
    rw [readElement_regExp isRegExp, none, all, List.append_nil, String.ofList_toList]
  | @mark goal mark isMark =>
    refine readElement_mark (marksAt_subset goal mark isMark) (flows.begins_mark isMark) ?_ ?_ ?_ ?_
    · rintro (rfl | rfl)
      · exact flows.begins_noDigit
      · exact flows.begins_noDigit
    · rintro rfl opening
      obtain ⟨others, rfl⟩ := flows.opening_iff.mp opening
      cases apart
    · rintro isFresh rfl
      obtain rfl := start isFresh
      exact flows.begins_noClosing
    · -- No operand begins with a division sign.
      have none : "/" ∉ marksAt .operand ∧ "/=" ∉ marksAt .operand := by decide
      rintro (rfl | rfl) rfl
      · exact none.1 isMark
      · exact none.2 isMark

/-- A mark that opens a comment is taken for one, with all of the line behind it. -/
theorem readElement_opening {tail : List Char} :
    Scanner.readElement names goal fresh ("<!--".toList ++ tail) =
      some (.comment (("<!--".toList ++ tail).takeWhile (!Text.endsLine ·)),
        ("<!--".toList ++ tail).dropWhile (!Text.endsLine ·)) := by
  have mark : commentMark? fresh ('<' :: '!' :: '-' :: '-' :: tail) = some "<!--" := rfl
  change Scanner.readElement names goal fresh ('<' :: '!' :: '-' :: '-' :: tail) = _
  rw [Scanner.readElement, if_neg (by decide), if_neg (by decide), mark]
  rfl

/-- A word begins with what could go on with another one. -/
theorem Fits.part_of_isWord {f : Fragment} (fits : Fits names goal f) (isWord : f.isWord) :
    ∃ c others, f.text.toList = c :: others ∧ names.part c := by
  cases fits with
  | keyword isName | identifier isName =>
    obtain ⟨c, others, chars, start, -⟩ := NameChars.isName_iff.mp isName
    exact ⟨c, others, chars, names.part_of_start c start⟩
  | number | bigInt | string | regExp | mark => cases isWord

/-- A fragment that is joined with what is behind it is not taken as it is. -/
theorem Fits.readElement_joined {f : Fragment} (fits : Fits names goal f)
    (flows : Flows names (goalBehind goal f.lexeme) rest last) (joined : f.joins rest) :
    ∃ element behind other,
      Scanner.readElement names goal fresh (f.text.toList ++ EcmaPrune.layout f.boundary rest) =
        some (element, behind) ∧ element.shown = [other] ∧ other ≠ .lexeme f.lexeme := by
  rcases Fragment.joins_cases joined with
    ⟨others, rfl, rfl⟩ | ⟨text, next, others, rfl, rfl, slash, isWord⟩
  · -- The three marks are read as one that opens a comment.
    obtain ⟨tail, opens⟩ := flows.opening_iff.mpr ⟨others, rfl⟩
    have whole : (Fragment.punct "<").text.toList ++ EcmaPrune.layout .none _ =
        "<!--".toList ++ tail := congrArg ('<' :: ·) opens.symm
    have read := @readElement_opening names goal fresh tail
    rw [← whole] at read
    exact ⟨_, _, _, read, rfl, by simp⟩
  · cases fits with
    | string value =>
      have ends : (Text.quoted value).toList.getLast? = some '"' := by
        rw [Text.toList_quoted, Text.quotedInside, ← List.cons_append, List.getLast?_append]
        rfl
      simp [ends] at slash
    | regExp isRegExp =>
      have close : (Fragment.literal text).boundary = .none := by
        rw [Fragment.boundary, slash]
        rfl
      cases flows with
      | cons nextFits later =>
        obtain ⟨c, chars, first, part⟩ := nextFits.part_of_isWord isWord
        refine ⟨_, _, _, readElement_regExp isRegExp, rfl, ?_⟩
        -- The word behind the slash is taken for flags, and the literal is longer for it.
        rw [close, nextFits.layout, Boundary.gap_none, first]
        intro same
        have longer := congrArg String.toList (Lexeme.literal.inj (InputElement.lexeme.inj same))
        simp [Fragment.text, part] at longer

/-- Whether each fragment is taken apart from what is behind it. -/
def keepApart : List Fragment → Bool
  | [] => true
  | f :: rest => !f.joins rest && keepApart rest

/-- A space before a fragment changes nothing. -/
theorem scan_gap (boundary : Boundary) (leading : Leading) (tail : List Char) :
    scan names goal fresh ((boundary.gap leading).toList ++ tail) = scan names goal fresh tail := by
  rcases boundary.gap_cases leading with gap | gap
  · rw [gap]
    rfl
  · rw [gap]
    exact scan_space

/-- The fragments are scanned as they are, exactly if each is kept apart from what is behind it. -/
theorem Flows.scan_eq_some_iff {fragments : List Fragment}
    (flows : Flows names goal fragments last) (start : fresh → goal = .operand)
    (boundary : Boundary) :
    scan names goal fresh (EcmaPrune.layout boundary fragments) =
        some (fragments.map fun f => .lexeme f.lexeme) ↔ keepApart fragments := by
  induction flows generalizing fresh boundary with
  | nil goal => simp [scan, keepApart]
  | @cons goal last f rest fits later ih =>
    rw [fits.layout, scan_gap]
    -- A fragment that is not taken as it is makes all of the scan differ.
    cases joined : f.joins rest with
    | false =>
      have read := fits.readElement later start joined
      have shorter : (EcmaPrune.layout f.boundary rest).length <
          (f.text.toList ++ EcmaPrune.layout f.boundary rest).length := by
        obtain ⟨c, others, chars, -⟩ := fits.opens
        rw [chars, List.length_append, List.length_cons]
        omega
      rw [scan_lexeme read shorter]
      simp [keepApart, joined, ← @ih false (by simp) f.boundary]
    | true =>
      obtain ⟨element, behind, other, read, shown, differs⟩ :=
        @Fits.readElement_joined _ _ _ fresh _ _ fits later joined
      obtain ⟨c, others, chars, -⟩ := fits.opens
      rw [chars, List.cons_append] at read ⊢
      rw [scan, read]
      simp only [shown, keepApart, joined, List.map_cons]
      split
      · simp [Option.map_eq_some_iff, differs]
      · simp

end Scanner

end EcmaPrune
