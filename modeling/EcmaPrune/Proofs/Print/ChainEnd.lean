import EcmaPrune.Proofs.Print.Layout
import EcmaPrune.Proofs.Print.Written

/-!
Where optional chains end in printed code.

A chain goes on over all links behind it. Where the tree says that it ends before a link, inside the
target of a constructor call or before a template, the text of the chain has to stand in
parentheses. Each of these places has a rule of its own in the printer, but for the template.
-/

namespace EcmaPrune

/-- A template begins with what is to be written before its first substitution. -/
theorem TemplatePart.tokensList_begins (before : String) (parts : List TemplatePart) :
    ∃ text trail, TemplatePart.tokensList before parts = .literal (before ++ text) :: trail := by
  rcases parts with _ | ⟨⟨value, tail⟩, rest⟩
  · exact ⟨_, _, rfl⟩
  · exact ⟨"$\x7b", value.tokens ++
      TemplatePart.tokensList ("\x7d" ++ Text.templateSegment tail) rest, rfl⟩

namespace Expr

/-- Whether an expression is a template. -/
def isTemplate : Expr → Bool
  | template .. => true
  | _ => false

/-- An expression and what the member accesses that it consists of lead to. -/
def accessed : Expr → List Expr
  | dot loc target name link isRemovable =>
    dot loc target name link isRemovable :: target.accessed
  | index loc target key link isRemovable =>
    index loc target key link isRemovable :: target.accessed
  | e => [e]

/--
The expression directly inside another one in which every optional chain has to end: a chain that is
the target of a link outside of it or the tag of a template, and the target of a constructor call if
it is a chain or leads to one.
-/
def closedOff? : Expr → Option Expr
  | dot _ target _ .plain _ | index _ target _ .plain _ | call _ target _ .plain _ _
  | template _ (some target) _ _ => if target.isChainLink then some target else none
  | new _ target _ _ => if target.accessed.any isChainLink then some target else none
  | _ => none

/-- What is written of an expression before the one in which a chain has to end. -/
def lead : Expr → List Token
  | new .. => [.keyword "new"]
  | _ => []

/-- Calls and links are taken for what needs parentheses behind `new`, at any depth. -/
theorem newTargetNeedsParens_of_accessed {target : Expr}
    (leads : target.accessed.any isChainLink) : target.newTargetNeedsParens := by
  induction target using induction_on_parts with
  | step target ih =>
    cases target with
    | dot _ target _ link _ | index _ target _ link _ =>
      rw [newTargetNeedsParens]
      cases link with
      -- A link that begins or continues a chain is seen at once; others are looked through.
      | plain =>
        have inside : target.accessed.any isChainLink := by
          simpa [accessed, isChainLink] using leads
        simp [ih target (by simp [parts]) inside]
      | start | continued => rfl
    | call => rfl
    | _ => simp [accessed, isChainLink] at leads

/-- A chain that is the target of a link outside of it is written in parentheses. -/
theorem enclosed_of_closedOff {target chain : Expr}
    (ends : (if target.isChainLink then some target else none) = some chain) :
    target.enclosed (target.targetParens .plain) = parenthesized chain.tokens := by
  obtain ⟨isLink, rfl⟩ : target.isChainLink ∧ target = chain := by simpa using ends
  simp [Expr.enclosed, targetParens, isLink]

/-- Where a chain has to end before anything but a template, it is written in parentheses. -/
theorem tokens_of_closedOff {parent chain : Expr} (ends : parent.closedOff? = some chain)
    (noTemplate : parent.isTemplate = false) :
    ∃ trail, parent.tokens = parent.lead ++ (parenthesized chain.tokens ++ trail) := by
  cases parent with
  | dot loc target name link isRemovable =>
    cases link with
    | plain => exact ⟨_, by rw [tokens_dot, enclosed_of_closedOff ends]; rfl⟩
    | start | continued => cases ends
  | index loc target key link isRemovable =>
    cases link with
    | plain => exact ⟨_, by rw [tokens_index, enclosed_of_closedOff ends]; rfl⟩
    | start | continued => cases ends
  | call loc target args link isPure kind =>
    cases link with
    | plain => exact ⟨_, by rw [tokens_call, enclosed_of_closedOff ends]; rfl⟩
    | start | continued => cases ends
  | new loc target args isPure =>
    simp only [closedOff?, Option.ite_none_right_eq_some, Option.some.injEq] at ends
    obtain ⟨leads, rfl⟩ := ends
    -- What the printer looks for behind `new` is no less than calls and links.
    have parens : target.newTargetParens := by
      simp [newTargetParens, newTargetNeedsParens_of_accessed leads]
    exact ⟨_, by rw [tokens_new, Expr.enclosed, if_pos parens]; rfl⟩
  | template => cases noTemplate
  | _ => cases ends

/-- A chain that is the tag of a template is written straight before it. -/
theorem tokens_of_closedOff_template {parent chain : Expr}
    (ends : parent.closedOff? = some chain) (isTemplate : parent.isTemplate) :
    ∃ text trail, parent.tokens = chain.tokens ++ .literal ("`" ++ text) :: trail := by
  cases parent with
  | template loc tag head parts =>
    cases tag with
    | none => cases ends
    | some tag =>
      obtain ⟨isLink, rfl⟩ : tag.isChainLink ∧ tag = chain := by simpa [closedOff?] using ends
      -- A chain is as strong as what a template may stand behind.
      have bare : Expr.tagTokens (some tag) = tag.tokens := by
        rw [tagTokens, guarded, if_neg (by simp [precedence_of_isChainLink isLink])]
      obtain ⟨text, trail, begins⟩ := TemplatePart.tokensList_begins
        (Text.templateMark.toString ++ Text.templateSegment head) parts
      refine ⟨Text.templateSegment head ++ text, trail, ?_⟩
      rw [Expr.tokens, bare, begins, String.append_assoc]
      rfl
  | _ => cases isTemplate

end Expr

/-- A text that a mark stands behind is not the one that another mark stands before. -/
theorem append_singleton_ne_cons {α : Type} [DecidableEq α] {last first : α}
    (distinct : last ≠ first) (inside : List α) : inside ++ [last] ≠ first :: inside := by
  intro same
  -- The mark behind is counted once more on one side.
  have counted := congrArg (List.count last) same
  simp [distinct.symm] at counted

/-- A text that goes on with a template does not stand in parentheses. -/
theorem template_ne_parenthesized {front gap inner rest back : String}
    (space : gap = "" ∨ gap = " ") :
    front ++ gap ++ inner ++ "`" ++ rest ≠ front ++ "(" ++ inner ++ ")" ++ back := by
  intro same
  have chars := congrArg String.toList same
  simp only [String.toList_append, List.append_assoc, List.append_cancel_left_eq] at chars
  obtain rfl | rfl := space
  · -- Without a space, the mark behind would have to be the parenthesis in front.
    have both : (inner.toList ++ ['`']) ++ rest.toList =
        ('(' :: inner.toList) ++ (')' :: back.toList) := by
      simpa using chars
    exact append_singleton_ne_cons (by decide) _ (List.append_inj both (by simp)).1
  · simp at chars

/--
Every optional chain that has to end inside a tree is written in parentheses exactly if it is not
the tag of a template.

This goes for each place of each expression that is written anywhere in the tree: `front` is the
text up to the chain there, and `inner` is the text of the chain.
-/
theorem Expr.chain_enclosed_iff {e parent chain : Expr} {table : SymbolTable} {text : String}
    (inside : parent ∈ e.written) (ends : parent.closedOff? = some chain)
    (printed : e.print table = .ok text) :
    parent.tokens <:+: e.tokens ∧
      ∀ before after, before ++ parent.tokens ++ after = e.tokens →
        ∃ front inner, printTokens table (before ++ parent.lead) = .ok front ∧
          chain.print table = .ok inner ∧
          ((∃ back, text = front ++ "(" ++ inner ++ ")" ++ back) ↔ parent.isTemplate = false) := by
  refine ⟨e.shows parent inside, fun before after stands => ?_⟩
  rw [Expr.print, ← stands] at printed
  cases isTemplate : parent.isTemplate with
  | false =>
    obtain ⟨trail, tokens⟩ := tokens_of_closedOff ends isTemplate
    have parts : printTokens table
        ((before ++ parent.lead) ++ (parenthesized chain.tokens ++ (trail ++ after))) =
          .ok text := by
      simpa [tokens] using printed
    obtain ⟨front, inner, back, frontPrinted, innerPrinted, -, same⟩ :=
      printTokens_parenthesized parts
    exact ⟨front, inner, frontPrinted, innerPrinted, by simpa using ⟨back, same⟩⟩
  | true =>
    obtain ⟨mark, trail, tokens⟩ := tokens_of_closedOff_template ends isTemplate
    have parts : printTokens table
        (before ++ (chain.tokens ++ .literal ("`" ++ mark) :: (trail ++ after))) = .ok text := by
      simpa [tokens] using printed
    obtain ⟨front, inner, gap, back, frontPrinted, innerPrinted, space, same⟩ :=
      printTokens_template parts
    have noLead : parent.lead = [] := by
      cases parent with
      | template => rfl
      | _ => cases isTemplate
    refine ⟨front, inner, by rwa [noLead, List.append_nil], innerPrinted, ?_⟩
    simpa [same] using fun back' => template_ne_parenthesized space

/-- In `function(){return new((a?.b).c)();}`, what is constructed leads to a chain. -/
theorem Expr.chain_enclosed_iff_new :
    let table : SymbolTable := ⟨#[⟨"a", .hoisted⟩]⟩
    let a := Expr.identifier default ⟨0⟩ false false
    let target := Expr.dot default (.dot default a "b" .start false) "c" .plain false
    let parent := Expr.new default target [] false
    let e := Expr.function default ⟨none, [], [.returnValue default (some parent)], false, false⟩
    let text := "function()\x7breturn new((a?.b).c)();\x7d"
    parent ∈ e.written ∧ parent.closedOff? = some target ∧ e.print table = .ok text ∧
      parent.tokens <:+: e.tokens ∧
        ∀ before after, before ++ parent.tokens ++ after = e.tokens →
          ∃ front inner, printTokens table (before ++ parent.lead) = .ok front ∧
            target.print table = .ok inner ∧
            ((∃ back, text = front ++ "(" ++ inner ++ ")" ++ back) ↔
              parent.isTemplate = false) := by
  intro table a target parent e text
  have inside : parent ∈ e.written := by
    simp [e, Expr.written, Func.written, Stmt.writtenList, Stmt.written, Expr.writtenOption,
      BindingElement.writtenList, parent]
  have printed : e.print table = .ok text := by decide +kernel
  exact ⟨inside, rfl, printed, Expr.chain_enclosed_iff inside rfl printed⟩

/-- The chain `a?.b` before a template is not enclosed, and no chain may stand there. -/
theorem Expr.chain_unenclosed_template :
    let table : SymbolTable := ⟨#[⟨"a", .hoisted⟩]⟩
    let chain := Expr.dot default (.identifier default ⟨0⟩ false false) "b" .start false
    let e := Expr.template default (some chain) (Text.units "x") []
    chain.isChainLink ∧ e.closedOff? = some chain ∧ e.print table = .ok "a?.b`x`" ∧
      chain.print table = .ok "a?.b" ∧
      ¬∃ front back, "a?.b`x`" = front ++ "(" ++ "a?.b" ++ ")" ++ back := by
  refine ⟨rfl, rfl, by decide +kernel, by decide +kernel, ?_⟩
  rintro ⟨front, back, same⟩
  have opens : '(' ∈ "a?.b`x`".toList := by simp [same]
  exact absurd opens (by decide)

end EcmaPrune
