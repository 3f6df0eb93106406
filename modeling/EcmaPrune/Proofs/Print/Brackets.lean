import EcmaPrune.Proofs.Print.ReadBack

/-!
Brackets in printed code.

Every bracket that an expression opens is closed again within it, and a semicolon stands in it only
between braces. A reader that looks for the end of an expression may thus pass over all that is in
brackets without reading it.
-/

namespace EcmaPrune

/-- The marks that open brackets. -/
def openingMarks : List String := ["(", "[", "\x7b"]

/-- The marks that close brackets. -/
def closingMarks : List String := [")", "]", "\x7d"]

/-- The number of open brackets behind a mark; outside of brackets, nothing can be closed or end. -/
def depthBehind (text : String) (depth : Nat) : Option Nat :=
  if text ∈ openingMarks then some (depth + 1)
  else if depth = 0 ∧ (text ∈ closingMarks ∨ text = ";") then none
  else if text ∈ closingMarks then some (depth - 1)
  else some depth

/-- What is left behind the first mark of a kind that stands outside of all brackets. -/
def behindMark (stop : String) (depth : Nat) : List Lexeme → Option (List Lexeme)
  | [] => none
  | .mark text :: rest =>
    if depth = 0 ∧ text = stop then some rest
    else (depthBehind text depth).bind fun depth => behindMark stop depth rest
  | _ :: rest => behindMark stop depth rest

/-- The number of open brackets behind a token. -/
def Token.depthBehind (depth : Nat) : Token → Option Nat
  | punct text => EcmaPrune.depthBehind text depth
  | _ => some depth

/-- Tokens that close the brackets they open, given how many brackets are open around them. -/
def Balanced (least : Nat) (tokens : List Token) : Prop :=
  ∀ depth, least ≤ depth → tokens.foldlM Token.depthBehind depth = some depth

/-- A token that has nothing to do with brackets and ends nothing. -/
def Token.isFlat : Token → Bool
  | punct text => !(openingMarks.contains text || closingMarks.contains text || text == ";")
  | _ => true

theorem Token.depthBehind_of_isFlat {token : Token} (flat : token.isFlat) (depth : Nat) :
    token.depthBehind depth = some depth := by
  cases token with
  | punct text => simp_all [isFlat, depthBehind, EcmaPrune.depthBehind]
  | _ => rfl

theorem Operator.isFlat_text (op : Operator) : (Token.punct op.text).isFlat := by
  cases op <;> decide

theorem Operator.isFlat_token (op : Operator) : op.token.isFlat := by
  cases op <;> decide

namespace Balanced

variable {least : Nat} {tokens more : List Token}

theorem nil : Balanced least [] := fun _ _ => rfl

theorem append (first : Balanced least tokens) (second : Balanced least more) :
    Balanced least (tokens ++ more) := by
  intro depth enough
  rw [List.foldlM_append, first depth enough]
  exact second depth enough

/-- What is behind balanced tokens is balanced if all of it is. -/
theorem of_append (first : Balanced least tokens) (both : Balanced least (tokens ++ more)) :
    Balanced least more := by
  intro depth enough
  -- The tokens in front leave the depth as it was.
  have all := both depth enough
  rwa [List.foldlM_append, first depth enough] at all

theorem cons {token : Token} (flat : token.isFlat) (rest : Balanced least tokens) :
    Balanced least (token :: tokens) := by
  intro depth enough
  rw [List.foldlM_cons, Token.depthBehind_of_isFlat flat]
  exact rest depth enough

/-- Between brackets, semicolons end nothing that is outside. -/
theorem semicolon (rest : Balanced 1 tokens) : Balanced 1 (.punct ";" :: tokens) := by
  intro depth enough
  have inside : Token.depthBehind depth (.punct ";") = some depth := by
    simp [Token.depthBehind, depthBehind, openingMarks, closingMarks, Nat.ne_of_gt enough]
  rw [List.foldlM_cons, inside]
  exact rest depth enough

theorem everywhere (flat : Balanced 0 tokens) : Balanced least tokens :=
  fun depth _ => flat depth (Nat.zero_le depth)

/-- What is between brackets is one level deeper, whatever is around them. -/
theorem grouped {first last : String} (opens : first ∈ openingMarks) (closes : last ∈ closingMarks)
    (within : Balanced 1 tokens) : Balanced least (.punct first :: tokens ++ [.punct last]) := by
  intro depth _
  -- What closes brackets opens none.
  have distinct : last ∉ openingMarks := by
    intro opening
    simp only [closingMarks, openingMarks, List.mem_cons, List.not_mem_nil, or_false] at *
    obtain rfl | rfl | rfl := closes <;> simp at opening
  have deeper : Token.depthBehind depth (.punct first) = some (depth + 1) := by
    simp [Token.depthBehind, depthBehind, opens]
  have back : Token.depthBehind (depth + 1) (.punct last) = some depth := by
    simp [Token.depthBehind, depthBehind, closes, distinct]
  simp only [List.foldlM_append, List.foldlM_cons, List.foldlM_nil, deeper, back,
    Option.bind_eq_bind, Option.bind_some, within (depth + 1) (Nat.le_add_left 1 depth),
    Option.pure_def]

theorem parenthesized (within : Balanced 1 tokens) :
    Balanced least (parenthesized tokens) :=
  grouped (by decide) (by decide) within

theorem bracketed (within : Balanced 1 tokens) : Balanced least (bracketed tokens) :=
  grouped (by decide) (by decide) within

theorem braced (within : Balanced 1 tokens) : Balanced least (braced tokens) :=
  grouped (by decide) (by decide) within

theorem separated {items : List (List Token)} (each : ∀ item ∈ items, Balanced least item) :
    Balanced least (commaSeparated items) := by
  fun_induction commaSeparated items with
  | case1 => exact nil
  | case2 tokens => exact each tokens (by simp)
  | case3 tokens rest _ others =>
    have later := others fun item member => each item (by simp [member])
    exact (each tokens (by simp)).append (.cons rfl later)

theorem ite {c : Prop} [Decidable c] (yes : Balanced least tokens) (no : Balanced least more) :
    Balanced least (if c then tokens else more) := by
  split
  · exact yes
  · exact no

theorem guarded {e : Expr} (tokens : Balanced 0 e.tokens) (strength : Nat) :
    Balanced least (e.guarded strength e.tokens) :=
  .ite (.parenthesized tokens.everywhere) tokens.everywhere

theorem enclosed {e : Expr} (tokens : Balanced 0 e.tokens) (parens : Bool) :
    Balanced least (e.enclosed parens) :=
  .ite (.parenthesized tokens.everywhere) tokens.everywhere

theorem keyTokens {key : Expr} (tokens : Balanced 0 key.tokens) (isComputed : Bool) :
    Balanced least (key.keyTokens isComputed key.tokens) := by
  unfold Expr.keyTokens
  split
  · exact .bracketed (tokens.guarded _)
  · split
    · exact .cons (by simp only [keyToken]; split <;> rfl) .nil
    · exact tokens.guarded _

end Balanced

theorem Number.balanced (x : Number) : Balanced 0 x.tokens :=
  .ite (.cons rfl .nil)
    (.append (.ite (.cons rfl .nil) .nil) (.ite (.cons rfl .nil) (.cons rfl .nil)))

theorem ChainLink.balanced_mark (link : ChainLink) : Balanced 0 link.mark := by
  cases link with
  | start => exact .cons rfl .nil
  | _ => exact .nil

theorem balanced_asyncTokens {least : Nat} (isAsync : Bool) :
    Balanced least (asyncTokens isAsync) :=
  .ite (.cons rfl .nil) .nil

theorem balanced_generatorTokens {least : Nat} (isGenerator : Bool) :
    Balanced least (generatorTokens isGenerator) :=
  .ite (.cons rfl .nil) .nil

theorem balanced_exportTokens {least : Nat} (isExport : Bool) :
    Balanced least (exportTokens isExport) :=
  .ite (.cons rfl .nil) .nil

/-- Names and keywords alone have nothing to do with brackets. -/
theorem balanced_of_flat {least : Nat} {tokens : List Token}
    (flat : ∀ token ∈ tokens, token.isFlat) : Balanced least tokens := by
  induction tokens with
  | nil => exact .nil
  | cons token rest ih =>
    exact .cons (flat token (by simp)) (ih fun other member => flat other (by simp [member]))

theorem balanced_symbols {least : Nat} (name : Option Ref) :
    Balanced least (name.map Token.symbol).toList :=
  balanced_of_flat (by simp [Token.isFlat])

theorem balanced_jumpTokens (keyword : String) (target : Option String) :
    Balanced 1 (jumpTokens keyword target) :=
  .cons rfl (.append (balanced_of_flat (by simp [Token.isFlat])) (.semicolon .nil))

theorem balanced_exportClauseTokens {least : Nat} (items : List ClauseItem) :
    Balanced least (exportClauseTokens items) := by
  refine .braced (.separated fun item member => ?_)
  obtain ⟨clause, -, rfl⟩ := List.mem_map.mp member
  exact .cons rfl (.ite .nil (.cons rfl (.cons rfl .nil)))

theorem balanced_importTokens {least : Nat} (default : Option Ref) (items : List ClauseItem)
    (namespaceRef : Option Ref) : Balanced least (importTokens default items namespaceRef) := by
  refine .ite .nil (.append (.separated fun names member => ?_) (.cons rfl .nil))
  -- What is imported is a default, all of a module, or names in braces.
  obtain ⟨ref, -, rfl⟩ | ⟨ref, -, rfl⟩ | ⟨-, rfl⟩ : (∃ ref ∈ default, [Token.symbol ref] = names) ∨
      (∃ ref ∈ namespaceRef, [Token.punct "*", .keyword "as", .symbol ref] = names) ∨
        items.isEmpty = false ∧ names = braced (commaSeparated (items.map fun item =>
          [Token.imported item.exportedName item.ref])) := by
    simpa [or_assoc] using member
  · exact .cons rfl .nil
  · exact .cons rfl (.cons rfl (.cons rfl .nil))
  · refine .braced (.separated fun item member => ?_)
    obtain ⟨clause, -, rfl⟩ := List.mem_map.mp member
    exact .cons rfl .nil

theorem PropertyKind.balanced_methodTokens {least : Nat} (kind : PropertyKind) (func : Func) :
    Balanced least (kind.methodTokens func) := by
  cases kind with
  | getter | setter => exact .cons rfl .nil
  | normal | spread | method =>
    exact .append (balanced_asyncTokens _) (balanced_generatorTokens _)

/-- What a function has behind its name is balanced if the whole function is. -/
theorem Func.balanced_restTokens (f : Func) (whole : Balanced 0 f.tokens) :
    Balanced 0 f.restTokens := by
  rcases f with ⟨name, params, body, isAsync, isGenerator⟩
  -- The words and names in front have nothing to do with brackets.
  have before : Balanced 0 (asyncTokens isAsync ++ .keyword "function" ::
      generatorTokens isGenerator ++ (name.map Token.symbol).toList) :=
    .append (.append (balanced_asyncTokens isAsync)
      (.cons rfl (balanced_generatorTokens isGenerator))) (balanced_symbols name)
  rw [Func.tokens, List.append_assoc _ (parenthesized _)] at whole
  exact before.of_append whole

/-- A member is balanced if its parts are; a method is written without the mark of its value. -/
theorem Property.balanced_of_parts {least : Nat} {kind : PropertyKind} {isComputed isStatic : Bool}
    {key : Expr} {value initializer : Option Expr} (onKey : Balanced 0 key.tokens)
    (onSpread : Balanced 0 (Expr.spreadTokens value))
    (onValue : Balanced 0 (Expr.valueTokens value))
    (onInitializer : Balanced 0 (Expr.initializerTokens initializer)) :
    Balanced least (Property.tokens ⟨kind, isComputed, isStatic, key, value, initializer⟩) := by
  have fixed : Balanced least (if isStatic then [Token.keyword "static"] else []) :=
    .ite (.cons rfl .nil) .nil
  have named : Balanced least (key.keyTokens isComputed key.tokens) := onKey.keyTokens isComputed
  cases kind with
  | spread => exact .cons rfl onSpread.everywhere
  | normal =>
    exact .append (.append (.append fixed named) onValue.everywhere) onInitializer.everywhere
  | method | getter | setter =>
    have plain : Balanced least (key.keyTokens isComputed key.tokens ++ Expr.valueTokens value ++
        Expr.initializerTokens initializer) :=
      .append (.append named onValue.everywhere) onInitializer.everywhere
    cases value with
    | none => exact .append fixed plain
    | some e =>
      cases e with
      | function _ func =>
        have mark : Balanced 0 [.punct ":"] := .cons rfl .nil
        have whole : Balanced 0 func.tokens := mark.of_append onValue
        exact .append fixed (.append (.append (PropertyKind.balanced_methodTokens _ func) named)
          (func.balanced_restTokens whole).everywhere)
      | _ => exact .append fixed plain

mutual

/-- The tokens of an expression close every bracket they open. -/
theorem Expr.balanced : (e : Expr) → Balanced 0 e.tokens
  | .array _ items =>
    .bracketed (.append (.separated (Expr.balancedList items)) (.ite (.cons rfl .nil) .nil))
  | .arrow _ params body isAsync prefersExpr => by
    have whole : Balanced 0 (braced (Stmt.tokensList body)) := .braced (Stmt.balancedList body)
    have short : Balanced 0 ((Stmt.conciseTokens? body).getD (braced (Stmt.tokensList body))) := by
      cases concise : Stmt.conciseTokens? body with
      | none => exact whole
      | some tokens => exact Stmt.balanced_conciseTokens body tokens concise
    exact .append (.append (balanced_asyncTokens isAsync)
      (.parenthesized (.separated (BindingElement.balancedList params))))
      (.cons rfl (.ite short whole))
  | .bigInt .. | .boolean .. | .identifier .. | .importIdentifier .. | .null _ | .regExp ..
  | .string .. | .this _ => .cons rfl .nil
  | .binary loc op left right => by
    rw [Expr.tokens_binary]
    exact ((Expr.balanced left).enclosed _).append
      (.cons op.isFlat_token ((Expr.balanced right).enclosed _))
  | .call _ target args link _ _ => by
    have reached : Balanced 0 (target.guardedTarget link target.tokens) := by
      rw [Expr.guardedTarget_eq]
      exact (Expr.balanced target).enclosed _
    exact (reached.append link.balanced_mark).append
      (.parenthesized (.separated (Expr.balancedList args)))
  | .classExpr _ definition => Class.balanced definition
  | .dot loc target name link isRemovable => by
    have mark : (Token.punct (if link == .start then "?." else ".")).isFlat := by
      cases link <;> rfl
    rw [Expr.tokens_dot]
    exact ((Expr.balanced target).enclosed _).append (.cons mark (.cons rfl .nil))
  | .function _ func => Func.balanced func
  | .conditional loc test yes no => by
    rw [Expr.tokens_conditional]
    exact ((Expr.balanced test).enclosed _).append (.cons rfl
      (((Expr.balanced yes).enclosed _).append (.cons rfl ((Expr.balanced no).enclosed _))))
  | .importMeta _ => .cons rfl (.cons rfl (.cons rfl .nil))
  | .index _ target key link _ => by
    have reached : Balanced 0 (target.guardedTarget link target.tokens) := by
      rw [Expr.guardedTarget_eq]
      exact (Expr.balanced target).enclosed _
    exact (reached.append link.balanced_mark).append (.bracketed (Expr.balanced key).everywhere)
  | .inlinedEnum _ value _ => Expr.balanced value
  | .missing _ => .nil
  | .new _ target args _ => by
    have reached : Balanced 0 (if target.newTargetNeedsParens then parenthesized target.tokens
        else target.guarded memberPrecedence target.tokens) :=
      .ite (.parenthesized (Expr.balanced target).everywhere) ((Expr.balanced target).guarded _)
    exact .append (.cons rfl reached) (.parenthesized (.separated (Expr.balancedList args)))
  | .number _ value => value.balanced
  | .object _ properties => .braced (.separated (Property.balancedList properties))
  | .spread _ value => .cons rfl ((Expr.balanced value).guarded _)
  | .template _ tag head parts =>
    .append (Expr.balanced_tagTokens tag) (TemplatePart.balancedList _ parts)
  | .unary _ op value _ =>
    .ite (.cons op.isFlat_token ((Expr.balanced value).guarded _))
      (((Expr.balanced value).guarded _).append (.cons op.isFlat_text .nil))
  | .undefined _ => .cons rfl (.cons rfl .nil)

/-- A list item may stand in brackets or in none. -/
theorem Expr.balancedList {least : Nat} :
    (items : List Expr) → ∀ tokens ∈ Expr.tokensList items, Balanced least tokens
  | [], _, member => (List.not_mem_nil member).elim
  | e :: rest, tokens, member => by
    rcases List.mem_cons.mp member with rfl | later
    · exact (Expr.balanced e).guarded _
    · exact Expr.balancedList rest tokens later

theorem Expr.balanced_initializerTokens {least : Nat} :
    (e : Option Expr) → Balanced least (Expr.initializerTokens e)
  | none => .nil
  | some e => .cons rfl ((Expr.balanced e).guarded _)

theorem Expr.balanced_tagTokens : (tag : Option Expr) → Balanced 0 (Expr.tagTokens tag)
  | none => .nil
  | some tag => (Expr.balanced tag).guarded _

/-- The text around the substitutions of a template hides the braces that are in it. -/
theorem TemplatePart.balancedList :
    (before : String) → (parts : List TemplatePart) →
      Balanced 0 (TemplatePart.tokensList before parts)
  | _, [] => .cons rfl .nil
  | _, ⟨value, _⟩ :: rest =>
    .append (.cons rfl (Expr.balanced value)) (TemplatePart.balancedList _ rest)

theorem Property.balanced {least : Nat} : (p : Property) → Balanced least p.tokens
  | ⟨_, _, _, key, value, initializer⟩ =>
    Property.balanced_of_parts (Expr.balanced key) (Expr.balanced_spreadTokens value)
      (Expr.balanced_valueTokens value) (Expr.balanced_initializerTokens initializer)

theorem Expr.balanced_spreadTokens {least : Nat} :
    (e : Option Expr) → Balanced least (Expr.spreadTokens e)
  | none => .nil
  | some e => (Expr.balanced e).guarded _

theorem Expr.balanced_valueTokens {least : Nat} :
    (e : Option Expr) → Balanced least (Expr.valueTokens e)
  | none => .nil
  | some e => .cons rfl ((Expr.balanced e).guarded _)

theorem Property.balancedList {least : Nat} :
    (properties : List Property) → ∀ tokens ∈ Property.tokensList properties, Balanced least tokens
  | [], _, member => (List.not_mem_nil member).elim
  | p :: rest, tokens, member => by
    rcases List.mem_cons.mp member with rfl | later
    · exact Property.balanced p
    · exact Property.balancedList rest tokens later

theorem Func.balanced {least : Nat} : (f : Func) → Balanced least f.tokens
  | ⟨name, params, body, isAsync, isGenerator⟩ =>
    .append (.append (.append (.append (balanced_asyncTokens isAsync)
      (.cons rfl (balanced_generatorTokens isGenerator))) (balanced_symbols name))
      (.parenthesized (.separated (BindingElement.balancedList params))))
      (.braced (Stmt.balancedList body))

theorem ClassMember.balancedList :
    (members : List ClassMember) → Balanced 1 (ClassMember.tokensList members)
  | [] => .nil
  | .property property :: rest =>
    .append (.append (Property.balanced property) (.ite (.semicolon .nil) .nil))
      (ClassMember.balancedList rest)
  | .staticBlock body :: rest =>
    .append (.cons rfl (.braced (Stmt.balancedList body))) (ClassMember.balancedList rest)

theorem Class.balanced {least : Nat} : (definition : Class) → Balanced least definition.tokens
  | ⟨name, superclass, members⟩ =>
    .append (.append (.cons rfl (balanced_symbols name))
      (Expr.balanced_superclassTokens superclass)) (.braced (ClassMember.balancedList members))

theorem Expr.balanced_superclassTokens {least : Nat} :
    (e : Option Expr) → Balanced least (Expr.superclassTokens e)
  | none => .nil
  | some e => .cons rfl ((Expr.balanced e).guarded _)

theorem Binding.balanced {least : Nat} : (b : Binding) → Balanced least b.tokens
  | .array _ items hasSpread =>
    .bracketed (.append (.separated (BindingElement.balanced_patternTokens hasSpread items))
      (.ite (.cons rfl .nil) .nil))
  | .identifier .. => .cons rfl .nil
  | .missing _ => .nil
  | .object _ properties => .braced (.separated (PropertyPattern.balancedList properties))

theorem BindingElement.balanced {least : Nat} :
    (element : BindingElement) → Balanced least element.tokens
  | ⟨binding, initializer⟩ =>
    .append (Binding.balanced binding) (Expr.balanced_initializerTokens initializer)

theorem BindingElement.balancedList {least : Nat} :
    (items : List BindingElement) →
      ∀ tokens ∈ BindingElement.tokensList items, Balanced least tokens
  | [], _, member => (List.not_mem_nil member).elim
  | e :: rest, tokens, member => by
    rcases List.mem_cons.mp member with rfl | later
    · exact BindingElement.balanced e
    · exact BindingElement.balancedList rest tokens later

theorem BindingElement.balanced_patternTokens {least : Nat} (hasSpread : Bool) :
    (items : List BindingElement) →
      ∀ tokens ∈ BindingElement.patternTokens hasSpread items, Balanced least tokens
  | [], _, member => (List.not_mem_nil member).elim
  | e :: rest, tokens, member => by
    rcases List.mem_cons.mp member with rfl | later
    · exact .append (.ite (.cons rfl .nil) .nil) (BindingElement.balanced e)
    · exact BindingElement.balanced_patternTokens hasSpread rest tokens later

theorem PropertyPattern.balancedList {least : Nat} :
    (properties : List PropertyPattern) →
      ∀ tokens ∈ PropertyPattern.tokensList properties, Balanced least tokens
  | [], _, member => (List.not_mem_nil member).elim
  | ⟨key, isComputed, isSpread, ⟨binding, initializer⟩⟩ :: rest, tokens, member => by
    rcases List.mem_cons.mp member with rfl | later
    · exact .ite (.cons rfl (Binding.balanced binding))
        (.append (.append ((Expr.balanced key).keyTokens isComputed)
          (.cons rfl (Binding.balanced binding))) (Expr.balanced_initializerTokens initializer))
    · exact PropertyPattern.balancedList rest tokens later

theorem Stmt.balanced_conciseTokens :
    (body : List Stmt) → ∀ tokens ∈ Stmt.conciseTokens? body, Balanced 0 tokens
  | [], _, concise => nomatch concise
  | s :: rest, tokens, concise => by
    cases s with
    | returnValue loc value =>
      cases value with
      | none => cases concise
      | some value =>
        cases rest with
        | nil =>
          obtain rfl := Option.some.inj concise
          exact .ite (.parenthesized (Expr.balanced value).everywhere)
            ((Expr.balanced value).guarded _)
        | cons => cases concise
    | _ => cases concise

/-- The tokens of a statement may hold semicolons outside of brackets of their own. -/
theorem Stmt.balanced : (s : Stmt) → Balanced 1 s.tokens
  | .block _ body => .braced (Stmt.balancedList body)
  | .breakTo _ target => balanced_jumpTokens _ target
  | .classDecl _ definition isExport =>
    .append (balanced_exportTokens isExport) (Class.balanced definition)
  | .continueTo _ target => balanced_jumpTokens _ target
  | .debugger _ => .cons rfl (.semicolon .nil)
  | .doWhile _ body test =>
    .append (.append (.cons rfl (Stmt.balanced body))
      (.cons rfl (.parenthesized (Expr.balanced test).everywhere))) (.semicolon .nil)
  | .empty _ => .semicolon .nil
  | .exportClause _ items =>
    .append (.cons rfl (balanced_exportClauseTokens items)) (.semicolon .nil)
  | .exportDefaultClass _ _ definition _ => .cons rfl (.cons rfl (Class.balanced definition))
  | .exportDefaultExpr _ _ value =>
    .append (.cons rfl (.cons rfl (.ite (.parenthesized (Expr.balanced value).everywhere)
      ((Expr.balanced value).guarded _)))) (.semicolon .nil)
  | .exportDefaultFunction _ _ func _ => .cons rfl (.cons rfl (Func.balanced func))
  | .exportFrom _ items _ =>
    .append (.cons rfl (balanced_exportClauseTokens items))
      (.cons rfl (.cons rfl (.semicolon .nil)))
  | .expr _ value _ =>
    .append (.ite (.parenthesized (Expr.balanced value).everywhere)
      (Expr.balanced value).everywhere) (.semicolon .nil)
  | .function _ func isExport =>
    .append (balanced_exportTokens isExport) (Func.balanced func)
  | .ifElse _ test yes no =>
    .append (.append (.cons rfl (.parenthesized (Expr.balanced test).everywhere))
      (.ite (.braced (Stmt.balanced yes)) (Stmt.balanced yes))) (Stmt.balanced_elseTokens no)
  | .importFrom _ default items namespaceRef _ =>
    .append (.cons rfl (balanced_importTokens default items namespaceRef))
      (.cons rfl (.semicolon .nil))
  | .label _ _ stmt => .cons rfl (.cons rfl (Stmt.balanced stmt))
  | .localDecl _ _ decls isExport =>
    .append (.append (balanced_exportTokens isExport)
      (.cons rfl (.separated (BindingElement.balancedList decls)))) (.semicolon .nil)
  | .returnValue _ value =>
    .append (.cons rfl (Expr.balanced_tokensOption value)) (.semicolon .nil)
  | .throwValue _ value => .append (.cons rfl (Expr.balanced value).everywhere) (.semicolon .nil)
  | .tryCatch _ body handler finalizer =>
    .append (.append (.cons rfl (.braced (Stmt.balancedList body)))
      (Catch.balanced_tokensOption handler)) (Stmt.balanced_finallyTokens finalizer)
  | .whileLoop _ test body =>
    .append (.cons rfl (.parenthesized (Expr.balanced test).everywhere)) (Stmt.balanced body)
  | .withObject _ value body =>
    .append (.cons rfl (.parenthesized (Expr.balanced value).everywhere)) (Stmt.balanced body)

theorem Expr.balanced_tokensOption {least : Nat} :
    (e : Option Expr) → Balanced least (Expr.tokensOption e)
  | none => .nil
  | some e => (Expr.balanced e).everywhere

theorem Stmt.balancedList : (body : List Stmt) → Balanced 1 (Stmt.tokensList body)
  | [] => .nil
  | s :: rest => .append (Stmt.balanced s) (Stmt.balancedList rest)

theorem Stmt.balanced_elseTokens : (s : Option Stmt) → Balanced 1 (Stmt.elseTokens s)
  | none => .nil
  | some s => .cons rfl (Stmt.balanced s)

theorem Catch.balanced_tokensOption : (handler : Option Catch) →
    Balanced 1 (Catch.tokensOption handler)
  | none => .nil
  | some ⟨binding, body⟩ =>
    .append (.cons rfl (Binding.balanced_caughtTokens binding)) (.braced (Stmt.balancedList body))

theorem Binding.balanced_caughtTokens : (b : Option Binding) → Balanced 1 (Binding.caughtTokens b)
  | none => .nil
  | some b => .parenthesized (Binding.balanced b)

theorem Stmt.balanced_finallyTokens :
    (body : Option (List Stmt)) → Balanced 1 (Stmt.finallyTokens body)
  | none => .nil
  | some body => .cons rfl (.braced (Stmt.balancedList body))

end

section

variable (table : SymbolTable)

/-- The name that a reference is written by; one without a name is not written at all. -/
def SymbolTable.written (ref : Ref) : String := (table.name? ref).getD ""

/-- What a reader sees of a token. -/
def Token.lexemes : Token → List Lexeme
  | keyword text | identifier text => [.word text]
  | number text => [.numeral text]
  | punct text => [.mark text]
  | literal text => [.literal text]
  | symbol ref => [.word (table.written ref)]
  | imported name ref =>
    .word name :: (if table.written ref == name then []
      else [.word "as", .word (table.written ref)])

/-- What a reader sees of tokens. -/
def lexemesOf (tokens : List Token) : List Lexeme := tokens.flatMap (Token.lexemes table)

@[simp]
theorem lexemesOf_nil : lexemesOf table [] = [] := rfl

@[simp]
theorem lexemesOf_cons (token : Token) (rest : List Token) :
    lexemesOf table (token :: rest) = token.lexemes table ++ lexemesOf table rest := rfl

@[simp]
theorem lexemesOf_append (tokens more : List Token) :
    lexemesOf table (tokens ++ more) = lexemesOf table tokens ++ lexemesOf table more :=
  List.flatMap_append

variable {table}

/-- A reference that can be printed is written by its name. -/
theorem SymbolTable.resolve_eq_ok {ref : Ref} {name : String}
    (named : table.resolve ref = .ok name) : name = table.written ref := by
  unfold resolve at named
  unfold written
  cases found : table.name? ref with
  | none => rw [found] at named; cases named
  | some other => rw [found] at named; exact (Except.ok.inj named).symm

theorem Token.lexemes_of_fragments {token : Token} {fragments : List Fragment}
    (written : token.fragments table = .ok fragments) :
    fragments.map Fragment.lexeme = token.lexemes table := by
  cases token with
  | symbol ref =>
    rw [Token.fragments] at written
    cases named : table.resolve ref with
    | error => rw [named] at written; cases written
    | ok name =>
      rw [named] at written
      obtain rfl := Except.ok.inj written
      rw [SymbolTable.resolve_eq_ok named]
      rfl
  | imported name ref =>
    rw [Token.fragments] at written
    cases named : table.resolve ref with
    | error => rw [named] at written; cases written
    | ok localName =>
      rw [named] at written
      obtain rfl := Except.ok.inj written
      rw [Token.lexemes, ← SymbolTable.resolve_eq_ok named]
      cases localName == name <;> rfl
  | keyword | identifier | number | punct | literal =>
    obtain rfl := Except.ok.inj written
    rfl

/-- Tokens that can be printed are seen by a reader one after another. -/
theorem lexemes_of_fragmentsOf {tokens : List Token} {fragments : List Fragment}
    (written : fragmentsOf table tokens = .ok fragments) :
    fragments.map Fragment.lexeme = lexemesOf table tokens := by
  induction tokens generalizing fragments with
  | nil =>
    obtain rfl := Except.ok.inj written
    rfl
  | cons token rest ih =>
    rw [fragmentsOf] at written
    cases first : token.fragments table with
    | error => rw [first] at written; cases written
    | ok fragments =>
      cases others : fragmentsOf table rest with
      | error => rw [first, others] at written; cases written
      | ok more =>
        rw [first, others] at written
        obtain rfl := Except.ok.inj written
        rw [List.map_append, Token.lexemes_of_fragments first, ih others, lexemesOf_cons]

/-- A reader that looks for a mark outside of all brackets passes over balanced tokens. -/
theorem behindMark_of_depth {stop : String} (ends : depthBehind stop 0 = none)
    (tokens : List Token) {depth last : Nat} (rest : List Lexeme)
    (balanced : tokens.foldlM Token.depthBehind depth = some last) :
    behindMark stop depth (lexemesOf table tokens ++ rest) = behindMark stop last rest := by
  induction tokens generalizing depth with
  | nil =>
    obtain rfl := Option.some.inj balanced
    rfl
  | cons token others ih =>
    rw [List.foldlM_cons] at balanced
    rw [lexemesOf_cons, List.append_assoc]
    cases token with
    | punct text =>
      obtain ⟨next, opened, later⟩ := Option.bind_eq_some_iff.mp balanced
      -- Where the mark would end the search, no more brackets could be closed.
      have notYet : ¬(depth = 0 ∧ text = stop) := by
        rintro ⟨rfl, rfl⟩
        rw [Token.depthBehind, ends] at opened
        cases opened
      have open' : depthBehind text depth = some next := opened
      rw [Token.lexemes, List.singleton_append, behindMark, if_neg notYet, open']
      exact ih later
    | keyword | identifier | number | literal | symbol => exact ih balanced
    | imported name ref =>
      rw [Token.lexemes]
      cases table.written ref == name <;> exact ih balanced

end

end EcmaPrune
