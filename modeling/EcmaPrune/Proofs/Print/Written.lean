import EcmaPrune.Proofs.Print.ReadBack

/-!
The expressions that printing a tree writes.

Each of them is written as it would be on its own: its tokens stand among those of the tree in one
piece. What the printer leaves out is not among them, such as the initializer of a method.
-/

namespace EcmaPrune

/-- What is written of a key: a string that is not computed is written as a name or a literal. -/
def Expr.writtenKey (key : Expr) (isComputed : Bool) (inside : List Expr) : List Expr :=
  if isComputed then inside
  else match key with
    | .string .. => []
    | _ => inside

mutual

/-- The expressions that printing an expression writes, first of all itself. -/
def Expr.written (e : Expr) : List Expr :=
  e :: match e with
    | .array _ items => Expr.writtenList items
    | .arrow _ params body _ _ => BindingElement.writtenList params ++ Stmt.writtenList body
    | .binary _ _ left right => left.written ++ right.written
    | .call _ target args _ _ _ => target.written ++ Expr.writtenList args
    | .classExpr _ definition => definition.written
    | .dot _ target _ _ _ => target.written
    | .function _ func => func.written
    | .conditional _ test yes no => test.written ++ (yes.written ++ no.written)
    | .index _ target key _ _ => target.written ++ key.written
    | .inlinedEnum _ value _ => value.written
    | .new _ target args _ => target.written ++ Expr.writtenList args
    | .object _ properties => Property.writtenList properties
    | .spread _ value => value.written
    | .template _ tag _ parts => Expr.writtenOption tag ++ TemplatePart.writtenList parts
    | .unary _ _ value _ => value.written
    | .bigInt .. | .boolean .. | .identifier .. | .importIdentifier .. | .importMeta _
    | .missing _ | .null _ | .number .. | .regExp .. | .string .. | .this _ | .undefined _ => []

/-- The expressions written of a list. -/
def Expr.writtenList : List Expr → List Expr
  | [] => []
  | e :: rest => e.written ++ Expr.writtenList rest

/-- The expressions written of one that may be absent. -/
def Expr.writtenOption : Option Expr → List Expr
  | none => []
  | some e => e.written

/-- The expressions written of the substitutions of a template. -/
def TemplatePart.writtenList : List TemplatePart → List Expr
  | [] => []
  | ⟨value, _⟩ :: rest => value.written ++ TemplatePart.writtenList rest

/-- The expressions written of a member: no key of a spread, and no initializer of a method. -/
def Property.written : Property → List Expr
  | ⟨.spread, _, _, _, value, _⟩ => Expr.writtenOption value
  | ⟨.normal, isComputed, _, key, value, initializer⟩ =>
    key.writtenKey isComputed key.written ++ Expr.writtenOption value ++
      Expr.writtenOption initializer
  | ⟨_, isComputed, _, key, value, initializer⟩ =>
    match value with
    | some (.function _ func) => key.writtenKey isComputed key.written ++ func.written
    | value =>
      key.writtenKey isComputed key.written ++ Expr.writtenOption value ++
        Expr.writtenOption initializer

/-- The expressions written of members in turn. -/
def Property.writtenList : List Property → List Expr
  | [] => []
  | p :: rest => p.written ++ Property.writtenList rest

/-- The expressions written of a function. -/
def Func.written : Func → List Expr
  | ⟨_, params, body, _, _⟩ => BindingElement.writtenList params ++ Stmt.writtenList body

/-- The expressions written of a class body. -/
def ClassMember.writtenList : List ClassMember → List Expr
  | [] => []
  | .property property :: rest => property.written ++ ClassMember.writtenList rest
  | .staticBlock body :: rest => Stmt.writtenList body ++ ClassMember.writtenList rest

/-- The expressions written of a class. -/
def Class.written : Class → List Expr
  | ⟨_, superclass, members⟩ => Expr.writtenOption superclass ++ ClassMember.writtenList members

/-- The expressions written of a binding. -/
def Binding.written : Binding → List Expr
  | .array _ items _ => BindingElement.writtenList items
  | .object _ properties => PropertyPattern.writtenList properties
  | .identifier .. | .missing _ => []

/-- The expressions written of a binding that may be absent. -/
def Binding.writtenOption : Option Binding → List Expr
  | none => []
  | some b => b.written

/-- The expressions written of a bound element. -/
def BindingElement.written : BindingElement → List Expr
  | ⟨binding, initializer⟩ => binding.written ++ Expr.writtenOption initializer

/-- The expressions written of bound elements in turn. -/
def BindingElement.writtenList : List BindingElement → List Expr
  | [] => []
  | e :: rest => e.written ++ BindingElement.writtenList rest

/-- The expressions written of an object pattern: no key and no default of the rest. -/
def PropertyPattern.writtenList : List PropertyPattern → List Expr
  | [] => []
  | ⟨key, isComputed, isSpread, ⟨binding, initializer⟩⟩ :: rest =>
    (if isSpread then binding.written
    else
      key.writtenKey isComputed key.written ++ binding.written ++
        Expr.writtenOption initializer) ++
      PropertyPattern.writtenList rest

/-- The expressions written of a statement. -/
def Stmt.written : Stmt → List Expr
  | .block _ body => Stmt.writtenList body
  | .classDecl _ definition _ => definition.written
  | .doWhile _ body test => body.written ++ test.written
  | .exportDefaultClass _ _ definition _ => definition.written
  | .exportDefaultExpr _ _ value => value.written
  | .exportDefaultFunction _ _ func _ => func.written
  | .expr _ value _ => value.written
  | .function _ func _ => func.written
  | .ifElse _ test yes no => test.written ++ yes.written ++ Stmt.writtenOption no
  | .label _ _ stmt => stmt.written
  | .localDecl _ _ decls _ => BindingElement.writtenList decls
  | .returnValue _ value => Expr.writtenOption value
  | .throwValue _ value => value.written
  | .tryCatch _ body handler finalizer =>
    Stmt.writtenList body ++ Catch.writtenOption handler ++ Stmt.writtenListOption finalizer
  | .whileLoop _ test body => test.written ++ body.written
  | .withObject _ value body => value.written ++ body.written
  | .breakTo .. | .continueTo .. | .debugger _ | .empty _ | .exportClause .. | .exportFrom ..
  | .importFrom .. => []

/-- The expressions written of statements in turn. -/
def Stmt.writtenList : List Stmt → List Expr
  | [] => []
  | s :: rest => s.written ++ Stmt.writtenList rest

/-- The expressions written of a statement that may be absent. -/
def Stmt.writtenOption : Option Stmt → List Expr
  | none => []
  | some s => s.written

/-- The expressions written of statements that may be absent. -/
def Stmt.writtenListOption : Option (List Stmt) → List Expr
  | none => []
  | some body => Stmt.writtenList body

/-- The expressions written of a handler. -/
def Catch.writtenOption : Option Catch → List Expr
  | none => []
  | some ⟨binding, body⟩ => Binding.writtenOption binding ++ Stmt.writtenList body

end

/-- Whether the tokens of each expression stand in one piece among some tokens. -/
def Shows (nodes : List Expr) (tokens : List Token) : Prop :=
  ∀ node ∈ nodes, node.tokens <:+: tokens

namespace Shows

variable {nodes others : List Expr} {tokens more : List Token}

theorem nil : Shows [] tokens := fun _ member => (List.not_mem_nil member).elim

/-- Whatever is around tokens, they still stand there in one piece. -/
theorem within (shows : Shows nodes tokens) (around : tokens <:+: more) : Shows nodes more :=
  fun node member => (shows node member).trans around

theorem both (first : Shows nodes tokens) (second : Shows others tokens) :
    Shows (nodes ++ others) tokens := by
  intro node member
  rcases List.mem_append.mp member with here | there
  · exact first node here
  · exact second node there

theorem append (first : Shows nodes tokens) (second : Shows others more) :
    Shows (nodes ++ others) (tokens ++ more) :=
  (first.within (List.prefix_append tokens more).isInfix).both
    (second.within (List.suffix_append tokens more).isInfix)

theorem behind (before : List Token) (shows : Shows nodes tokens) :
    Shows nodes (before ++ tokens) :=
  shows.within (List.suffix_append before tokens).isInfix

theorem before (shows : Shows nodes tokens) (behind : List Token) :
    Shows nodes (tokens ++ behind) :=
  shows.within (List.prefix_append tokens behind).isInfix

theorem cons {token : Token} (shows : Shows nodes tokens) : Shows nodes (token :: tokens) :=
  shows.within (List.suffix_cons token tokens).isInfix

/-- What shows the parts of an expression in its tokens shows the expression, too. -/
theorem self {e : Expr} (inside : Shows nodes e.tokens) : Shows (e :: nodes) e.tokens := by
  intro node member
  rcases List.mem_cons.mp member with rfl | part
  · exact List.infix_rfl
  · exact inside node part

theorem grouped {first last : Token} (shows : Shows nodes tokens) :
    Shows nodes (first :: tokens ++ [last]) :=
  shows.cons.before [last]

theorem ite {c : Prop} [Decidable c] (yes : Shows nodes tokens) (no : Shows nodes more) :
    Shows nodes (if c then tokens else more) := by
  split
  · exact yes
  · exact no

theorem guarded {e : Expr} (shows : Shows nodes e.tokens) (strength : Nat) :
    Shows nodes (e.guarded strength e.tokens) :=
  .ite shows.grouped shows

theorem enclosed {e : Expr} (shows : Shows nodes e.tokens) (parens : Bool) :
    Shows nodes (e.enclosed parens) :=
  .ite shows.grouped shows

theorem guardedTarget {e : Expr} (shows : Shows nodes e.tokens) (link : ChainLink) :
    Shows nodes (e.guardedTarget link e.tokens) :=
  .ite shows.grouped (shows.guarded _)

/-- One item and the items behind it are shown by all of them with commas between them. -/
theorem separated {rest : List (List Token)} (first : Shows nodes tokens)
    (later : Shows others (commaSeparated rest)) :
    Shows (nodes ++ others) (commaSeparated (tokens :: rest)) := by
  -- Only in front of another item is there a comma.
  cases rest with
  | nil => exact first.both (later.within (List.nil_infix))
  | cons => exact first.append later.cons

theorem keyTokens {key : Expr} (shows : Shows key.written key.tokens) (isComputed : Bool) :
    Shows (key.writtenKey isComputed key.written) (key.keyTokens isComputed key.tokens) := by
  unfold Expr.writtenKey Expr.keyTokens
  split
  · exact (shows.guarded _).grouped
  · -- A string that is not computed is written by itself, and no expression is.
    cases key with
    | string => exact .nil
    | _ => exact shows.guarded _

end Shows

/-- A member shows its parts; a method is written without the mark of its value. -/
theorem Property.shows_of_parts {kind : PropertyKind} {isComputed isStatic : Bool} {key : Expr}
    {value initializer : Option Expr} (onKey : Shows key.written key.tokens)
    (onSpread : Shows (Expr.writtenOption value) (Expr.spreadTokens value))
    (onValue : Shows (Expr.writtenOption value) (Expr.valueTokens value))
    (onMethod : ∀ loc func, value = some (.function loc func) →
      Shows func.written func.restTokens)
    (onInitializer :
      Shows (Expr.writtenOption initializer) (Expr.initializerTokens initializer)) :
    Shows (Property.written ⟨kind, isComputed, isStatic, key, value, initializer⟩)
      (Property.tokens ⟨kind, isComputed, isStatic, key, value, initializer⟩) := by
  have named := onKey.keyTokens isComputed
  cases kind with
  | spread => exact onSpread.cons
  | normal => exact ((named.behind _).append onValue).append onInitializer
  | method | getter | setter =>
    have plain := ((named.append onValue).append onInitializer).behind
      (if isStatic then [Token.keyword "static"] else [])
    cases value with
    | none => exact plain
    | some e =>
      cases e with
      | function loc func =>
        exact ((named.behind _).append (onMethod loc func rfl)).behind _
      | _ => exact plain

mutual

/-- The tokens of each expression that is written stand in one piece among those of the whole. -/
theorem Expr.shows : (e : Expr) → Shows e.written e.tokens
  | .array _ items => .self (((Expr.showsList items).before _).grouped)
  | .arrow _ params body isAsync prefersExpr => by
    have whole : Shows (Stmt.writtenList body) (braced (Stmt.tokensList body)) :=
      (Stmt.showsList body).grouped
    have short : Shows (Stmt.writtenList body)
        ((Stmt.conciseTokens? body).getD (braced (Stmt.tokensList body))) := by
      cases concise : Stmt.conciseTokens? body with
      | none => exact whole
      | some tokens => exact Stmt.shows_conciseTokens body tokens concise
    exact .self (((BindingElement.showsList params).grouped.behind _).append
      (Shows.ite short whole).cons)
  | .binary loc op left right => by
    refine .self ?_
    rw [Expr.tokens_binary]
    exact ((Expr.shows left).enclosed _).append ((Expr.shows right).enclosed _).cons
  | .call _ target args link _ _ =>
    .self ((((Expr.shows target).guardedTarget link).before _).append
      (Expr.showsList args).grouped)
  | .classExpr _ definition => .self (Class.shows definition)
  | .dot _ target _ link _ => .self (((Expr.shows target).guardedTarget link).before _)
  | .function _ func => .self (Func.shows func)
  | .conditional loc test yes no => by
    refine .self ?_
    rw [Expr.tokens_conditional]
    exact ((Expr.shows test).enclosed _).append
      (((Expr.shows yes).enclosed _).append ((Expr.shows no).enclosed _).cons).cons
  | .index _ target key link _ =>
    .self ((((Expr.shows target).guardedTarget link).before _).append (Expr.shows key).grouped)
  | .inlinedEnum _ value _ => .self (Expr.shows value)
  | .new _ target args _ =>
    .self (.append (Shows.ite (Expr.shows target).grouped ((Expr.shows target).guarded _)).cons
      (Expr.showsList args).grouped)
  | .object _ properties => .self (Property.showsList properties).grouped
  | .spread _ value => .self ((Expr.shows value).guarded _).cons
  | .template _ tag _ parts =>
    .self ((Expr.shows_tagTokens tag).append (TemplatePart.showsList _ parts))
  | .unary _ _ value _ =>
    .self (.ite ((Expr.shows value).guarded _).cons (((Expr.shows value).guarded _).before _))
  | .bigInt .. | .boolean .. | .identifier .. | .importIdentifier .. | .importMeta _
  | .missing _ | .null _ | .number .. | .regExp .. | .string .. | .this _ | .undefined _ =>
    .self .nil

theorem Expr.showsList : (items : List Expr) →
    Shows (Expr.writtenList items) (commaSeparated (Expr.tokensList items))
  | [] => .nil
  | e :: rest => .separated ((Expr.shows e).guarded _) (Expr.showsList rest)

theorem Expr.shows_initializerTokens : (e : Option Expr) →
    Shows (Expr.writtenOption e) (Expr.initializerTokens e)
  | none => .nil
  | some e => ((Expr.shows e).guarded _).cons

theorem Expr.shows_tagTokens : (tag : Option Expr) →
    Shows (Expr.writtenOption tag) (Expr.tagTokens tag)
  | none => .nil
  | some tag => (Expr.shows tag).guarded _

theorem TemplatePart.showsList : (before : String) → (parts : List TemplatePart) →
    Shows (TemplatePart.writtenList parts) (TemplatePart.tokensList before parts)
  | _, [] => .nil
  | _, ⟨value, _⟩ :: rest => (Expr.shows value).cons.append (TemplatePart.showsList _ rest)

theorem Property.shows : (p : Property) → Shows p.written p.tokens
  | ⟨_, _, _, key, value, initializer⟩ =>
    Property.shows_of_parts (Expr.shows key) (Expr.shows_spreadTokens value)
      (Expr.shows_valueTokens value) (Expr.shows_method value)
      (Expr.shows_initializerTokens initializer)

theorem Expr.shows_spreadTokens : (e : Option Expr) →
    Shows (Expr.writtenOption e) (Expr.spreadTokens e)
  | none => .nil
  | some e => (Expr.shows e).guarded _

theorem Expr.shows_valueTokens : (e : Option Expr) →
    Shows (Expr.writtenOption e) (Expr.valueTokens e)
  | none => .nil
  | some e => ((Expr.shows e).guarded _).cons

/-- The function of a method is written without its own head. -/
theorem Expr.shows_method : (value : Option Expr) → ∀ loc func,
    value = some (.function loc func) → Shows func.written func.restTokens
  | none, _, _, method => nomatch method
  | some (.function _ func), _, _, method => by
    cases method
    exact Func.shows_restTokens func

theorem Property.showsList : (properties : List Property) →
    Shows (Property.writtenList properties) (commaSeparated (Property.tokensList properties))
  | [] => .nil
  | p :: rest => .separated (Property.shows p) (Property.showsList rest)

theorem Func.shows_restTokens : (f : Func) → Shows f.written f.restTokens
  | ⟨_, params, body, _, _⟩ =>
    (BindingElement.showsList params).grouped.append (Stmt.showsList body).grouped

theorem Func.shows : (f : Func) → Shows f.written f.tokens
  | ⟨_, params, body, _, _⟩ =>
    ((BindingElement.showsList params).grouped.behind _).append (Stmt.showsList body).grouped

theorem ClassMember.showsList : (members : List ClassMember) →
    Shows (ClassMember.writtenList members) (ClassMember.tokensList members)
  | [] => .nil
  | .property property :: rest =>
    ((Property.shows property).before _).append (ClassMember.showsList rest)
  | .staticBlock body :: rest =>
    (Stmt.showsList body).grouped.cons.append (ClassMember.showsList rest)

theorem Class.shows : (definition : Class) → Shows definition.written definition.tokens
  | ⟨_, superclass, members⟩ =>
    ((Expr.shows_superclassTokens superclass).behind _).append
      (ClassMember.showsList members).grouped

theorem Expr.shows_superclassTokens : (e : Option Expr) →
    Shows (Expr.writtenOption e) (Expr.superclassTokens e)
  | none => .nil
  | some e => ((Expr.shows e).guarded _).cons

theorem Binding.shows : (b : Binding) → Shows b.written b.tokens
  | .array _ items hasSpread =>
    ((BindingElement.shows_patternTokens hasSpread items).before _).grouped
  | .identifier .. | .missing _ => .nil
  | .object _ properties => (PropertyPattern.showsList properties).grouped

theorem BindingElement.shows : (element : BindingElement) → Shows element.written element.tokens
  | ⟨binding, initializer⟩ =>
    (Binding.shows binding).append (Expr.shows_initializerTokens initializer)

theorem BindingElement.showsList : (items : List BindingElement) →
    Shows (BindingElement.writtenList items) (commaSeparated (BindingElement.tokensList items))
  | [] => .nil
  | e :: rest => .separated (BindingElement.shows e) (BindingElement.showsList rest)

theorem BindingElement.shows_patternTokens (hasSpread : Bool) : (items : List BindingElement) →
    Shows (BindingElement.writtenList items)
      (commaSeparated (BindingElement.patternTokens hasSpread items))
  | [] => .nil
  | e :: rest =>
    .separated ((BindingElement.shows e).behind _)
      (BindingElement.shows_patternTokens hasSpread rest)

theorem PropertyPattern.showsList : (properties : List PropertyPattern) →
    Shows (PropertyPattern.writtenList properties)
      (commaSeparated (PropertyPattern.tokensList properties))
  | [] => .nil
  | ⟨key, isComputed, isSpread, ⟨binding, initializer⟩⟩ :: rest => by
    refine .separated ?_ (PropertyPattern.showsList rest)
    cases isSpread with
    | true => exact (Binding.shows binding).cons
    | false =>
      exact (((Expr.shows key).keyTokens isComputed).append (Binding.shows binding).cons).append
        (Expr.shows_initializerTokens initializer)

theorem Stmt.shows_conciseTokens : (body : List Stmt) → ∀ tokens ∈ Stmt.conciseTokens? body,
    Shows (Stmt.writtenList body) tokens
  | [], _, concise => nomatch concise
  | s :: rest, tokens, concise => by
    cases s with
    | returnValue loc value =>
      cases value with
      | none => cases concise
      | some value =>
        cases rest with
        | nil =>
          obtain rfl := Option.some.inj concise
          have shows : Shows value.written value.tokens := Expr.shows value
          exact .both (.ite shows.grouped (shows.guarded _)) .nil
        | cons => cases concise
    | _ => cases concise

theorem Stmt.shows : (s : Stmt) → Shows s.written s.tokens
  | .block _ body => (Stmt.showsList body).grouped
  | .classDecl _ definition _ => (Class.shows definition).behind _
  | .doWhile _ body test =>
    ((Stmt.shows body).cons.append (Expr.shows test).grouped.cons).before _
  | .exportDefaultClass _ _ definition _ => (Class.shows definition).cons.cons
  | .exportDefaultExpr _ _ value =>
    ((Shows.ite (Expr.shows value).grouped ((Expr.shows value).guarded _)).cons.cons).before _
  | .exportDefaultFunction _ _ func _ => (Func.shows func).cons.cons
  | .expr _ value _ => (Shows.ite (Expr.shows value).grouped (Expr.shows value)).before _
  | .function _ func _ => (Func.shows func).behind _
  | .ifElse _ test yes no =>
    ((Expr.shows test).grouped.cons.append
      (.ite (Stmt.shows yes).grouped (Stmt.shows yes))).append (Stmt.shows_elseTokens no)
  | .label _ _ stmt => (Stmt.shows stmt).cons.cons
  | .localDecl _ _ decls _ => ((BindingElement.showsList decls).cons.behind _).before _
  | .returnValue _ value => ((Expr.shows_tokensOption value).cons).before _
  | .throwValue _ value => ((Expr.shows value).cons).before _
  | .tryCatch _ body handler finalizer =>
    ((Stmt.showsList body).grouped.cons.append (Catch.shows_tokensOption handler)).append
      (Stmt.shows_finallyTokens finalizer)
  | .whileLoop _ test body => (Expr.shows test).grouped.cons.append (Stmt.shows body)
  | .withObject _ value body => (Expr.shows value).grouped.cons.append (Stmt.shows body)
  | .breakTo .. | .continueTo .. | .debugger _ | .empty _ | .exportClause .. | .exportFrom ..
  | .importFrom .. => .nil

theorem Expr.shows_tokensOption : (e : Option Expr) →
    Shows (Expr.writtenOption e) (Expr.tokensOption e)
  | none => .nil
  | some e => Expr.shows e

theorem Stmt.showsList : (body : List Stmt) →
    Shows (Stmt.writtenList body) (Stmt.tokensList body)
  | [] => .nil
  | s :: rest => (Stmt.shows s).append (Stmt.showsList rest)

theorem Stmt.shows_elseTokens : (s : Option Stmt) →
    Shows (Stmt.writtenOption s) (Stmt.elseTokens s)
  | none => .nil
  | some s => (Stmt.shows s).cons

theorem Catch.shows_tokensOption : (handler : Option Catch) →
    Shows (Catch.writtenOption handler) (Catch.tokensOption handler)
  | none => .nil
  | some ⟨binding, body⟩ =>
    (Binding.shows_caughtTokens binding).cons.append (Stmt.showsList body).grouped

theorem Binding.shows_caughtTokens : (b : Option Binding) →
    Shows (Binding.writtenOption b) (Binding.caughtTokens b)
  | none => .nil
  | some b => (Binding.shows b).grouped

theorem Stmt.shows_finallyTokens : (body : Option (List Stmt)) →
    Shows (Stmt.writtenListOption body) (Stmt.finallyTokens body)
  | none => .nil
  | some body => (Stmt.showsList body).grouped.cons

end

end EcmaPrune
