import Mathlib.Data.List.Forall2
import PythonOutline.Tree.Stmt

/-! # Trees of one shape

Two trees are alike if they differ at most in their spans, in the texts of their string literals and
in the patterns of their cases, and there only as a likeness allows.
-/

namespace PythonOutline

/-- How trees of one shape may differ: which spans, which texts of string literals and which
patterns stand for each other. Joined spans and joined texts stand for each other if their
parts do. -/
structure Likeness where
  span : Span → Span → Prop
  text : String → String → Prop
  pattern : String → String → Prop
  join : ∀ {left left' right right' : Span}, span left left' → span right right' →
    span (left.join right) (left'.join right')
  text_empty : text "" ""
  text_append : ∀ {first first' others others' : String}, text first first' → text others others' →
    text (first ++ others) (first' ++ others')

/-! ## Expressions -/

/-- Two names differ in their spans only. -/
structure Name.Alike (like : Likeness) (name name' : Name) : Prop where
  span : like.span name.span name'.span
  text_eq : name'.text = name.text

mutual

/-- Two expressions are of one shape. -/
inductive Expr.Alike (like : Likeness) : Expr → Expr → Prop
  | mk {span span' : Span} {form form' : ExprForm} (hspan : like.span span span')
      (hform : form.Alike like form') : Expr.Alike like ⟨span, form⟩ ⟨span', form'⟩

/-- Two forms of expressions are of one shape. -/
inductive ExprForm.Alike (like : Likeness) : ExprForm → ExprForm → Prop
  | attribute {value value' : Expr} {name : String} (hvalue : value.Alike like value') :
    ExprForm.Alike like (.attribute value name) (.attribute value' name)
  | await {value value' : Expr} (hvalue : value.Alike like value') :
    ExprForm.Alike like (.await value) (.await value')
  | binary {operator : Operator} {left left' right right' : Expr} (hleft : left.Alike like left')
      (hright : right.Alike like right') :
    ExprForm.Alike like (.binary operator left right) (.binary operator left' right')
  | boolean {operator : Operator} {values values' : List Expr}
      (hvalues : List.Forall₂ (Expr.Alike like) values values') :
    ExprForm.Alike like (.boolean operator values) (.boolean operator values')
  | call {callee callee' : Expr} {arguments arguments' : List Argument}
      (hcallee : callee.Alike like callee')
      (harguments : List.Forall₂ (Argument.Alike like) arguments arguments') :
    ExprForm.Alike like (.call callee arguments) (.call callee' arguments')
  | compare {left left' : Expr} {operators : List Operator} {comparators comparators' : List Expr}
      (hleft : left.Alike like left')
      (hcomparators : List.Forall₂ (Expr.Alike like) comparators comparators') :
    ExprForm.Alike like (.compare left operators comparators)
      (.compare left' operators comparators')
  | comprehension {kind : ComprehensionKind} {element element' : Expr} {value value' : Option Expr}
      {clauses clauses' : List ForClause} (helement : element.Alike like element')
      (hvalue : Option.Rel (Expr.Alike like) value value')
      (hclauses : List.Forall₂ (ForClause.Alike like) clauses clauses') :
    ExprForm.Alike like (.comprehension kind element value clauses)
      (.comprehension kind element' value' clauses')
  | conditional {test test' consequent consequent' alternate alternate' : Expr}
      (htest : test.Alike like test') (hconsequent : consequent.Alike like consequent')
      (halternate : alternate.Alike like alternate') :
    ExprForm.Alike like (.conditional test consequent alternate)
      (.conditional test' consequent' alternate')
  | dict {entries entries' : List DictEntry}
      (hentries : List.Forall₂ (DictEntry.Alike like) entries entries') :
    ExprForm.Alike like (.dict entries) (.dict entries')
  | name {text : String} : ExprForm.Alike like (.name text) (.name text)
  | lambda {params params' : List Param} {body body' : Expr}
      (hparams : List.Forall₂ (Param.Alike like) params params') (hbody : body.Alike like body') :
    ExprForm.Alike like (.lambda params body) (.lambda params' body')
  | list {elements elements' : List Expr}
      (helements : List.Forall₂ (Expr.Alike like) elements elements') :
    ExprForm.Alike like (.list elements) (.list elements')
  | named {target target' : Name} {value value' : Expr} (htarget : target.Alike like target')
      (hvalue : value.Alike like value') :
    ExprForm.Alike like (.named target value) (.named target' value')
  | set {elements elements' : List Expr}
      (helements : List.Forall₂ (Expr.Alike like) elements elements') :
    ExprForm.Alike like (.set elements) (.set elements')
  | slice {lower lower' upper upper' step step' : Option Expr}
      (hlower : Option.Rel (Expr.Alike like) lower lower')
      (hupper : Option.Rel (Expr.Alike like) upper upper')
      (hstep : Option.Rel (Expr.Alike like) step step') :
    ExprForm.Alike like (.slice lower upper step) (.slice lower' upper' step')
  | starred {value value' : Expr} (hvalue : value.Alike like value') :
    ExprForm.Alike like (.starred value) (.starred value')
  | subscript {value value' index index' : Expr} (hvalue : value.Alike like value')
      (hindex : index.Alike like index') :
    ExprForm.Alike like (.subscript value index) (.subscript value' index')
  | tuple {elements elements' : List Expr}
      (helements : List.Forall₂ (Expr.Alike like) elements elements') :
    ExprForm.Alike like (.tuple elements) (.tuple elements')
  | unary {operator : Operator} {argument argument' : Expr}
      (hargument : argument.Alike like argument') :
    ExprForm.Alike like (.unary operator argument) (.unary operator argument')
  | yield {value value' : Option Expr} {delegate : Bool}
      (hvalue : Option.Rel (Expr.Alike like) value value') :
    ExprForm.Alike like (.yield value delegate) (.yield value' delegate)
  | boolLiteral {value : Bool} : ExprForm.Alike like (.boolLiteral value) (.boolLiteral value)
  | ellipsis : ExprForm.Alike like .ellipsis .ellipsis
  | noneLiteral : ExprForm.Alike like .noneLiteral .noneLiteral
  | number {text : String} : ExprForm.Alike like (.number text) (.number text)
  | string {text text' : String} {bytes formatted : Bool} (htext : like.text text text') :
    ExprForm.Alike like (.string text bytes formatted) (.string text' bytes formatted)

/-- Two arguments are of one shape. -/
inductive Argument.Alike (like : Likeness) : Argument → Argument → Prop
  | mk {span span' : Span} {keyword : Option String} {unpack : Unpack} {value value' : Expr}
      (hspan : like.span span span') (hvalue : value.Alike like value') :
    Argument.Alike like ⟨span, keyword, unpack, value⟩ ⟨span', keyword, unpack, value'⟩

/-- Two clauses of comprehensions are of one shape. -/
inductive ForClause.Alike (like : Likeness) : ForClause → ForClause → Prop
  | mk {span span' : Span} {isAsync : Bool} {target target' iterable iterable' : Expr}
      {conditions conditions' : List Expr} (hspan : like.span span span')
      (htarget : target.Alike like target') (hiterable : iterable.Alike like iterable')
      (hconditions : List.Forall₂ (Expr.Alike like) conditions conditions') :
    ForClause.Alike like ⟨span, isAsync, target, iterable, conditions⟩
      ⟨span', isAsync, target', iterable', conditions'⟩

/-- Two entries of dict displays are of one shape. -/
inductive DictEntry.Alike (like : Likeness) : DictEntry → DictEntry → Prop
  | mk {span span' : Span} {key key' : Option Expr} {value value' : Expr}
      (hspan : like.span span span') (hkey : Option.Rel (Expr.Alike like) key key')
      (hvalue : value.Alike like value') :
    DictEntry.Alike like ⟨span, key, value⟩ ⟨span', key', value'⟩

/-- Two parameters are of one shape. -/
inductive Param.Alike (like : Likeness) : Param → Param → Prop
  | mk {span span' : Span} {name : String} {kind : ParamKind}
      {typeHint typeHint' defaultValue defaultValue' : Option Expr} (hspan : like.span span span')
      (htypeHint : Option.Rel (Expr.Alike like) typeHint typeHint')
      (hdefault : Option.Rel (Expr.Alike like) defaultValue defaultValue') :
    Param.Alike like ⟨span, name, kind, typeHint, defaultValue⟩
      ⟨span', name, kind, typeHint', defaultValue'⟩

end

/-! ## Statements -/

/-- Two type parameters are of one shape. -/
inductive TypeParam.Alike (like : Likeness) : TypeParam → TypeParam → Prop
  | mk {span span' : Span} {name : String} {kind : TypeParamKind}
      {bound bound' defaultValue defaultValue' : Option Expr} (hspan : like.span span span')
      (hbound : Option.Rel (Expr.Alike like) bound bound')
      (hdefault : Option.Rel (Expr.Alike like) defaultValue defaultValue') :
    TypeParam.Alike like ⟨span, name, kind, bound, defaultValue⟩
      ⟨span', name, kind, bound', defaultValue'⟩

/-- Two decorators are of one shape. -/
inductive Decorator.Alike (like : Likeness) : Decorator → Decorator → Prop
  | mk {span span' : Span} {expression expression' : Expr} (hspan : like.span span span')
      (hexpression : expression.Alike like expression') :
    Decorator.Alike like ⟨span, expression⟩ ⟨span', expression'⟩

/-- Two imported names differ in their spans only. -/
inductive ImportAlias.Alike (like : Likeness) : ImportAlias → ImportAlias → Prop
  | mk {span span' : Span} {name : String} {boundAs : Option String}
      (hspan : like.span span span') :
    ImportAlias.Alike like ⟨span, name, boundAs⟩ ⟨span', name, boundAs⟩

/-- Two choices of imported names differ in their spans only. -/
inductive ImportedNames.Alike (like : Likeness) : ImportedNames → ImportedNames → Prop
  | all : ImportedNames.Alike like .all .all
  | specific {names names' : List ImportAlias}
      (hnames : List.Forall₂ (ImportAlias.Alike like) names names') :
    ImportedNames.Alike like (.specific names) (.specific names')

/-- Two contexts of `with` statements are of one shape. -/
inductive WithItem.Alike (like : Likeness) : WithItem → WithItem → Prop
  | mk {span span' : Span} {context context' : Expr} {target target' : Option Expr}
      (hspan : like.span span span') (hcontext : context.Alike like context')
      (htarget : Option.Rel (Expr.Alike like) target target') :
    WithItem.Alike like ⟨span, context, target⟩ ⟨span', context', target'⟩

mutual

/-- Two statements are of one shape. -/
inductive Stmt.Alike (like : Likeness) : Stmt → Stmt → Prop
  | mk {span span' : Span} {form form' : StmtForm} (hspan : like.span span span')
      (hform : form.Alike like form') : Stmt.Alike like ⟨span, form⟩ ⟨span', form'⟩

/-- Two forms of statements are of one shape. -/
inductive StmtForm.Alike (like : Likeness) : StmtForm → StmtForm → Prop
  | annotate {target target' hint hint' : Expr} {value value' : Option Expr}
      (htarget : target.Alike like target') (hhint : hint.Alike like hint')
      (hvalue : Option.Rel (Expr.Alike like) value value') :
    StmtForm.Alike like (.annotate target hint value) (.annotate target' hint' value')
  | assert {test test' : Expr} {message message' : Option Expr} (htest : test.Alike like test')
      (hmessage : Option.Rel (Expr.Alike like) message message') :
    StmtForm.Alike like (.assert test message) (.assert test' message')
  | assign {targets targets' : List Expr} {value value' : Expr}
      (htargets : List.Forall₂ (Expr.Alike like) targets targets')
      (hvalue : value.Alike like value') :
    StmtForm.Alike like (.assign targets value) (.assign targets' value')
  | augment {operator : Operator} {target target' value value' : Expr}
      (htarget : target.Alike like target') (hvalue : value.Alike like value') :
    StmtForm.Alike like (.augment operator target value) (.augment operator target' value')
  | break : StmtForm.Alike like .break .break
  | classDef {decorators decorators' : List Decorator} {name name' : Name}
      {typeParams typeParams' : List TypeParam} {arguments arguments' : List Argument}
      {body body' : List Stmt}
      (hdecorators : List.Forall₂ (Decorator.Alike like) decorators decorators')
      (hname : name.Alike like name')
      (htypeParams : List.Forall₂ (TypeParam.Alike like) typeParams typeParams')
      (harguments : List.Forall₂ (Argument.Alike like) arguments arguments')
      (hbody : List.Forall₂ (Stmt.Alike like) body body') :
    StmtForm.Alike like (.classDef decorators name typeParams arguments body)
      (.classDef decorators' name' typeParams' arguments' body')
  | continue : StmtForm.Alike like .continue .continue
  | delete {targets targets' : List Expr}
      (htargets : List.Forall₂ (Expr.Alike like) targets targets') :
    StmtForm.Alike like (.delete targets) (.delete targets')
  | expression {value value' : Expr} (hvalue : value.Alike like value') :
    StmtForm.Alike like (.expression value) (.expression value')
  | forLoop {isAsync : Bool} {target target' iterable iterable' : Expr}
      {body body' orElse orElse' : List Stmt} (htarget : target.Alike like target')
      (hiterable : iterable.Alike like iterable')
      (hbody : List.Forall₂ (Stmt.Alike like) body body')
      (horElse : List.Forall₂ (Stmt.Alike like) orElse orElse') :
    StmtForm.Alike like (.forLoop isAsync target iterable body orElse)
      (.forLoop isAsync target' iterable' body' orElse')
  | functionDef {decorators decorators' : List Decorator} {isAsync : Bool} {name name' : Name}
      {typeParams typeParams' : List TypeParam} {params params' : List Param}
      {returns returns' : Option Expr} {body body' : List Stmt}
      (hdecorators : List.Forall₂ (Decorator.Alike like) decorators decorators')
      (hname : name.Alike like name')
      (htypeParams : List.Forall₂ (TypeParam.Alike like) typeParams typeParams')
      (hparams : List.Forall₂ (Param.Alike like) params params')
      (hreturns : Option.Rel (Expr.Alike like) returns returns')
      (hbody : List.Forall₂ (Stmt.Alike like) body body') :
    StmtForm.Alike like (.functionDef decorators isAsync name typeParams params returns body)
      (.functionDef decorators' isAsync name' typeParams' params' returns' body')
  | global {names : List String} : StmtForm.Alike like (.global names) (.global names)
  | conditional {test test' : Expr} {consequent consequent' alternate alternate' : List Stmt}
      (htest : test.Alike like test')
      (hconsequent : List.Forall₂ (Stmt.Alike like) consequent consequent')
      (halternate : List.Forall₂ (Stmt.Alike like) alternate alternate') :
    StmtForm.Alike like (.conditional test consequent alternate)
      (.conditional test' consequent' alternate')
  | importModules {names names' : List ImportAlias}
      (hnames : List.Forall₂ (ImportAlias.Alike like) names names') :
    StmtForm.Alike like (.importModules names) (.importModules names')
  | importFrom {level : Nat} {module : Option String} {names names' : ImportedNames}
      (hnames : names.Alike like names') :
    StmtForm.Alike like (.importFrom level module names) (.importFrom level module names')
  | matchCases {subject subject' : Expr} {cases cases' : List MatchCase}
      (hsubject : subject.Alike like subject')
      (hcases : List.Forall₂ (MatchCase.Alike like) cases cases') :
    StmtForm.Alike like (.matchCases subject cases) (.matchCases subject' cases')
  | nonlocal {names : List String} : StmtForm.Alike like (.nonlocal names) (.nonlocal names)
  | pass : StmtForm.Alike like .pass .pass
  | raise {exception exception' cause cause' : Option Expr}
      (hexception : Option.Rel (Expr.Alike like) exception exception')
      (hcause : Option.Rel (Expr.Alike like) cause cause') :
    StmtForm.Alike like (.raise exception cause) (.raise exception' cause')
  | return {value value' : Option Expr} (hvalue : Option.Rel (Expr.Alike like) value value') :
    StmtForm.Alike like (.return value) (.return value')
  | tryBlock {body body' : List Stmt} {handlers handlers' : List Handler}
      {orElse orElse' finalBody finalBody' : List Stmt} {star : Bool}
      (hbody : List.Forall₂ (Stmt.Alike like) body body')
      (hhandlers : List.Forall₂ (Handler.Alike like) handlers handlers')
      (horElse : List.Forall₂ (Stmt.Alike like) orElse orElse')
      (hfinal : List.Forall₂ (Stmt.Alike like) finalBody finalBody') :
    StmtForm.Alike like (.tryBlock body handlers orElse finalBody star)
      (.tryBlock body' handlers' orElse' finalBody' star)
  | typeAlias {name : String} {typeParams typeParams' : List TypeParam} {value value' : Expr}
      (htypeParams : List.Forall₂ (TypeParam.Alike like) typeParams typeParams')
      (hvalue : value.Alike like value') :
    StmtForm.Alike like (.typeAlias name typeParams value) (.typeAlias name typeParams' value')
  | whileLoop {test test' : Expr} {body body' orElse orElse' : List Stmt}
      (htest : test.Alike like test') (hbody : List.Forall₂ (Stmt.Alike like) body body')
      (horElse : List.Forall₂ (Stmt.Alike like) orElse orElse') :
    StmtForm.Alike like (.whileLoop test body orElse) (.whileLoop test' body' orElse')
  | withBlock {isAsync : Bool} {items items' : List WithItem} {body body' : List Stmt}
      (hitems : List.Forall₂ (WithItem.Alike like) items items')
      (hbody : List.Forall₂ (Stmt.Alike like) body body') :
    StmtForm.Alike like (.withBlock isAsync items body) (.withBlock isAsync items' body')

/-- Two exception handlers are of one shape. -/
inductive Handler.Alike (like : Likeness) : Handler → Handler → Prop
  | mk {span span' : Span} {exception exception' : Option Expr} {name : Option String}
      {body body' : List Stmt} (hspan : like.span span span')
      (hexception : Option.Rel (Expr.Alike like) exception exception')
      (hbody : List.Forall₂ (Stmt.Alike like) body body') :
    Handler.Alike like ⟨span, exception, name, body⟩ ⟨span', exception', name, body'⟩

/-- Two cases are of one shape. -/
inductive MatchCase.Alike (like : Likeness) : MatchCase → MatchCase → Prop
  | mk {span span' : Span} {pattern pattern' : String} {guard guard' : Option Expr}
      {body body' : List Stmt} (hspan : like.span span span')
      (hpattern : like.pattern pattern pattern')
      (hguard : Option.Rel (Expr.Alike like) guard guard')
      (hbody : List.Forall₂ (Stmt.Alike like) body body') :
    MatchCase.Alike like ⟨span, pattern, guard, body⟩ ⟨span', pattern', guard', body'⟩

end

/-- Two modules are of one shape. -/
structure Module.Alike (like : Likeness) (module module' : Module) : Prop where
  span : like.span module.span module'.span
  body : List.Forall₂ (Stmt.Alike like) module.body module'.body

/-! ## Targets -/

namespace Expr

variable {like : Likeness}

/-- Expressions that are alike have spans that are. -/
theorem Alike.span {expr expr' : Expr} (halike : expr.Alike like expr') :
    like.span expr.span expr'.span := by
  obtain ⟨hspan, -⟩ := halike
  exact hspan

/-- Whether an expression can be assigned to does not depend on its spans. -/
theorem Alike.isSingleTarget_eq {expr expr' : Expr} (halike : expr.Alike like expr') :
    expr'.isSingleTarget = expr.isSingleTarget := by
  obtain ⟨-, hform⟩ := halike
  cases hform <;> rfl

mutual

/-- Whether an expression may be assigned to depends on its shape only. -/
theorem Alike.isTarget_eq : ∀ {expr expr' : Expr}, expr.Alike like expr' →
    expr'.isTarget = expr.isTarget
  | ⟨_, form⟩, _, ⟨_, hform⟩ => by
    cases hform with
    | starred hvalue => exact hvalue.isTarget_eq
    | list helements => exact areTargets_eq helements
    | tuple helements => exact areTargets_eq helements
    | _ => rfl

private theorem areTargets_eq : ∀ {exprs exprs' : List Expr},
    List.Forall₂ (Expr.Alike like) exprs exprs' → areTargets exprs' = areTargets exprs
  | [], _, .nil => rfl
  | _ :: _, _, .cons hexpr hexprs => by
    rw [areTargets, areTargets, hexpr.isTarget_eq, areTargets_eq hexprs]

end

end Expr

end PythonOutline
