import PythonOutline.Json
import PythonOutline.Tree.Tag

/-! # Trees as JSON

A statement or an expression is an object with its tag `$t` in front and the fields of its form
behind. The other parts of a tree are objects without a tag. Spans are not written.
-/

namespace PythonOutline

/-- An object with a tag in front of its fields. -/
def Json.tagged (tag : String) (fields : List (String × Json)) : Json :=
  .obj (("$t", .str tag) :: fields)

/-- A name as an object. -/
def Name.json (name : Name) : Json :=
  .obj [("name", .str name.text)]

/-- An operator as its name. -/
def Operator.json (operator : Operator) : Json :=
  .str operator.name

mutual

/-- An expression as a tagged object. -/
def Expr.json : Expr → Json
  | ⟨_, form⟩ => .tagged form.tag form.fields

/-- The fields of a form of expression. -/
def ExprForm.fields : ExprForm → List (String × Json)
  | .attribute value name => [("value", value.json), ("attr", .str name)]
  | .await value => [("value", value.json)]
  | .binary operator left right =>
    [("operator", operator.json), ("left", left.json), ("right", right.json)]
  | .boolean operator values => [("operator", operator.json), ("values", .arr (exprJsons values))]
  | .call callee arguments =>
    [("callee", callee.json), ("arguments", .arr (argumentJsons arguments))]
  | .compare left operators comparators =>
    [("left", left.json), ("operators", .arr (operators.map Operator.json)),
      ("comparators", .arr (exprJsons comparators))]
  | .comprehension kind element value clauses =>
    [("kind", .str kind.name), ("element", element.json), ("value", exprJson? value),
      ("generators", .arr (forClauseJsons clauses))]
  | .conditional test consequent alternate =>
    [("test", test.json), ("consequent", consequent.json), ("alternate", alternate.json)]
  | .dict entries => [("entries", .arr (dictEntryJsons entries))]
  | .name text => [("name", .str text)]
  | .lambda params body => [("parameters", .arr (paramJsons params)), ("body", body.json)]
  | .list elements => [("elements", .arr (exprJsons elements))]
  | .named target value => [("target", target.json), ("value", value.json)]
  | .set elements => [("elements", .arr (exprJsons elements))]
  | .slice lower upper step =>
    [("lower", exprJson? lower), ("upper", exprJson? upper), ("step", exprJson? step)]
  | .starred value => [("value", value.json)]
  | .subscript value index => [("value", value.json), ("index", index.json)]
  | .tuple elements => [("elements", .arr (exprJsons elements))]
  | .unary operator argument => [("operator", operator.json), ("argument", argument.json)]
  | .yield value delegate => [("value", exprJson? value), ("delegate", .bool delegate)]
  | .boolLiteral value => [("value", .bool value)]
  | .ellipsis => []
  | .noneLiteral => []
  | .number text => [("value", .str text)]
  | .string text bytes formatted =>
    [("value", .str text), ("bytes", .bool bytes), ("formatted", .bool formatted)]

/-- Expressions as tagged objects. -/
def exprJsons : List Expr → List Json
  | [] => []
  | expr :: exprs => expr.json :: exprJsons exprs

/-- An expression that may be absent as a tagged object or null. -/
def exprJson? : Option Expr → Json
  | none => .null
  | some expr => expr.json

/-- Arguments as objects. -/
def argumentJsons : List Argument → List Json
  | [] => []
  | ⟨_, keyword, unpack, value⟩ :: arguments =>
    .obj [("keyword", .ofText? keyword), ("unpack", .str unpack.name), ("value", value.json)] ::
      argumentJsons arguments

/-- Clauses of a comprehension as objects. -/
def forClauseJsons : List ForClause → List Json
  | [] => []
  | ⟨_, isAsync, target, iterable, conditions⟩ :: clauses =>
    .obj [("async_", .bool isAsync), ("target", target.json), ("iterable", iterable.json),
      ("conditions", .arr (exprJsons conditions))] :: forClauseJsons clauses

/-- Entries of a dict display as objects. -/
def dictEntryJsons : List DictEntry → List Json
  | [] => []
  | ⟨_, key, value⟩ :: entries =>
    .obj [("key", exprJson? key), ("value", value.json)] :: dictEntryJsons entries

/-- Parameters as objects. -/
def paramJsons : List Param → List Json
  | [] => []
  | ⟨_, name, kind, typeHint, defaultValue⟩ :: params =>
    .obj [("name", .str name), ("kind", .str kind.name), ("annotation", exprJson? typeHint),
      ("default_value", exprJson? defaultValue)] :: paramJsons params

end

/-- A type parameter as an object. -/
def TypeParam.json (param : TypeParam) : Json :=
  .obj [("name", .str param.name), ("kind", .str param.kind.name), ("bound", exprJson? param.bound),
    ("default_value", exprJson? param.defaultValue)]

/-- A decorator as an object. -/
def Decorator.json (decorator : Decorator) : Json :=
  .obj [("expression", decorator.expression.json)]

/-- An imported name as an object. -/
def ImportAlias.json (name : ImportAlias) : Json :=
  .obj [("name", .str name.name), ("alias", .ofText? name.boundAs)]

/-- The names that are imported from a module. -/
def ImportedNames.json : ImportedNames → Json
  | .all => .str "All"
  | .specific names => .obj [("Specific", .arr (names.map ImportAlias.json))]

/-- A context of a `with` statement as an object. -/
def WithItem.json (item : WithItem) : Json :=
  .obj [("context", item.context.json), ("target", exprJson? item.target)]

mutual

/-- A statement as a tagged object. -/
def Stmt.json : Stmt → Json
  | ⟨_, form⟩ => .tagged form.tag form.fields

/-- The fields of a form of statement. -/
def StmtForm.fields : StmtForm → List (String × Json)
  | .annotate target hint value =>
    [("target", target.json), ("annotation", hint.json), ("value", exprJson? value)]
  | .assert test message => [("test", test.json), ("message", exprJson? message)]
  | .assign targets value => [("targets", .arr (exprJsons targets)), ("value", value.json)]
  | .augment operator target value =>
    [("operator", operator.json), ("target", target.json), ("value", value.json)]
  | .break => []
  | .classDef decorators name typeParams arguments body =>
    [("decorators", .arr (decorators.map Decorator.json)), ("name", name.json),
      ("type_parameters", .arr (typeParams.map TypeParam.json)),
      ("arguments", .arr (argumentJsons arguments)), ("body", .arr (stmtJsons body))]
  | .continue => []
  | .delete targets => [("targets", .arr (exprJsons targets))]
  | .expression value => [("expr", value.json)]
  | .forLoop isAsync target iterable body orElse =>
    [("async_", .bool isAsync), ("target", target.json), ("iterable", iterable.json),
      ("body", .arr (stmtJsons body)), ("orelse", .arr (stmtJsons orElse))]
  | .functionDef decorators isAsync name typeParams params returns body =>
    [("decorators", .arr (decorators.map Decorator.json)), ("async_", .bool isAsync),
      ("name", name.json), ("type_parameters", .arr (typeParams.map TypeParam.json)),
      ("parameters", .arr (paramJsons params)), ("returns", exprJson? returns),
      ("body", .arr (stmtJsons body))]
  | .global names => [("names", .ofTexts names)]
  | .conditional test consequent alternate =>
    [("test", test.json), ("consequent", .arr (stmtJsons consequent)),
      ("alternate", .arr (stmtJsons alternate))]
  | .importModules names => [("names", .arr (names.map ImportAlias.json))]
  | .importFrom level module names =>
    [("level", .num level), ("module", .ofText? module), ("names", names.json)]
  | .matchCases subject cases =>
    [("subject", subject.json), ("cases", .arr (matchCaseJsons cases))]
  | .nonlocal names => [("names", .ofTexts names)]
  | .pass => []
  | .raise exception cause =>
    [("exception", exprJson? exception), ("cause", exprJson? cause)]
  | .return value => [("value", exprJson? value)]
  | .tryBlock body handlers orElse finalBody star =>
    [("body", .arr (stmtJsons body)), ("handlers", .arr (handlerJsons handlers)),
      ("orelse", .arr (stmtJsons orElse)), ("finalbody", .arr (stmtJsons finalBody)),
      ("star", .bool star)]
  | .typeAlias name typeParams value =>
    [("name", .str name), ("type_parameters", .arr (typeParams.map TypeParam.json)),
      ("value", value.json)]
  | .whileLoop test body orElse =>
    [("test", test.json), ("body", .arr (stmtJsons body)), ("orelse", .arr (stmtJsons orElse))]
  | .withBlock isAsync items body =>
    [("async_", .bool isAsync), ("items", .arr (items.map WithItem.json)),
      ("body", .arr (stmtJsons body))]

/-- Statements as tagged objects. -/
def stmtJsons : List Stmt → List Json
  | [] => []
  | stmt :: stmts => stmt.json :: stmtJsons stmts

/-- Exception handlers as objects. -/
def handlerJsons : List Handler → List Json
  | [] => []
  | ⟨_, exception, name, body⟩ :: handlers =>
    .obj [("type_expr", exprJson? exception), ("name", .ofText? name),
      ("body", .arr (stmtJsons body))] :: handlerJsons handlers

/-- Cases of a match statement as objects. -/
def matchCaseJsons : List MatchCase → List Json
  | [] => []
  | ⟨_, pattern, guard, body⟩ :: cases =>
    .obj [("pattern", .str pattern), ("guard", exprJson? guard),
      ("body", .arr (stmtJsons body))] :: matchCaseJsons cases

end

/-- A module as an object. -/
def Module.json (module : Module) : Json :=
  .obj [("body", .arr (stmtJsons module.body))]

end PythonOutline
