import PythonOutline.Tree.Tag

/-! # Trees as nodes

A uniform view of a tree: every part that has a span is a node with a kind and its children in
source order of the fields they come from. What is said of all spans of a tree is said of its nodes.
-/

namespace PythonOutline

/-- A part of a tree with its span, and the parts directly inside it. -/
inductive Node where
  | mk (kind : String) (span : Span) (children : List Node)

namespace Node

/-- The kind of a node. -/
def kind : Node → String
  | mk kind _ _ => kind

/-- The span of a node. -/
def span : Node → Span
  | mk _ span _ => span

/-- The nodes directly inside a node. -/
def children : Node → List Node
  | mk _ _ children => children

/-- A node without children. -/
def leaf (kind : String) (span : Span) : Node :=
  mk kind span []

mutual

/-- The kinds and spans of a node and all nodes below it in front of others, a node before its
children. -/
def preorderInto : Node → List (String × Span) → List (String × Span)
  | mk kind span children, others => (kind, span) :: preorderAllInto children others

/-- The kinds and spans of nodes and all nodes below them in front of others. -/
def preorderAllInto : List Node → List (String × Span) → List (String × Span)
  | [], others => others
  | node :: nodes, others => node.preorderInto (preorderAllInto nodes others)

end

/-- The kinds and spans of a node and all nodes below it, a node before its children. -/
def preorder (node : Node) : List (String × Span) :=
  node.preorderInto []

end Node

mutual

/-- An expression as a node. -/
def Expr.node : Expr → Node
  | ⟨span, form⟩ => .mk form.tag span form.children

/-- The nodes directly inside an expression. -/
def ExprForm.children : ExprForm → List Node
  | .attribute value _ => [value.node]
  | .await value => [value.node]
  | .binary _ left right => [left.node, right.node]
  | .boolean _ values => exprNodes values
  | .call callee arguments => callee.node :: argumentNodes arguments
  | .compare left _ comparators => left.node :: exprNodes comparators
  | .comprehension _ element value clauses =>
    element.node :: (exprNode? value ++ forClauseNodes clauses)
  | .conditional test consequent alternate => [test.node, consequent.node, alternate.node]
  | .dict entries => dictEntryNodes entries
  | .name _ => []
  | .lambda params body => paramNodes params ++ [body.node]
  | .list elements => exprNodes elements
  | .named target value => [.leaf "named_target" target.span, value.node]
  | .set elements => exprNodes elements
  | .slice lower upper step => exprNode? lower ++ exprNode? upper ++ exprNode? step
  | .starred value => [value.node]
  | .subscript value index => [value.node, index.node]
  | .tuple elements => exprNodes elements
  | .unary _ argument => [argument.node]
  | .yield value _ => exprNode? value
  | .boolLiteral _ => []
  | .ellipsis => []
  | .noneLiteral => []
  | .number _ => []
  | .string .. => []

/-- Expressions as nodes. -/
def exprNodes : List Expr → List Node
  | [] => []
  | expr :: exprs => expr.node :: exprNodes exprs

/-- An expression that may be absent as nodes. -/
def exprNode? : Option Expr → List Node
  | none => []
  | some expr => [expr.node]

/-- Arguments as nodes. -/
def argumentNodes : List Argument → List Node
  | [] => []
  | ⟨span, _, _, value⟩ :: arguments =>
    .mk "call_arg" span [value.node] :: argumentNodes arguments

/-- Clauses of a comprehension as nodes. -/
def forClauseNodes : List ForClause → List Node
  | [] => []
  | ⟨span, _, target, iterable, conditions⟩ :: clauses =>
    .mk "comprehension_for" span (target.node :: iterable.node :: exprNodes conditions) ::
      forClauseNodes clauses

/-- Entries of a dict display as nodes. -/
def dictEntryNodes : List DictEntry → List Node
  | [] => []
  | ⟨span, key, value⟩ :: entries =>
    .mk "dict_entry" span (exprNode? key ++ [value.node]) :: dictEntryNodes entries

/-- Parameters as nodes. -/
def paramNodes : List Param → List Node
  | [] => []
  | ⟨span, _, _, typeHint, defaultValue⟩ :: params =>
    .mk "param" span (exprNode? typeHint ++ exprNode? defaultValue) :: paramNodes params

end

/-- A type parameter as a node. -/
def TypeParam.node (param : TypeParam) : Node :=
  .mk "type_param" param.span (exprNode? param.bound ++ exprNode? param.defaultValue)

/-- A decorator as a node. -/
def Decorator.node (decorator : Decorator) : Node :=
  .mk "decorator" decorator.span [decorator.expression.node]

/-- An imported name as a node. -/
def ImportAlias.node (name : ImportAlias) : Node :=
  .leaf "import_alias" name.span

/-- A context of a `with` statement as a node. -/
def WithItem.node (item : WithItem) : Node :=
  .mk "with_item" item.span (item.context.node :: exprNode? item.target)

/-- The name of a definition as a node. -/
def Name.node (name : Name) : Node :=
  .leaf "def_name" name.span

mutual

/-- A statement as a node. -/
def Stmt.node : Stmt → Node
  | ⟨span, form⟩ => .mk form.tag span form.children

/-- The nodes directly inside a statement. -/
def StmtForm.children : StmtForm → List Node
  | .annotate target hint value => target.node :: hint.node :: exprNode? value
  | .assert test message => test.node :: exprNode? message
  | .assign targets value => exprNodes targets ++ [value.node]
  | .augment _ target value => [target.node, value.node]
  | .break => []
  | .classDef decorators name typeParams arguments body =>
    decorators.map Decorator.node ++ name.node :: typeParams.map TypeParam.node ++
      argumentNodes arguments ++ stmtNodes body
  | .continue => []
  | .delete targets => exprNodes targets
  | .expression value => [value.node]
  | .forLoop _ target iterable body orElse =>
    target.node :: iterable.node :: (stmtNodes body ++ stmtNodes orElse)
  | .functionDef decorators _ name typeParams params returns body =>
    decorators.map Decorator.node ++ name.node :: typeParams.map TypeParam.node ++
      paramNodes params ++ exprNode? returns ++ stmtNodes body
  | .global _ => []
  | .conditional test consequent alternate =>
    test.node :: (stmtNodes consequent ++ stmtNodes alternate)
  | .importModules names => names.map ImportAlias.node
  | .importFrom _ _ .all => []
  | .importFrom _ _ (.specific names) => names.map ImportAlias.node
  | .matchCases subject cases => subject.node :: matchCaseNodes cases
  | .nonlocal _ => []
  | .pass => []
  | .raise exception cause => exprNode? exception ++ exprNode? cause
  | .return value => exprNode? value
  | .tryBlock body handlers orElse finalBody _ =>
    stmtNodes body ++ handlerNodes handlers ++ stmtNodes orElse ++ stmtNodes finalBody
  | .typeAlias _ typeParams value => typeParams.map TypeParam.node ++ [value.node]
  | .whileLoop test body orElse => test.node :: (stmtNodes body ++ stmtNodes orElse)
  | .withBlock _ items body => items.map WithItem.node ++ stmtNodes body

/-- Statements as nodes. -/
def stmtNodes : List Stmt → List Node
  | [] => []
  | stmt :: stmts => stmt.node :: stmtNodes stmts

/-- Exception handlers as nodes. -/
def handlerNodes : List Handler → List Node
  | [] => []
  | ⟨span, exception, _, body⟩ :: handlers =>
    .mk "except_handler" span (exprNode? exception ++ stmtNodes body) :: handlerNodes handlers

/-- Cases of a match statement as nodes. -/
def matchCaseNodes : List MatchCase → List Node
  | [] => []
  | ⟨span, _, guard, body⟩ :: cases =>
    .mk "match_case" span (exprNode? guard ++ stmtNodes body) :: matchCaseNodes cases

end

/-- A module as a node. -/
def Module.node (module : Module) : Node :=
  .mk "module" module.span (stmtNodes module.body)

end PythonOutline
