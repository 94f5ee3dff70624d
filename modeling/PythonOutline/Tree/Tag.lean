import PythonOutline.Tree.Stmt

/-! # Names of tree forms

The names under which the forms of a tree are reported.
-/

namespace PythonOutline

/-- The name of a form of expression. -/
def ExprForm.tag : ExprForm → String
  | .attribute .. => "Attribute"
  | .await .. => "Await"
  | .binary .. => "Binary"
  | .boolean .. => "BoolOp"
  | .call .. => "Call"
  | .compare .. => "Compare"
  | .comprehension .. => "Comprehension"
  | .conditional .. => "Cond"
  | .dict .. => "Dict"
  | .name .. => "Id"
  | .lambda .. => "Lambda"
  | .list .. => "List"
  | .named .. => "Named"
  | .set .. => "Set"
  | .slice .. => "Slice"
  | .starred .. => "Starred"
  | .subscript .. => "Subscript"
  | .tuple .. => "Tuple"
  | .unary .. => "Unary"
  | .yield .. => "Yield"
  | .boolLiteral .. => "LitBool"
  | .ellipsis => "LitEllipsis"
  | .noneLiteral => "LitNone"
  | .number .. => "LitNum"
  | .string .. => "LitStr"

/-- The name of a form of statement. -/
def StmtForm.tag : StmtForm → String
  | .annotate .. => "AnnAssign"
  | .assert .. => "Assert"
  | .assign .. => "Assign"
  | .augment .. => "AugAssign"
  | .break => "Break"
  | .classDef .. => "ClassDef"
  | .continue => "Continue"
  | .delete .. => "Del"
  | .expression .. => "Expr"
  | .forLoop .. => "For"
  | .functionDef .. => "FuncDef"
  | .global .. => "Global"
  | .conditional .. => "If"
  | .importModules .. => "Import"
  | .importFrom .. => "ImportFrom"
  | .matchCases .. => "Match"
  | .nonlocal .. => "Nonlocal"
  | .pass => "Pass"
  | .raise .. => "Raise"
  | .return .. => "Return"
  | .tryBlock .. => "Try"
  | .typeAlias .. => "TypeAlias"
  | .whileLoop .. => "While"
  | .withBlock .. => "With"

/-- The name of a way to hand over an argument. -/
def Unpack.name : Unpack → String
  | .none => "none"
  | .iterable => "iterable"
  | .mapping => "mapping"

/-- The name of what a comprehension builds. -/
def ComprehensionKind.name : ComprehensionKind → String
  | .dict => "dict"
  | .generator => "generator"
  | .list => "list"
  | .set => "set"

/-- The name of a kind of parameter. -/
def ParamKind.name : ParamKind → String
  | .positionalOnly => "positional_only"
  | .regular => "regular"
  | .varPositional => "var_positional"
  | .keywordOnly => "keyword_only"
  | .varKeyword => "var_keyword"

/-- The name of a kind of type parameter. -/
def TypeParamKind.name : TypeParamKind → String
  | .typeVar => "type_var"
  | .typeVarTuple => "type_var_tuple"
  | .paramSpec => "param_spec"

end PythonOutline
