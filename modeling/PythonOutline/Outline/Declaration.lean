import PythonOutline.Json
import PythonOutline.Text.Utf8
import PythonOutline.Tree.Stmt

/-! # Declarations

The functions and classes that are defined directly in a module or a class body. A name that is
defined more than once keeps the place of its first definition and the content of its last. Names
with a leading underscore are private unless they are exported or have two underscores at both ends.
The export list of a module says nothing about the members of its classes.
-/

namespace PythonOutline

/-- What is declared. -/
inductive DeclarationKind where
  | function
  | asyncFunction
  | classType
  deriving DecidableEq, Repr

/-- Whether a name is meant for use outside. -/
inductive Visibility where
  | shown
  | hidden
  deriving DecidableEq, Repr

/-- A function or a class with what is known about it. -/
structure Declaration where
  name : String
  kind : DeclarationKind
  visibility : Visibility
  /-- Whether the export list holds the name. -/
  exported : Bool
  /-- The names of the decorators. -/
  decorators : List String
  /-- The source texts of the positional bases of a class. -/
  bases : List String
  /-- The span of the whole definition. -/
  span : Span
  /-- The line of the name. -/
  line : Nat
  members : List Declaration

/-- The name of a kind of declaration. -/
def DeclarationKind.name : DeclarationKind → String
  | .function => "function"
  | .asyncFunction => "async-function"
  | .classType => "class"

/-- The name of a visibility. -/
def Visibility.name : Visibility → String
  | .shown => "public"
  | .hidden => "private"

/-- Whether a name has two underscores at both ends and something between them. -/
def isDunderName (name : String) : Bool :=
  name.utf8ByteSize > 4 && ['_', '_'].isPrefixOf name.toList && ['_', '_'].isSuffixOf name.toList

/-- Whether a name is private by convention. -/
def isPrivateName (name : String) : Bool :=
  name.toList.head? = some '_' && !isDunderName name

/-- Whether an export list that may be absent holds a name. -/
def isExported (exports : Option (List String)) (name : String) : Bool :=
  exports.any (·.contains name)

/-- The visibility of a name under an export list that may be absent. -/
def Visibility.of (exports : Option (List String)) (name : String) : Visibility :=
  if isPrivateName name && !isExported exports name then .hidden else .shown

/-- The dotted name that an expression is, if it is one. -/
def Expr.dottedName? : Expr → Option String
  | ⟨_, .name text⟩ => some text
  | ⟨_, .attribute value name⟩ => value.dottedName?.map fun outer => outer ++ "." ++ name
  | _ => none

namespace Declaration

/-- The text of a span of the source. -/
def textAt (source : List Char) (span : Span) : String :=
  String.ofList (Text.slice source span.start span.stop)

/-- The name of a decorator, which is that of the called function if it is a call: its dotted name,
or its source text if it has none. -/
def decoratorName (source : List Char) (decorator : Decorator) : String :=
  let target :=
    match decorator.expression.form with
    | .call callee _ => callee
    | _ => decorator.expression
  target.dottedName?.getD (textAt source target.span)

/-- The source texts of the positional arguments of a class header. -/
def baseTexts (source : List Char) (arguments : List Argument) : List String :=
  (arguments.filter fun argument => argument.keyword.isNone && argument.unpack != .mapping).map
    fun argument => textAt source argument.span

/-- Puts a declaration in the place of one with the same name, or behind all others. -/
def insert (declaration : Declaration) : List Declaration → List Declaration
  | [] => [declaration]
  | other :: others =>
    if other.name = declaration.name then declaration :: others
    else other :: insert declaration others

/-- The declaration that the definition of a function makes. -/
def ofFunction (source : List Char) (exports : Option (List String)) (span : Span)
    (decorators : List Decorator) (isAsync : Bool) (name : Name) : Declaration where
  name := name.text
  kind := if isAsync then .asyncFunction else .function
  visibility := .of exports name.text
  exported := isExported exports name.text
  decorators := decorators.map (decoratorName source)
  bases := []
  span := span
  line := name.span.line source
  members := []

/-- The declaration that the definition of a class makes, which has some members. -/
def ofClass (source : List Char) (exports : Option (List String)) (span : Span)
    (decorators : List Decorator) (name : Name) (arguments : List Argument)
    (members : List Declaration) : Declaration where
  name := name.text
  kind := .classType
  visibility := .of exports name.text
  exported := isExported exports name.text
  decorators := decorators.map (decoratorName source)
  bases := baseTexts source arguments
  span := span
  line := name.span.line source
  members := members

mutual

/-- The declaration that a statement makes. -/
def ofStmt? (source : List Char) (exports : Option (List String)) : Stmt → Option Declaration
  | ⟨span, .functionDef decorators isAsync name _ _ _ _⟩ =>
    some (ofFunction source exports span decorators isAsync name)
  | ⟨span, .classDef decorators name _ arguments body⟩ =>
    some (ofClass source exports span decorators name arguments (ofStmtsInto source none [] body))
  | _ => none

/-- The declarations that statements make, put among earlier ones. -/
def ofStmtsInto (source : List Char) (exports : Option (List String))
    (declarations : List Declaration) : List Stmt → List Declaration
  | [] => declarations
  | stmt :: stmts =>
    match ofStmt? source exports stmt with
    | none => ofStmtsInto source exports declarations stmts
    | some declaration =>
      ofStmtsInto source exports (declaration.insert declarations) stmts

end

/-- The declarations directly in a body. -/
def ofBody (source : List Char) (exports : Option (List String)) (body : List Stmt) :
    List Declaration :=
  ofStmtsInto source exports [] body

mutual

/-- A declaration as an object. -/
def json : Declaration → Json
  | ⟨name, kind, visibility, exported, decorators, bases, span, line, members⟩ =>
    .obj [("name", .str name), ("kind", .str kind.name), ("visibility", .str visibility.name),
      ("exported", .bool exported), ("decorators", .ofTexts decorators), ("bases", .ofTexts bases),
      ("loc", .arr [.num span.start, .num span.stop]), ("line", .num line),
      ("members", .arr (jsons members))]

/-- Declarations as objects. -/
def jsons : List Declaration → List Json
  | [] => []
  | declaration :: declarations => declaration.json :: jsons declarations

end

end Declaration

end PythonOutline
