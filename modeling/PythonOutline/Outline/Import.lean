import PythonOutline.Json
import PythonOutline.Tree.Stmt

/-! # Imports

The names that the statements of a module bind by importing, one record for each.
-/

namespace PythonOutline

/-- A name bound by an import. -/
structure Import where
  /-- The dotted path of the module. A relative path keeps its leading dots. -/
  module : String
  /-- What is imported from the module, unless the module itself is. A star stands for all of it. -/
  name : Option String
  /-- The name it is bound to, if another one is given. -/
  boundAs : Option String
  line : Nat
  deriving DecidableEq, Repr

namespace Import

/-- The path of a module behind a number of dots. -/
def relativePath (level : Nat) (module : Option String) : String :=
  String.ofList (List.replicate level '.') ++ module.getD ""

/-- The imports that a statement makes. -/
def ofStmt (source : List Char) (stmt : Stmt) : List Import :=
  match stmt.form with
  | .importModules names =>
    names.map fun name => ⟨name.name, none, name.boundAs, name.span.line source⟩
  | .importFrom level module .all =>
    [⟨relativePath level module, some "*", none, stmt.span.line source⟩]
  | .importFrom level module (.specific names) =>
    names.map fun name =>
      ⟨relativePath level module, some name.name, name.boundAs, name.span.line source⟩
  | _ => []

/-- The imports that the statements of a body make themselves. -/
def ofBody (source : List Char) (body : List Stmt) : List Import :=
  body.flatMap (ofStmt source)

/-- An import as an object. -/
def json (record : Import) : Json :=
  .obj [("module", .str record.module), ("name", .ofText? record.name),
    ("alias", .ofText? record.boundAs), ("line", .num record.line)]

end Import

end PythonOutline
