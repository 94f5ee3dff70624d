import PythonOutline.Outline.Declaration
import PythonOutline.Outline.Exports
import PythonOutline.Outline.Import
import PythonOutline.Parser.Module

/-! # Outlines

The outline of a module: its export list, its declarations and its imports. A caller may give an
export list, which then takes the place of the module's own.
-/

namespace PythonOutline

/-- The outline of a module. -/
structure Outline where
  exports : Option (List String)
  declarations : List Declaration
  imports : List Import

namespace Outline

/-- The outline of a parsed module. -/
def ofModule (source : List Char) (exports : Option (List String)) (module : Module) : Outline :=
  let exports := exports <|> module.exports
  { exports
    declarations := Declaration.ofBody source exports module.body
    imports := Import.ofBody source module.body }

/-- The outline of a source, unless it is not a module. -/
def ofSource (source : String) (exports : Option (List String)) : Except SyntaxError Outline :=
  (parseModule source).map (ofModule source.toList exports)

/-- The fields of an outline. -/
def fields (outline : Outline) : List (String × Json) :=
  [("exports", outline.exports.elim .null Json.ofTexts),
    ("declarations", .arr (Declaration.jsons outline.declarations)),
    ("imports", .arr (outline.imports.map Import.json))]

end Outline

end PythonOutline
