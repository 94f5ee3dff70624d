import PythonOutline.Parser.Loop
import PythonOutline.Tree.Stmt

/-! # Import statements

Dots that lead a relative import may be written as single dots or in groups of three, since three
dots in a row are one token.
-/

namespace PythonOutline.Parser

/-- A name with dots between its parts. -/
def dottedName : Parser String := do
  let first ← identifier
  let others ← repeatWhile (accept .dot) identifier
  return ".".intercalate (first :: others)

/-- An imported name, and the name it is bound to. -/
def importAlias (name : Parser String) : Parser ImportAlias := spanned do
  let name ← name
  let boundAs ← ifAccepted .keywordAs identifier
  return fun span => ⟨span, name, boundAs⟩

/-- An import of modules: `import a.b as c, d`. -/
def importModules : Parser Stmt := spanned do
  let _ ← expect .keywordImport
  let names ← commaSeparated (importAlias dottedName)
  return fun span => ⟨span, .importModules names⟩

/-- Takes one more dot, or three of them, if they follow. -/
abbrev dotsStep (level : Nat) : Parser (Step Nat Nat) := do
  if ← accept .dot then return .next (level + 1)
  if ← accept .dotDotDot then return .next (level + 3)
  return .done level

/-- The number of dots that lead a relative import. -/
def leadingDots : Parser Nat :=
  iterate 0 dotsStep

/-- The names behind the `import` of an import from a module. -/
def importedNames : Parser ImportedNames := do
  if ← accept .asterisk then return .all
  if ← accept .parenthesisOpen then
    let names ← listUntil .parenthesisClose (importAlias identifier)
    if names.isEmpty then failNext (.expected "imported name")
    return .specific names
  return .specific (← commaSeparated (importAlias identifier))

/-- An import from a module: `from ..m import a as b, c`. -/
def importFrom : Parser Stmt := spanned do
  let _ ← expect .keywordFrom
  let level ← leadingDots
  let module ← if ← nextIs .identifier then some <$> dottedName else pure none
  if module.isNone ∧ level = 0 then failNext (.expected "module name")
  let _ ← expect .keywordImport
  let names ← importedNames
  return fun span => ⟨span, .importFrom level module names⟩

end PythonOutline.Parser
