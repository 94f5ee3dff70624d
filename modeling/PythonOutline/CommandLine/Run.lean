import PythonOutline.CommandLine.Input
import PythonOutline.CommandLine.Options
import PythonOutline.Outline.Basic
import PythonOutline.Report
import PythonOutline.Text.Decode
import PythonOutline.Tree.Json

/-! # Running the command line

What the program prints and how it exits, as a function of its options and its input. The outline or
the tree goes to standard output as JSON. A syntax error exits with one and is reported on standard
error, or as JSON on standard output if that is asked for. Everything that keeps the program from
looking at the source at all exits with two.
-/

namespace PythonOutline.CommandLine

/-- What a run of the program leaves behind. -/
structure Outcome where
  exitCode : Nat
  stdout : String
  stderr : String
  deriving DecidableEq, Repr

/-- The version of the layout of the output. -/
def schemaVersion : String × Json :=
  ("schema_version", .num 1)

/-- The name of the input in messages. -/
def Options.inputName (options : Options) : String :=
  options.path.getD "<stdin>"

/-- A document as the program prints it. -/
def Options.print (options : Options) (fields : List (String × Json)) : String :=
  let document := Json.obj (schemaVersion :: fields)
  (if options.pretty then document.pretty else document.compact) ++ "\n"

/-- The run that is given up before the source is looked at. -/
def Outcome.givenUp (message : String) : Outcome :=
  ⟨2, "", "error: " ++ message ++ "\n"⟩

/-- A syntax error as an object. -/
def diagnostic (source : List Char) (error : SyntaxError) : Json :=
  .obj [("code", .str error.code), ("message", .str error.message),
    ("start", .num error.span.start), ("end", .num error.span.stop),
    ("line", .num (error.span.line source))]

/-- The run on a source that is not a module. -/
def Outcome.ofError (options : Options) (source : List Char) (error : SyntaxError) : Outcome :=
  if options.jsonErrors then
    ⟨1, options.print [("diagnostics", .arr [diagnostic source error])], ""⟩
  else ⟨1, "", Report.render options.inputName source error⟩

/-- The fields that are printed about a source. -/
def report (options : Options) (source : String) : Except SyntaxError (List (String × Json)) :=
  if options.tree then (parseModule source).map fun module => [("ast", module.json)]
  else (Outline.ofSource source options.exportNames).map Outline.fields

/-- The run on an input. -/
def run (options : Options) (input : Except ReadFailure (List UInt8)) : Outcome :=
  match input with
  | .error failure => .givenUp (failure.message options.inputName)
  | .ok bytes =>
    match Text.decodeUtf8 bytes with
    | .error fault => .givenUp (options.inputName ++ " is not valid UTF-8: " ++ fault.message)
    | .ok text =>
      match report options (String.ofList text) with
      | .ok fields => ⟨0, options.print fields, ""⟩
      | .error error => .ofError options text error

/-- The run with arguments in a directory, where `stdin` is what standard input holds. -/
def runIn (directory : Directory) (stdin : List UInt8) (arguments : List String) : Outcome :=
  match parse arguments with
  | .error error => .givenUp error.message
  | .ok options =>
    run options
      (match options.path with
        | none => .ok stdin
        | some path => directory.read path)

end PythonOutline.CommandLine
