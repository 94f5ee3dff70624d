import PythonOutline.Text.Blank

/-! # Command line options

The arguments of the program: one path, flags, and the option `--exports` with a value. A value
follows behind an equals sign or as the next argument, which then must not look like an option.
Behind `--` every argument is a path. Option names are written in full; a flag is given at most
once, except the one that asks for a log.
-/

namespace PythonOutline.CommandLine

/-- Why arguments are not understood. -/
inductive UsageError where
  | unknownOption (argument : String)
  | repeatedFlag (argument : String)
  | unexpectedValue (argument : String)
  | missingValue (argument : String)
  | extraPath (argument : String)
  | emptyPath
  deriving DecidableEq, Repr

/-- The wording of a usage error. -/
def UsageError.message : UsageError → String
  | .unknownOption argument => "unknown option " ++ argument
  | .repeatedFlag argument => "option " ++ argument ++ " is given more than once"
  | .unexpectedValue argument => "option " ++ argument ++ " takes no value"
  | .missingValue argument => "option " ++ argument ++ " needs a value"
  | .extraPath argument => "unexpected argument " ++ argument
  | .emptyPath => "the path is empty"

/-- What the arguments ask for. -/
structure Options where
  /-- The source file; standard input if absent. -/
  path : Option String
  /-- The texts given as export lists, one for each piece between commas. -/
  exports : Option (List String)
  /-- Whether the tree is printed instead of the outline. -/
  tree : Bool
  /-- Whether the output is indented. -/
  pretty : Bool
  /-- Whether a syntax error is printed as JSON. -/
  jsonErrors : Bool
  deriving DecidableEq, Repr

namespace Options

/-- What no arguments ask for. -/
def none : Options :=
  ⟨.none, .none, false, false, false⟩

/-- The options with a path. -/
def withPath (options : Options) (path : String) : Except UsageError Options :=
  if options.path.isSome then .error (.extraPath path)
  else if path = "" then .error .emptyPath
  else .ok { options with path := some path }

/-- The options with the pieces of another export list. -/
def withExports (options : Options) (value : String) : Options :=
  { options with exports := some (options.exports.getD [] ++ value.splitOn ",") }

/-- The options with a flag that has a long name. -/
def withFlag (options : Options) (name : String) : Except UsageError Options :=
  let argument := "--" ++ name
  if name = "verbose" then .ok options
  else if name = "ast" then
    if options.tree then .error (.repeatedFlag argument) else .ok { options with tree := true }
  else if name = "pretty" then
    if options.pretty then .error (.repeatedFlag argument) else .ok { options with pretty := true }
  else if name = "json-errors" then
    if options.jsonErrors then .error (.repeatedFlag argument)
    else .ok { options with jsonErrors := true }
  else .error (.unknownOption argument)

/-- The names of an export list that was given: its pieces without surrounding white space, as far
as something is left of them. -/
def exportNames (options : Options) : Option (List String) :=
  options.exports.map fun pieces =>
    (pieces.map fun piece => String.ofList (Text.trim piece.toList)).filter (· != "")

end Options

/-- Whether an argument is an option by its form. A single hyphen is not. -/
def looksLikeOption (argument : String) : Bool :=
  argument.toList.head? = some '-' && argument != "-"

/-- An argument behind two hyphens as a name and the value that an equals sign divides from it. -/
def splitValue (text : List Char) : String × Option String :=
  let (name, rest) := text.span (· != '=')
  (String.ofList name, rest.tail?.map String.ofList)

/-- The options with arguments that are all paths. -/
def parsePaths (options : Options) (arguments : List String) : Except UsageError Options :=
  arguments.foldlM Options.withPath options

/-- The options with further arguments. -/
def parseFrom (options : Options) : List String → Except UsageError Options
  | [] => .ok options
  | argument :: rest =>
    match argument.toList with
    | ['-', '-'] => parsePaths options rest
    | '-' :: '-' :: text =>
      match splitValue text with
      | ("exports", some value) => parseFrom (options.withExports value) rest
      | ("exports", .none) =>
        match rest with
        | value :: rest =>
          if looksLikeOption value then .error (.missingValue argument)
          else parseFrom (options.withExports value) rest
        | [] => .error (.missingValue argument)
      | (_, some _) => .error (.unexpectedValue argument)
      | (name, .none) => do parseFrom (← options.withFlag name) rest
    | '-' :: letter :: letters =>
      if (letter :: letters).all (· == 'v') then parseFrom options rest
      else .error (.unknownOption argument)
    | _ => do parseFrom (← options.withPath argument) rest

/-- What arguments ask for. -/
def parse (arguments : List String) : Except UsageError Options :=
  parseFrom .none arguments

end PythonOutline.CommandLine
