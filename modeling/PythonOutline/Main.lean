import PythonOutline.CommandLine.Run

/-! # The program

Reads the file that the arguments name, or standard input, and prints what `CommandLine.run` says.
-/

namespace PythonOutline.CommandLine

/-- What the operating system says about an error, with its number. -/
def systemReason : IO.Error → String
  | .noFileOrDirectory _ code text | .invalidArgument _ code text | .permissionDenied _ code text
  | .resourceExhausted _ code text | .inappropriateType _ code text | .noSuchThing _ code text
  | .interrupted _ code text | .hardwareFault code text | .resourceBusy code text
  | .illegalOperation code text | .otherError code text =>
    text ++ " (os error " ++ toString code ++ ")"
  | error => toString error

/-- The failure that the operating system reports at a step. -/
def ReadFailure.ofSystem (stage : ReadStage) (error : IO.Error) : ReadFailure :=
  ⟨stage, systemReason error⟩

/-- The bytes of a file. -/
def readFile (path : String) : IO (Except ReadFailure (List UInt8)) := do
  match ← (IO.FS.Handle.mk path .read).toBaseIO with
  | .error error => return .error (.ofSystem .opening error)
  | .ok handle =>
    match ← handle.readBinToEnd.toBaseIO with
    | .error error => return .error (.ofSystem .reading error)
    | .ok bytes => return .ok bytes.toList

/-- The bytes of standard input, up to its end. -/
partial def readStream (stream : IO.FS.Stream) (seen : ByteArray) : IO ByteArray := do
  let bytes ← stream.read 65536
  if bytes.isEmpty then return seen else readStream stream (seen ++ bytes)

/-- The input that options ask for. -/
def readInput (options : Options) : IO (Except ReadFailure (List UInt8)) := do
  match options.path with
  | some path => readFile path
  | none =>
    match ← (readStream (← IO.getStdin) .empty).toBaseIO with
    | .error error => return .error (.ofSystem .reading error)
    | .ok bytes => return .ok bytes.toList

end PythonOutline.CommandLine

open PythonOutline.CommandLine in
/-- Runs the program with arguments. -/
def main (arguments : List String) : IO UInt32 := do
  let outcome ←
    match parse arguments with
    | .error error => pure (.givenUp error.message)
    | .ok options => run options <$> readInput options
  IO.print outcome.stdout
  IO.eprint outcome.stderr
  return outcome.exitCode.toUInt32
