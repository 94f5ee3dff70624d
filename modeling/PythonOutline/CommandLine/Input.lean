/-! # Input of the command line

Where the source comes from and how getting it may fail. A directory of files held in memory stands
for the place where the program is run.
-/

namespace PythonOutline.CommandLine

/-- The step at which getting the input failed. -/
inductive ReadStage where
  | opening
  | reading
  deriving DecidableEq, Repr

/-- Why the input could not be had. -/
structure ReadFailure where
  stage : ReadStage
  reason : String
  deriving DecidableEq, Repr

namespace ReadFailure

/-- There is nothing at a path. -/
def notFound : ReadFailure :=
  ⟨.opening, "No such file or directory (os error 2)"⟩

/-- A path goes through a file as if it were a directory. -/
def notDirectory : ReadFailure :=
  ⟨.opening, "Not a directory (os error 20)"⟩

/-- A path, or a part of one, is longer than a file system takes. -/
def nameTooLong : ReadFailure :=
  ⟨.opening, "File name too long (os error 36)"⟩

/-- A directory cannot be read as a file. -/
def isDirectory : ReadFailure :=
  ⟨.reading, "Is a directory (os error 21)"⟩

/-- The wording of a failure for an input with a name. -/
def message (failure : ReadFailure) (name : String) : String :=
  match failure.stage with
  | .opening => "failed to open " ++ name ++ ": " ++ failure.reason
  | .reading => "failed to read " ++ name ++ ": " ++ failure.reason

end ReadFailure

/-- A directory that holds files and no directories. -/
abbrev Directory := List (String × List UInt8)

/-- The length that a path may have, in bytes. -/
def maxPathBytes : Nat := 4095

/-- The length that a part of a path may have, in bytes. -/
def maxPartBytes : Nat := 255

/-- What a path leads to. -/
inductive PathTarget where
  /-- The directory that the program is run in. -/
  | here
  /-- A directory around it, in which nothing else is known. -/
  | around
  | file (bytes : List UInt8)

/-- What a further part of a path leads to from a directory, whose files are the given ones. -/
def Directory.enter (files : Directory) (target : PathTarget) (part : String) :
    Except ReadFailure PathTarget :=
  if part = "" ∨ part = "." then .ok target
  else if part = ".." then .ok .around
  else if part.utf8ByteSize > maxPartBytes then .error .nameTooLong
  else
    match files.lookup part with
    | some bytes => .ok (.file bytes)
    | none => .error .notFound

/-- What one more part of a path leads to. No part may follow a file, not even an empty one. -/
def Directory.step (directory : Directory) (target : PathTarget) (part : String) :
    Except ReadFailure PathTarget :=
  match target with
  | .here => directory.enter target part
  | .around => Directory.enter [] target part
  | .file _ => .error .notDirectory

/-- Reads the file at a path, part after part; the first part that leads nowhere decides how it
fails. The directory itself and those around it are the only ones there are. -/
def Directory.read (directory : Directory) (path : String) : Except ReadFailure (List UInt8) := do
  if path.utf8ByteSize > maxPathBytes then throw .nameTooLong
  let start : PathTarget := if path.toList.head? = some '/' then .around else .here
  match ← (path.splitOn "/").foldlM directory.step start with
  | .file bytes => return bytes
  | _ => throw .isDirectory

end PythonOutline.CommandLine
