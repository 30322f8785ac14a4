/-!
# Causes of file failures

Why an operation on files failed, with the printed text and the system's number of each cause.
-/

namespace Formulary

/-- Why an operation on files failed. -/
inductive Cause where
  | notPermitted | notFound | badProgram | denied | busy | exists | notDirectory | isDirectory
  | invalid | noSpace | readOnly | nameTooLong | notEmpty | loop
  /-- A name holds the character zero, which no name may. -/
  | zeroInName
  /-- An argument of a program holds the character zero. -/
  | zeroInArgument
  /-- A copy was asked for of something that is no file. -/
  | notFile
  /-- A file that was to be text is none. -/
  | notText
  /-- Not even the first directory of a path could be made. -/
  | noTree
deriving DecidableEq, Inhabited

namespace Cause

/-- The number of a cause, and what is printed before it. -/
def known? : Cause → Option (Nat × String)
  | notPermitted => some (1, "Operation not permitted")
  | notFound => some (2, "No such file or directory")
  | badProgram => some (8, "Exec format error")
  | denied => some (13, "Permission denied")
  | busy => some (16, "Device or resource busy")
  | .exists => some (17, "File exists")
  | notDirectory => some (20, "Not a directory")
  | isDirectory => some (21, "Is a directory")
  | invalid => some (22, "Invalid argument")
  | noSpace => some (28, "No space left on device")
  | readOnly => some (30, "Read-only file system")
  | nameTooLong => some (36, "File name too long")
  | notEmpty => some (39, "Directory not empty")
  | loop => some (40, "Too many levels of symbolic links")
  | zeroInName | zeroInArgument | notFile | notText | noTree => none

/-- The text of a cause without a number. -/
def plainText : Cause → String
  | zeroInName => "file name contained an unexpected NUL byte"
  | zeroInArgument => "nul byte found in provided data"
  | notFile => "the source path is neither a regular file nor a symlink to a regular file"
  | notText => "stream did not contain valid UTF-8"
  | noTree => "failed to create whole tree"
  | _ => ""

/-- The printed text. -/
def message (c : Cause) : String :=
  match c.known? with
  | some (number, text) => text ++ " (os error " ++ toString number ++ ")"
  | none => c.plainText

end Cause

end Formulary
