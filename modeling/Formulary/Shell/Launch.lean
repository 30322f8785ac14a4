import Formulary.Process
import Formulary.Shell.Tools

/-!
# Starting programs

Which tool a program comes down to. The file of a tool names it; a file that starts with `#!`
names its interpreter; any other file cannot be started.
-/

namespace Formulary.Shell

/-- A tool with its arguments, the first of which is its own name. -/
structure Start where
  tool : String
  arguments : List String
deriving DecidableEq

namespace Start

/-- The interpreter that a script names in its first line, with an argument or none. -/
def interpreter? (bytes : ByteArray) : Option (String × Option String) :=
  if !Bytes.startsWith bytes [0x23, 0x21] then none
  else
    let isGap := fun (c : Char) => c == ' ' || c == '\t'
    let line := ((Text.ofBytes (bytes.extract 2 256)).toList.takeWhile (· != '\n'))
    let line := (line.dropWhile isGap).reverse.dropWhile isGap |>.reverse
    let name := line.takeWhile fun c => !isGap c
    let argument := (line.drop name.length).dropWhile isGap
    if name = [] then none
    else some (String.ofList name,
      if argument = [] then none else some (String.ofList argument))

/-- What starting a file comes down to, with at most so many interpreters between. -/
def ofFile (d : Disk) : Nat → (path : String) → (arguments : List String) → Except Cause Start
  | 0, _, _ => .error .loop
  | hops + 1, path, arguments =>
    match d.found true ⟨path⟩ with
    | .error cause => .error cause
    | .ok (_, .file n) =>
      let data := (d.fileData? n).getD ⟨.empty, 0⟩
      if !d.canRun data.mode then .error .denied
      else match Tools.ofImage? data.bytes, interpreter? data.bytes with
        | some tool, _ => .ok ⟨tool, arguments⟩
        | none, some (name, argument) =>
          ofFile d hops name (name :: argument.toList ++ path :: arguments.drop 1)
        | none, none => .error .badProgram
    | .ok _ => .error .denied

/-- Interpreters of interpreters are followed this often. -/
def maxHops : Nat := 6

/-- Where a program may be, in the order in which it is looked for. -/
def candidates (searchPath : String) (program : String) : List String :=
  if program = "" then []
  else if program.toList.contains '/' then [program]
  else (Text.pieces ':' searchPath).map fun dir =>
    if dir = "" then program else dir ++ "/" ++ program

/-- What comes of looking for a program. -/
inductive Found where
  | starts (s : Start)
  /-- A file that may be run, but has no format that is known. -/
  | unknownFormat (path : String)
  | fails (cause : Cause)
deriving DecidableEq

/-- Start the first candidate that can be started. A missing one is passed over, and so is one
without the right to start it, which is told if no other can be started. -/
def first (d : Disk) (arguments : List String) : (cause : Cause) → List String → Found
  | cause, [] => .fails cause
  | cause, path :: rest =>
    match ofFile d maxHops path arguments with
    | .ok start => .starts start
    | .error .denied => first d arguments .denied rest
    | .error .notFound | .error .notDirectory => first d arguments cause rest
    | .error .badProgram => .unknownFormat path
    | .error other => .fails other

/-- Look for a program. -/
def find (d : Disk) (searchPath : String) (arguments : List String) : Found :=
  first d arguments .notFound (candidates searchPath (arguments.headD ""))

end Start

end Formulary.Shell
