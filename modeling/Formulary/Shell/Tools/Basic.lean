import Formulary.Shell.Session

/-!
# What tools share

The options of tools and the way they complain.
-/

namespace Formulary.Shell.Tools

open Session

/-- What a tool does with its arguments. It leaves a status in the session. -/
abbrev Tool := List String → Act Unit

/-- The letters of options, apart from the other arguments. Nothing after `--` is an option. -/
def options : List String → List Char × List String
  | [] => ([], [])
  | "--" :: rest => ([], rest)
  | a :: rest =>
    let (letters, others) := options rest
    match a.toList with
    | '-' :: c :: cs =>
      if c == '-' then (letters, others) else (c :: cs ++ letters, others)
    | _ => (letters, a :: others)

/-- Print a message of a tool, which then has failed. -/
def complain (tool message : String) : Act Unit := do
  say 2 (tool ++ ": " ++ message ++ "\n")
  setStatus 1

/-- The printed name of a cause, without its number. -/
def reason (c : Cause) : String := (c.known?.map Prod.snd).getD c.message

/-- A name between quotes. -/
def quoted (s : String) : String := "'" ++ s ++ "'"

/-- Take a step on the disk, or print what could not be done. -/
def attempt (tool what : String) (act : DiskM Unit) : Act Unit := do
  match ← tryDisk act with
  | .ok () => pure ()
  | .error cause => complain tool (what ++ ": " ++ reason cause)

/-- Tell that an operand is missing. -/
def missingOperand (tool : String) : Act Unit := do
  complain tool "missing operand"
  say 2 ("Try '" ++ tool ++ " --help' for more information.\n")

/-- The bytes of a file, or of what is read if the file is called `-`. -/
def input (tool path : String) : Act (Option ByteArray) := do
  if path = "-" then pure (some (← readAll 0))
  else match ← tryDisk (Disk.read ⟨path⟩) with
    | .ok bytes => pure (some bytes)
    | .error cause =>
      complain tool (path ++ ": " ++ reason cause)
      pure none

/-- The bytes of all files, or of what is read if there are none. -/
def inputs (tool : String) (paths : List String) : Act (List ByteArray) := do
  let mut found := []
  for path in (if paths.isEmpty then ["-"] else paths) do
    match ← input tool path with
    | some bytes => found := found ++ [bytes]
    | none => pure ()
  pure found

/-- The lines of some bytes, as text. -/
def lines (bytes : ByteArray) : List String :=
  let s := Text.ofBytes bytes
  let cut := Text.pieces '\n' s
  if s = "" then [] else if cut.getLast? = some "" then cut.dropLast else cut

/-- The lines of some bytes with their ends, which the last one may lack. -/
def closedLines (bytes : ByteArray) : List String :=
  let ls := lines bytes
  let open? := bytes.size > 0 && bytes.get! (bytes.size - 1) != 10
  ls.zipIdx.map fun (l, k) => if open? && k + 1 == ls.length then l else l ++ "\n"

/-- Print lines. -/
def sayLines (ls : List String) : Act Unit := say 1 (String.join (ls.map (· ++ "\n")))

end Formulary.Shell.Tools
