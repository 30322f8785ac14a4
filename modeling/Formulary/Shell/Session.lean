import Formulary.Bindings
import Formulary.Bytes
import Formulary.Disk.Trees
import Formulary.Shell.Script

/-!
# Sessions

The state in which a script runs, and the steps on it that need no script : variables,
descriptors, reading and writing. A descriptor stands for a channel, and two descriptors of one
channel share its position.
-/

namespace Formulary.Shell

/-- Where bytes come from and go to. -/
inductive Channel where
  /-- A file by its number on the disk. -/
  | file (number position : Nat) (appends : Bool)
  /-- Bytes that were written and not read yet. -/
  | buffer (bytes : ByteArray)
  /-- Always at its end, and takes everything. -/
  | null
deriving Inhabited

/-- Why a script does not go on with its next command. -/
inductive Stop where
  | exit
  | killed (signal : Nat)
  | broke (levels : Nat)
  | continued (levels : Nat)
  | returned
deriving DecidableEq

/-- The settings of a session. -/
structure Options where
  /-- A command that fails ends the script. -/
  stopOnFailure : Bool := false
  /-- A parameter that is not set is a fault. -/
  needSet : Bool := false
  /-- Words are not taken as patterns of file names. -/
  plainNames : Bool := false
  /-- Each command is printed before it is run. -/
  trace : Bool := false
  /-- Files that are there are not written over. -/
  keepFiles : Bool := false

/-- The state in which a script runs. -/
structure Session where
  disk : Disk
  vars : Bindings := .empty
  /-- The variables that programs are given. -/
  exported : List String := []
  /-- The variables that stay as they are. -/
  fixed : List String := []
  arguments : List String := []
  /-- What the script is called in messages. -/
  name : String := "sh"
  line : Nat := 1
  functions : List (String × Script) := []
  status : Nat := 0
  options : Options := {}
  /-- The outcome of commands is looked at, so that their failure does not end the script. -/
  tested : Bool := false
  handles : List (Nat × Nat) := []
  channels : Array Channel := #[]
  /-- The status of the latest script whose output became part of a word. -/
  outputStatus : Option Nat := none
  /-- What runs when the script ends. -/
  atExit : Option String := none
  /-- The values that variables have outside of the functions that run. -/
  saved : List (List (String × Option String)) := []

/-- Steps in a session, any of which may stop the script. -/
abbrev Act := ExceptT Stop (StateM Session)

namespace Session

/-! ## Stopping -/

/-- Take steps and see whether they stopped the script. -/
def caught (act : Act Unit) : Act (Option Stop) := do
  match ← ExceptT.lift act.run with
  | .ok () => pure none
  | .error stop => pure (some stop)

/-- Set the exit status. -/
def setStatus (n : Nat) : Act Unit := modify ({ · with status := n })

/-- End the script with a status. -/
def exitWith {α : Type} (n : Nat) : Act α := do
  setStatus n
  throw .exit

/-- The status that a script leaves when it is stopped. -/
def settle (stop : Option Stop) : Act Unit :=
  match stop with
  | some (.killed signal) => setStatus (128 + signal)
  | _ => pure ()

/-- Take steps whose changes to anything but the disk and the channels do not last, and see
whether they stopped. -/
def isolated (act : Act Unit) : Act (Option Stop) := do
  let before ← get
  let stop ← caught act
  settle stop
  let after ← get
  set { before with
    disk := { after.disk with workdir := before.disk.workdir }
    channels := after.channels
    status := after.status }
  pure stop

/-- Take steps whose changes to anything but the disk and the channels do not last. -/
def apart (act : Act Unit) : Act Unit := do
  let _ ← isolated act

/-- Take steps on the disk. -/
def onDisk {α : Type} (act : StateM Disk α) : Act α := do
  let s ← get
  let (a, disk) := act.run s.disk
  set { s with disk }
  pure a

/-- Take steps on the disk that may fail. -/
def tryDisk {α : Type} (act : DiskM α) : Act (Except Cause α) := onDisk act.run

/-! ## Channels -/

/-- The channel behind a descriptor, with its number. -/
def channel? (s : Session) (fd : Nat) : Option (Nat × Channel) := do
  let n ← s.handles.lookup fd
  let c ← s.channels[n]?
  some (n, c)

/-- Give a descriptor a channel. -/
def attach (fd n : Nat) : Act Unit := modify fun s =>
  { s with handles := (fd, n) :: s.handles.filter (·.1 != fd) }

/-- Take a descriptor its channel. -/
def detach (fd : Nat) : Act Unit := modify fun s =>
  { s with handles := s.handles.filter (·.1 != fd) }

/-- Add a channel. -/
def newChannel (c : Channel) : Act Nat := do
  let s ← get
  set { s with channels := s.channels.push c }
  pure s.channels.size

/-- Change a channel. -/
def setChannel (n : Nat) (c : Channel) : Act Unit := modify fun s =>
  { s with channels := s.channels.setIfInBounds n c }

/-- The bytes that a channel gathered. -/
def gathered (s : Session) (n : Nat) : ByteArray :=
  match s.channels[n]? with
  | some (.buffer bytes) => bytes
  | _ => .empty

/-- Bytes with some of them written over from a position on. -/
def overwrite (old new : ByteArray) (position : Nat) : ByteArray :=
  let gap : ByteArray := ⟨Array.replicate (position - old.size) 0⟩
  old.extract 0 position ++ gap ++ new ++ old.extract (position + new.size) old.size

/-- Write bytes to a descriptor; those to a closed one are lost. -/
def write (fd : Nat) (bytes : ByteArray) : Act Unit := do
  let s ← get
  match s.channel? fd with
  | none | some (_, .null) => pure ()
  | some (n, .buffer old) => setChannel n (.buffer (old ++ bytes))
  | some (n, .file number position appends) =>
    let data := (s.disk.fileData? number).getD ⟨.empty, 0⟩
    let start := if appends then data.bytes.size else position
    let bytes' := overwrite data.bytes bytes start
    set { s with disk := s.disk.setFile number { data with bytes := bytes' } }
    setChannel n (.file number (start + bytes.size) appends)

/-- Write text to a descriptor. -/
def say (fd : Nat) (text : String) : Act Unit := write fd (Text.toBytes text)

/-- Everything that can still be read from a descriptor, without reading it. -/
def ahead (fd : Nat) : Act ByteArray := do
  let s ← get
  match s.channel? fd with
  | some (_, .buffer bytes) => pure bytes
  | some (_, .file number position _) =>
    let bytes := ((s.disk.fileData? number).map FileData.bytes).getD .empty
    pure (bytes.extract position bytes.size)
  | _ => pure .empty

/-- Read some bytes from a descriptor. -/
def skip (fd count : Nat) : Act Unit := do
  let s ← get
  match s.channel? fd with
  | some (n, .buffer bytes) => setChannel n (.buffer (bytes.extract count bytes.size))
  | some (n, .file number position appends) =>
    setChannel n (.file number (position + count) appends)
  | _ => pure ()

/-- Read everything from a descriptor. -/
def readAll (fd : Nat) : Act ByteArray := do
  let bytes ← ahead fd
  skip fd bytes.size
  pure bytes

/-- Read a line from a descriptor, without its end, and whether it had one. At the end of what
there is to read there is no line. -/
def readLine (fd : Nat) : Act (Option (ByteArray × Bool)) := do
  let bytes ← ahead fd
  if bytes.size = 0 then pure none
  else
    let line := bytes.toList.takeWhile (· != 10)
    skip fd (line.length + 1)
    pure (some (Bytes.ofList line, line.length < bytes.size))

/-- Print a message of the shell. -/
def complain (message : String) : Act Unit := do
  let s ← get
  say 2 (s.name ++ ": " ++ Text.decimal s.line ++ ": " ++ message ++ "\n")

/-- Print a message of the shell and end the script. -/
def fail {α : Type} (message : String) : Act α := do
  complain message
  exitWith 2

/-! ## Variables -/

/-- Set a variable. -/
def assign (name value : String) : Act Unit := do
  if (← get).fixed.contains name then fail (name ++ ": is read only")
  else modify fun s => { s with vars := s.vars.insert name value }

/-- The bindings without a name. -/
def without (b : Bindings) (name : String) : Bindings :=
  .ofList (b.entries.filter (·.1 != name))

/-- Take a variable its value. -/
def unset (name : String) : Act Unit := do
  if (← get).fixed.contains name then fail (name ++ ": is read only")
  else modify fun s =>
    { s with vars := without s.vars name, exported := s.exported.filter (· != name) }

/-- Hand a variable on to programs. -/
def exportName (name : String) : Act Unit := modify fun s =>
  { s with exported := if s.exported.contains name then s.exported else s.exported ++ [name] }

/-- What programs are given. -/
def environment (s : Session) : Bindings :=
  .ofList (s.exported.filterMap fun name => (s.vars.get? name).map (name, ·))

/-- The characters at which expanded words are cut. -/
def separators (s : Session) : List Char :=
  ((s.vars.get? "IFS").getD " \t\n").toList

/-- The letters of the options that are on. -/
def optionLetters (s : Session) : String :=
  let o := s.options
  (if o.stopOnFailure then "e" else "") ++ (if o.plainNames then "f" else "")
    ++ (if o.trace then "x" else "") ++ (if o.keepFiles then "C" else "")
    ++ (if o.needSet then "u" else "")

/-- The number that `$$` shows. -/
def ownNumber : Nat := 4242

/-- The value of a parameter, other than `@` and `*`. -/
def value? (s : Session) (name : String) : Option String :=
  match name with
  | "?" => some (Text.decimal s.status)
  | "#" => some (Text.decimal s.arguments.length)
  | "$" => some (Text.decimal ownNumber)
  | "!" => none
  | "-" => some s.optionLetters
  | "0" => some s.name
  | "LINENO" => some (Text.decimal s.line)
  | name =>
    if (name.toList.head?.map Text.isDigit).getD false then
      match Text.number? 10 name.toList with
      | some (n + 1) => s.arguments[n]?
      | _ => none
    else s.vars.get? name

/-! ## Redirections -/

/-- What is printed of a file that cannot be opened. A missing one is named by what was tried. -/
def openFailure (writes : Bool) (path : String) (cause : Cause) : String :=
  let reason := match cause, writes with
    | .notFound, false | .notDirectory, false => "No such file"
    | .notFound, true | .notDirectory, true => "Directory nonexistent"
    | cause, _ => (cause.known?.map Prod.snd).getD cause.message
  "cannot " ++ (if writes then "create " else "open ") ++ path ++ ": " ++ reason

/-- The channel of a file that was just opened. -/
def fileChannel (d : Disk) (path : String) (appends : Bool) : Channel :=
  match d.found true ⟨path⟩ with
  | .ok (_, .file n) => .file n 0 appends
  | _ => .null

/-- Open a file for a descriptor. The files of the devices are not on the disk. -/
def openFile (fd : Nat) (path : String) (mode : Redirection) : Act (Except String Unit) := do
  let s ← get
  let device := match path with
    | "/dev/null" => some none
    | "/dev/stdin" => some (s.handles.lookup 0)
    | "/dev/stdout" => some (s.handles.lookup 1)
    | "/dev/stderr" => some (s.handles.lookup 2)
    | _ => none
  match device with
  | some (some n) =>
    attach fd n
    pure (.ok ())
  | some none =>
    attach fd (← newChannel .null)
    pure (.ok ())
  | none =>
    let (writes, appends, act) : Bool × Bool × DiskM Unit := match mode with
      | .write _ _ => (true, false, Disk.write ⟨path⟩ .empty)
      | .append _ _ => (true, true, Disk.append ⟨path⟩ .empty)
      | _ => (false, false, do let _ ← Disk.read ⟨path⟩)
    match ← tryDisk act with
    | .ok () =>
      attach fd (← newChannel (fileChannel (← get).disk path appends))
      pure (.ok ())
    | .error .isDirectory =>
      if writes then pure (.error (openFailure true path .isDirectory))
      else
        attach fd (← newChannel .null)
        pure (.ok ())
    | .error cause => pure (.error (openFailure writes path cause))

/-- Give a descriptor the channel of another one, or none. -/
def duplicate (fd : Nat) (source : String) : Act (Except String Unit) := do
  if source = "-" then
    detach fd
    pure (.ok ())
  else match Text.number? 10 source.toList with
    | none => pure (.error "Bad fd number")
    | some n =>
      match (← get).handles.lookup n with
      | some c =>
        attach fd c
        pure (.ok ())
      | none => pure (.error (source ++ ": Bad file descriptor"))

end Session

end Formulary.Shell
