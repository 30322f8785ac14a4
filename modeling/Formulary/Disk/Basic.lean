import Formulary.Disk.Cause
import Formulary.Path

/-!
# The disk

What a process sees of a file system. A disk is a table from places to entries : directories,
links, and names of files. Two names may be names of one file, so the bytes and the mode of a
file are kept under its number.

A disk can also fail on its own. Its `faults` say, operation by operation, which of the coming
ones do; an empty list leaves all of them to their own rules.
-/

namespace Formulary

/-- A place on the disk : the names that lead to it from the root. -/
abbrev Place := List String

/-- What a place holds. -/
inductive Entry where
  | directory (mode : Nat)
  /-- A name of the file with a number. -/
  | file (number : Nat)
  | link (target : String)
deriving DecidableEq, Inhabited

/-- The bytes of a file and its twelve mode bits. -/
structure FileData where
  bytes : ByteArray
  mode : Nat
deriving Inhabited

/-- A failure that comes from outside. -/
structure Fault where
  cause : Cause
  /-- How many bytes get through to a file, if the step gets as far as to open it. -/
  written : Option Nat := none
deriving DecidableEq, Inhabited

/-- A file system as a process sees it. -/
structure Disk where
  entries : List (Place × Entry) := [([], .directory 0o755)]
  files : List (Nat × FileData) := []
  /-- Where relative paths start. -/
  workdir : Path := ⟨"/"⟩
  /-- Modes do not hold the process back. -/
  superuser : Bool := true
  faults : List (Option Fault) := []
deriving Inhabited

/-- Steps on a disk, any of which may fail. What was done before a failure stays done. -/
abbrev DiskM := ExceptT Cause (StateM Disk)

/-- Take steps, and go on with their failure as a value. -/
def DiskM.attempt {α : Type} (act : DiskM α) : DiskM (Except Cause α) := ExceptT.lift act.run

namespace Disk

/-! ## The table -/

/-- What a place holds. -/
def entryAt? (d : Disk) (p : Place) : Option Entry := d.entries.lookup p

/-- Put an entry at a place. -/
def put (d : Disk) (p : Place) (e : Entry) : Disk :=
  { d with entries := (p, e) :: d.entries.filter (·.1 != p) }

/-- Take away what a place holds. -/
def drop (d : Disk) (p : Place) : Disk := { d with entries := d.entries.filter (·.1 != p) }

/-- The file with a number. -/
def fileData? (d : Disk) (number : Nat) : Option FileData := d.files.lookup number

/-- Set the file with a number. -/
def setFile (d : Disk) (number : Nat) (data : FileData) : Disk :=
  { d with files := (number, data) :: d.files.filter (·.1 != number) }

/-- The numbers that names of files have. -/
def numbersNamed (d : Disk) : List Nat :=
  d.entries.filterMap fun
    | (_, .file n) => some n
    | _ => none

/-- The least number that is greater than that of any file. -/
def unused (d : Disk) : Nat :=
  (d.numbersNamed ++ d.files.map Prod.fst).foldr (fun n bound => max (n + 1) bound) 0

/-- Put a file that no other place names at a place. -/
def putFile (d : Disk) (p : Place) (data : FileData) : Disk :=
  (d.put p (.file d.unused)).setFile d.unused data

/-- The file at a place. -/
def fileAt? (d : Disk) (p : Place) : Option FileData :=
  match d.entryAt? p with
  | some (.file n) => d.fileData? n
  | _ => none

/-- The name of a place in a directory, if the place lies right in it. -/
def childOf? (directory p : Place) : Option String :=
  match p.getLast? with
  | some name => if p.dropLast = directory then some name else none
  | none => none

/-- The names in a directory. -/
def namesIn (d : Disk) (p : Place) : List String := d.entries.filterMap (childOf? p ·.1)

/-- The one place is the other or lies below it. -/
def isWithin (upper p : Place) : Bool := upper.isPrefixOf p

/-! ## Rights -/

/-- The bits of a mode that let its owner read, write and search. -/
inductive Right where
  | read | write | search
deriving DecidableEq

/-- The mode bit of a right. -/
def Right.bit : Right → Nat
  | read => 0o400
  | write => 0o200
  | search => 0o100

/-- A mode lets the process do something. The process owns everything on the disk. -/
def permits (d : Disk) (mode : Nat) (r : Right) : Bool := d.superuser || mode / r.bit % 2 == 1

/-- A file with a mode may be run. -/
def canRun (d : Disk) (mode : Nat) : Bool :=
  if d.superuser then mode / 0o100 % 2 == 1 || mode / 0o10 % 2 == 1 || mode % 2 == 1
  else mode / 0o100 % 2 == 1

/-- A directory lets the process do something. -/
def directoryPermits (d : Disk) (p : Place) (r : Right) : Bool :=
  match d.entryAt? p with
  | some (.directory mode) => d.permits mode r
  | _ => true

/-! ## Faults -/

/-- Run a step unless the disk fails it. -/
def step {α : Type} (act : DiskM α) : DiskM α := do
  let d ← get
  match d.faults with
  | [] => act
  | fault :: rest =>
    set { d with faults := rest }
    match fault with
    | none => act
    | some f => throw f.cause

/-- Run a step that puts bytes into a file, unless the disk fails it. The step is told what to make
of the bytes : a fault may let the first of them through. -/
def pouring (act : (ByteArray → ByteArray) → DiskM Unit) : DiskM Unit := do
  match (← get).faults with
  | some f :: rest =>
    modify ({ · with faults := rest })
    f.written.elim (pure ()) fun n => act (·.extract 0 n)
    throw f.cause
  | _ => step (act id)

end Disk

end Formulary
