import Formulary.CommandLine.Footprint
import Formulary.Shell
import Std.Time.DateTime.Timestamp

/-!
# The program

Reads the files that a run needs into a disk in memory, runs the command there, and carries its
changes back. Commands of formulas are run by the shell and the tools of this library.
-/

namespace Formulary.Program

/-- The environment variables that matter. -/
def environmentNames : List String :=
  ["HOME", "LANG", "PATH", "TMPDIR", "XDG_CACHE_HOME", "XDG_DATA_HOME"]

/-- The environment of the process. -/
def environment : IO Bindings := do
  let mut found := Bindings.empty
  for name in environmentNames do
    match ← IO.getEnv name with
    | some value => found := found.insert name value
    | none => pure ()
  pure found

/-- The time. -/
def now : IO Timestamp := do
  let t ← Std.Time.Timestamp.now
  let nanos : Int := t.toNanosecondsSinceUnixEpoch.val
  pure ⟨nanos.fdiv 1000000000, (nanos.fmod 1000000000).toNat⟩

/-- Put a file of the machine onto a disk, if it is there. -/
def take (d : Disk) (p : Path) : IO Disk := do
  let full := d.workdir.join p.text
  try
    let bytes ← IO.FS.readBinFile full.text
    let act : DiskM Unit := do
      match full.parent? with
      | some above => Disk.makeDirectories above
      | none => pure ()
      Disk.write full bytes
    pure (act.run.run d).2
  catch _ => pure d

/-- A disk with the tools, a working directory and a directory for temporary files. -/
def freshDisk (m : Machine) (workdir : Path) : Disk :=
  let act : StateM Disk Unit := do
    Shell.furnish
    let _ ← (Disk.makeDirectories workdir).run
    let _ ← (Disk.makeDirectories m.temporary.directory).run
  (act.run { workdir }).2

/-- The rights that three bits of a mode give. -/
def rightsOf (bits : Nat) : IO.AccessRight :=
  ⟨bits / 4 % 2 == 1, bits / 2 % 2 == 1, bits % 2 == 1⟩

/-- Make a change on the machine. -/
def carryOut : CommandLine.Change → IO Unit
  | .directory p => IO.FS.createDirAll p.text
  | .file p bytes mode => do
    IO.FS.writeBinFile p.text bytes
    IO.setAccessRights p.text ⟨rightsOf (mode / 64), rightsOf (mode / 8), rightsOf mode⟩
  | .gone p => IO.FS.removeFile p.text

/-- Run the program. -/
def run (arguments : List String) : IO UInt32 := do
  let m : Machine := { launch := Shell.launch, environment := ← environment, now := ← now }
  let workdir : Path := ⟨toString (← IO.currentDir)⟩
  let named ← (CommandLine.namedFiles arguments).foldlM take (freshDisk m workdir)
  let before ← ((CommandLine.sourceFiles m arguments).run named).1.foldlM take named
  let (printed, after) := (CommandLine.run m arguments).run before
  for change in CommandLine.changes before after do carryOut change
  IO.print printed.output
  IO.eprint printed.errors
  pure printed.status.toUInt32

end Formulary.Program

/-- The program. -/
def main (arguments : List String) : IO UInt32 := Formulary.Program.run arguments
