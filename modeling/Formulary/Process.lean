import Formulary.Bindings
import Formulary.Disk.Temporary
import Formulary.Timestamp

/-!
# Running programs

What a program is started with, and what is seen of it when it has finished. How programs are
run is up to a `Launcher`.
-/

namespace Formulary

/-- A program to be started. -/
structure Command where
  program : String
  arguments : List String
  /-- The directory it starts in. -/
  workdir : Path
  /-- All its environment. -/
  environment : Bindings
  /-- The search path was set for this program. -/
  ownSearchPath : Bool := false

/-- What is seen of a program that has finished. -/
structure Finished where
  /-- The exit status, unless a signal ended the program. -/
  status : Option Nat
  output : ByteArray
  errors : ByteArray

namespace Finished

/-- The program says that it succeeded. -/
def succeeded (f : Finished) : Bool := f.status == some 0

/-- The printed exit status. -/
def statusText (f : Finished) : String :=
  match f.status with
  | some n => "Some(" ++ Text.decimal n ++ ")"
  | none => "None"

/-- The exit status in words. -/
def describedStatus (f : Finished) : String :=
  match f.status with
  | some n => "exit status: " ++ Text.decimal n
  | none => "signal"

end Finished

/-- A way to run programs. A program that cannot be started gives a cause. -/
abbrev Launcher := Command → StateM Disk (Except Cause Finished)

/-- The machine that a process runs on, apart from its disk. -/
structure Machine where
  launch : Launcher
  environment : Bindings := .empty
  /-- How many things it can do at a time. -/
  processors : UInt32 := 1
  now : Timestamp := ⟨0, 0⟩
  /-- What is drawn for the names of temporary directories. -/
  draw : String → Nat → Token := fun _ => Token.ofNat

namespace Machine

/-- The search path of the process. -/
def searchPath (m : Machine) : Option String := m.environment.get? "PATH"

/-- How temporary directories are made. -/
def temporary (m : Machine) : Temporary where
  directory := ⟨(m.environment.get? "TMPDIR").getD "/tmp"⟩
  draw := m.draw

end Machine

end Formulary
