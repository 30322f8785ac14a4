import Formulary.Shell.Run

/-!
# A shell and its tools

Programs that need nothing but a disk : a shell for scripts, and the tools that scripts mostly
call. `Shell.launch` starts them as a machine would start its own programs, so that a formula can
be cooked where no program of a machine can be started.
-/

namespace Formulary.Shell

/-- Put the tools where programs are looked for, and a device that takes everything. -/
def furnish : StateM Disk Unit := do
  let act : DiskM Unit := do
    Disk.makeDirectories ⟨"/usr/bin"⟩
    Disk.makeLink "usr/bin" ⟨"/bin"⟩
    Disk.makeDirectory ⟨"/dev"⟩
    Disk.createNew ⟨"/dev/null"⟩ .empty 0o666
    for name in Tools.names do
      Disk.createNew ⟨"/usr/bin/" ++ name⟩ (Tools.image name) 0o755
  let _ ← act.run

/-- Commands may be nested this deep. -/
def fuel : Nat := 4000

/-- The search path of a program that is started without one. -/
def fallbackPath : String := "/bin:/usr/bin"

/-- Some text that a program is given holds the character zero. -/
def holdsZero (c : Command) : Bool :=
  let has := fun (s : String) => s.toList.contains '\x00'
  has c.program || c.arguments.any has || has c.workdir.text
    || c.environment.entries.any fun (k, v) => has k || has v

/-- The session in which a program starts : it reads nothing, and what it prints is gathered. -/
def sessionOf (d : Disk) (c : Command) : Session :=
  { disk := d
    vars := c.environment
    exported := c.environment.names
    handles := [(0, 0), (1, 1), (2, 2)]
    channels := #[.null, .buffer .empty, .buffer .empty] }

/-- Run a program to its end. -/
def finished (d : Disk) (c : Command) (act : Act Unit) : Finished × Disk :=
  let (result, s) := (act.run).run (sessionOf d c)
  let status := match result with
    | .error (.killed _) => none
    | _ => some s.status
  (⟨status, s.gathered 1, s.gathered 2⟩, s.disk)

/-- The directory in which a program starts, if it can start there. -/
def enter (d : Disk) (p : Path) : Except Cause Path :=
  match d.found true p with
  | .error cause => .error cause
  | .ok (place, .directory m) => if d.permits m .search then .ok (Disk.pathOf place) else .error .denied
  | .ok _ => .error .notDirectory

/-- Start one of the tools on the disk. A file of no known format is taken for a script, if the
search path was set for it. -/
def launch : Launcher := fun c => do
  let d ← get
  if holdsZero c then pure (.error .zeroInArgument)
  else match enter d c.workdir with
    | .error cause => pure (.error cause)
    | .ok workdir =>
      let inside := { d with workdir }
      let searchPath := (c.environment.get? "PATH").getD fallbackPath
      let words := c.program :: c.arguments
      let go := fun (act : Act Unit) => do
        let (f, after) := finished inside c act
        set { after with workdir := d.workdir }
        pure (.ok f)
      match Start.find inside searchPath words with
      | .fails cause => pure (.error cause)
      | .starts start => go (Run.become.runStart (run fuel) Run.maxPrograms start)
      | .unknownFormat path =>
        if c.ownSearchPath && !c.program.toList.contains '/' then
          go (Run.shell (run fuel) "sh" (path :: c.arguments))
        else pure (.error .badProgram)

end Formulary.Shell
