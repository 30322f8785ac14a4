import Formulary.Depends
import Formulary.World

/-!
# The probe for programs

Before anything is fetched, the programs of the dependencies that are needed to build and to test
are looked for.
-/

namespace Formulary

/-- A way to find out which of some dependencies are missing. -/
abbrev Probe := List Dependency → StateM Disk (Except Error (List String))

namespace Probe

/-- Nothing is missing. -/
def acceptAll : Probe := fun _ => pure (.ok [])

/-- The names of the dependencies whose programs are not in a list. -/
def missingFrom (installed : List String) (wanted : List Dependency) : List String :=
  (wanted.filter fun d => !installed.contains d.program).map Dependency.name

/-- The dependencies whose programs are not in the list are missing. -/
def ofPrograms (installed : List String) : Probe := fun wanted =>
  pure (.ok (missingFrom installed wanted))

/-! ## The search path -/

/-- A path leads to a file that may be run. -/
def isProgram (p : Path) : StateM Disk Bool := do
  let d ← get
  match d.found true p with
  | .ok (_, .file n) =>
    match d.fileData? n with
    | some data => pure (d.canRun data.mode)
    | none => pure false
  | _ => pure false

/-- A directory of the search path. One that starts with a tilde lies in the home directory. -/
def searched (home : Option String) (dir : String) : Path :=
  match (Path.mk dir).components, home with
  | .name "~" :: rest, some h =>
    if h = "" then ⟨dir⟩
    else rest.foldl (fun p c => p.join (Path.ofComponents.word c)) ⟨h⟩
  | _, _ => ⟨dir⟩

/-- Where a program is : a name with a slash is a path, any other is looked for in the
directories of the search path. -/
def locate (searchPath home : Option String) (name : String) : StateM Disk (Option Path) := do
  let candidates :=
    if name.toList.contains '/' then [⟨name⟩]
    else match searchPath with
      | none => []
      | some dirs => (Text.pieces ':' dirs).map fun dir => (searched home dir).join name
  candidates.findM? fun p => isProgram p

/-- The dependencies whose programs are not on the search path are missing. -/
def onPath (searchPath home : Option String) : Probe := fun wanted => do
  let missing ← wanted.filterM fun d => do
    pure ((← locate searchPath home d.program).isNone)
  pure (.ok (missing.map Dependency.name))

/-! ## Asking -/

/-- The declarations that a probe is asked about : needed to build or to test, and not
satisfied by the host. -/
def wanted (ds : List Dependency) (check : HostCheck) : List Dependency :=
  (ds.filter fun d => d.neededFor .build || d.neededFor .test).filter fun d =>
    !check.satisfied.contains d.name

/-- The failure for missing dependencies. -/
def missingError (names : List String) : Error :=
  .dependency ("missing build/test dependencies: " ++ Text.join ", " names)

/-- What follows from the answer of a probe. -/
def judge (missing : List String) : Except Error Unit :=
  if missing.isEmpty then .ok () else .error (missingError missing)

/-- Ask a probe about the dependencies of a formula. It is not asked about none. -/
def run (probe : Probe) (ds : List Dependency) (check : HostCheck) :
    WorldM (Except Error Unit) :=
  let asked := wanted ds check
  if asked.isEmpty then pure (.ok ())
  else World.call (.probe (asked.map Dependency.program)) Except.isOk do
    pure ((← probe asked) >>= judge)

end Probe

end Formulary
