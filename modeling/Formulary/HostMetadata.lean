import Formulary.Host
import Formulary.Process
import Formulary.Variables

/-!
# What the machine knows

Build variables that come from the machine : the revision of a source tree by its version control,
the version that the tool chain prints, and the time. Also the system of the machine itself.
-/

namespace Formulary.Machine

/-- What a program prints when it succeeds. -/
def printed? (m : Machine) (argv : List String) (workdir : Path) (environment : Bindings) :
    StateM Disk (Option String) := do
  match argv with
  | [] => pure none
  | program :: arguments =>
    match ← m.launch { program, arguments, workdir, environment } with
    | .error _ => pure none
    | .ok done => pure (if done.succeeded then some (Text.lossy done.output) else none)

/-- What version control says of a tree. It must not look for a repository above the tree. -/
def revision? (m : Machine) (tree : Path) (question : String) : StateM Disk (Option String) := do
  let ceiling := (tree.parent?.getD tree).text
  let answer ← m.printed? ["git", "rev-parse", question, "HEAD"] tree
    (m.environment.insert "GIT_CEILING_DIRECTORIES" ceiling)
  pure ((answer.map Text.trim).filter (· ≠ ""))

/-- The machine as a source of build variables. -/
def metadata (m : Machine) : MetadataSource (StateM Disk) where
  commit tree := m.revision? tree "--short"
  branch tree := m.revision? tree "--abbrev-ref"
  toolchainVersion f tree := do
    let banner ← m.printed? f.build.toolchain tree m.environment
    pure (banner.bind Variables.toolchainVersion?)
  now := pure m.now

/-- The document in which the system declares its release. -/
def releaseDocument : Path := ⟨"/etc/os-release"⟩

/-- The failure when the version of the host is not known. -/
def versionError (reason : String) : Error :=
  .dependency ("Cannot determine host version" ++ reason)

/-- The version that the kernel tells. -/
def kernelVersion (m : Machine) : StateM Disk (Except Error String) := do
  let d ← get
  match ← m.launch {
      program := "uname", arguments := ["-r"], workdir := d.workdir
      environment := m.environment } with
  | .error cause => pure (.error (versionError (" (uname): " ++ cause.message)))
  | .ok done =>
    if done.succeeded then pure (.ok (Text.trim (Text.lossy done.output)))
    else pure (.error (versionError (": uname exited with " ++ done.describedStatus)))

/-- The host that the machine is. -/
def host (m : Machine) : StateM Disk (Except Error Host) := do
  let declared : Option String :=
    match ← (Disk.read releaseDocument).run with
    | .ok bytes => (String.fromUTF8? bytes).bind Host.releaseVersion?
    | .error _ => none
  let version ← match declared with
    | some v => pure (Except.ok v)
    | none => m.kernelVersion
  pure (version >>= fun v => (Host.describe "linux" v).mapError OsVersion.Defect.toError)

end Formulary.Machine
