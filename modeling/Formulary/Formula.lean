import Formulary.Bindings

/-!
# Formulas

A formula describes one versioned artifact : its source archive, its dependencies, how it is
built and installed, and how the result is tested. Formulas are read once and never change.
-/

namespace Formulary

/-! ## Parts of a formula -/

/-- What the artifact is called and what is said about it. -/
structure Identity where
  name : String
  /-- Taken from the source URL when absent. -/
  version : Option String := none
  description : Option String := none
  homepage : Option String := none
  license : Option String := none
  /-- Counts rebuilds of one version. -/
  revision : Option UInt32 := none
deriving DecidableEq, Inhabited

/-- A revision of the source recorded for one release. It applies to that release only, so a
new release needs a new pin. -/
structure CommitPin where
  version : String
  id : String
deriving DecidableEq, Inhabited

/-- The source archive. -/
structure Source where
  url : String
  checksum : String
  /-- For archives that carry no revision of their own. -/
  commit : Option CommitPin := none
deriving DecidableEq, Inhabited

/-- When in its life an artifact needs a dependency. -/
inductive Stage where
  | build | test | runtime
deriving DecidableEq, Inhabited

/-- The written name of a stage. -/
def Stage.name : Stage → String
  | build => "build"
  | test => "test"
  | runtime => "runtime"

/-- Where a dependency comes from. -/
inductive Provenance where
  /-- Built from a formula of its own. -/
  | formula
  /-- A copy of the host's, when its condition holds. -/
  | host
deriving DecidableEq, Inhabited

/-- The written name of a provenance. -/
def Provenance.name : Provenance → String
  | formula => "formula"
  | host => "host"

/-- The systems whose copy of a dependency is good enough. -/
structure HostCondition where
  os : String
  /-- The oldest version of the system, a number or a release name. -/
  since : String
deriving DecidableEq, Inhabited

/-- One declared dependency. -/
structure Dependency where
  name : String
  stages : List Stage := [.runtime]
  provenance : Provenance := .formula
  condition : Option HostCondition := none
  /-- The program looked for on the host, when it has another name. -/
  executable : Option String := none
deriving DecidableEq, Inhabited

namespace Dependency

/-- The provenance that takes effect : without a condition no copy of the host's is used. -/
def effectiveProvenance (d : Dependency) : Provenance :=
  match d.provenance, d.condition with
  | .host, some _ => .host
  | _, _ => .formula

/-- The dependency is needed in a stage. -/
def neededFor (d : Dependency) (s : Stage) : Bool := d.stages.contains s

/-- The program that shows that the dependency is there. -/
def program (d : Dependency) : String := d.executable.getD d.name

end Dependency

/-- A build variable that the linker writes into a symbol. -/
structure FlagEntry where
  symbol : String
  /-- The name of the build variable. -/
  source : String
deriving DecidableEq, Inhabited

/-- How the artifact is built. -/
structure Build where
  command : List String
  /-- The file that the build produces. -/
  output : String
  environment : Bindings := .empty
  /-- A command that prints the version of the tool chain. -/
  toolchain : List String := []
  flags : List FlagEntry := []
  /-- The directory of the source tree that the build runs in. -/
  workdir : Option String := none
  jobs : Option UInt32 := none
deriving DecidableEq, Inhabited

/-- How an installed file may be used. -/
inductive Mode where
  | executable | readable
deriving DecidableEq, Inhabited

/-- The written name of a mode. -/
def Mode.name : Mode → String
  | executable => "executable"
  | readable => "readable"

/-- The permission bits of a mode. -/
def Mode.bits : Mode → Nat
  | executable => 0o755
  | readable => 0o644

/-- A file that the installation copies into the prefix. -/
structure Artifact where
  path : String
  dest : String
  mode : Mode := .readable
deriving DecidableEq, Inhabited

/-- What is installed. -/
structure Install where
  /-- Programs, which go to `bin` under their own names. -/
  bin : List String := []
  artifacts : List Artifact := []
deriving DecidableEq, Inhabited

/-- The artifact of a program. -/
def Artifact.ofProgram (path : String) : Artifact where
  path := path
  dest := "bin/" ++ ((Text.pieces '/' path).getLast?.getD path)
  mode := .executable

/-- Everything that is installed, the programs first. -/
def Install.all (i : Install) : List Artifact :=
  i.bin.map Artifact.ofProgram ++ i.artifacts

/-- The smoke test of an installation. -/
structure SmokeTest where
  /-- The test is a placeholder that is known to fail. -/
  stub : Bool := false
  commands : List (List String) := []
  /-- A text that the output of the last command must hold. -/
  expected : Option String := none
deriving DecidableEq, Inhabited

/-- A formula. -/
structure Formula where
  identity : Identity
  source : Source
  dependencies : List Dependency := []
  build : Build
  install : Install := {}
  test : Option SmokeTest := none
  /-- Values for templates and flags. -/
  vars : Bindings := .empty
deriving DecidableEq, Inhabited

end Formulary
