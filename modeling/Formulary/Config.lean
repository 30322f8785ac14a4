import Formulary.Formula.Decode
import Formulary.Formula.Version
import Formulary.Process

/-!
# Configuration

Where a kitchen keeps things and how it works. `Settings` is what somebody said about it, a file
or a command line; whatever was not said has a default that depends on the machine.
-/

namespace Formulary

/-- The configuration of a kitchen. -/
structure Config where
  /-- The directory of fetched sources; without one, every source is fetched. -/
  sourceCache : Option Path := none
  /-- The directory of build directories, when it is not the one for temporary files. -/
  buildRoot : Option Path := none
  /-- The directory of test sandboxes, when it is not the one for temporary files. -/
  sandboxRoot : Option Path := none
  /-- Build directories stay. -/
  keepBuildDirectory : Bool := false
  /-- How many things a build may do at a time. -/
  jobs : UInt32 := 1
  /-- The programs of dependencies are looked for before anything is fetched. -/
  probes : Bool := true
  /-- What a fetcher calls itself. -/
  userAgent : String := "kiln/0.1.0"
  /-- The directory below which formulas are installed by default. -/
  cellar : Path := ⟨"/usr/local/kiln/cellar"⟩
deriving DecidableEq, Inhabited

namespace Config

/-- The directory that an environment variable names, or else one below the home directory. -/
def homeDirectory? (environment : Bindings) (name below : String) : Option Path :=
  match environment.get? name with
  | some p => if (Path.mk p).isAbsolute then some ⟨p⟩ else fallback
  | none => fallback
where
  /-- The directory below the home directory. -/
  fallback : Option Path := (environment.get? "HOME").map fun home => (Path.mk home).join below

/-- The configuration of a machine about which nothing was said. -/
def ofMachine (m : Machine) : Config where
  sourceCache := (homeDirectory? m.environment "XDG_CACHE_HOME" ".cache").map
    fun p => (p.join "kiln").join "sources"
  jobs := m.processors
  cellar := match homeDirectory? m.environment "XDG_DATA_HOME" ".local/share" with
    | some p => (p.join "kiln").join "cellar"
    | none => ⟨"/usr/local/kiln/cellar"⟩

/-- A configuration without a cache and without a probe. -/
def isolated (m : Machine) : Config := { ofMachine m with sourceCache := none, probes := false }

/-- Where a formula is installed by default : below the cellar, by name and version. -/
def home (c : Config) (f : Formula) : Path :=
  (c.cellar.join f.identity.name).join (f.packageVersion?.getD "unversioned")

end Config

/-! ## Settings -/

/-- What was said about a configuration. -/
structure Settings where
  sourceCache : Option Path := none
  buildRoot : Option Path := none
  sandboxRoot : Option Path := none
  keepBuildDirectory : Option Bool := none
  jobs : Option UInt32 := none
  probes : Option Bool := none
  userAgent : Option String := none
  cellar : Option Path := none
deriving DecidableEq, Inhabited

namespace Settings

open Toml

/-- The configuration with what was said set over it. -/
def setOver (s : Settings) (c : Config) : Config where
  sourceCache := s.sourceCache.or c.sourceCache
  buildRoot := s.buildRoot.or c.buildRoot
  sandboxRoot := s.sandboxRoot.or c.sandboxRoot
  keepBuildDirectory := s.keepBuildDirectory.getD c.keepBuildDirectory
  jobs := s.jobs.getD c.jobs
  probes := s.probes.getD c.probes
  userAgent := s.userAgent.getD c.userAgent
  cellar := s.cellar.getD c.cellar

/-- A whole document. -/
def shape : RecordShape Settings Settings where
  title := "KitchenConfig"
  fields := [
    field "source_cache" decodePath fun a s => { s with sourceCache := some ⟨a⟩ },
    field "build_root" decodePath fun a s => { s with buildRoot := some ⟨a⟩ },
    field "sandbox_root" decodePath fun a s => { s with sandboxRoot := some ⟨a⟩ },
    field "keep_builddir" decodeBoolean fun a s => { s with keepBuildDirectory := some a },
    field "jobs" decodeWord fun a s => { s with jobs := some a },
    field "probe_dependencies" decodeBoolean fun a s => { s with probes := some a },
    field "user_agent" decodeText fun a s => { s with userAgent := some a },
    field "prefix_root" decodePath fun a s => { s with cellar := some ⟨a⟩ }]
  start := {}
  finish s := .ok s

/-- Read the settings of a file. -/
def parse (p : Path) (text : String) : Except Error Settings :=
  let subject := "Invalid config " ++ p.display
  match Toml.document text with
  | none => .error (Formula.shapeFailure subject .unspecified)
  | some t => (shape.ofEntries t).mapError (Formula.shapeFailure subject)

end Settings

/-! ## Files -/

/-- The text of a file; a failure is told with what the file was to be. -/
def readText (subject : String) (p : Path) : StateM Disk (Except Error String) := do
  let failed := fun (cause : Cause) =>
    Except.error (.parse ("Failed to read " ++ subject ++ " " ++ p.display ++ ": " ++ cause.message))
  match ← (Disk.read p).run with
  | .error cause => pure (failed cause)
  | .ok bytes =>
    match String.fromUTF8? bytes with
    | some text => pure (.ok text)
    | none => pure (failed .notText)

/-- Read a settings file. -/
def Settings.load (p : Path) : StateM Disk (Except Error Settings) := do
  pure ((← readText "config" p) >>= Settings.parse p)

/-- Read a formula file. -/
def Formula.load (p : Path) : StateM Disk (Except Error Formula) := do
  pure ((← readText "formula file" p) >>= Formula.parse)

end Formulary
