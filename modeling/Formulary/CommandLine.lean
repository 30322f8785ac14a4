import Formulary.CommandLine.Arguments
import Formulary.Kitchen

/-!
# The command line

What each command does on a machine, what it prints, and the status it leaves. A failure is
printed behind what was being done, and leaves the status of its kind.
-/

namespace Formulary.CommandLine

/-- What a run of the program leaves. -/
structure Printed where
  output : String := ""
  errors : String := ""
  status : Nat := 0
deriving DecidableEq, Inhabited

/-- A failure, and what was being done. -/
structure Complaint where
  context : String
  error : Error
deriving DecidableEq, Inhabited

/-- The printed line. -/
def Complaint.message (c : Complaint) : String :=
  "Error: " ++ c.context ++ ": " ++ c.error.message ++ "\n"

/-- Steps of a command. -/
abbrev CommandM := ExceptT Complaint (StateM Disk)

/-- Name what is being done. -/
def doing {α : Type} (context : String) : Except Error α → CommandM α
  | .ok a => pure a
  | .error e => throw ⟨context, e⟩

/-! ## Input -/

/-- Read the formula. -/
def loadFormula (p : Path) : CommandM Formula := do
  doing ("Failed to parse formula: " ++ p.display) (← Formula.load p)

/-- The configuration of a machine, with a settings file set over it. -/
def loadConfig (m : Machine) : Option Path → CommandM Config
  | none => pure (Config.ofMachine m)
  | some p => do
    let s ← doing ("Failed to load config: " ++ p.display) (← Settings.load p)
    pure (s.setOver (Config.ofMachine m))

/-- Set source options over a configuration. -/
def SourceOptions.setOver (o : SourceOptions) (c : Config) : Config := { c with
  sourceCache := if o.noCache then none else o.sourceCache.or c.sourceCache
  probes := c.probes && !o.noProbe }

/-- Set up the kitchen. -/
def setUp (m : Machine) (c : Config) : CommandM Kitchen :=
  doing "Failed to set up the kitchen" (Kitchen.setUp m c)

/-- Work in the world. -/
def inWorld {α : Type} (act : WorldM α) : CommandM α := ExceptT.lift fun d =>
  let (a, w) := act { disk := d }
  (a, w.disk)

/-! ## Commands -/

/-- A printed line. -/
def line (s : String) : String := s ++ "\n"

/-- The name and the version of a formula. -/
def title (f : Formula) : String := f.identity.name ++ " " ++ f.packageVersion?.getD ""

/-- Print the warnings about a formula. -/
def validate (formula : Path) : CommandM Printed := do
  let f ← loadFormula formula
  let warnings ← doing "Formula validation failed" (f.validate.mapError Formula.Defect.toError)
  let verdict := if warnings.isEmpty then "[OK] No issues found"
    else "[OK] " ++ Text.decimal warnings.length ++ " warning(s)"
  pure { output := line ("Formula: " ++ title f)
    ++ String.join (warnings.map fun w => line ("Warning: " ++ w)) ++ line verdict }

/-- What the host decides about the dependencies of a formula, if any ask. -/
def hostCheck (m : Machine) (needed : Classified) : CommandM (Option HostCheck) := do
  if needed.hostProvided.isEmpty then pure none
  else
    let host ← doing "Failed to detect host platform" (← m.host)
    let check ← doing "Host check failed"
      ((HostCheck.ofHost needed host).mapError HostCheck.Refusal.toError)
    pure (some check)

/-- The classified dependencies as text. -/
def depsText (f : Formula) (needed : Classified) (check : Option HostCheck) : String :=
  let names := Text.join ", "
  line ("Dependencies of " ++ f.identity.name ++ ":")
    ++ line ("  build:   " ++ names needed.build)
    ++ line ("  test:    " ++ names needed.test)
    ++ line ("  runtime: " ++ names needed.runtime)
    ++ String.join (needed.hostProvided.map fun r =>
      line ("  host:    " ++ r.name ++ " (" ++ r.condition.os ++ " >= " ++ r.condition.since ++ ")"))
    ++ match check with
      | none => ""
      | some c =>
        String.join (c.satisfied.map fun n => line ("  [OK] " ++ n ++ " provided by the host"))
          ++ String.join (c.mustBuild.map fun n =>
            line ("  [BUILD] " ++ n ++ " must be built on this host"))

/-- Print the classified dependencies of a formula. -/
def deps (m : Machine) (formula : Path) (json : Bool) : CommandM Printed := do
  let f ← loadFormula formula
  let needed := Classified.ofDeclarations f.dependencies
  let check ← hostCheck m needed
  if json then
    let value := Json.object [("contexts", Report.classifiedJson needed),
      ("host", Report.optional Report.hostCheckJson check)]
    pure { output := line value.sorted.pretty }
  else pure { output := depsText f needed check }

/-- Print the build variables and the flags of a formula. -/
def flags (m : Machine) (config : Option Path) (formula : Path) (source : SourceOptions)
    (json : Bool) : CommandM Printed := do
  let f ← loadFormula formula
  let k ← setUp m (source.setOver (← loadConfig m config))
  let (vars, rendered) ← doing ("Failed to render flags for " ++ f.identity.name)
    (← inWorld (k.renderFlags f))
  if json then
    let value := Json.object [("variables", .ofBindings vars), ("flags", .texts rendered)]
    pure { output := line value.sorted.pretty }
  else
    let lines := vars.entries.map fun (name, value) => line (name ++ " = " ++ value)
    pure { output := String.join lines ++ "\n" ++ line (Flags.joined rendered) }

/-- Get the source of a formula. -/
def fetch (m : Machine) (config : Option Path) (formula : Path) (source : SourceOptions) :
    CommandM Printed := do
  let f ← loadFormula formula
  let k ← setUp m (source.setOver (← loadConfig m config))
  let archive ← doing ("Failed to fetch source for " ++ f.identity.name) (← inWorld (k.fetch f))
  let cached ← k.isCached f
  pure { output := line ("[OK] " ++ f.source.url ++ " (" ++ Text.decimal archive.bytes.size
    ++ " bytes, " ++ archive.digest.display ++ ")")
    ++ if cached then line "[OK] Source is cached. Ready for offline build." else "" }

/-- Cook a formula. -/
def cook (m : Machine) (config : Option Path) (formula : Path) (source : SourceOptions)
    (base : Option Path) (jobs : Option UInt32) (keepBuildDirectory json : Bool) :
    CommandM Printed := do
  let f ← loadFormula formula
  let c := source.setOver (← loadConfig m config)
  let c := { c with jobs := jobs.getD c.jobs, keepBuildDirectory }
  let base := base.getD (c.home f)
  let k ← setUp m c
  let cached ← if json then pure false else (k.isCached f : StateM Disk Bool)
  let report ← inWorld (k.cook m f base)
  let output := if json then line report.toJson.pretty
    else line ("Cooking " ++ title f ++ " into " ++ base.display)
      ++ (if cached then line "  - Source already cached" else "")
      ++ "\n" ++ line report.display
  pure { output, status := report.exitCode }

/-! ## The program -/

/-- Do what was asked for. -/
def perform (m : Machine) (i : Invocation) : CommandM Printed :=
  match i.action with
  | .cook formula source base jobs keep json => cook m i.config formula source base jobs keep json
  | .fetch formula source => fetch m i.config formula source
  | .flags formula source json => flags m i.config formula source json
  | .deps formula json => deps m formula json
  | .validate formula => validate formula

/-- The text of `--version`. -/
def versionText : String := line "kiln 0.1.0"

/-- The text of `--help`. -/
def helpText : String := String.join (List.map line [
  "Declarative build-recipe execution engine",
  "",
  "Usage: kiln [OPTIONS] <COMMAND>",
  "",
  "Commands:",
  "  cook      Fetch, build, install and smoke-test a formula",
  "  fetch     Download and verify a formula's source without building",
  "  flags     Resolve build variables and print the rendered linker flags",
  "  deps      Show dependency contexts and host-provided decisions",
  "  validate  Validate a formula",
  "  help      Print this message or the help of the given subcommand(s)",
  "",
  "Options:",
  "  -c, --config <CONFIG>  Kitchen configuration file (TOML)",
  "  -h, --help             Print help",
  "  -V, --version          Print version"])

/-- The status of arguments that make no sense. -/
def usageStatus : Nat := 2

/-- What is printed when nothing is done. -/
def Refusal.printed : Refusal → Printed
  | .usage message => {
      errors := "error: " ++ message ++ "\n\nFor more information, try '--help'.\n"
      status := usageStatus }
  | .help => { output := helpText }
  | .version => { output := versionText }

/-- Run the program on a machine. -/
def run (m : Machine) (arguments : List String) : StateM Disk Printed := do
  match parse arguments with
  | .error r => pure r.printed
  | .ok i =>
    match ← (perform m i).run with
    | .ok p => pure p
    | .error c => pure { errors := c.message, status := c.error.kind.exitCode }

end Formulary.CommandLine
