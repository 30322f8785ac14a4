import Formulary.Checksum
import Formulary.Destination
import Formulary.Formula.Version
import Formulary.OsVersion

/-!
# Validation

What a formula must get right before anything is fetched for it, and what it is only warned
about. The first defect in the order below is the one reported.
-/

namespace Formulary

/-- The variables that the cook resolves itself. -/
def builtinVariables : List String :=
  ["version", "commit", "branch", "toolchain_version", "build_time"]

namespace Formula

/-! ## Defects -/

/-- What makes a formula unusable. -/
inductive Defect where
  | emptyName
  | noVersion (name url : String)
  | checksum (text : String) (cause : Checksum.Defect)
  | emptyCommand
  | emptyOutput
  | workdirEscapes (workdir : String)
  | redefinesBuiltin (name : String)
  | unknownVariable (symbol name : String)
  | noStages (dependency : String)
  | condition (dependency : String) (cause : OsVersion.Defect)
  | destination (cause : Destination.Refusal)
  | noTestCommands
deriving DecidableEq

/-- The failure that a defect is reported as. -/
def Defect.toError : Defect → Error
  | emptyName => .parse "Formula name cannot be empty"
  | noVersion name url =>
    .parse s!"Formula {name} declares no version and none can be derived from {url}"
  | checksum text cause => .parse ("Invalid checksum '" ++ text ++ "': " ++ cause.message)
  | emptyCommand => .parse "Build command cannot be empty"
  | emptyOutput => .parse "Build output name cannot be empty"
  | workdirEscapes workdir =>
    .parse s!"Build workdir '{workdir}' must stay inside the source tree"
  | redefinesBuiltin name =>
    .parse s!"[variables] may not redefine built-in variable '{name}'"
  | unknownVariable symbol name =>
    .template s!"flag for {symbol} references unknown variable '{name}'"
  | noStages dependency => .parse s!"Dependency {dependency} declares no contexts"
  | condition dependency cause =>
    .parse ("Dependency " ++ dependency ++ ": " ++ cause.toError.message)
  | destination cause => .parse (Error.install cause.message).message
  | noTestCommands => .parse "Test section declares no commands"

/-! ## Checks -/

/-- The path stays inside the directory it is taken from, component by component. -/
def staysInside (workdir : String) : Bool :=
  (Path.mk workdir).components.all fun
    | .name _ | .here => true
    | .root | .up => false

/-- Name, version and checksum. -/
def checkSource (f : Formula) : Except Defect Unit := do
  if Text.isBlankText f.identity.name then throw .emptyName
  if f.version?.isNone then throw (.noVersion f.identity.name f.source.url)
  match Checksum.parse f.source.checksum with
  | .error e => throw (.checksum f.source.checksum e)
  | .ok _ => pure ()

/-- Command, output, working directory, variables and flags. -/
def checkBuild (f : Formula) : Except Defect Unit := do
  if f.build.command.isEmpty then throw .emptyCommand
  if Text.isBlankText f.build.output then throw .emptyOutput
  if let some workdir := f.build.workdir then
    unless staysInside workdir do throw (.workdirEscapes workdir)
  if let some name := f.vars.names.find? builtinVariables.contains then
    throw (.redefinesBuiltin name)
  let known := fun (e : FlagEntry) =>
    builtinVariables.contains e.source || f.vars.contains e.source
  if let some e := f.build.flags.find? (!known ·) then
    throw (.unknownVariable e.symbol e.source)

/-- One dependency, with its warning if it has one. -/
def checkDependency (d : Dependency) : Except Defect (List String) := do
  if d.stages.isEmpty then throw (.noStages d.name)
  if let some c := d.condition then
    match OsVersion.parse c.since with
    | .error e => throw (.condition d.name e)
    | .ok _ => pure ()
  if d.provenance = .host ∧ d.effectiveProvenance = .formula then
    pure ["Dependency " ++ d.name ++
      " is host-provided without a host condition; it will be built"]
  else pure []

/-- Every destination. -/
def checkArtifacts (artifacts : List Artifact) : Except Defect Unit :=
  artifacts.forM fun a =>
    match Destination.check a.dest with
    | .error e => .error (.destination e)
    | .ok _ => .ok ()

/-- The test section, with its warning if it has one. -/
def checkTest : Option SmokeTest → Except Defect (List String)
  | none => .ok ["No test procedure declared"]
  | some t =>
    if t.stub then .ok ["Test procedure is a declared stub and will always fail"]
    else if t.commands.isEmpty then .error .noTestCommands
    else .ok []

/-- Warnings about descriptions that are absent. -/
def missingDescriptions (i : Identity) : List String :=
  (if i.description.isNone then ["Missing formula description"] else []) ++
    (if i.license.isNone then ["Missing formula license"] else []) ++
    (if i.homepage.isNone then ["Missing formula homepage"] else [])

/-- Check a formula. The result is the list of warnings. -/
def validate (f : Formula) : Except Defect (List String) := do
  f.checkSource
  f.checkBuild
  let dependencyWarnings ← f.dependencies.mapM checkDependency
  let artifacts := f.install.all
  checkArtifacts artifacts
  let testWarnings ← checkTest f.test
  pure (dependencyWarnings.flatten ++
    (if artifacts.isEmpty then ["No install artifacts declared"] else []) ++
    missingDescriptions f.identity ++ testWarnings)

end Formula

end Formulary
