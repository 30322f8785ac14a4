import Formulary.Archive.Extraction
import Formulary.Cache
import Formulary.Config
import Formulary.Formula.Validation
import Formulary.Host
import Formulary.Installation
import Formulary.Probe
import Formulary.Sandbox
import Formulary.Variables

/-!
# Cooking one formula

The phases of a cook, one step each. A step starts by entering its phase, works in the world, and
adds what it saw to the report; the first failure ends the cook in the phase it happened in.

What a later step needs, an earlier one returns : there is no source tree without a verified
archive, no build context without rendered flags, no installation without a build.
-/

namespace Formulary

/-- A place to cook : its configuration, and those it calls on. -/
structure Kitchen where
  config : Config
  fetcher : Fetcher
  metadata : MetadataSource (StateM Disk)
  probe : Probe
  /-- What is known of the host. It is asked only when a formula makes a condition. -/
  host : StateM Disk (Except Error Host)
  /-- How temporary directories are made. -/
  temporary : Temporary
  now : Timestamp

/-- A cook under way. -/
structure Cook where
  world : World
  lifecycle : Lifecycle
  /-- The phases that the lifecycle did not let the cook enter. There should be none. -/
  refused : List Phase := []
  report : Report
  /-- The directory made for the build, once it holds the source. -/
  buildDirectory : Option Path := none

/-- Steps of a cook. -/
abbrev CookM := ExceptT Error (StateM Cook)

namespace Cook

/-- A cook that has not begun. -/
def start (k : Kitchen) (f : Formula) (base : Path) (hasTest : Bool) (w : World) : Cook where
  world := w
  lifecycle := .start hasTest
  report := {
    formula := f.identity.name, version := f.packageVersion?, base, startedAt := k.now }

/-! ## Small steps -/

/-- Work in the world. -/
def inWorld {α : Type} (act : WorldM α) : CookM α := ExceptT.lift fun c =>
  let (a, world) := act c.world
  (a, { c with world })

/-- Work on the disk. -/
def onDisk {α : Type} (act : StateM Disk α) : CookM α := inWorld (World.onDisk act)

/-- Go on with a value, or halt. -/
def orHalt {α ε : Type} (toError : ε → Error) : Except ε α → CookM α
  | .ok a => pure a
  | .error e => throw (toError e)

/-- Enter a phase. -/
def enter (p : Phase) : CookM Unit := modify fun c =>
  let (advanced, lifecycle) := c.lifecycle.advance p
  { c with lifecycle, refused := if advanced then c.refused else p :: c.refused }

/-- Add to the report. -/
def record (change : Report → Report) : CookM Unit :=
  modify fun c => { c with report := change c.report }

/-- Add a line to the log. -/
def logLine (line : String) : CookM Unit :=
  record fun r => { r with log := r.log ++ line ++ "\n" }

/-! ## Before anything is fetched -/

/-- Tests run in another directory, so the prefix is made absolute first. A relative one is taken
from the working directory, which must still be there. -/
def fixBase : CookM Unit := do
  let c ← get
  let base := c.report.base
  let refusal := fun reason => Error.install ("prefix " ++ base.display ++ ": " ++ reason)
  match base.absolute? c.world.disk.workdir with
  | none => throw (refusal "cannot make an empty path absolute")
  | some p =>
    if base.isAbsolute || c.world.disk.hasWorkdir then record fun r => { r with base := p }
    else throw (refusal Cause.notFound.message)

/-- Decide which copies of the host's will do. -/
def checkHost (k : Kitchen) (needed : Classified) : CookM HostCheck := do
  if needed.hostProvided.isEmpty then pure {}
  else
    let host ← orHalt id (← onDisk k.host)
    orHalt HostCheck.Refusal.toError (HostCheck.ofHost needed host)

/-- Validate the formula, and check the host and the programs. -/
def prepare (k : Kitchen) (f : Formula) : CookM Unit := do
  fixBase
  let warnings ← orHalt Formula.Defect.toError f.validate
  record fun r => { r with warnings := r.warnings ++ warnings }
  let needed := Classified.ofDeclarations f.dependencies
  record fun r => { r with dependencies := some needed }
  let check ← checkHost k needed
  if k.config.probes then orHalt id (← inWorld (Probe.run k.probe f.dependencies check))
  record fun r => { r with host := some check }

/-! ## The source -/

/-- Get the verified source archive. -/
def fetchSource (k : Kitchen) (f : Formula) : CookM Verified := do
  enter .fetching
  let archive ← orHalt id (← inWorld
    (Cache.retrieve k.fetcher f.source.url f.source.checksum k.config.sourceCache))
  logLine ("Fetched source: " ++ f.source.url)
  pure archive

/-- Unpack the archive into a fresh directory. When that fails, the directory goes again. -/
def unpackSource (k : Kitchen) (archive : Verified) : CookM SourceTree := do
  enter .verifying
  match ← onDisk (Sandbox.make k.config.buildRoot k.temporary "kiln-build-") with
  | .error f => throw (.extraction ("Failed to create build directory: " ++ f.message))
  | .ok p =>
    let target := p.join "source"
    match ← inWorld (World.call (.extraction archive.bytes target) Except.isOk
        (Extraction.run archive target).run) with
    | .error f =>
      let _ ← onDisk (Disk.removeTree p).run
      throw f.toError
    | .ok tree =>
      let files ← onDisk (Disk.countFiles tree.root)
      logLine ("Extracted " ++ Text.decimal tree.entries ++ " entries to " ++ tree.root.display)
      record fun r => { r with sourceFiles := some files }
      modify fun c => { c with buildDirectory := some p }
      pure tree

/-! ## Variables and flags -/

/-- A source of build variables, with every question put to it in the journal. -/
def recorded (source : MetadataSource (StateM Disk)) : MetadataSource WorldM where
  commit tree := World.ask .commit (source.commit tree)
  branch tree := World.ask .branch (source.branch tree)
  toolchainVersion f tree := World.ask .toolchain (source.toolchainVersion f tree)
  now := World.ask .time source.now

/-- Resolve the build variables and render the flags. -/
def resolveFlags (k : Kitchen) (f : Formula) (tree : SourceTree) : CookM (Bindings × List String) := do
  enter .resolving
  let vars ← orHalt Variables.Unresolved.toError
    (← inWorld (Variables.resolve (recorded k.metadata) f tree.root).run)
  record fun r => { r with vars := some vars }
  let flags ← orHalt Flags.Refusal.toError (Flags.render f.build.flags vars)
  record fun r => { r with flags }
  pure (vars, flags)

/-! ## Building -/

/-- The values of the environment with the context's put into them. -/
def environmentOf (f : Formula) (c : BuildContext) : Bindings :=
  Bindings.ofList (f.build.environment.entries.map fun e =>
    (e.1, f.substitute e.2 c.substitutions))

/-- What the build of a formula is told. -/
def contextOf (k : Kitchen) (f : Formula) (tree : SourceTree) (vars : Bindings)
    (flags : List String) (r : Report) : BuildContext :=
  let context : BuildContext := {
    tree := tree.root
    workdir := match f.build.workdir with
      | some dir => tree.root.join dir
      | none => tree.root
    output := f.build.output
    flags
    environment := .empty
    dependencies := (r.dependencies.getD {}).build
    vars := vars
    jobs := f.build.jobs.getD k.config.jobs
    base := r.base }
  { context with environment := environmentOf f context }

/-- Run the build. -/
def build (install : InstallProcedure) (context : BuildContext) : CookM Unit := do
  enter .building
  if ← onDisk (Disk.isDirectory context.workdir) then
    let log ← orHalt id (← inWorld (World.call (.build context.workdir context.flags)
      Except.isOk (install.build context)))
    record fun r => { r with log := r.log ++ log }
  else
    throw (.build ("build workdir " ++ context.workdir.display ++ " does not exist"))

/-! ## Installing and testing -/

/-- Copy the artifacts into the prefix. -/
def installArtifacts (install : InstallProcedure) (context : BuildContext) : CookM Unit := do
  enter .installing
  let artifacts := install.artifacts context
  let installed ← orHalt Installation.Failure.toError
    (← inWorld (World.call (.installation context.base artifacts) Except.isOk
      (Installation.run context.workdir context.base artifacts).run))
  logLine ("Installed " ++ Text.decimal installed.files.length ++ " files into " ++
    context.base.display)
  record fun r => { r with installed := some installed }

/-- Run a test, with its run in the journal. -/
def journaled (test : TestProcedure) (context : TestContext) : WorldM (Except Halt String) :=
  World.call (.test context.workdir) Except.isOk (test.run context)

/-- Run the smoke test. Its failure leaves the installation in place. -/
def runTest (k : Kitchen) (test : TestProcedure) (base : Path) : CookM Unit := do
  enter .testing
  let outcome ← orHalt Sandbox.Failure.toError (← inWorld
    (Sandbox.runBy World.onDisk (journaled test) test.stub base k.config.sandboxRoot k.temporary))
  record fun r => { r with test := some outcome }
  orHalt id outcome.toResult

/-! ## The whole -/

/-- The first steps, up to the verified source. -/
def fetchOnly (k : Kitchen) (f : Formula) : CookM Verified := do
  prepare k f
  fetchSource k f

/-- The first steps, up to the variables and the flags. -/
def flagsOnly (k : Kitchen) (f : Formula) : CookM (Bindings × List String) := do
  prepare k f
  let archive ← fetchSource k f
  let tree ← unpackSource k archive
  resolveFlags k f tree

/-- The steps up to the installation. -/
def installOnly (k : Kitchen) (f : Formula) (install : InstallProcedure) : CookM BuildContext := do
  prepare k f
  let archive ← fetchSource k f
  let tree ← unpackSource k archive
  let (vars, flags) ← resolveFlags k f tree
  let context := contextOf k f tree vars flags (← get).report
  build install context
  installArtifacts install context
  pure context

/-- Every phase in order. -/
def phases (k : Kitchen) (f : Formula) (install : InstallProcedure) (test : Option TestProcedure) :
    CookM Unit := do
  let context ← installOnly k f install
  match test with
  | some test => runTest k test context.base
  | none => pure ()
  enter .done

/-- Halt with a failure. -/
def halt (e : Error) : StateM Cook Unit := modify fun c => { c with
  lifecycle := c.lifecycle.fail e.kind
  report := { c.report with failure := some (.of c.lifecycle.phase e) } }

/-- Give up the build directory. -/
def cleanUp : StateM Cook Unit := modify fun c =>
  match c.buildDirectory with
  | none => c
  | some p =>
    let (_, world) := World.onDisk (Disk.removeTree p).run c.world
    { c with world, buildDirectory := none }

/-- Keep the build directory, and say where it is. -/
def keepBuildDirectory : StateM Cook Unit := modify fun c =>
  match c.buildDirectory with
  | none => c
  | some p => { c with
      report.warnings := c.report.warnings ++ ["Build directory kept at " ++ p.display] }

/-- Close the report. -/
def finish (k : Kitchen) : StateM Cook Unit := do
  if k.config.keepBuildDirectory then keepBuildDirectory else cleanUp
  modify fun c => { c with
    report.trail := c.lifecycle.trail
    report.finishedAt := some k.now }

/-- Cook a formula to its end. -/
def run (k : Kitchen) (f : Formula) (install : InstallProcedure) (test : Option TestProcedure) :
    StateM Cook Unit := do
  match ← (phases k f install test).run with
  | .ok () => pure ()
  | .error e => halt e
  finish k

end Cook

end Formulary
