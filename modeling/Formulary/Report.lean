import Formulary.Depends
import Formulary.Flags
import Formulary.Json
import Formulary.Lifecycle
import Formulary.Path
import Formulary.Timestamp

/-!
# Reports

Everything that was seen while one formula was cooked, and how it is printed : a line of
summary, a text, and JSON.
-/

namespace Formulary

/-! ## Parts of a report -/

/-- The result of a smoke test. -/
inductive TestOutcome where
  | passed
  | failed (reason : String)
  /-- A declared placeholder failed, as it always does. -/
  | stubbed (reason : String)
deriving DecidableEq, Inhabited

namespace TestOutcome

/-- The printed form of an outcome. -/
def display : TestOutcome → String
  | passed => "passed"
  | failed reason => "failed: " ++ reason
  | stubbed reason => "stub (always fails): " ++ reason

/-- A test that did not pass is a failure. -/
def toResult : TestOutcome → Except Error Unit
  | passed => .ok ()
  | failed reason => .error (.test reason false)
  | stubbed reason => .error (.test reason true)

/-- The outcome as JSON. -/
def toJson : TestOutcome → Json
  | passed => .object [("outcome", .text "passed")]
  | failed reason => .object [("outcome", .text "failed"), ("reason", .text reason)]
  | stubbed reason => .object [("outcome", .text "stubbed"), ("reason", .text reason)]

end TestOutcome

/-- A file that was put into the prefix. -/
structure InstalledFile where
  path : Path
  mode : Mode
deriving DecidableEq, Inhabited

/-- Everything that an installation put into the prefix. -/
structure Installed where
  base : Path
  files : List InstalledFile := []
deriving DecidableEq, Inhabited

/-- Where and why a cook halted. -/
structure Failure where
  phase : Phase
  kind : Error.Kind
  message : String
deriving DecidableEq, Inhabited

/-- The record of a failure in a phase. -/
def Failure.of (phase : Phase) (e : Error) : Failure := ⟨phase, e.kind, e.message⟩

/-- A report. -/
structure Report where
  formula : String
  version : Option String
  /-- The directory that is installed into. -/
  base : Path
  startedAt : Timestamp
  finishedAt : Option Timestamp := none
  trail : List CookState := [.reached .init]
  dependencies : Option Classified := none
  host : Option HostCheck := none
  /-- Files in the unpacked source tree. -/
  sourceFiles : Option Nat := none
  vars : Option Bindings := none
  flags : List String := []
  installed : Option Installed := none
  test : Option TestOutcome := none
  failure : Option Failure := none
  warnings : List String := []
  log : String := ""
deriving DecidableEq, Inhabited

namespace Report

/-! ## Verdict -/

/-- The last state. -/
def state (r : Report) : CookState := r.trail.getLast?.getD (.reached .init)

/-- The cook reached its end. -/
def succeeded (r : Report) : Bool := r.state == .reached .done

/-- The exit status : that of the failure, else zero for a cook that reached its end. -/
def exitCode (r : Report) : Nat :=
  match r.failure with
  | some f => f.kind.exitCode
  | none => if r.succeeded then 0 else 1

/-- Name and version. -/
def title (r : Report) : String :=
  match r.version with
  | some v => r.formula ++ " " ++ v
  | none => r.formula

/-- The outcome in a line. -/
def summary (r : Report) : String :=
  match r.failure with
  | none =>
    if r.succeeded then r.title ++ ": cooked into " ++ r.base.display
    else r.title ++ ": halted in " ++ r.state.display
  | some f =>
    if f.kind = .test then
      r.title ++ ": installed into " ++ r.base.display ++
        ", but the smoke test did not pass (" ++ f.message ++ ")"
    else r.title ++ ": " ++ f.kind.name ++ " during " ++ f.phase.name ++ ": " ++ f.message

/-! ## Text -/

/-- A titled line of names, absent when there are none. -/
def namesLine (title : String) (names : List String) : List String :=
  if names.isEmpty then [] else ["  " ++ title ++ " dependencies: " ++ Text.join ", " names]

/-- The lines about dependencies. -/
def dependencyLines : Option Classified → List String
  | none => []
  | some c => namesLine "Build" c.build ++ namesLine "Test" c.test ++
      namesLine "Runtime" c.runtime

/-- The lines about variables. -/
def variableLines : Option Bindings → List String
  | none => []
  | some b => "  Variables:" :: b.entries.map fun e => "    " ++ e.1 ++ " = " ++ e.2

/-- The lines about installed files. -/
def installedLines : Option Installed → List String
  | none => []
  | some i => "  Installed:" :: i.files.map fun f =>
      "    " ++ f.path.display ++ " (" ++ f.mode.name ++ ")"

/-- The report as text. Every line is closed but the one about a failure. -/
def display (r : Report) : String :=
  let lines := [r.summary, "  Phases: " ++ Text.join " -> " (r.trail.map CookState.display)] ++
    dependencyLines r.dependencies ++
    variableLines r.vars ++
    (if r.flags.isEmpty then [] else ["  Flags: " ++ Flags.joined r.flags]) ++
    installedLines r.installed ++
    (r.test.map fun t => "  Test: " ++ t.display).toList ++
    r.warnings.map ("  Warning: " ++ ·)
  let closing := match r.failure with
    | some f => "  FAILED in " ++ f.phase.name ++ ": " ++ f.kind.name
    | none => ""
  String.join (lines.map (· ++ "\n")) ++ closing

/-! ## JSON -/

/-- A state as JSON. -/
def stateJson : CookState → Json
  | .reached p => .object [("at", .text p.name)]
  | .failed p k =>
    .object [("failed", .object [("phase", .text p.name), ("kind", .text k.name)])]

/-- Dependencies as JSON. -/
def classifiedJson (c : Classified) : Json :=
  .object [
    ("build", .texts c.build),
    ("test", .texts c.test),
    ("runtime", .texts c.runtime),
    ("host_provided", .list (c.hostProvided.map fun h =>
      .object [("name", .text h.name), ("condition",
        .object [("os", .text h.condition.os), ("since", .text h.condition.since)])]))]

/-- The decision about the host as JSON. -/
def hostCheckJson (h : HostCheck) : Json :=
  .object [("satisfied", .texts h.satisfied), ("must_build", .texts h.mustBuild)]

/-- Installed files as JSON. -/
def installedJson (i : Installed) : Json :=
  .object [
    ("prefix", .text i.base.text),
    ("files", .list (i.files.map fun f =>
      .object [("path", .text f.path.text), ("mode", .text f.mode.name)]))]

/-- A failure as JSON. -/
def failureJson (f : Failure) : Json :=
  .object [("phase", .text f.phase.name), ("kind", .text f.kind.name),
    ("message", .text f.message)]

/-- A value that may be absent. -/
def optional {α : Type} (toJson : α → Json) : Option α → Json
  | none => .null
  | some a => toJson a

/-- The report as JSON. An empty log is left out. -/
def toJson (r : Report) : Json :=
  .object ([
    ("formula", .text r.formula),
    ("version", .ofOption r.version),
    ("prefix", .text r.base.text),
    ("started_at", .text r.startedAt.toText),
    ("finished_at", optional (fun t => .text t.toText) r.finishedAt),
    ("trail", .list (r.trail.map stateJson)),
    ("dependencies", optional classifiedJson r.dependencies),
    ("host", optional hostCheckJson r.host),
    ("source_files", optional (fun n : Nat => .number n) r.sourceFiles),
    ("variables", optional .ofBindings r.vars),
    ("flags", .texts r.flags),
    ("installed", optional installedJson r.installed),
    ("test", optional TestOutcome.toJson r.test),
    ("failure", optional failureJson r.failure),
    ("warnings", .texts r.warnings)] ++
    (if r.log = "" then [] else [("log", .text r.log)]))

end Report

end Formulary
