import Formulary.Flags
import Formulary.Formula.Template
import Formulary.Process

/-!
# Procedures

How a formula is built and tested. A procedure is told everything it needs in a context; the
usual procedures run the commands of the formula, with the values of the context put into them.
-/

namespace Formulary

/-! ## Contexts -/

/-- What a build is told. -/
structure BuildContext where
  /-- The root of the source tree. -/
  tree : Path
  /-- The directory that the build runs in. -/
  workdir : Path
  /-- The name of the file that the build makes. -/
  output : String
  flags : List String
  environment : Bindings
  /-- The dependencies of the build. -/
  dependencies : List String
  vars : Bindings
  jobs : UInt32
  base : Path
deriving DecidableEq

namespace BuildContext

/-- The flags as one text. -/
def linkerFlags (c : BuildContext) : String := Flags.joined c.flags

/-- The values that build commands may name. The context's own win over variables. -/
def substitutions (c : BuildContext) : Bindings :=
  (((c.vars.insert "ldflags" c.linkerFlags).insert "output" c.output).insert "jobs"
    (Text.decimal c.jobs.toNat)).insert "prefix" c.base.display

end BuildContext

/-- What a test is told. -/
structure TestContext where
  /-- The sandbox. -/
  workdir : Path
  /-- The installation under test. -/
  base : Path
deriving DecidableEq

namespace TestContext

/-- The directory of the installed programs. -/
def bin (c : TestContext) : Path := c.base.join "bin"

/-- The values that test commands may name. -/
def substitutions (c : TestContext) : Bindings :=
  Bindings.ofList [
    ("prefix", c.base.display), ("bin", c.bin.display), ("testpath", c.workdir.display)]

end TestContext

/-! ## Procedures -/

/-- A way to build, and what to install then. -/
structure InstallProcedure where
  build : BuildContext → StateM Disk (Except Error String)
  artifacts : BuildContext → List Artifact

/-- How a test procedure may end other than well. -/
inductive Halt where
  | error (e : Error)
  /-- The procedure broke off, perhaps with a text. -/
  | panic (text : Option String)
deriving DecidableEq

/-- The reason that a halted test is reported with. -/
def Halt.reason : Halt → String
  | .error (.test reason _) => reason
  | .error e => e.message
  | .panic text => "test procedure panicked: " ++ text.getD "unknown panic"

/-- A way to test. -/
structure TestProcedure where
  /-- The test is a placeholder that is known to fail. -/
  stub : Bool := false
  run : TestContext → StateM Disk (Except Halt String)

/-! ## Logs -/

/-- What a program printed, closed by a line feed. -/
def closed (s : String) : String := if s = "" ∨ Text.endsWith s "\n" then s else s ++ "\n"

/-- The log of a command : what it is for, the command, and what it printed. -/
def commandLog (purpose : String) (argv : List String) (output errors : String) : String :=
  "=== " ++ purpose ++ " ===\n$ " ++ Text.join " " argv ++ "\n" ++ closed output ++ closed errors

/-! ## Building by commands -/

/-- The environment with more set over it. -/
def Bindings.setOver (more base : Bindings) : Bindings :=
  more.entries.foldl (fun b e => b.insert e.1 e.2) base

namespace CommandBuild

/-- The build command with its values. -/
def argv (f : Formula) (c : BuildContext) : List String :=
  f.build.command.map (f.substitute · c.substitutions)

/-- Run the build command. -/
def build (m : Machine) (f : Formula) (c : BuildContext) : StateM Disk (Except Error String) := do
  match argv f c with
  | [] => pure (.error (.build "build command is empty"))
  | program :: arguments =>
    match ← m.launch {
        program, arguments, workdir := c.workdir
        environment := c.environment.setOver m.environment
        ownSearchPath := c.environment.contains "PATH" } with
    | .error cause => pure (.error (.build ("Failed to run " ++ program ++ ": " ++ cause.message)))
    | .ok done =>
      let errors := Text.lossy done.errors
      if done.succeeded then
        pure (.ok (commandLog "build" (program :: arguments) (Text.lossy done.output) errors))
      else
        pure (.error (.build (program ++ " exited with " ++ done.statusText ++ "\nstderr: " ++
          Text.trim errors)))

/-- What the formula declares to be installed, or else the file that the build makes. -/
def artifacts (f : Formula) (c : BuildContext) : List Artifact :=
  match f.install.all with
  | [] => [⟨c.output, "bin/" ++ c.output, .executable⟩]
  | all => all

/-- The procedure that runs the build command of a formula. -/
def procedure (m : Machine) (f : Formula) : InstallProcedure := ⟨build m f, artifacts f⟩

end CommandBuild

/-! ## Testing by commands -/

namespace CommandTest

/-- The search path of a test : the installed programs come first. A directory with a colon in
its name cannot be on it. -/
def searchPath (m : Machine) (c : TestContext) : Except String String :=
  match m.searchPath with
  | none => .ok c.bin.text
  | some rest =>
    if c.bin.text.toList.contains ':' then .error "path segment contains separator `:`"
    else .ok (c.bin.text ++ ":" ++ rest)

/-- Run the commands of a test one after the other. `log` is what has been logged, and `last` what
the last command printed. -/
def runFrom (m : Machine) (f : Formula) (c : TestContext) (path : String) (log last : String) :
    List (List String) → StateM Disk (Except String (String × String))
  | [] => pure (.ok (log, last))
  | command :: rest => do
    match command.map (f.substitute · c.substitutions) with
    | [] => pure (.error "empty test command")
    | program :: arguments =>
      let environment := (m.environment.insert "HOME" c.workdir.text).insert "PATH" path
      match ← m.launch {
          program, arguments, workdir := c.workdir, environment, ownSearchPath := true } with
      | .error cause => pure (.error ("failed to run " ++ program ++ ": " ++ cause.message))
      | .ok done =>
        let argv := program :: arguments
        let output := Text.lossy done.output
        let log := log ++ commandLog "test" argv output (Text.lossy done.errors)
        if done.succeeded then runFrom m f c path log output rest
        else pure (.error (Text.join " " argv ++ " exited with " ++ done.statusText))

/-- Run a test. -/
def run (m : Machine) (f : Formula) (t : SmokeTest) (c : TestContext) :
    StateM Disk (Except String String) := do
  if t.commands.isEmpty then pure (.error "no test commands declared")
  else match searchPath m c with
    | .error reason => pure (.error reason)
    | .ok path =>
      match ← runFrom m f c path "" "" t.commands with
      | .error reason => pure (.error reason)
      | .ok (log, last) =>
        match t.expected with
        | none => pure (.ok log)
        | some expected =>
          if Text.contains last expected then pure (.ok log)
          else pure (.error ("output does not contain '" ++ expected ++ "'"))

/-- The procedure that runs the test of a formula, if it has one. -/
def procedure? (m : Machine) (f : Formula) : Option TestProcedure :=
  f.test.map fun t => {
    stub := t.stub
    run := fun c => do pure ((← run m f t c).mapError fun reason => .error (.test reason t.stub)) }

end CommandTest

end Formulary
