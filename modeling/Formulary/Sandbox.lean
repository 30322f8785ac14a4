import Formulary.Disk.Temporary
import Formulary.Disk.Trees
import Formulary.Procedure
import Formulary.Report

/-!
# Sandboxes

A test runs in a fresh directory of its own, which is gone afterwards, however the test ended and
whatever it left there. What the test does is told by the outcome; only a sandbox that cannot be
made or removed is a failure.
-/

namespace Formulary.Sandbox

/-- Why there was no test. -/
inductive Failure where
  | notMade (reason : String)
  | notRemoved (path : Path) (cause : Cause)
deriving DecidableEq

/-- The failure that it is reported as. -/
def Failure.toError : Failure → Error
  | notMade reason => .test ("could not create test sandbox: " ++ reason) false
  | notRemoved p cause =>
    .test ("could not remove test sandbox " ++ p.display ++ ": " ++ cause.message) false

/-- Make a fresh directory below another, which is made if it is missing. -/
def make (root : Option Path) (temporary : Temporary) (stem : String) :
    StateM Disk (Except Disk.TemporaryFailure Path) := do
  match root with
  | none => Disk.makeTemporary temporary.directory stem (temporary.draw stem)
  | some root =>
    match ← (Disk.makeDirectories root).run with
    | .error cause => pure (.error (.homeless cause))
    | .ok () => Disk.makeTemporary root stem (temporary.draw stem)

/-- Remove a sandbox. Directories that cannot be changed are unlocked for a second try. -/
def remove (p : Path) : StateM Disk (Except Failure Unit) := do
  match ← (Disk.removeTree p).run with
  | .ok () => pure (.ok ())
  | .error _ =>
    modify (Disk.unlockTree p)
    match ← (Disk.removeTree p).run with
    | .ok () => pure (.ok ())
    | .error cause => pure (.error (.notRemoved p cause))

/-- The outcome that follows from how a test ended. -/
def outcomeOf (stub : Bool) : Except Halt String → TestOutcome
  | .ok _ => .passed
  | .error halt => if stub then .stubbed halt.reason else .failed halt.reason

/-- Run a test in a fresh sandbox. The test is run by `call`, and the steps around it are taken
by `onDisk`. -/
def runBy {m : Type → Type} [Monad m] (onDisk : {α : Type} → StateM Disk α → m α)
    (call : TestContext → m (Except Halt String)) (stub : Bool) (base : Path)
    (root : Option Path) (temporary : Temporary) : m (Except Failure TestOutcome) := do
  match ← onDisk (make root temporary "kiln-test-") with
  | .error f => pure (.error (.notMade f.message))
  | .ok p =>
    let result ← call ⟨p, base⟩
    match ← onDisk (remove p) with
    | .error f => pure (.error f)
    | .ok () => pure (.ok (outcomeOf stub result))

/-- Run a test in a fresh sandbox. -/
def run (test : TestProcedure) (base : Path) (root : Option Path) (temporary : Temporary) :
    StateM Disk (Except Failure TestOutcome) :=
  runBy id test.run test.stub base root temporary

end Formulary.Sandbox
