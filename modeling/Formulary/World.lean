import Formulary.Disk.Operations
import Formulary.Formula

/-!
# The world of a cook

A cook works on the disk and calls on others : the probe, the fetcher, whoever knows the build
variables, and the procedures that build and test. The journal records each call and each large
step with how it ended, and nothing but a cook writes to it.
-/

namespace Formulary

/-- A question about a build variable. -/
inductive Question where
  | commit | branch | toolchain | time
deriving DecidableEq, Inhabited

/-- A step of a cook that can be seen from outside. -/
inductive Effect where
  /-- The probe is asked for programs. -/
  | probe (programs : List String)
  /-- The fetcher is asked for the bytes behind a URL. -/
  | fetch (url : String)
  /-- Bytes are unpacked into a directory. -/
  | extraction (bytes : ByteArray) (directory : Path)
  /-- A build variable is asked for. -/
  | question (q : Question)
  /-- The build runs, with the flags that it is told. -/
  | build (workdir : Path) (flags : List String)
  /-- Artifacts are put into a prefix. -/
  | installation (base : Path) (artifacts : List Artifact)
  /-- The test runs in a sandbox. -/
  | test (sandbox : Path)

/-- An effect, and whether it succeeded. -/
structure Event where
  effect : Effect
  succeeded : Bool

/-- The disk, and what has happened, the latest first. -/
structure World where
  disk : Disk
  journal : List Event := []

/-- Steps in the world. -/
abbrev WorldM := StateM World

namespace World

/-- Take steps that only concern the disk. -/
def onDisk {α : Type} (act : StateM Disk α) : WorldM α := fun w =>
  let (a, disk) := act w.disk
  (a, { w with disk })

/-- Take steps that are an effect. `good` tells by the result whether it succeeded. -/
def call {α : Type} (e : Effect) (good : α → Bool) (act : StateM Disk α) : WorldM α := fun w =>
  let (a, disk) := act w.disk
  (a, { disk, journal := ⟨e, good a⟩ :: w.journal })

/-- Ask for a build variable. Any answer is a success. -/
def ask {α : Type} (q : Question) (act : StateM Disk α) : WorldM α :=
  call (.question q) (fun _ => true) act

/-- The URLs that were asked for, in order. -/
def fetches (w : World) : List String :=
  w.journal.reverse.filterMap fun e =>
    match e.effect with
    | .fetch url => some url
    | _ => none

/-- The programs that were asked for, in order. -/
def probes (w : World) : List String :=
  w.journal.reverse.flatMap fun e =>
    match e.effect with
    | .probe programs => programs
    | _ => []

end World

end Formulary
