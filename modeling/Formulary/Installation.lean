import Formulary.Destination
import Formulary.Disk.Trees
import Formulary.Report

/-!
# Installation

Copying artifacts into a prefix. Every destination and every source is checked before anything is
written; what goes wrong afterwards ends the installation where it is.
-/

namespace Formulary.Installation

/-- Why an installation failed. -/
inductive Failure where
  | destination (refusal : Destination.Refusal)
  | notProduced (source : Path)
  | directory (path : Path) (cause : Cause)
  | copy (source target : Path) (cause : Cause)
  | mode (target : Path) (cause : Cause)
deriving DecidableEq

/-- The printed text. -/
def Failure.message : Failure → String
  | destination refusal => refusal.message
  | notProduced source => "build did not produce " ++ source.display
  | directory p cause => "Failed to create " ++ p.display ++ ": " ++ cause.message
  | copy source target cause =>
    "Failed to copy " ++ source.display ++ " to " ++ target.display ++ ": " ++ cause.message
  | mode target cause => "Failed to set mode on " ++ target.display ++ ": " ++ cause.message

/-- The failure that it is reported as. -/
def Failure.toError (f : Failure) : Error := .install f.message

/-- A copy that is to be made. -/
structure Step where
  source : Path
  target : Path
  mode : Mode
deriving DecidableEq

/-- Steps that may fail. -/
abbrev InstallM := ExceptT Failure (StateM Disk)

/-- Name the failure of a step on the disk. -/
def named {α : Type} (act : DiskM α) (f : Cause → Failure) : InstallM α := do
  match ← act.run with
  | .ok a => pure a
  | .error cause => throw (f cause)

/-- The copy for an artifact, if its destination and its source will do. -/
def check (workdir base : Path) (a : Artifact) : InstallM Step := do
  match Destination.check a.dest with
  | .error refusal => throw (.destination refusal)
  | .ok dest =>
    let source := workdir.join a.path
    if ← Disk.isFile source then pure ⟨source, dest.under base, a.mode⟩
    else throw (.notProduced source)

/-- Make the directory of a target. -/
def makeRoom (target : Path) : InstallM Unit :=
  match target.parent? with
  | some above => named (Disk.makeDirectories above) (.directory above)
  | none => pure ()

/-- Make a copy. -/
def carryOut (s : Step) : InstallM InstalledFile := do
  makeRoom s.target
  named (Disk.copy s.source s.target) (.copy s.source s.target)
  named (Disk.setMode s.target s.mode.bits) (.mode s.target)
  pure ⟨s.target, s.mode⟩

/-- Copy artifacts from a build directory into a prefix. -/
def run (workdir base : Path) (artifacts : List Artifact) : InstallM Installed := do
  let steps ← artifacts.mapM (check workdir base)
  let files ← steps.mapM carryOut
  pure ⟨base, files⟩

end Formulary.Installation
