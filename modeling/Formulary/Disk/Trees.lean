import Formulary.Disk.Operations

/-!
# Trees of directories

Steps that make, remove or look through whole trees.
-/

namespace Formulary.Disk

/-! ## Making directories -/

/-- Make a directory; if it is there already, that is fine. -/
def ensureDirectory (p : Path) : DiskM Unit := do
  match ← (makeDirectory p).attempt with
  | .ok () => pure ()
  | .error cause => if ← isDirectory p then pure () else throw cause

/-- Make a directory and those above it that are missing, at most `fuel` of them. -/
def makeDirectoriesUpTo : Nat → Path → DiskM Unit
  | 0, _ => throw .noTree
  | fuel + 1, p =>
    if p.text = "" then pure ()
    else do
      match ← (makeDirectory p).attempt with
      | .ok () => pure ()
      | .error .notFound =>
        match p.parent? with
        | none => throw .noTree
        | some above =>
          makeDirectoriesUpTo fuel above
          ensureDirectory p
      | .error cause => if ← isDirectory p then pure () else throw cause

/-- Make a directory and those above it that are missing. -/
def makeDirectories (p : Path) : DiskM Unit := makeDirectoriesUpTo (p.components.length + 1) p

/-! ## Removing trees -/

/-- Take away what a place holds. -/
def removeAt (p : Place) : DiskM Unit := step do
  let d ← get
  if p = [] then throw .busy
  else if d.canChange p then set (d.drop p)
  else throw .denied

/-- Take away a directory with everything below it, down to some depth. It stops at the first
failure. -/
def removeTreeAt : Nat → Place → DiskM Unit
  | 0, _ => throw .loop
  | depth + 1, p => do
    let d ← get
    if !d.directoryPermits p .read then throw .denied
    else
      for name in d.namesIn p do
        let child := p ++ [name]
        match (← get).entryAt? child with
        | some (.directory _) => removeTreeAt depth child
        | _ => removeAt child
      removeAt p

/-- No place is deeper than this. -/
def depth (d : Disk) : Nat := (d.entries.map (·.1.length)).foldl max 0

/-- Remove a directory with everything below it. Of a link, only the link itself goes. -/
def removeTree (p : Path) : DiskM Unit := do
  match ← lookUp false p with
  | (place, .directory _) => removeTreeAt ((← get).depth + 1) place
  | (place, .link _) => removeAt place
  | (_, .file _) => throw .notDirectory

/-- Every directory on the way from one place to another may be read. -/
def isReachable (d : Disk) (upper p : Place) : Bool :=
  (List.range (p.length - upper.length)).all fun k =>
    d.directoryPermits (p.take (upper.length + k)) .read

/-- Give the owner every right to the directories at and below a place, as far as they can be
reached. -/
def unlock (upper : Place) (d : Disk) : Disk :=
  { d with
    entries := d.entries.map fun (p, e) =>
      match e with
      | .directory mode =>
        if isWithin upper p ∧ d.isReachable upper p then (p, .directory (mode ||| 0o700)) else (p, e)
      | _ => (p, e) }

/-- Give the owner every right to the directories at and below what a path leads to. -/
def unlockTree (p : Path) (d : Disk) : Disk :=
  match d.found true p with
  | .ok (place, _) => d.unlock place
  | .error _ => d

/-! ## Looking through trees -/

/-- Everything below a place, with its path from there. -/
def below (d : Disk) (upper : Place) : List (Place × Entry) :=
  d.entries.filterMap fun (p, e) =>
    if isWithin upper p ∧ p ≠ upper then some (p.drop upper.length, e) else none

/-- How many files there are below a directory. -/
def countFiles (p : Path) : StateM Disk Nat := do
  let d ← get
  match d.found true p with
  | .ok (place, .directory _) =>
    pure ((d.below place).filter fun (q, e) =>
      kindOf e = .file && d.isReachable place (place ++ q)).length
  | .ok (_, .file _) => pure 1
  | _ => pure 0

end Formulary.Disk
