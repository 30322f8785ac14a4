import Formulary.Disk.Walk

/-!
# Operations on files

The single steps of a file system, with the failures of each. Every step may also meet a fault of
the disk. A step that fails changes nothing, except a write or a copy, which may get some of its
bytes through.
-/

namespace Formulary.Disk

/-- What is known of an entry. -/
inductive Kind where
  | directory | file | link
deriving DecidableEq

/-- The kind of an entry. -/
def kindOf : Entry → Kind
  | .directory _ => .directory
  | .file _ => .file
  | .link _ => .link

/-- Go on with a value, or fail. -/
def orFail {α : Type} : Except Cause α → DiskM α
  | .ok a => pure a
  | .error cause => throw cause

/-! ## Looking -/

/-- What a path leads to, with the links in it followed. -/
def lookUp (follow : Bool) (p : Path) : DiskM (Place × Entry) :=
  step do orFail ((← get).found follow p)

/-- The kind of what a path leads to, or of the link that it is. -/
def kind (follow : Bool) (p : Path) : DiskM Kind := do
  pure (kindOf (← lookUp follow p).2)

/-- A path leads to something of a kind. A path that cannot be followed leads to nothing. -/
def isKind (k : Kind) (p : Path) : StateM Disk Bool := do
  match ← (kind true p).run with
  | .ok found => pure (found == k)
  | .error _ => pure false

/-- A path leads to a file. -/
def isFile (p : Path) : StateM Disk Bool := isKind .file p

/-- A path leads to a directory. -/
def isDirectory (p : Path) : StateM Disk Bool := isKind .directory p

/-- A path leads to something. -/
def isThere (p : Path) : StateM Disk Bool := do
  match ← (kind true p).run with
  | .ok _ => pure true
  | .error _ => pure false

/-- The mode of what a path leads to. -/
def mode (p : Path) : DiskM Nat := do
  let (_, e) ← lookUp true p
  let d ← get
  match e with
  | .directory m => pure m
  | .file n => pure ((d.fileData? n).map FileData.mode |>.getD 0)
  | .link _ => pure 0o777

/-- The text of a place. -/
def pathOf (p : Place) : Path := ⟨"/" ++ Text.join "/" p⟩

/-- The place a path leads to, as a path without links. -/
def canonical (p : Path) : DiskM Path := do
  let (place, _) ← lookUp true p
  pure (pathOf place)

/-- The names in a directory. -/
def list (p : Path) : DiskM (List String) := step do
  let d ← get
  match ← orFail (d.found true p) with
  | (place, .directory m) => if d.permits m .read then pure (d.namesIn place) else throw .denied
  | _ => throw .notDirectory

/-- The bytes of a file. -/
def read (p : Path) : DiskM ByteArray := step do
  let d ← get
  match ← orFail (d.found true p) with
  | (_, .file n) =>
    match d.fileData? n with
    | some data => if d.permits data.mode .read then pure data.bytes else throw .denied
    | none => throw .notFound
  | _ => throw .isDirectory

/-! ## Files -/

/-- Entries may be added to and removed from the directory of a place. -/
def canChange (d : Disk) (p : Place) : Bool :=
  d.directoryPermits p.dropLast .write && d.directoryPermits p.dropLast .search

/-- The number of the file that a path leads to, which is made anew or emptied. -/
def opened (p : Path) (mode : Nat) : DiskM Nat := do
  let d ← get
  let t ← orFail (d.target true p)
  match d.entryAt? t.place with
  | some (.directory _) => throw .isDirectory
  | some (.file n) =>
    let data := (d.fileData? n).getD ⟨.empty, 0⟩
    if !d.permits data.mode .write then throw .denied
    else
      set (d.setFile n { data with bytes := .empty })
      pure n
  | some (.link _) => throw .loop
  | none =>
    if t.needsDirectory then throw .isDirectory
    else if !d.canChange t.place then throw .denied
    else
      set (d.putFile t.place ⟨.empty, mode⟩)
      pure d.unused

/-- Set the bytes of the file with a number. -/
def fill (number : Nat) (bytes : ByteArray) : DiskM Unit := modify fun d =>
  d.setFile number { (d.fileData? number).getD ⟨.empty, 0⟩ with bytes }

/-- The mode of files that are made without one. -/
def fileMode : Nat := 0o644

/-- The mode of directories that are made without one. -/
def directoryMode : Nat := 0o755

/-- Open a file and set its bytes. -/
def refill (p : Path) (bytes : ByteArray) : DiskM Unit := do
  let number ← opened p fileMode
  fill number bytes

/-- Write a file, which is made if it is not there. -/
def write (p : Path) (bytes : ByteArray) : DiskM Unit := pouring fun cut => refill p (cut bytes)

/-- Add bytes to the end of a file, which is made if it is not there. -/
def append (p : Path) (bytes : ByteArray) : DiskM Unit := step do
  let d ← get
  match d.found true p with
  | .ok (_, .file n) =>
    let data := (d.fileData? n).getD ⟨.empty, 0⟩
    if d.permits data.mode .write then fill n (data.bytes ++ bytes) else throw .denied
  | _ => refill p bytes

/-- Write a file where nothing is yet. -/
def createNew (p : Path) (bytes : ByteArray) (mode : Nat) : DiskM Unit := step do
  let d ← get
  let t ← orFail (d.target false p)
  match d.entryAt? t.place with
  | some _ => throw .exists
  | none =>
    if t.needsDirectory then throw .isDirectory
    else if d.canChange t.place then set (d.putFile t.place ⟨bytes, mode⟩)
    else throw .denied

/-- Set the mode of what a path leads to. -/
def setMode (p : Path) (mode : Nat) : DiskM Unit := step do
  let d ← get
  match ← orFail (d.found true p) with
  | (place, .directory _) => set (d.put place (.directory mode))
  | (_, .file n) => set (d.setFile n { (d.fileData? n).getD ⟨.empty, 0⟩ with mode })
  | (_, .link _) => throw .loop

/-- Open a file and set its bytes and its mode after those of another, of whose bytes `cut` says
which ones. It is emptied first, so nothing is left of a file that is opened for itself. -/
def transfer (source onto : Path) (cut : ByteArray → ByteArray) : DiskM Unit := do
  let d ← get
  match ← orFail (d.found true source) with
  | (_, .file n) =>
    match d.fileData? n with
    | none => throw .notFound
    | some data =>
      if !d.permits data.mode .read then throw .denied
      else
        let number ← opened onto data.mode
        let now := ((← get).fileData? n).getD data
        modify fun d => d.setFile number ⟨cut now.bytes, data.mode⟩
  | _ => throw .notFile

/-- Copy the bytes and the mode of a file. -/
def copy (source onto : Path) : DiskM Unit := pouring (transfer source onto)

/-! ## Names -/

/-- Put an entry where nothing is yet. -/
def putNew (p : Path) (e : Entry) : DiskM Unit := step do
  let d ← get
  let t ← orFail (d.target false p)
  match d.entryAt? t.place with
  | some _ => throw .exists
  | none =>
    if t.needsDirectory ∧ kindOf e ≠ .directory then throw .notFound
    else if d.canChange t.place then set (d.put t.place e)
    else throw .denied

/-- Make a directory. -/
def makeDirectory (p : Path) (mode : Nat := directoryMode) : DiskM Unit :=
  putNew p (.directory mode)

/-- Make a link. -/
def makeLink (target : String) (p : Path) : DiskM Unit :=
  if target = "" then throw .notFound else putNew p (.link target)

/-- Give a file one more name. -/
def addName (file p : Path) : DiskM Unit := step do
  let d ← get
  let (_, e) ← orFail (d.found false file)
  let t ← orFail (d.target false p)
  match d.entryAt? t.place, e with
  | some _, _ => throw .exists
  | none, .directory _ => throw .notPermitted
  | none, e =>
    if t.needsDirectory then throw .notFound
    else if d.canChange t.place then set (d.put t.place e)
    else throw .denied

/-- Remove a name of a file, or a link. -/
def removeFile (p : Path) : DiskM Unit := step do
  let d ← get
  match ← orFail (d.found false p) with
  | (_, .directory _) => throw .isDirectory
  | (place, _) => if d.canChange place then set (d.drop place) else throw .denied

/-- Remove an empty directory. -/
def removeDirectory (p : Path) : DiskM Unit := step do
  let d ← get
  match ← orFail (d.found false p) with
  | (place, .directory _) =>
    if place = [] then throw .busy
    else if !(d.namesIn place).isEmpty then throw .notEmpty
    else if d.canChange place then set (d.drop place)
    else throw .denied
  | _ => throw .notDirectory

/-- The place with what leads up to it exchanged. -/
def moved (source onto p : Place) : Place := onto ++ p.drop source.length

/-- The place goes along when an entry moves : that of the entry, and all below a directory. -/
def goesAlong (e : Entry) (source p : Place) : Bool :=
  match e with
  | .directory _ => isWithin source p
  | _ => p == source

/-- The disk with an entry moved, and what was at the new place gone. -/
def move (d : Disk) (e : Entry) (source onto : Place) : Disk :=
  { d with
    entries := (d.drop onto).entries.map fun (p, held) =>
      (if goesAlong e source p then moved source onto p else p, held) }

/-- The kind of an entry lets it take the place of what is at another. -/
def mayReplace (d : Disk) (e : Entry) (onto : Target) : Except Cause Unit :=
  match kindOf e, d.entryAt? onto.place with
  | .directory, some (.directory _) =>
    if (d.namesIn onto.place).isEmpty then .ok () else .error .notEmpty
  | .directory, some _ => .error .notDirectory
  | .directory, none => .ok ()
  | _, some (.directory _) => .error .isDirectory
  | _, _ => if onto.needsDirectory then .error .notDirectory else .ok ()

/-- Move an entry, with everything below it. What was at the new place is gone, unless it is a
directory that is not empty. -/
def rename (source onto : Path) : DiskM Unit := step do
  let d ← get
  let (a, e) ← orFail (d.found false source)
  let t ← orFail (d.target false onto)
  let b := t.place
  if a = b then pure ()
  else if isWithin a b then throw .invalid
  else
    orFail (d.mayReplace e t)
    if !d.canChange a || !d.canChange b then throw .denied
    else if d.entryAt? b = some e ∧ kindOf e = .file then pure ()
    else set (d.move e a b)

end Formulary.Disk
