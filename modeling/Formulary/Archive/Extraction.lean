import Formulary.Archive.Tar
import Formulary.Codec
import Formulary.Disk.Trees
import Formulary.Payload

/-!
# Extraction

Unpacking a verified archive into a directory. A member whose name leads upwards stops the
extraction, and so does one whose directory turns out, through links, to lie elsewhere.
-/

namespace Formulary

/-- An unpacked source tree. -/
structure SourceTree where
  /-- The directory the archive was unpacked into. -/
  directory : Path
  /-- The single directory in it, or else the directory itself. -/
  root : Path
  /-- How many members the archive has. -/
  entries : Nat
deriving DecidableEq, Inhabited

namespace Extraction

/-! ## Failures -/

/-- Why a directory is not known to lie in another. -/
inductive Stray where
  | unresolved (path : Path) (cause : Cause)
  /-- It lies outside, for all that links lead to. -/
  | outside (upper : Path)
deriving DecidableEq, Inhabited

/-- The printed text. -/
def Stray.message : Stray → String
  | unresolved p cause => cause.message ++ " while canonicalizing " ++ p.display
  | outside upper => "trying to unpack outside of destination path: " ++ upper.display

/-- The cause, for those who ask no further. -/
def Stray.cause : Stray → Cause
  | unresolved _ cause => cause
  | outside _ => .notPermitted

/-- Why a member could not be put in its place. -/
inductive Misfit where
  /-- The directory for it could not be made. -/
  | homeless (above : Path)
  | astray (s : Stray)
  | unplaced (path : Path)
deriving DecidableEq, Inhabited

/-- The printed text. -/
def Misfit.message : Misfit → String
  | homeless above => "failed to create `" ++ above.display ++ "`"
  | astray s => s.message
  | unplaced p => "failed to unpack `" ++ p.display ++ "`"

/-- Why an archive could not be unpacked. -/
inductive Failure where
  | directory (path : Path) (cause : Cause)
  /-- The archive is damaged at some member. -/
  | corrupt
  | unpack (name : String) (why : Misfit)
  | escapes (name : String)
  | empty
  | unreadable (path : Path) (cause : Cause)
deriving DecidableEq, Inhabited

/-- The printed text. -/
def Failure.message : Failure → String
  | directory p cause => "Failed to create " ++ p.display ++ ": " ++ cause.message
  | corrupt => "Corrupt archive entry: the archive is damaged"
  | unpack name why => "Failed to unpack " ++ Text.shown name ++ ": " ++ why.message
  | escapes name => "Archive entry " ++ Text.shown name ++ " escapes the extraction directory"
  | empty => "Archive contains no entries"
  | unreadable p cause => "Failed to read " ++ p.display ++ ": " ++ cause.message

/-- The failure that it is reported as. -/
def Failure.toError (f : Failure) : Error := .extraction f.message

/-! ## Placing members -/

/-- The names that lead to a member below the directory, unless the name leads upwards. Roots and
dots say nothing. -/
def namesOf? (name : String) : Option (List String) :=
  (Path.mk name).components.foldr (fun c names =>
    match c with
    | .name s => names.map (s :: ·)
    | .up => none
    | _ => names) (some [])

/-- Find out whether a directory lies in another, wherever links may lead. -/
def locate (upper p : Path) : StateM Disk (Except Stray Unit) := do
  match ← (Disk.canonical p).run with
  | .error cause => pure (.error (.unresolved p cause))
  | .ok inner =>
    match ← (Disk.canonical upper).run with
    | .error cause => pure (.error (.unresolved upper cause))
    | .ok outer =>
      if Disk.isWithin (Disk.segmentsOf outer.text) (Disk.segmentsOf inner.text) then
        pure (.ok ())
      else pure (.error (.outside outer))

/-- Check that a directory lies in another, wherever links may lead. -/
def mustBeWithin (upper p : Path) : DiskM Unit := do
  match ← locate upper p with
  | .ok () => pure ()
  | .error s => throw s.cause

/-- Make the missing ones of a directory and those above it, down from the lowest that is there.
Each is made only when the one above it lies within the target. -/
def makeWithin (upper : Path) : Nat → Path → DiskM Unit
  | 0, _ => throw .noTree
  | fuel + 1, p => do
    match ← (Disk.kind false p).attempt with
    | .ok _ => pure ()
    | .error _ =>
      match p.parent? with
      | none => Disk.makeDirectories p
      | some above =>
        makeWithin upper fuel above
        mustBeWithin upper above
        Disk.makeDirectories p

/-- Set the mode, if the header tells one. -/
def setTold (p : Path) (mode : Option Nat) : DiskM Unit :=
  match mode with
  | some m => Disk.setMode p (m % 4096)
  | none => pure ()

/-- Run a step that makes a new entry; where there is one already, that one goes first. -/
def replacing (p : Path) (make : DiskM Unit) : DiskM Unit := do
  match ← make.attempt with
  | .ok () => pure ()
  | .error .exists =>
    Disk.removeFile p
    make
  | .error cause => throw cause

/-- Put a member at its path. -/
def place (upper : Path) (m : Tar.Member) (p : Path) : DiskM Unit := do
  match m.kind with
  | .note => pure ()
  | .directory =>
    match ← (Disk.makeDirectory p).attempt with
    | .ok () => pure ()
    | .error .exists =>
      match ← (Disk.kind false p).attempt with
      | .ok .directory => pure ()
      | _ => throw .exists
    | .error cause => throw cause
    setTold p m.mode
  | .symbolicLink => replacing p (Disk.makeLink (m.linkName.getD "") p)
  | .hardLink =>
    let name := m.linkName.getD ""
    if name = "" then throw .notFound
    else
      let file := (← Disk.canonical upper).join name
      mustBeWithin upper file
      Disk.addName file p
  | .file =>
    replacing p (Disk.createNew p .empty Disk.fileMode)
    match m.bytes with
    | none => throw .invalid
    | some bytes => Disk.write p bytes
    setTold p m.mode

/-- Put a member at its path, below a directory that is made if it is missing. -/
def settle (upper : Path) (m : Tar.Member) (depth : Nat) (above p : Path) :
    StateM Disk (Except Misfit Unit) := do
  match ← (makeWithin upper depth above).run with
  | .error _ => pure (.error (.homeless above))
  | .ok () =>
    match ← locate upper above with
    | .error s => pure (.error (.astray s))
    | .ok () =>
      match ← (place upper m p).run with
      | .error _ => pure (.error (.unplaced p))
      | .ok () => pure (.ok ())

/-- Unpack one member. -/
def unpack (upper : Path) (m : Tar.Member) : StateM Disk (Except Failure Unit) :=
  match namesOf? m.name with
  | none => pure (.error (.escapes m.name))
  | some [] => pure (.ok ())
  | some names => do
    let above := names.dropLast.foldl Path.join upper
    let p := names.foldl Path.join upper
    let settled ← settle upper m (names.length + 1) above p
    pure (settled.mapError (.unpack m.name))

/-! ## Extraction -/

/-- Unpack members in order. -/
def unpackAll (upper : Path) : List Tar.Member → ExceptT Failure (StateM Disk) Unit
  | [] => pure ()
  | m :: rest => do
    ExceptT.mk (unpack upper m)
    unpackAll upper rest

/-- The single directory in a directory, or else the directory itself. -/
def sourceRoot (p : Path) : ExceptT Failure (StateM Disk) Path := do
  match ← (Disk.list p).run with
  | .error cause => throw (.unreadable p cause)
  | .ok [name] =>
    let only := p.join name
    match ← (Disk.kind false only).run with
    | .ok .directory => pure only
    | _ => pure p
  | .ok _ => pure p

/-- Unpack the contents of an archive into a directory, which is made if it is missing. -/
def unpackContents (contents : Tar.Contents) (p : Path) :
    ExceptT Failure (StateM Disk) SourceTree := do
  match ← (Disk.makeDirectories p).run with
  | .error cause => throw (.directory p cause)
  | .ok () => pure ()
  unpackAll p contents.members
  if !contents.sound then throw .corrupt
  if contents.members.isEmpty then throw .empty
  let root ← sourceRoot p
  pure ⟨p, root, contents.members.length⟩

/-- Unpack an archive into a directory, which is made if it is missing. -/
def run (archive : Verified) (p : Path) : ExceptT Failure (StateM Disk) SourceTree :=
  unpackContents (Tar.read (Codec.unwrap archive.bytes)) p

end Extraction

end Formulary
