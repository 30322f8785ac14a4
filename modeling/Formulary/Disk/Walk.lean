import Formulary.Disk.Basic

/-!
# From paths to places

A path is walked segment by segment. Links are followed where they are met, at most forty of
them; a link in the last segment is followed only when the caller asks for it. A path that ends
in a slash must lead to a directory.
-/

namespace Formulary.Disk

/-- Where a path leads : a place, and whether only a directory will do. -/
structure Target where
  place : Place
  needsDirectory : Bool
deriving DecidableEq

/-- The segments of a path that lead somewhere. -/
def segmentsOf (text : String) : List String :=
  (Text.pieces '/' text).filter fun s => s ≠ "" ∧ s ≠ "."

/-- The text ends such that only a directory will do. -/
def endsInDirectory (text : String) : Bool :=
  Text.endsWith text "/" || Text.endsWith text "/." || text == "."

/-- Links may be met this many times. -/
def maxLinks : Nat := 40

/-- The longest name, in bytes. -/
def maxName : Nat := 255

/-- Walk segments from a directory. `again` walks on behind a link. -/
def walkWith (d : Disk) (follow : Bool) (again : Bool → Place → List String → Except Cause Target)
    (needs : Bool) : Place → List String → Except Cause Target
  | dir, [] => .ok ⟨dir, needs⟩
  | dir, s :: rest =>
    if !d.directoryPermits dir .search then .error .denied
    else if s = ".." then walkWith d follow again needs dir.dropLast rest
    else if Text.byteLength s > maxName then .error .nameTooLong
    else
      let next := dir ++ [s]
      match d.entryAt? next with
      | none => if rest = [] then .ok ⟨next, needs⟩ else .error .notFound
      | some (.directory _) => walkWith d follow again needs next rest
      | some (.file _) => if rest = [] then .ok ⟨next, needs⟩ else .error .notDirectory
      | some (.link target) =>
        if rest = [] ∧ !follow ∧ !needs then .ok ⟨next, needs⟩
        else if target = "" then .error .notFound
        else
          let start := if Text.startsWith target "/" then [] else dir
          again (needs || (rest.isEmpty && endsInDirectory target)) start
            (segmentsOf target ++ rest)

/-- Walk segments, with a number of links that may be met. -/
def walk (d : Disk) (follow : Bool) : Nat → Bool → Place → List String → Except Cause Target
  | 0 => walkWith d follow fun _ _ _ => .error .loop
  | links + 1 => walkWith d follow (walk d follow links)

/-- The place that a path leads to. The place need not hold anything, but its directory must be
there. -/
def target (d : Disk) (follow : Bool) (p : Path) : Except Cause Target :=
  if p.text = "" then .error .notFound
  else if p.text.toList.contains '\x00' then .error .zeroInName
  else if Text.byteLength p.text ≥ 4096 then .error .nameTooLong
  else
    let full := d.workdir.join p.text
    match walk d follow maxLinks (endsInDirectory p.text) [] (segmentsOf full.text) with
    | .error cause => .error cause
    | .ok t =>
      match d.entryAt? t.place with
      | some (.file _) => if t.needsDirectory then .error .notDirectory else .ok t
      | _ => .ok t

/-- What a path leads to. -/
def found (d : Disk) (follow : Bool) (p : Path) : Except Cause (Place × Entry) :=
  match d.target follow p with
  | .error cause => .error cause
  | .ok t =>
    match d.entryAt? t.place with
    | none => .error .notFound
    | some e => .ok (t.place, e)

/-- The working directory is there. -/
def hasWorkdir (d : Disk) : Bool :=
  match d.found true d.workdir with
  | .ok (_, .directory _) => true
  | _ => false

end Formulary.Disk
