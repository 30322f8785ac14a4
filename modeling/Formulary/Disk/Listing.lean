import Formulary.Disk.Trees

/-!
# Listings

Everything below a directory, as far as the process can see it.
-/

namespace Formulary.Disk

/-- What a listing shows of an entry. -/
inductive Listed where
  | directory (mode : Nat)
  | link (target : String)
  /-- A file that may not be read shows no bytes. -/
  | file (mode : Nat) (bytes : ByteArray)
deriving Inhabited

/-- What a listing shows of an entry. -/
def listed (d : Disk) : Entry → Listed
  | .directory mode => .directory mode
  | .link target => .link target
  | .file n =>
    let data := (d.fileData? n).getD ⟨.empty, 0⟩
    .file data.mode (if d.permits data.mode .read then data.bytes else .empty)

/-- Everything below a directory, by its path from there. -/
def listing (d : Disk) (p : Path) : List (String × Listed) :=
  match d.found true p with
  | .ok (place, .directory _) =>
    let reached := (d.below place).filter fun (q, _) => d.isReachable place (place ++ q)
    (reached.map fun (q, e) => (Text.shown (Text.join "/" q), d.listed e)).mergeSort
      fun a b => a.1 ≤ b.1
  | _ => []

end Formulary.Disk
