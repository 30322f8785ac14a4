import Formulary.Disk.Operations
import Formulary.Text.Printable

/-!
# Temporary directories

A temporary directory is made under a name that nothing has. What tells it apart is drawn, and
drawn anew as long as something of that name is there; so it is not the disk that decides the name.
-/

namespace Formulary

/-- What is drawn for a name : six letters or digits. -/
structure Token where
  text : String
  length_toList : text.toList.length = 6
  isAlphanum_of_mem : ∀ c ∈ text.toList, c.isAlphanum = true
deriving DecidableEq

/-- The token with the last six digits of a number. -/
def Token.ofNat (n : Nat) : Token where
  text := String.ofList (Text.padLeft 6 (Nat.toDigits 10 (n % 1000000)))
  length_toList := by
    have hdigits : (Nat.toDigits 10 (n % 1000000)).length ≤ 6 :=
      (Nat.length_toDigits_le_iff (by decide) (by decide)).2 (Nat.mod_lt _ (by decide))
    simp only [String.toList_ofList, Text.padLeft, List.length_append, List.length_replicate]
    omega
  isAlphanum_of_mem := by
    intro c hc
    rw [String.toList_ofList, Text.padLeft, List.mem_append, List.mem_replicate] at hc
    rcases hc with ⟨-, rfl⟩ | hdigit
    · decide
    · have := Nat.isDigit_of_mem_toDigits (by decide) (by decide) hdigit
      simp [Char.isAlphanum, this]

/-- Where temporary directories are made, and what is drawn for their names. -/
structure Temporary where
  directory : Path
  /-- What is drawn for names with a stem, time after time. -/
  draw : String → Nat → Token

/-- Temporary directories in a directory, whose names are numbered. -/
def Temporary.numbered (directory : Path) : Temporary := ⟨directory, fun _ => Token.ofNat⟩

namespace Disk

/-- Why a temporary directory could not be made. -/
inductive TemporaryFailure where
  /-- There is no directory to make it in. -/
  | homeless (cause : Cause)
  /-- It could not be made at the path that was tried. -/
  | refused (cause : Cause) (tried : Path)
  /-- Too many of the names in a directory were there already. -/
  | crowded (parent : Path)
deriving DecidableEq, Inhabited

/-- The printed text. -/
def TemporaryFailure.message : TemporaryFailure → String
  | homeless cause => cause.message
  | refused cause p => cause.message ++ " at path " ++ Text.quoted p.text
  | crowded p => "too many temporary files exist at path " ++ Text.quoted p.text

/-- How often a name may be drawn. -/
def maxDraws : Nat := 65536

/-- Make a directory in another under the first drawn name that is free, with at most `tries`
names tried. -/
def makeDrawn (parent : Path) (stem : String) (draw : Nat → Token) :
    Nat → Nat → StateM Disk (Except TemporaryFailure Path)
  | 0, _ => pure (.error (.crowded parent))
  | tries + 1, i => do
    let p := parent.join (stem ++ (draw i).text)
    match ← (makeDirectory p).run with
    | .ok () => pure (.ok p)
    | .error .exists => makeDrawn parent stem draw tries (i + 1)
    | .error cause => pure (.error (.refused cause p))

/-- Make a directory in another under a drawn name. -/
def makeTemporary (parent : Path) (stem : String) (draw : Nat → Token) :
    StateM Disk (Except TemporaryFailure Path) := do
  let d ← get
  makeDrawn (d.workdir.join parent.text) stem draw maxDraws 0

end Disk

end Formulary
