import Formulary.Error
import Formulary.Text.Casing

/-!
# Versions of operating systems

A version is written as a number or as the name of a macOS release. Versions compare by
their first three components, as numbers; missing components are zero and what follows the
digits of a component does not count.
-/

namespace Formulary

/-- The macOS releases with the versions that their names stand for. -/
def macosReleases : List (String × String) := [
  ("el_capitan", "10.11"),
  ("sierra", "10.12"),
  ("high_sierra", "10.13"),
  ("mojave", "10.14"),
  ("catalina", "10.15"),
  ("big_sur", "11"),
  ("monterey", "12"),
  ("ventura", "13"),
  ("sonoma", "14"),
  ("sequoia", "15"),
  ("tahoe", "26")]

/-- The key of a release name : trimmed, lower case, spaces and dashes as underscores. -/
def releaseKey (name : String) : String :=
  String.ofList ((Text.lower (Text.trim name)).toList.map fun c =>
    if c = ' ' ∨ c = '-' then '_' else c)

/-- The version of a macOS release. -/
def macosRelease? (name : String) : Option String := macosReleases.lookup (releaseKey name)

/-- A version of an operating system. -/
structure OsVersion where
  /-- The version as written, a release name already replaced. -/
  raw : String
deriving DecidableEq, Inhabited

namespace OsVersion

/-- Why a text is no version. -/
inductive Defect where
  | empty
  | unknown (text : String)
deriving DecidableEq

/-- The failure that a defect is reported as. -/
def Defect.toError : Defect → Error
  | empty => .parse "Empty platform version"
  | unknown text =>
    .parse s!"Invalid platform version '{text}': expected a number or a known release name"

/-- Read a version. -/
def parse (text : String) : Except Defect OsVersion :=
  let s := Text.trim text
  if s = "" then .error .empty
  else
    let raw := (macosRelease? s).getD s
    match raw.toList with
    | c :: _ => if Text.isDigit c then .ok ⟨raw⟩ else .error (.unknown s)
    | [] => .error (.unknown s)

/-- The number that a component starts with; zero when it has no digits or does not fit
sixty-four bits. -/
def component (cs : List Char) : Nat :=
  match Text.number? 10 (cs.takeWhile Text.isDigit) with
  | some n => if n < UInt64.size then n else 0
  | none => 0

/-- The three components that count. -/
def components (v : OsVersion) : Nat × Nat × Nat :=
  let parts := (Text.split (· == '.') v.raw.toList).map component
  (parts.getD 0 0, parts.getD 1 0, parts.getD 2 0)

/-- The order of two versions. -/
def compare (a b : OsVersion) : Ordering :=
  let (a1, a2, a3) := a.components
  let (b1, b2, b3) := b.components
  (Ord.compare a1 b1).then ((Ord.compare a2 b2).then (Ord.compare a3 b3))

/-- The versions are equal as numbers. -/
def same (a b : OsVersion) : Bool := a.compare b == .eq

/-- The version is at least the minimum. -/
def satisfies (v minimum : OsVersion) : Bool := v.compare minimum != .lt

/-- The version as it is displayed. -/
def display (v : OsVersion) : String := v.raw

end OsVersion

end Formulary
