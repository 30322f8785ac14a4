import Formulary.OsVersion

/-!
# Hosts

The machine that a formula is cooked on : the name of its operating system and its version.
-/

namespace Formulary

/-- A build host. -/
structure Host where
  /-- The system's name in lower case. -/
  os : String
  version : OsVersion
deriving DecidableEq, Inhabited

namespace Host

/-- Describe a host. -/
def describe (os version : String) : Except OsVersion.Defect Host :=
  (OsVersion.parse version).map fun v => ⟨Text.lower os, v⟩

/-- The name that an operating system goes by : its other names become `macos`. -/
def canonicalName (name : String) : String :=
  let name := Text.lower name
  if name = "darwin" ∨ name = "osx" ∨ name = "mac" then "macos" else name

/-- A name from a formula means the system of this host. -/
def isOs (h : Host) (name : String) : Bool := canonicalName name == h.os

/-- The version that a release document of the system declares, when it starts with a
digit. -/
def releaseVersion? (document : String) : Option String :=
  (Text.lines document.toList).findSome? fun line =>
    (Text.after? "VERSION_ID=".toList line).bind fun value =>
      let isQuote := fun c => c == '"'
      let value := (((Text.trimChars value).dropWhile isQuote).reverse.dropWhile isQuote).reverse
      match value with
      | c :: _ => if Text.isDigit c then some (String.ofList value) else none
      | [] => none

end Host

end Formulary
