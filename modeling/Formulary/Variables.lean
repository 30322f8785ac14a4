import Formulary.Error
import Formulary.Formula.Version
import Formulary.Path
import Formulary.Text.Printable
import Formulary.Timestamp

/-!
# Build variables

The values that a build is told : version, commit, branch, version of the tool chain, time of
the build, and the formula's own. Each must be known; none is ever made up.
-/

namespace Formulary

/-- Where the values of a build come from : questions about a source tree and the tools, asked
in a monad of the caller's. -/
structure MetadataSource (m : Type → Type) where
  commit : Path → m (Option String)
  branch : Path → m (Option String)
  toolchainVersion : Formula → Path → m (Option String)
  now : m Timestamp

/-- Values known beforehand. -/
structure Metadata where
  commit : Option String := none
  branch : Option String := none
  toolchainVersion : Option String := none
  now : Timestamp
deriving DecidableEq, Inhabited

/-- Answer every question from known values. -/
def MetadataSource.fixed {m : Type → Type} [Monad m] (known : Metadata) : MetadataSource m where
  commit _ := pure known.commit
  branch _ := pure known.branch
  toolchainVersion _ _ := pure known.toolchainVersion
  now := pure known.now

namespace Variables

/-! ## Banners of tool chains -/

/-- The token starts with a digit. -/
def startsWithDigit : List Char → Bool
  | c :: _ => Text.isDigit c
  | [] => false

/-- The token starts with `go` and a digit. -/
def isGoVersion : List Char → Bool
  | 'g' :: 'o' :: rest => startsWithDigit rest
  | _ => false

/-- The token of a banner that is the version : of its first line that is not blank, the first
token like `go1.22`, else the first that starts with a digit, else the first with a digit in
it. -/
def toolchainVersion? (banner : String) : Option String :=
  ((Text.lines banner.toList).find? fun line => !line.all Text.isBlank).bind fun line =>
    let tokens := Text.words line
    ((tokens.find? isGoVersion).or
      ((tokens.find? startsWithDigit).or (tokens.find? (·.any Text.isDigit)))).map String.ofList

/-! ## Resolution -/

/-- Why a variable has no value. -/
inductive Unresolved where
  | version (name url : String)
  | commit (name : String)
  | otherPin (pin : CommitPin) (name version : String)
  | emptyPin (name version : String)
  | toolchain (probe : List String)
deriving DecidableEq

/-- The failure that is reported. -/
def Unresolved.toError : Unresolved → Error
  | .version name url =>
    .resolve s!"version of {name} is not declared and cannot be derived from {url}"
  | .commit name =>
    .resolve ("commit of " ++ name ++
      " is unavailable: source has no VCS metadata and no [source] commit is pinned")
  | .otherPin pin name found =>
    .resolve ("commit " ++ pin.id ++ " is pinned for " ++ name ++ " " ++ pin.version ++
      " but the source is version " ++ found)
  | .emptyPin name found => .resolve s!"commit pin for {name} {found} is empty"
  | .toolchain [] =>
    .resolve "toolchain version is unavailable: no [build] toolchain probe is declared"
  | .toolchain probe =>
    .resolve ("toolchain version is unavailable: probe " ++ Text.quotedList probe ++
      " gave no version")

/-- The commit that the formula pins for the version. -/
def pinnedCommit (f : Formula) (version : String) : Except Unresolved String :=
  match f.source.commit with
  | none => .error (.commit f.identity.name)
  | some pin =>
    if Text.trim pin.version ≠ version then .error (.otherPin pin f.identity.name version)
    else if Text.trim pin.id = "" then .error (.emptyPin f.identity.name version)
    else .ok (Text.trim pin.id)

/-- The variables that the cook resolves itself. -/
def builtins (version commit branch toolchain : String) (now : Timestamp) : Bindings :=
  Bindings.ofList [
    ("version", version),
    ("commit", commit),
    ("branch", branch),
    ("toolchain_version", toolchain),
    ("build_time", now.toSeconds)]

/-- The variables with the formula's own set over them. -/
def withOwn (f : Formula) (vars : Bindings) : Bindings :=
  f.vars.entries.foldl (fun b e => b.insert e.1 e.2) vars

section

variable {m : Type → Type} [Monad m] (source : MetadataSource m) (f : Formula)

/-- The version of the formula. -/
def versionOf : ExceptT Unresolved m String :=
  match f.version? with
  | some v => pure v
  | none => throw (.version f.identity.name f.source.url)

/-- The commit of a source tree, which wins over a pin. -/
def commitOf (version : String) (tree : Path) : ExceptT Unresolved m String := do
  match ← source.commit tree with
  | some c => pure c
  | none => ExceptT.mk (pure (pinnedCommit f version))

/-- The version of the tool chain. -/
def toolchainOf (tree : Path) : ExceptT Unresolved m String := do
  match ← source.toolchainVersion f tree with
  | some t => pure t
  | none => throw (.toolchain f.build.toolchain)

/-- Every build variable, for a source tree. The questions are asked in order, and none after the
first that leaves a variable unknown. -/
def resolve (tree : Path) : ExceptT Unresolved m Bindings := do
  let version ← versionOf f
  let commit ← commitOf source f version tree
  let branch ← source.branch tree
  let toolchain ← toolchainOf source f tree
  let now ← source.now
  pure (withOwn f (builtins version commit (branch.getD "HEAD") toolchain now))

end

end Variables

end Formulary
