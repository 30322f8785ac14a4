import Formulary.Formula
import Formulary.Host

/-!
# Dependencies of a cook

The declared dependencies sorted by the stages that need them, and the decision which copies of
the host's are good enough.
-/

namespace Formulary

/-- A dependency whose copy on the host may be used under a condition. -/
structure HostRequirement where
  name : String
  condition : HostCondition
deriving DecidableEq, Inhabited

/-- Dependencies by stage. -/
structure Classified where
  build : List String := []
  test : List String := []
  runtime : List String := []
  hostProvided : List HostRequirement := []
deriving DecidableEq, Inhabited

namespace Classified

/-- The names in one stage. -/
def inStage (c : Classified) : Stage → List String
  | .build => c.build
  | .test => c.test
  | .runtime => c.runtime

/-- The name at the end of the list, unless the list has it. -/
def record (names : List String) (name : String) : List String :=
  if names.contains name then names else names ++ [name]

/-- The names of a stage after one more declaration. -/
def recordIf (s : Stage) (d : Dependency) (names : List String) : List String :=
  if d.neededFor s then record names d.name else names

/-- The requirement that a declaration makes of the host. -/
def requirement? (d : Dependency) : Option HostRequirement :=
  match d.effectiveProvenance, d.condition with
  | .host, some c => some ⟨d.name, c⟩
  | _, _ => none

/-- One more declaration. -/
def add (c : Classified) (d : Dependency) : Classified where
  build := recordIf .build d c.build
  test := recordIf .test d c.test
  runtime := recordIf .runtime d c.runtime
  hostProvided := c.hostProvided ++ (requirement? d).toList

/-- Sort declarations by stage. Names keep the order of their first declaration. -/
def ofDeclarations (ds : List Dependency) : Classified := ds.foldl add {}

end Classified

/-! ## The host -/

/-- What was decided about the requirements. -/
structure HostCheck where
  /-- The host's copy is used. -/
  satisfied : List String := []
  /-- The condition is about another system. -/
  mustBuild : List String := []
deriving DecidableEq, Inhabited

namespace HostCheck

/-- Why a requirement stops the cook. -/
inductive Refusal where
  | condition (cause : OsVersion.Defect)
  | tooOld (requirement : HostRequirement) (minimum host : OsVersion)
deriving DecidableEq

/-- The failure that a refusal is reported as. -/
def Refusal.toError : Refusal → Error
  | condition cause => cause.toError
  | tooOld r minimum host =>
    .dependency (r.name ++ " requires " ++ r.condition.os ++ " " ++ minimum.raw ++ " (" ++
      r.condition.since ++ ") or newer, host is " ++ host.raw)

/-- Decide about one requirement. -/
def decideOne (host : Host) (check : HostCheck) (r : HostRequirement) :
    Except Refusal HostCheck :=
  if !host.isOs r.condition.os then .ok { check with mustBuild := check.mustBuild ++ [r.name] }
  else match OsVersion.parse r.condition.since with
    | .error e => .error (.condition e)
    | .ok minimum =>
      if host.version.satisfies minimum then
        .ok { check with satisfied := check.satisfied ++ [r.name] }
      else .error (.tooOld r minimum host.version)

/-- Decide about every requirement, in order. -/
def ofHost (c : Classified) (host : Host) : Except Refusal HostCheck :=
  c.hostProvided.foldlM (decideOne host) {}

end HostCheck

end Formulary
