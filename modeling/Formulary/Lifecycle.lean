import Formulary.Error

/-!
# The life of a cook

A cook passes through phases in one order, which only depends on whether it has a test, and
ends in the last phase or in a failure. `Lifecycle` records every state; a step that is not
allowed changes nothing.
-/

namespace Formulary

/-- A phase of a cook. -/
inductive Phase where
  /-- Validation, dependencies and the host, before anything is fetched. -/
  | init
  /-- The source is retrieved and its digest checked. -/
  | fetching
  /-- The verified source is unpacked. -/
  | verifying
  /-- Variables are resolved and flags rendered. -/
  | resolving
  /-- The build tool runs. -/
  | building
  /-- Artifacts go into the prefix. -/
  | installing
  /-- The smoke test runs. -/
  | testing
  /-- Everything succeeded. -/
  | done
deriving DecidableEq, Inhabited

namespace Phase

/-- Every phase, in order. -/
def all : List Phase :=
  [init, fetching, verifying, resolving, building, installing, testing, done]

/-- The printed name of a phase. -/
def name : Phase → String
  | init => "init"
  | fetching => "fetching"
  | verifying => "verifying"
  | resolving => "resolving"
  | building => "building"
  | installing => "installing"
  | testing => "testing"
  | done => "done"

/-- The phase of that name. -/
def ofName? (name : String) : Option Phase := all.find? (·.name = name)

/-- The phase that follows, in a cook with or without a test. -/
def next? (hasTest : Bool) : Phase → Option Phase
  | init => some fetching
  | fetching => some verifying
  | verifying => some resolving
  | resolving => some building
  | building => some installing
  | installing => some (if hasTest then testing else done)
  | testing => some done
  | done => none

/-- The step from one phase to another is allowed. -/
def canAdvance (hasTest : Bool) (p q : Phase) : Bool := p.next? hasTest == some q

end Phase

/-- Where a cook is. -/
inductive CookState where
  | reached (phase : Phase)
  | failed (phase : Phase) (kind : Error.Kind)
deriving DecidableEq, Inhabited

namespace CookState

/-- No step leads on. -/
def isTerminal : CookState → Bool
  | .reached .done => true
  | .failed .. => true
  | .reached _ => false

/-- The phase that runs, or that failed. -/
def phase : CookState → Phase
  | .reached p => p
  | .failed p _ => p

/-- The printed form of a state. -/
def display : CookState → String
  | .reached p => p.name
  | .failed p k => "failed(" ++ k.name ++ " in " ++ p.name ++ ")"

end CookState

/-- Every state of a cook, the latest first. -/
structure Lifecycle where
  current : CookState
  earlier : List CookState
  hasTest : Bool
deriving DecidableEq, Inhabited

namespace Lifecycle

/-- A cook that has just begun. -/
def start (hasTest : Bool) : Lifecycle := ⟨.reached .init, [], hasTest⟩

/-- The states in order. -/
def trail (l : Lifecycle) : List CookState := (l.current :: l.earlier).reverse

/-- The phase that runs, or that failed. -/
def phase (l : Lifecycle) : Phase := l.current.phase

/-- Add a state. -/
def push (l : Lifecycle) (s : CookState) : Lifecycle :=
  { l with current := s, earlier := l.current :: l.earlier }

/-- Go to a phase. The step is refused when it is not the next one. -/
def advance (l : Lifecycle) (next : Phase) : Bool × Lifecycle :=
  match l.current with
  | .reached p => if p.canAdvance l.hasTest next then (true, l.push (.reached next)) else (false, l)
  | .failed .. => (false, l)

/-- Halt in the current phase. -/
def fail (l : Lifecycle) (kind : Error.Kind) : Lifecycle :=
  if l.current.isTerminal then l else l.push (.failed l.phase kind)

end Lifecycle

end Formulary
