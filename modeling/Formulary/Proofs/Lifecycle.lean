import Formulary.Lifecycle
import Mathlib.Data.List.Chain

/-!
# The legal path

A cook that succeeds passes through the phases of `Phase.path`, which only depends on whether
it has a test. A lifecycle is at a phase (`Lifecycle.IsAt`) when its trail is the path up to that
phase. From there it may go on to the one phase that follows (`IsAt.advance`), or halt, which adds
the failure and nothing else (`IsAt.trail_fail`).
-/

namespace Formulary

namespace Phase

/-- The phases of a cook that succeeds, in order. -/
def path (hasTest : Bool) : List Phase :=
  [init, fetching, verifying, resolving, building, installing] ++
    (if hasTest then [testing] else []) ++ [done]

/-- Each phase of the path is followed by the next one. -/
theorem isChain_path (hasTest : Bool) :
    (path hasTest).IsChain fun p q => p.next? hasTest = some q := by
  cases hasTest <;> decide

theorem getLast?_path (hasTest : Bool) : (path hasTest).getLast? = some done := by
  cases hasTest <;> rfl

theorem next?_of_path {hasTest : Bool} {passed rest : List Phase} {p q : Phase}
    (h : path hasTest = passed ++ p :: q :: rest) : p.next? hasTest = some q := by
  have hc := isChain_path hasTest
  rw [h, List.isChain_append] at hc
  exact (List.isChain_cons_cons.1 hc.2.1).1

/-- The last phase, and no other, has nothing behind it. -/
theorem eq_nil_iff_of_path {hasTest : Bool} {passed rest : List Phase} {p : Phase}
    (h : path hasTest = passed ++ p :: rest) : rest = [] ↔ p = done := by
  constructor
  · rintro rfl
    have hl := getLast?_path hasTest
    rw [h, List.getLast?_concat] at hl
    exact Option.some.inj hl
  · rintro rfl
    cases rest with
    | nil => rfl
    | cons q rest => simpa [next?] using next?_of_path h

end Phase

namespace Lifecycle

/-! ## Being at a phase -/

/-- The trail of the lifecycle is the path up to a phase. -/
def IsAt (l : Lifecycle) (hasTest : Bool) (p : Phase) : Prop :=
  l.hasTest = hasTest ∧ ∃ passed rest, Phase.path hasTest = passed ++ p :: rest ∧
    l.trail = (passed ++ [p]).map .reached

theorem isAt_start (hasTest : Bool) : (start hasTest).IsAt hasTest .init :=
  ⟨rfl, [], (Phase.path hasTest).tail, by cases hasTest <;> rfl, rfl⟩

@[simp]
theorem trail_push (l : Lifecycle) (s : CookState) : (l.push s).trail = l.trail ++ [s] := by
  simp [push, trail]

theorem getLast?_trail (l : Lifecycle) : l.trail.getLast? = some l.current := by
  simp [trail]

namespace IsAt

variable {l : Lifecycle} {hasTest : Bool} {p q : Phase}

theorem current (h : l.IsAt hasTest p) : l.current = .reached p := by
  obtain ⟨-, passed, rest, -, ht⟩ := h
  have hl := getLast?_trail l
  rw [ht, List.map_append, List.map_singleton, List.getLast?_concat] at hl
  exact (Option.some.inj hl).symm

theorem phase (h : l.IsAt hasTest p) : l.phase = p := by
  rw [Lifecycle.phase, h.current]
  rfl

/-- The phase that follows may be entered. -/
theorem advance (h : l.IsAt hasTest p) (hn : p.next? hasTest = some q) :
    (l.advance q).1 = true ∧ (l.advance q).2.IsAt hasTest q := by
  obtain ⟨passed, rest, hpath, htrail⟩ := h.2
  have hadv : l.advance q = (true, l.push (.reached q)) := by
    simp [Lifecycle.advance, h.current, Phase.canAdvance, h.1, hn]
  cases rest with
  | nil =>
    rw [(Phase.eq_nil_iff_of_path hpath).1 rfl] at hn
    simp [Phase.next?] at hn
  | cons q' rest =>
    obtain rfl : q = q' := Option.some.inj (hn.symm.trans (Phase.next?_of_path hpath))
    rw [hadv]
    refine ⟨rfl, h.1, passed ++ [p], rest, by simp [hpath], ?_⟩
    rw [trail_push, htrail]
    simp

/-- Halting before the end adds the failure to the trail. -/
theorem trail_fail (h : l.IsAt hasTest p) (hp : p ≠ .done) (kind : Error.Kind) :
    (l.fail kind).trail = l.trail ++ [.failed p kind] := by
  have hterm : l.current.isTerminal = false := by
    rw [h.current]
    cases p <;> first | rfl | exact absurd rfl hp
  rw [fail, hterm, h.phase]
  exact trail_push l _

end IsAt

end Lifecycle

end Formulary
