import Formulary.Proofs.Lifecycle

/-!
# Any sequence of moves

Whoever holds a lifecycle may try to go to any phase and may report any failure, at any time and in
any order. Whatever is tried, the trail is a beginning of the path, behind which there is at most
one failure, that of the phase it stopped in (`Lifecycle.OnPath`). A move keeps this
(`OnPath.move`), so every sequence of moves does (`onPath_after`). What it means for those who
move is `Lifecycle.lawful_moves`.
-/

namespace Formulary

namespace Lifecycle

/-- What can be tried on a lifecycle. -/
inductive Move where
  | advance (next : Phase)
  | fail (kind : Error.Kind)
deriving DecidableEq

/-- The lifecycle after a move. -/
def move (l : Lifecycle) : Move → Lifecycle
  | .advance next => (l.advance next).2
  | .fail kind => l.fail kind

/-- The lifecycle after some moves. -/
def moves (l : Lifecycle) (ms : List Move) : Lifecycle := ms.foldl move l

/-- The trail is the path up to a phase, and the failure in that phase. -/
structure HaltedAt (l : Lifecycle) (hasTest : Bool) (p : Phase) (kind : Error.Kind) : Prop where
  current : l.current = .failed p kind
  ne_done : p ≠ .done
  trail : ∃ passed rest, Phase.path hasTest = passed ++ p :: rest ∧
    l.trail = (passed ++ [p]).map .reached ++ [.failed p kind]

/-- The lifecycle runs in a phase of the path, or halted in one. -/
inductive OnPath (l : Lifecycle) (hasTest : Bool) : Prop
  | running (p : Phase) : l.IsAt hasTest p → OnPath l hasTest
  | halted (p : Phase) (kind : Error.Kind) : l.HaltedAt hasTest p kind → OnPath l hasTest

/-! ## One move -/

variable {l : Lifecycle} {hasTest : Bool} {p q : Phase} {kind : Error.Kind}

theorem advance_eq_or (l : Lifecycle) (q : Phase) :
    l.advance q = (true, l.push (.reached q)) ∨ l.advance q = (false, l) := by
  unfold advance
  split
  · split
    · exact .inl rfl
    · exact .inr rfl
  · exact .inr rfl

theorem fail_of_isTerminal (h : l.current.isTerminal = true) (kind : Error.Kind) :
    l.fail kind = l := if_pos h

theorem fail_of_not_isTerminal (h : l.current.isTerminal = false) (kind : Error.Kind) :
    l.fail kind = l.push (.failed l.phase kind) := by
  rw [fail, h]
  rfl

/-- Where no step leads on, no phase is entered. -/
theorem advance_of_isTerminal (h : l.current.isTerminal = true) (q : Phase) :
    l.advance q = (false, l) := by
  unfold advance
  split
  · rename_i p hcurrent
    rw [hcurrent] at h
    obtain rfl : p = .done := by
      cases p <;> first | rfl | exact absurd h nofun
    rfl
  · rfl

theorem move_of_isTerminal (h : l.current.isTerminal = true) (m : Move) : l.move m = l := by
  cases m with
  | advance next => exact congrArg Prod.snd (advance_of_isTerminal h next)
  | fail kind => exact fail_of_isTerminal h kind

/-- A move adds to the trail, if it does anything. -/
theorem trail_prefix_move (l : Lifecycle) (m : Move) : l.trail <+: (l.move m).trail := by
  have hpush (s : CookState) : l.trail <+: (l.push s).trail := by
    rw [trail_push]
    exact List.prefix_append l.trail [s]
  have hsame {l' : Lifecycle} (h : l' = l) : l.trail <+: l'.trail := h ▸ List.prefix_rfl
  cases m with
  | advance next =>
    rw [move]
    rcases advance_eq_or l next with h | h
    · rw [h]
      exact hpush _
    · exact hsame (congrArg Prod.snd h)
  | fail kind =>
    rw [move]
    cases h : l.current.isTerminal with
    | true => exact hsame (fail_of_isTerminal h kind)
    | false =>
      rw [fail_of_not_isTerminal h]
      exact hpush _

theorem IsAt.isTerminal_iff (h : l.IsAt hasTest p) : l.current.isTerminal = true ↔ p = .done := by
  rw [h.current]
  cases p <;> simp [CookState.isTerminal]

/-- From a phase of the path, the one that follows may be entered and no other. -/
theorem IsAt.advance_iff (h : l.IsAt hasTest p) :
    (l.advance q).1 = true ↔ p.next? hasTest = some q := by
  refine ⟨fun hadvance => ?_, fun hn => (h.advance hn).1⟩
  by_contra hn
  simp [Lifecycle.advance, h.current, Phase.canAdvance, h.1, hn] at hadvance

/-- Halting before the end is halting in the phase that runs. -/
theorem IsAt.haltedAt (h : l.IsAt hasTest p) (hp : p ≠ .done) (kind : Error.Kind) :
    (l.fail kind).HaltedAt hasTest p kind := by
  obtain ⟨-, passed, rest, hpath, htrail⟩ := id h
  have htrail' := h.trail_fail hp kind
  have hlast := getLast?_trail (l.fail kind)
  rw [htrail', List.getLast?_concat] at hlast
  exact ⟨(Option.some.inj hlast).symm, hp, passed, rest, hpath, htrail' ▸ htrail ▸ rfl⟩

theorem HaltedAt.isTerminal (h : l.HaltedAt hasTest p kind) : l.current.isTerminal = true := by
  rw [h.current]
  rfl

theorem OnPath.move (h : l.OnPath hasTest) (m : Move) : (l.move m).OnPath hasTest := by
  cases h with
  | halted p kind hhalted =>
    rw [move_of_isTerminal hhalted.isTerminal]
    exact .halted p kind hhalted
  | running p hat =>
    by_cases hterm : l.current.isTerminal = true
    · rw [move_of_isTerminal hterm]
      exact .running p hat
    cases m with
    | fail kind => exact .halted p kind (hat.haltedAt (mt hat.isTerminal_iff.2 hterm) kind)
    | advance next =>
      by_cases hn : p.next? hasTest = some next
      · exact .running next (hat.advance hn).2
      · have hrefused := (advance_eq_or l next).resolve_left fun h =>
          hn (hat.advance_iff.1 (congrArg Prod.fst h))
        rw [Lifecycle.move, hrefused]
        exact .running p hat

/-! ## Any moves -/

/-- By induction on the moves : each keeps to the path. -/
theorem OnPath.moves (h : l.OnPath hasTest) (ms : List Move) : (l.moves ms).OnPath hasTest := by
  induction ms generalizing l with
  | nil => exact h
  | cons m ms ih => exact ih (h.move m)

theorem moves_of_isTerminal (h : l.current.isTerminal = true) (ms : List Move) :
    l.moves ms = l := by
  induction ms with
  | nil => rfl
  | cons m ms ih => rwa [Lifecycle.moves, List.foldl_cons, move_of_isTerminal h]

theorem trail_prefix_moves (l : Lifecycle) (ms : List Move) : l.trail <+: (l.moves ms).trail := by
  induction ms generalizing l with
  | nil => exact List.prefix_rfl
  | cons m ms ih => exact (trail_prefix_move l m).trans (ih (l.move m))

theorem onPath_after (hasTest : Bool) (ms : List Move) :
    ((start hasTest).moves ms).OnPath hasTest :=
  (OnPath.running .init (isAt_start hasTest)).moves ms

/-! ## What those who move see -/

/-- What can be said of a lifecycle, and of all that may still be tried on it. -/
structure Lawful (l : Lifecycle) (hasTest : Bool) : Prop where
  /-- The trail begins with the first phase. -/
  begins : l.trail.head? = some (.reached .init)
  /-- It ends where the lifecycle is. -/
  ends : l.trail.getLast? = some l.current
  /-- It is a beginning of the path, and behind it at most a failure in the last phase of that. -/
  path : ∃ passed p rest, Phase.path hasTest = passed ++ p :: rest ∧
    (l.trail = (passed ++ [p]).map .reached ∨
      ∃ kind, l.trail = (passed ++ [p]).map .reached ++ [.failed p kind])
  /-- It only grows at its end. -/
  grows (ms : List Move) : l.trail <+: (l.moves ms).trail
  /-- A phase is said to be entered when one state was added. -/
  entered_iff (q : Phase) :
    (l.advance q).1 = true ↔ ∃ s, (l.advance q).2.trail = l.trail ++ [s]
  /-- Otherwise nothing has changed. -/
  refused (q : Phase) : (l.advance q).1 = false → (l.advance q).2 = l
  /-- The phase that is next on the path is entered, and no other. -/
  next_iff (q : Phase) : (l.advance q).1 = true ↔ ∃ passed p rest,
    Phase.path hasTest = passed ++ p :: q :: rest ∧ l.trail = (passed ++ [p]).map .reached
  /-- A failure is added before the end. -/
  fails_iff (kind : Error.Kind) :
    (∃ s, (l.fail kind).trail = l.trail ++ [s]) ↔ l.current.isTerminal = false
  /-- It is that of the phase that runs. -/
  failed (kind : Error.Kind) : l.current.isTerminal = false →
    (l.fail kind).current = .failed l.phase kind ∧ (l.fail kind).phase = l.phase
  /-- At the end nothing is added any more. -/
  ended (ms : List Move) : l.current.isTerminal = true → l.moves ms = l
  /-- The end is reached from the test, if there is one, and else from the installation. -/
  done : .reached .done ∈ l.trail → ∃ earlier, l.trail =
    earlier ++ [.reached (if hasTest then .testing else .installing), .reached .done]
  /-- The first failure stays the last state. -/
  first (p : Phase) (kind : Error.Kind) (ms : List Move) : .failed p kind ∈ l.trail →
    (l.moves ms).current = .failed p kind ∧ (l.moves ms).phase = p

/-- The last phase has nothing behind it on the path. -/
theorem done_not_mem_of_path {passed rest : List Phase}
    (h : Phase.path hasTest = passed ++ p :: rest) : .done ∉ passed := by
  intro hmem
  obtain ⟨before, behind, rfl⟩ := List.append_of_mem hmem
  rw [List.append_assoc, List.cons_append] at h
  exact absurd ((Phase.eq_nil_iff_of_path h).2 rfl) (by simp)

theorem getLast?_map_reached (passed : List Phase) (p : Phase) :
    ((passed ++ [p]).map CookState.reached).getLast? = some (.reached p) := by
  rw [List.map_append, List.map_singleton, List.getLast?_concat]

theorem OnPath.begins (h : l.OnPath hasTest) : l.trail.head? = some (.reached .init) := by
  have hhead {passed rest : List Phase} {p : Phase}
      (hpath : Phase.path hasTest = passed ++ p :: rest) :
      ((passed ++ [p]).map CookState.reached).head? = some (.reached .init) := by
    have hfirst : (Phase.path hasTest).head? = some .init := by cases hasTest <;> rfl
    rw [hpath, List.head?_append] at hfirst
    rw [List.head?_map, List.head?_append]
    exact congrArg (Option.map CookState.reached) hfirst
  cases h with
  | running p hat =>
    obtain ⟨-, passed, rest, hpath, htrail⟩ := hat
    rw [htrail, hhead hpath]
  | halted p kind hhalted =>
    obtain ⟨passed, rest, hpath, htrail⟩ := hhalted.trail
    rw [htrail, List.head?_append, hhead hpath]
    rfl

theorem OnPath.next_iff (h : l.OnPath hasTest) (q : Phase) :
    (l.advance q).1 = true ↔ ∃ passed p rest,
      Phase.path hasTest = passed ++ p :: q :: rest ∧ l.trail = (passed ++ [p]).map .reached := by
  have hlast := getLast?_trail l
  cases h with
  | running p hat =>
    rw [hat.advance_iff]
    constructor
    · intro hn
      obtain ⟨-, passed, rest, hpath, htrail⟩ := hat
      cases rest with
      | nil =>
        rw [(Phase.eq_nil_iff_of_path hpath).1 rfl] at hn
        exact absurd hn nofun
      | cons q' rest =>
        obtain rfl : q = q' := Option.some.inj (hn.symm.trans (Phase.next?_of_path hpath))
        exact ⟨passed, p, rest, hpath, htrail⟩
    · rintro ⟨passed, p', rest, hpath, htrail⟩
      rw [htrail, getLast?_map_reached, hat.current] at hlast
      obtain rfl : p' = p := by simpa using hlast
      exact Phase.next?_of_path hpath
  | halted p kind hhalted =>
    rw [advance_of_isTerminal hhalted.isTerminal]
    refine ⟨nofun, ?_⟩
    rintro ⟨passed, p', rest, -, htrail⟩
    rw [htrail, getLast?_map_reached, hhalted.current] at hlast
    exact absurd hlast nofun

theorem OnPath.done (h : l.OnPath hasTest) (hdone : .reached .done ∈ l.trail) :
    ∃ earlier, l.trail =
      earlier ++ [.reached (if hasTest then .testing else .installing), .reached .done] := by
  cases h with
  | running p hat =>
    obtain ⟨-, passed, rest, hpath, htrail⟩ := hat
    have hp : p = .done := by
      rw [htrail] at hdone
      have hmem : Phase.done ∈ passed ++ [p] := by simpa using hdone
      have hp := (List.mem_append.1 hmem).resolve_left (done_not_mem_of_path hpath)
      exact (List.mem_singleton.1 hp).symm
    -- the trail is the whole path
    rw [(Phase.eq_nil_iff_of_path hpath).2 hp] at hpath
    rw [htrail, ← hpath]
    cases hasTest
    · exact ⟨[.init, .fetching, .verifying, .resolving, .building].map .reached, rfl⟩
    · exact ⟨[.init, .fetching, .verifying, .resolving, .building, .installing].map .reached, rfl⟩
  | halted p kind hhalted =>
    obtain ⟨passed, rest, hpath, htrail⟩ := hhalted.trail
    rw [htrail] at hdone
    have hmem : Phase.done ∈ passed ∨ p = .done := by simpa [eq_comm] using hdone
    rcases hmem with hmem | hmem
    · exact absurd hmem (done_not_mem_of_path hpath)
    · exact absurd hmem hhalted.ne_done

theorem OnPath.haltedAt_of_mem (h : l.OnPath hasTest) (hmem : .failed p kind ∈ l.trail) :
    l.HaltedAt hasTest p kind := by
  cases h with
  | running p' hat =>
    obtain ⟨-, passed, rest, -, htrail⟩ := hat
    rw [htrail] at hmem
    simp at hmem
  | halted p' kind' hhalted =>
    obtain ⟨passed, rest, -, htrail⟩ := hhalted.trail
    rw [htrail] at hmem
    obtain ⟨rfl, rfl⟩ : p = p' ∧ kind = kind' := by simpa using hmem
    exact hhalted

/-- Whatever was tried on a new lifecycle, and in whatever order, it is as it should be. -/
theorem lawful_moves (hasTest : Bool) (ms : List Move) :
    ((start hasTest).moves ms).Lawful hasTest := by
  have h := onPath_after hasTest ms
  generalize (start hasTest).moves ms = l at h
  have hpush (s : CookState) : l.trail ≠ l.trail ++ [s] := by simp
  refine {
    begins := h.begins
    ends := getLast?_trail l
    path := ?_
    grows := trail_prefix_moves l
    entered_iff := fun q => ?_
    refused := fun q hrefused => ?_
    next_iff := h.next_iff
    fails_iff := fun kind => ?_
    failed := fun kind hterm => ?_
    ended := fun ms hterm => moves_of_isTerminal hterm ms
    done := h.done
    first := fun p kind ms hmem => ?_ }
  · cases h with
    | running p hat =>
      obtain ⟨-, passed, rest, hpath, htrail⟩ := hat
      exact ⟨passed, p, rest, hpath, .inl htrail⟩
    | halted p kind hhalted =>
      obtain ⟨passed, rest, hpath, htrail⟩ := hhalted.trail
      exact ⟨passed, p, rest, hpath, .inr ⟨kind, htrail⟩⟩
  · rcases advance_eq_or l q with hadvance | hadvance <;> rw [hadvance]
    · exact iff_of_true rfl ⟨_, trail_push l _⟩
    · exact iff_of_false nofun fun ⟨s, hs⟩ => hpush s hs
  · rcases advance_eq_or l q with hadvance | hadvance
    · exact absurd (hrefused.symm.trans (congrArg Prod.fst hadvance)) nofun
    · exact congrArg Prod.snd hadvance
  · cases hterm : l.current.isTerminal with
    | true =>
      rw [fail_of_isTerminal hterm]
      exact iff_of_false (fun ⟨s, hs⟩ => hpush s hs) nofun
    | false =>
      rw [fail_of_not_isTerminal hterm]
      exact iff_of_true ⟨_, trail_push l _⟩ rfl
  · rw [fail_of_not_isTerminal hterm]
    exact ⟨rfl, rfl⟩
  · have hhalted := h.haltedAt_of_mem hmem
    rw [moves_of_isTerminal hhalted.isTerminal, phase, hhalted.current]
    exact ⟨rfl, rfl⟩

end Lifecycle

end Formulary
