import Formulary.Proofs.Cook.Steps
import Formulary.Proofs.Lifecycle

/-!
# What the steps of a cook put into the journal

Effects have a rank, in which they are to happen, and belong to a phase; the one order follows the
other (`Effect.index_phase_le`). A list of events is lawful when ranks rise, only the latest event
may have failed, and each effect was allowed by the events before it (`Lawful`).

A probe leaves at most one event (`Probe.run_eq`). The questions about build variables are asked in
one order, and all of them when every variable is known (`Variables.asks_resolve`).
-/

namespace Formulary

/-! ## The order of effects -/

/-- Where a phase stands among all. -/
def Phase.index (p : Phase) : Nat := all.idxOf p

/-- Where a question stands among all. -/
def Question.index : Question → Nat
  | commit => 0
  | branch => 1
  | toolchain => 2
  | time => 3

/-- The phase that an effect belongs to. -/
def Effect.phase : Effect → Phase
  | probe _ => .init
  | fetch _ => .fetching
  | extraction .. => .verifying
  | question _ => .resolving
  | build .. => .building
  | installation .. => .installing
  | test _ => .testing

/-- Where an effect stands in a cook. -/
def Effect.rank : Effect → Nat
  | probe _ => 0
  | fetch _ => 1
  | extraction .. => 2
  | question q => 3 + q.index
  | build .. => 7
  | installation .. => 8
  | test _ => 9

theorem Effect.index_phase (e : Effect) : e.phase.index = max (min e.rank 3) (e.rank - 3) := by
  cases e with
  | question q => cases q <;> decide
  | _ => simp only [phase, rank]; decide

/-- An effect that comes later does not belong to an earlier phase. -/
theorem Effect.index_phase_le {e e' : Effect} (h : e.rank < e'.rank) :
    e.phase.index ≤ e'.phase.index := by
  rw [e.index_phase, e'.index_phase]
  omega

/-- The events, the latest first, are in order : each effect ranks above all before it, which
succeeded, and they allowed it. -/
structure Lawful (allowed : Effect → List Event → Prop) (events : List Event) : Prop where
  ordered : events.Pairwise fun later earlier =>
    earlier.succeeded = true ∧ earlier.effect.rank < later.effect.rank
  allowed : ∀ after e before, events = after ++ e :: before → allowed e.effect before

namespace Lawful

variable {allowed : Effect → List Event → Prop} {events : List Event}

theorem nil : Lawful allowed [] := ⟨.nil, fun after e before h => by simp at h⟩

theorem cons (h : Lawful allowed events) {e : Event} (he : allowed e.effect events)
    (hbelow : ∀ e' ∈ events, e'.succeeded = true ∧ e'.effect.rank < e.effect.rank) :
    Lawful allowed (e :: events) := by
  refine ⟨List.pairwise_cons.2 ⟨hbelow, h.ordered⟩, fun after e' before heq => ?_⟩
  cases after with
  | nil =>
    obtain ⟨rfl, rfl⟩ := List.cons.inj heq
    exact he
  | cons x after => exact h.allowed after e' before (List.cons.inj heq).2

end Lawful

/-! ## The probe -/

/-- Only the probe that is asked about something leaves an event. -/
theorem Probe.run_eq (probe : Probe) (ds : List Dependency) (check : HostCheck) (w : World) :
    Probe.run probe ds check w =
      if (wanted ds check).isEmpty then (.ok (), w)
      else
        let answer := probe (wanted ds check) w.disk
        (answer.1 >>= judge, {
          disk := answer.2
          journal := ⟨.probe ((wanted ds check).map Dependency.program),
            (answer.1 >>= judge).isOk⟩ :: w.journal }) := by
  unfold Probe.run
  dsimp only
  split <;> rfl

/-! ## Questions -/

/-- Every question, in the order in which they are asked. -/
def Question.all : List Question := [commit, branch, toolchain, time]

/-- The event of a question that was answered. -/
def Question.answered (q : Question) : Event := ⟨.question q, true⟩

/-- The step asks the questions of a list in order, up to some point; and all of them when it
succeeds. -/
def Asks {ε α : Type} (questions : List Question) (x : ExceptT ε WorldM α) : Prop :=
  ∀ w, ∃ asked, asked <+: questions ∧
    (x.run w).2.journal = (asked.map Question.answered).reverse ++ w.journal ∧
    ((x.run w).1.isOk = true → asked = questions)

section

variable {ε α β : Type} {l l' : List Question}

theorem asks_pure (a : α) : Asks [] (pure a : ExceptT ε WorldM α) :=
  fun _ => ⟨[], List.prefix_rfl, rfl, fun _ => rfl⟩

theorem asks_throw (e : ε) : Asks [] (throw e : ExceptT ε WorldM α) :=
  fun _ => ⟨[], List.prefix_rfl, rfl, fun _ => rfl⟩

/-- An answer always comes. -/
theorem asks_ask (q : Question) (act : StateM Disk α) :
    Asks [q] (liftM (World.ask q act) : ExceptT ε WorldM α) :=
  fun _ => ⟨[q], List.prefix_rfl, rfl, fun _ => rfl⟩

theorem Asks.bind {x : ExceptT ε WorldM α} {g : α → ExceptT ε WorldM β} (hx : Asks l x)
    (hg : ∀ a, Asks l' (g a)) : Asks (l ++ l') (x >>= g) := by
  intro w
  obtain ⟨asked, hasked, hjournal, hall⟩ := hx w
  rw [run_bind]
  rcases hr : x.run w with ⟨e | a, w'⟩
  · rw [hr] at hjournal
    refine ⟨asked, hasked.trans (List.prefix_append l l'), hjournal, fun h => ?_⟩
    exact absurd h (by simp [Except.isOk, Except.toBool])
  · rw [hr] at hjournal hall
    obtain rfl := hall rfl
    obtain ⟨asked', hasked', hjournal', hall'⟩ := hg a w'
    refine ⟨asked ++ asked', List.prefix_append_right_inj asked |>.2 hasked', ?_, fun h => ?_⟩
    · rw [hjournal', hjournal]
      simp
    · rw [hall' h]

end

/-- The variables are resolved by asking the four questions. -/
theorem Variables.asks_resolve (source : MetadataSource (StateM Disk)) (f : Formula)
    (tree : Path) : Asks Question.all (resolve (Cook.recorded source) f tree) := by
  have hversion : Asks [] (versionOf f : ExceptT Unresolved WorldM String) := by
    unfold versionOf
    split
    · exact asks_pure _
    · exact asks_throw _
  have hcommit : ∀ version, Asks [.commit] (commitOf (Cook.recorded source) f version tree) := by
    intro version
    refine Asks.bind (asks_ask .commit _) fun found => ?_
    split
    · exact asks_pure _
    · cases hpin : pinnedCommit f version with
      | error e => exact asks_throw e
      | ok commit => exact asks_pure commit
  have htoolchain : Asks [.toolchain] (toolchainOf (Cook.recorded source) f tree) := by
    refine Asks.bind (asks_ask .toolchain _) fun found => ?_
    split
    · exact asks_pure _
    · exact asks_throw _
  exact hversion.bind fun _ => (hcommit _).bind fun _ => (asks_ask .branch _).bind fun _ =>
    htoolchain.bind fun _ => (asks_ask .time _).bind fun _ => asks_pure _

end Formulary
