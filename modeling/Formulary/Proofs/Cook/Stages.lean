import Formulary.Proofs.Cache.Retrieve
import Formulary.Proofs.Cook.Journal
import Formulary.Proofs.Cook.Trail

/-!
# What the journal holds at each phase

When a cook comes to a phase, the events in its journal are lawful, all of them succeeded, and the
ones that the next phase needs are among them (`Cook.Reached`). Each step leads from one phase so
reached to the next, or halts with a journal in which no effect belongs to a later phase
(`Cook.StoppedBy`), which `Cook.ensures_phases` says of all steps together.
-/

namespace Formulary

/-! ## What must come before -/

/-- The bytes have the digest that the formula declares. -/
def Formula.Pins (f : Formula) (bytes : ByteArray) : Prop :=
  ∃ digest, Checksum.parse f.source.checksum = .ok digest ∧ digest.Matches bytes

namespace Kitchen

variable (k : Kitchen) (f : Formula) (d : Disk)

/-- This is decided about requirements of the host, which is asked on a given disk if there are
any. -/
def Decides (needed : Classified) (check : HostCheck) : Prop :=
  if needed.hostProvided.isEmpty then check = {}
  else ∃ host, (k.host d).1 = .ok host ∧ HostCheck.ofHost needed host = .ok check

/-- The formula is valid, and this is decided about its requirements of the host. -/
def Accepts (check : HostCheck) : Prop :=
  (∃ warnings, f.validate = .ok warnings) ∧
    k.Decides d (Classified.ofDeclarations f.dependencies) check

/-- The probe is asked for the programs of these dependencies. -/
def asked (check : HostCheck) : List String :=
  (Probe.wanted f.dependencies check).map Dependency.program

/-- The formula is valid, the host is accepted, and a probe that had to be asked found all. -/
def Prepared (before : List Event) : Prop :=
  ∃ check, k.Accepts f d check ∧
    (k.config.probes = true → Kitchen.asked f check = [] ∨
      ⟨.probe (Kitchen.asked f check), true⟩ ∈ before)

/-- What must have happened before an effect. -/
def Justified : Effect → List Event → Prop
  | .probe programs, _ => k.config.probes = true ∧
    ∃ check, k.Accepts f d check ∧ programs = Kitchen.asked f check
  | .fetch url, before => url = f.source.url ∧ k.Prepared f d before
  | .extraction bytes _, before => f.Pins bytes ∧ k.Prepared f d before
  | .question _, before => ∃ bytes directory, ⟨.extraction bytes directory, true⟩ ∈ before
  | .build _ flags, before => (∀ q ∈ Question.all, q.answered ∈ before) ∧
    ∃ vars, Flags.render f.build.flags vars = .ok flags
  | .installation .., before => ∃ workdir flags, ⟨.build workdir flags, true⟩ ∈ before
  | .test _, before => ∃ base artifacts, ⟨.installation base artifacts, true⟩ ∈ before

/-- What has happened when a phase is over. -/
def Milestone : Phase → List Event → Prop
  | .init, events => k.Prepared f d events
  | .fetching, events => k.Prepared f d events
  | .verifying, events => ∃ bytes directory, ⟨.extraction bytes directory, true⟩ ∈ events
  | .resolving, events => ∀ q ∈ Question.all, q.answered ∈ events
  | .building, events => ∃ workdir flags, ⟨.build workdir flags, true⟩ ∈ events
  | .installing, events => ∃ base artifacts, ⟨.installation base artifacts, true⟩ ∈ events
  | .testing, _ => True
  | .done, _ => True

variable {k f d} {events : List Event} {p q : Phase}

theorem Prepared.cons (h : k.Prepared f d events) (e : Event) : k.Prepared f d (e :: events) := by
  obtain ⟨check, haccepts, hprobe⟩ := h
  exact ⟨check, haccepts, fun hp => (hprobe hp).imp_right (List.mem_cons_of_mem e)⟩

end Kitchen

/-! ## Events up to a phase -/

/-- The least rank of the effects of later phases. -/
def Phase.bound : Phase → Nat
  | init => 1
  | fetching => 2
  | verifying => 3
  | resolving => 7
  | building => 8
  | installing => 9
  | testing | done => 10

theorem Effect.index_phase_le_of_rank_lt {e : Effect} {p : Phase} (h : e.rank < p.bound) :
    e.phase.index ≤ p.index := by
  rw [e.index_phase]
  cases p <;> simp only [Phase.bound] at h <;> simp [Phase.index, Phase.all] <;> omega

theorem Effect.rank_lt_bound (e : Effect) : e.rank < e.phase.bound := by
  cases e with
  | question q => cases q <;> decide
  | _ => simp [rank, phase, Phase.bound]

section

variable {allowed : Effect → List Event → Prop} {events : List Event} {e : Event} {p q : Phase}

/-- Lawful events, all of which succeeded in the phases up to one. -/
structure Sound (allowed : Effect → List Event → Prop) (p : Phase) (events : List Event) :
    Prop where
  lawful : Lawful allowed events
  good : ∀ e ∈ events, e.succeeded = true ∧ e.effect.rank < p.bound

/-- Lawful events, none of which is of a phase later than one, and none but of that phase failed. -/
structure Closed (allowed : Effect → List Event → Prop) (p : Phase) (events : List Event) :
    Prop where
  lawful : Lawful allowed events
  phases : ∀ e ∈ events, e.effect.phase.index ≤ p.index ∧
    (e.succeeded = false → e.effect.phase = p)

theorem Sound.mono (h : Sound allowed p events) (hpq : p.bound ≤ q.bound) :
    Sound allowed q events :=
  ⟨h.lawful, fun e he => ⟨(h.good e he).1, (h.good e he).2.trans_le hpq⟩⟩

theorem Sound.closed (h : Sound allowed p events) : Closed allowed p events := by
  refine ⟨h.lawful, fun e he => ?_⟩
  obtain ⟨hgood, hrank⟩ := h.good e he
  exact ⟨Effect.index_phase_le_of_rank_lt hrank, fun hbad =>
    absurd (hgood.symm.trans hbad) (by simp)⟩

/-- An effect of a later phase may be added. -/
theorem Sound.lawful_cons (h : Sound allowed p events) (hallowed : allowed e.effect events)
    (hrank : p.bound ≤ e.effect.rank) : Lawful allowed (e :: events) :=
  h.lawful.cons hallowed fun e' he' => ⟨(h.good e' he').1, (h.good e' he').2.trans_le hrank⟩

theorem Sound.cons (h : Sound allowed p events) (hallowed : allowed e.effect events)
    (hrank : p.bound ≤ e.effect.rank) (hgood : e.succeeded = true) :
    Sound allowed e.effect.phase (e :: events) := by
  refine ⟨h.lawful_cons hallowed hrank, fun e' he' => ?_⟩
  rcases List.mem_cons.1 he' with rfl | he'
  · exact ⟨hgood, e'.effect.rank_lt_bound⟩
  · exact ⟨(h.good e' he').1, ((h.good e' he').2.trans_le hrank).trans e.effect.rank_lt_bound⟩

theorem Sound.closed_cons (h : Sound allowed p events) (hallowed : allowed e.effect events)
    (hrank : p.bound ≤ e.effect.rank) : Closed allowed e.effect.phase (e :: events) := by
  refine ⟨h.lawful_cons hallowed hrank, fun e' he' => ?_⟩
  rcases List.mem_cons.1 he' with rfl | he'
  · exact ⟨le_rfl, fun _ => rfl⟩
  · obtain ⟨hgood, hrank'⟩ := h.good e' he'
    exact ⟨Effect.index_phase_le (hrank'.trans_le hrank),
      fun hbad => absurd (hgood.symm.trans hbad) (by simp)⟩

theorem Question.rank_lt (q : Question) : (Effect.question q).rank < Phase.resolving.bound := by
  cases q <;> decide

/-- Answers to questions that come one after the other, by induction on the questions. -/
theorem Lawful.questions {questions : List Question} (h : Lawful allowed events)
    (hallowed : ∀ q later, allowed (.question q) (later ++ events))
    (hordered : questions.Pairwise fun q q' => q.index < q'.index)
    (hbelow : ∀ q ∈ questions, ∀ e ∈ events,
      e.succeeded = true ∧ e.effect.rank < (Effect.question q).rank) :
    Lawful allowed ((questions.map Question.answered).reverse ++ events) := by
  induction questions generalizing events with
  | nil => exact h
  | cons q questions ih =>
    obtain ⟨hfirst, hrest⟩ := List.pairwise_cons.1 hordered
    rw [List.map_cons, List.reverse_cons, List.append_assoc]
    refine ih (h.cons (e := q.answered) (hallowed q []) (hbelow q List.mem_cons_self)) ?_ hrest ?_
    · intro q' later
      rw [← List.append_assoc]
      exact hallowed q' _
    · intro q' hq' e he
      rcases List.mem_cons.1 he with rfl | he
      · exact ⟨rfl, Nat.add_lt_add_left (hfirst q' hq') 3⟩
      · exact hbelow q' (List.mem_cons_of_mem q hq') e he

theorem Sound.questions {questions : List Question} (h : Sound allowed .verifying events)
    (hallowed : ∀ q later, allowed (.question q) (later ++ events))
    (hfirst : questions <+: Question.all) :
    Sound allowed .resolving ((questions.map Question.answered).reverse ++ events) := by
  have hordered : Question.all.Pairwise fun q q' => q.index < q'.index := by decide
  refine ⟨h.lawful.questions hallowed (hordered.sublist hfirst.sublist) fun q _ e he =>
    ⟨(h.good e he).1, (h.good e he).2.trans_le (Nat.le_add_right 3 q.index)⟩, fun e he => ?_⟩
  rcases List.mem_append.1 he with he | he
  · obtain ⟨q, -, rfl⟩ := List.mem_map.1 (List.mem_reverse.1 he)
    exact ⟨rfl, q.rank_lt⟩
  · exact ⟨(h.good e he).1, (h.good e he).2.trans (by decide)⟩

end

namespace Cook

variable (k : Kitchen) (f : Formula) (w : World)

/-- A journal that has grown since the beginning as it should when a phase is over. -/
def Reached (p : Phase) (journal : List Event) : Prop :=
  ∃ events, journal = events ++ w.journal ∧ Sound (k.Justified f w.disk) p events ∧
    k.Milestone f w.disk p events

/-- A journal that has grown since the beginning as it may when a cook halts in a phase. -/
def Broken (p : Phase) (journal : List Event) : Prop :=
  ∃ events, journal = events ++ w.journal ∧ Closed (k.Justified f w.disk) p events

variable {k f w} {p q : Phase} {journal : List Event} {e : Event}

theorem Reached.broken (h : Reached k f w p journal) (hpq : p.bound ≤ q.bound) :
    Broken k f w q journal := by
  obtain ⟨events, hj, hs, -⟩ := h
  exact ⟨events, hj, (hs.mono hpq).closed⟩

theorem Reached.mono (h : Reached k f w p journal) (hpq : p.bound ≤ q.bound)
    (hm : ∀ events, k.Milestone f w.disk p events → k.Milestone f w.disk q events) :
    Reached k f w q journal := by
  obtain ⟨events, hj, hs, hmilestone⟩ := h
  exact ⟨events, hj, hs.mono hpq, hm events hmilestone⟩

theorem Reached.cons (h : Reached k f w p journal) (hrank : p.bound ≤ e.effect.rank)
    (hallowed : ∀ events, k.Milestone f w.disk p events → k.Justified f w.disk e.effect events)
    (hgood : e.succeeded = true)
    (hm : ∀ events, k.Milestone f w.disk p events →
      k.Milestone f w.disk e.effect.phase (e :: events)) :
    Reached k f w e.effect.phase (e :: journal) := by
  obtain ⟨events, rfl, hs, hmilestone⟩ := h
  exact ⟨e :: events, rfl, hs.cons (hallowed events hmilestone) hrank hgood, hm events hmilestone⟩

theorem Reached.broken_cons (h : Reached k f w p journal) (hrank : p.bound ≤ e.effect.rank)
    (hallowed : ∀ events, k.Milestone f w.disk p events → k.Justified f w.disk e.effect events) :
    Broken k f w e.effect.phase (e :: journal) := by
  obtain ⟨events, rfl, hs, hmilestone⟩ := h
  exact ⟨e :: events, rfl, hs.closed_cons (hallowed events hmilestone) hrank⟩

/-! ## The phases -/

theorem broken_of_eq (h : journal = w.journal) : Broken k f w p journal :=
  ⟨[], h, .nil, fun e he => by simp at he⟩

/-- The host is asked on the disk that is there, if at all, and that leaves no event. -/
theorem ensures_checkHost (needed : Classified) :
    Ensures (fun c => c.world = w) (checkHost k needed)
      (fun check c => k.Decides w.disk needed check ∧ c.world.journal = w.journal)
      (fun c => c.world.journal = w.journal) := by
  rintro c rfl
  unfold checkHost
  by_cases hempty : needed.hostProvided.isEmpty = true
  · rw [if_pos hempty]
    exact ⟨if_pos hempty |>.mpr rfl, rfl⟩
  · rw [if_neg hempty, run_bind, run_onDisk]
    dsimp only
    rw [run_bind]
    cases hhost : (k.host c.world.disk).1 with
    | error e => rfl
    | ok host =>
      rw [run_orHalt_ok]
      dsimp only
      cases hcheck : HostCheck.ofHost needed host with
      | error e => rfl
      | ok check => exact ⟨if_neg hempty |>.mpr ⟨host, hhost, hcheck⟩, rfl⟩

theorem ensures_fixBase :
    Ensures (fun c => c.world = w) fixBase (fun _ c => c.world = w)
      (fun c => Broken k f w .init c.world.journal) := by
  rintro c rfl
  have hkeeps : (fixBase.run c).2.world = c.world := keeps_fixBase (fun _ _ => rfl) c
  rcases hr : fixBase.run c with ⟨e | u, c'⟩
  · rw [hr] at hkeeps
    exact broken_of_eq (congrArg World.journal hkeeps)
  · rw [hr] at hkeeps
    exact hkeeps

/-- A probe is asked when the formula and the host are accepted, unless there is nothing to ask. -/
theorem probed {check : HostCheck} {w' : World} (haccepts : k.Accepts f w.disk check)
    (hprobes : k.config.probes = true) (hjournal : w'.journal = w.journal) :
    match Probe.run k.probe f.dependencies check w' with
    | (.ok _, w'') => Reached k f w .init w''.journal
    | (.error _, w'') => Broken k f w .init w''.journal := by
  rw [Probe.run_eq]
  by_cases hnone : (Probe.wanted f.dependencies check).isEmpty = true
  · rw [if_pos hnone]
    have hasked : Kitchen.asked f check = [] := by
      rw [Kitchen.asked, List.isEmpty_iff.1 hnone, List.map_nil]
    exact ⟨[], hjournal, ⟨.nil, fun e he => by simp at he⟩, check, haccepts, fun _ => .inl hasked⟩
  · rw [if_neg hnone]
    dsimp only
    have hallowed : k.Justified f w.disk (.probe (Kitchen.asked f check)) [] :=
      ⟨hprobes, check, haccepts, rfl⟩
    have hlawful : ∀ good, Lawful (k.Justified f w.disk)
        [⟨.probe (Kitchen.asked f check), good⟩] := fun good =>
      Lawful.nil.cons hallowed fun e he => by simp at he
    generalize k.probe (Probe.wanted f.dependencies check) w'.disk = answer
    rcases answer.1 >>= Probe.judge with e | u
    · refine ⟨[⟨.probe (Kitchen.asked f check), false⟩], congrArg _ hjournal, hlawful false,
        fun e he => ?_⟩
      obtain rfl := List.mem_singleton.1 he
      exact ⟨le_rfl, fun _ => rfl⟩
    · refine ⟨[⟨.probe (Kitchen.asked f check), true⟩], congrArg _ hjournal,
        ⟨hlawful true, fun e he => ?_⟩, check, haccepts, fun _ => .inr List.mem_cons_self⟩
      obtain rfl := List.mem_singleton.1 he
      exact ⟨rfl, Nat.zero_lt_one⟩

theorem ensures_prepare :
    Ensures (fun c => c.world = w) (prepare k f)
      (fun _ c => Reached k f w .init c.world.journal)
      (fun c => Broken k f w .init c.world.journal) := by
  refine ensures_fixBase.bind fun _ => ?_
  rintro c rfl
  rw [run_bind]
  cases hvalid : f.validate with
  | error e => exact broken_of_eq rfl
  | ok warnings =>
    rw [run_orHalt_ok]
    dsimp only
    rw [run_bind, run_record]
    dsimp only
    rw [run_bind, run_record]
    dsimp only
    refine Ensures.bind ((ensures_checkHost _).mono (fun _ _ h => h) fun c h => broken_of_eq h)
      (fun check => ?_) _ rfl
    rintro c' ⟨hdecides, hjournal⟩
    have haccepts : k.Accepts f c.world.disk check := ⟨⟨warnings, hvalid⟩, hdecides⟩
    by_cases hprobes : k.config.probes = true
    · rw [if_pos hprobes, run_bind, run_inWorld]
      dsimp only
      have hprobed := probed haccepts hprobes hjournal
      rcases hrun : Probe.run k.probe f.dependencies check c'.world with ⟨e | u, w'⟩
      · rw [hrun] at hprobed
        exact hprobed
      · rw [hrun] at hprobed
        exact hprobed
    · rw [if_neg hprobes]
      exact ⟨[], hjournal, ⟨.nil, fun e he => by simp at he⟩, check, haccepts, (absurd · hprobes)⟩

theorem ensures_fetchSource :
    Ensures (fun c => Reached k f w .init c.world.journal) (fetchSource k f)
      (fun archive c => f.Pins archive.bytes ∧ Reached k f w .fetching c.world.journal)
      (fun c => Broken k f w .fetching c.world.journal) := by
  intro c hc
  unfold fetchSource
  rw [run_bind, run_enter]
  dsimp only
  rw [run_bind, run_inWorld]
  dsimp only
  have h := Cache.retrieves k.fetcher f.source.url f.source.checksum k.config.sourceCache c.world
  generalize Cache.retrieve k.fetcher f.source.url f.source.checksum k.config.sourceCache c.world
    = result at h ⊢
  have hallowed : ∀ events, k.Milestone f w.disk .init events →
      k.Justified f w.disk (.fetch f.source.url) events := fun _ hm => ⟨rfl, hm⟩
  cases h with
  | @hit archive d hconsult =>
    have hdigest := Cache.digest_of_consult hconsult
    exact ⟨⟨archive.digest, hdigest, archive.matches_digest⟩, hc.mono (by decide) fun _ hm => hm⟩
  | missed _ hfetches =>
    cases hfetches with
    | refused _ => exact hc.broken_cons (e := ⟨.fetch f.source.url, false⟩) le_rfl hallowed
    | unfit _ _ => exact hc.broken_cons (e := ⟨.fetch f.source.url, true⟩) le_rfl hallowed
    | @fetched d' archive _ hdigest =>
      refine ⟨⟨archive.digest, hdigest, archive.matches_digest⟩, ?_⟩
      exact hc.cons (e := ⟨.fetch f.source.url, true⟩) le_rfl hallowed rfl fun _ hm => hm.cons _

theorem ensures_unpackSource {archive : Verified} (hpins : f.Pins archive.bytes) :
    Ensures (fun c => Reached k f w .fetching c.world.journal) (unpackSource k archive)
      (fun _ c => Reached k f w .verifying c.world.journal)
      (fun c => Broken k f w .verifying c.world.journal) := by
  intro c hc
  unfold unpackSource
  rw [run_bind, run_enter]
  dsimp only
  rw [run_bind, run_onDisk]
  dsimp only
  rcases (Sandbox.make k.config.buildRoot k.temporary "kiln-build-" c.world.disk).1 with e | p
  · exact hc.broken (by decide)
  · have hallowed : ∀ events, k.Milestone f w.disk .fetching events →
        k.Justified f w.disk (.extraction archive.bytes (p.join "source")) events :=
      fun _ hm => ⟨hpins, hm⟩
    dsimp only
    rw [run_bind, run_inWorld]
    unfold World.call
    dsimp only
    generalize Extraction.run archive (p.join "source") = act
    rcases act.run _ with ⟨e | tree, d⟩
    · exact hc.broken_cons (e := ⟨.extraction archive.bytes (p.join "source"), false⟩) le_rfl
        hallowed
    · exact hc.cons (e := ⟨.extraction archive.bytes (p.join "source"), true⟩) le_rfl hallowed rfl
        fun _ _ => ⟨_, _, List.mem_cons_self⟩

theorem ensures_resolveFlags (tree : SourceTree) :
    Ensures (fun c => Reached k f w .verifying c.world.journal) (resolveFlags k f tree)
      (fun resolved c => Flags.render f.build.flags resolved.1 = .ok resolved.2 ∧
        Reached k f w .resolving c.world.journal)
      (fun c => Broken k f w .resolving c.world.journal) := by
  intro c hc
  unfold resolveFlags
  rw [run_bind, run_enter]
  dsimp only
  rw [run_bind, run_inWorld]
  dsimp only
  obtain ⟨events, hj, hs, hm⟩ := hc
  obtain ⟨asked, hfirst, hjournal, hall⟩ := Variables.asks_resolve k.metadata f tree.root c.world
  have hquestions := hs.questions (fun q later => by
    obtain ⟨bytes, directory, hmem⟩ := hm
    exact ⟨bytes, directory, List.mem_append_right later hmem⟩) hfirst
  rw [hj, ← List.append_assoc] at hjournal
  generalize (Variables.resolve (recorded k.metadata) f tree.root).run c.world = resolved
    at hjournal hall ⊢
  obtain ⟨e | vars, w'⟩ := resolved
  · exact ⟨_, hjournal, hquestions.closed⟩
  · obtain rfl := hall rfl
    have hmilestone : ∀ q ∈ Question.all,
        q.answered ∈ (Question.all.map Question.answered).reverse ++ events := fun q hq =>
      List.mem_append_left _ (List.mem_reverse.2 (List.mem_map_of_mem hq))
    dsimp only
    rw [run_bind, run_orHalt_ok]
    dsimp only
    rw [run_bind, run_record]
    dsimp only
    rw [run_bind]
    cases hflags : Flags.render f.build.flags vars with
    | error e => exact ⟨_, hjournal, hquestions.closed⟩
    | ok flags => exact ⟨hflags, _, hjournal, hquestions, hmilestone⟩

theorem ensures_build {context : BuildContext} {vars : Bindings} (install : InstallProcedure)
    (hflags : Flags.render f.build.flags vars = .ok context.flags) :
    Ensures (fun c => Reached k f w .resolving c.world.journal) (build install context)
      (fun _ c => Reached k f w .building c.world.journal)
      (fun c => Broken k f w .building c.world.journal) := by
  intro c hc
  unfold build
  rw [run_bind, run_enter]
  dsimp only
  rw [run_bind, run_onDisk]
  dsimp only
  by_cases hdirectory : (Disk.isDirectory context.workdir c.world.disk).1 = true
  · have hallowed : ∀ events, k.Milestone f w.disk .resolving events →
        k.Justified f w.disk (.build context.workdir context.flags) events :=
      fun _ hm => ⟨hm, vars, hflags⟩
    rw [if_pos hdirectory, run_bind, run_inWorld]
    unfold World.call
    dsimp only
    rcases install.build context _ with ⟨e | log, d⟩
    · exact hc.broken_cons (e := ⟨.build context.workdir context.flags, false⟩) le_rfl hallowed
    · exact hc.cons (e := ⟨.build context.workdir context.flags, true⟩) le_rfl hallowed rfl
        fun _ _ => ⟨_, _, List.mem_cons_self⟩
  · rw [if_neg hdirectory]
    exact hc.broken (q := .building) (by decide)

theorem ensures_installArtifacts (install : InstallProcedure) (context : BuildContext) :
    Ensures (fun c => Reached k f w .building c.world.journal) (installArtifacts install context)
      (fun _ c => Reached k f w .installing c.world.journal)
      (fun c => Broken k f w .installing c.world.journal) := by
  intro c hc
  have hallowed : ∀ events, k.Milestone f w.disk .building events → k.Justified f w.disk
      (.installation context.base (install.artifacts context)) events := fun _ hm => hm
  unfold installArtifacts
  rw [run_bind, run_enter]
  dsimp only
  rw [run_bind, run_inWorld]
  unfold World.call
  dsimp only
  generalize Installation.run context.workdir context.base (install.artifacts context) = act
  rcases act.run _ with ⟨e | installed, d⟩
  · exact hc.broken_cons (e := ⟨.installation context.base (install.artifacts context), false⟩)
      le_rfl hallowed
  · exact hc.cons (e := ⟨.installation context.base (install.artifacts context), true⟩) le_rfl
      hallowed rfl fun _ _ => ⟨_, _, List.mem_cons_self⟩

/-! ## The test -/

/-- How a test is run in a sandbox, and with what result. -/
inductive Tries (test : TestProcedure) (base : Path) (root : Option Path) (temporary : Temporary)
    (w : World) : Except Sandbox.Failure TestOutcome × World → Prop
  /-- There is no sandbox. -/
  | notMade {reason : Disk.TemporaryFailure} {d : Disk} :
    Sandbox.make root temporary "kiln-test-" w.disk = (.error reason, d) →
      Tries test base root temporary w (.error (.notMade reason.message), { w with disk := d })
  /-- The test ran, and the sandbox stayed. -/
  | notRemoved {p : Path} {d d' d'' : Disk} {result : Except Halt String}
    {failure : Sandbox.Failure} :
    Sandbox.make root temporary "kiln-test-" w.disk = (.ok p, d) →
      test.run ⟨p, base⟩ d = (result, d') → Sandbox.remove p d' = (.error failure, d'') →
      Tries test base root temporary w
        (.error failure, ⟨d'', ⟨.test p, result.isOk⟩ :: w.journal⟩)
  /-- The test ran, and the sandbox is gone. -/
  | ended {p : Path} {d d' d'' : Disk} {result : Except Halt String} :
    Sandbox.make root temporary "kiln-test-" w.disk = (.ok p, d) →
      test.run ⟨p, base⟩ d = (result, d') → Sandbox.remove p d' = (.ok (), d'') →
      Tries test base root temporary w
        (.ok (Sandbox.outcomeOf test.stub result), ⟨d'', ⟨.test p, result.isOk⟩ :: w.journal⟩)

theorem tries (test : TestProcedure) (base : Path) (root : Option Path) (temporary : Temporary)
    (w : World) :
    Tries test base root temporary w
      (Sandbox.runBy World.onDisk (journaled test) test.stub base root temporary w) := by
  unfold Sandbox.runBy
  rw [bind_apply]
  unfold World.onDisk
  dsimp only
  rcases hmake : Sandbox.make root temporary "kiln-test-" w.disk with ⟨reason | p, d⟩
  · exact .notMade hmake
  · dsimp only
    rw [bind_apply]
    unfold journaled World.call
    dsimp only
    rcases hrun : test.run ⟨p, base⟩ d with ⟨result, d'⟩
    dsimp only
    rw [bind_apply]
    dsimp only
    rcases hremove : Sandbox.remove p d' with ⟨failure | u, d''⟩
    · exact .notRemoved hmake hrun hremove
    · exact .ended hmake hrun hremove

/-- A test runs once its sandbox is made. -/
theorem ensures_runTest (test : TestProcedure) (base : Path) :
    Ensures (fun c => Reached k f w .installing c.world.journal) (runTest k test base)
      (fun _ c => Reached k f w .testing c.world.journal)
      (fun c => Broken k f w .testing c.world.journal) := by
  intro c hc
  have hallowed : ∀ p events, k.Milestone f w.disk .installing events →
      k.Justified f w.disk (.test p) events := fun _ _ hm => hm
  unfold runTest
  rw [run_bind, run_enter]
  dsimp only
  rw [run_bind, run_inWorld]
  dsimp only
  have h := tries test base k.config.sandboxRoot k.temporary c.world
  generalize Sandbox.runBy World.onDisk (journaled test) test.stub base k.config.sandboxRoot
    k.temporary c.world = result at h ⊢
  cases h with
  | notMade _ => exact hc.broken (q := .testing) (by decide)
  | @notRemoved p d d' d'' result failure _ _ _ =>
    exact hc.broken_cons (e := ⟨.test p, result.isOk⟩) le_rfl (hallowed p)
  | @ended p d d' d'' result _ _ _ =>
    rw [run_bind, run_orHalt_ok]
    dsimp only
    rw [run_bind, run_record]
    dsimp only
    rcases result with halt | log
    · obtain ⟨e, he⟩ : ∃ e, (Sandbox.outcomeOf test.stub (.error halt)).toResult = .error e := by
        unfold Sandbox.outcomeOf
        dsimp only
        split <;> exact ⟨_, rfl⟩
      rw [he]
      exact hc.broken_cons (e := ⟨.test p, false⟩) le_rfl (hallowed p)
    · exact hc.cons (e := ⟨.test p, true⟩) le_rfl (hallowed p) rfl fun _ _ => trivial

/-! ## Whole runs -/

variable {α : Type} {hasTest : Bool}

/-- The cook halted in a phase no later than one, with a journal as it may be there. -/
def StoppedBy (k : Kitchen) (f : Formula) (w : World) (hasTest : Bool) (last : Phase)
    (c : Cook) : Prop :=
  ∃ p, p.index ≤ last.index ∧ c.InPhase hasTest p ∧ Broken k f w p c.world.journal

/-- A step that leads to a phase stops there if it halts. -/
theorem Leads.ensures {x : CookM α} (hl : Leads hasTest p q x) {last : Phase}
    (hq : q.index ≤ last.index) {J : Cook → Prop} {Q : α → Cook → Prop}
    (hx : Ensures J x Q fun c => Broken k f w q c.world.journal) :
    Ensures (fun c => c.InPhase hasTest p ∧ J c) x (fun a c => c.InPhase hasTest q ∧ Q a c)
      (StoppedBy k f w hasTest last) := by
  rintro c ⟨hin, hj⟩
  have hq' := hl c hin
  have h := hx c hj
  rcases hr : x.run c with ⟨e | a, c'⟩
  · rw [hr] at h hq'
    exact ⟨q, hq, hq', h⟩
  · rw [hr] at h hq'
    exact ⟨hq', h⟩

theorem ensures_installOnly (install : InstallProcedure) :
    Ensures (fun c => c.InPhase hasTest .init ∧ c.world = w) (installOnly k f install)
      (fun _ c => c.InPhase hasTest .installing ∧ Reached k f w .installing c.world.journal)
      (StoppedBy k f w hasTest .installing) := by
  refine ((leads_prepare k f).ensures (by decide) ensures_prepare).bind fun _ => ?_
  refine ((leads_fetchSource k f).ensures (by decide) ensures_fetchSource).bind fun archive => ?_
  rintro c ⟨hin, hpins, hreached⟩
  refine Ensures.bind ((leads_unpackSource k archive).ensures (by decide)
    (ensures_unpackSource hpins)) (fun tree => ?_) c ⟨hin, hreached⟩
  refine ((leads_resolveFlags k f tree).ensures (by decide) (ensures_resolveFlags tree)).bind
    fun resolved => ?_
  rintro c ⟨hin, hflags, hreached⟩
  rw [run_bind, run_get]
  refine Ensures.bind ((leads_build install _).ensures (by decide)
    (ensures_build install hflags)) (fun _ => ?_) c ⟨hin, hreached⟩
  refine Ensures.bind ((leads_installArtifacts install _).ensures (by decide)
    (ensures_installArtifacts install _)) fun _ => ?_
  exact fun _ h => h

theorem ensures_phases (install : InstallProcedure) (test : Option TestProcedure) :
    Ensures (fun c => c.InPhase test.isSome .init ∧ c.world = w) (phases k f install test)
      (fun _ c => Reached k f w .testing c.world.journal)
      (StoppedBy k f w test.isSome .testing) := by
  have hinstall : Ensures (fun c => c.InPhase test.isSome .init ∧ c.world = w)
      (installOnly k f install)
      (fun _ c => c.InPhase test.isSome .installing ∧ Reached k f w .installing c.world.journal)
      (StoppedBy k f w test.isSome .testing) :=
    (ensures_installOnly install).mono (fun _ _ h => h) fun c h => by
      obtain ⟨p, hp, hin, hbroken⟩ := h
      exact ⟨p, hp.trans (by decide), hin, hbroken⟩
  refine hinstall.bind fun context => ?_
  cases test with
  | none => exact fun c h => h.2.mono (by decide) fun _ _ => trivial
  | some test =>
    exact ((leads_runTest k test _).ensures (by decide) (ensures_runTest test _)).bind
      fun _ _ h => h.2

end Cook

end Formulary
