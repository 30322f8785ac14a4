import Formulary.Proofs.Cook.Course
import Formulary.Proofs.Flags

/-!
# What a report has to show

A report is filled in on the way : each phase that succeeds adds what it found, and the test adds
its outcome even when it fails. So a report shows the check of the host, the files of the source,
the flags and the installation exactly when the cook came to the phase that follows the one they are
from (`Cook.evident`).
-/

namespace Formulary

/-! ## Evidence -/

/-- What a report tells of the way. -/
structure Evidence where
  dependencies : Option Classified
  host : Option HostCheck
  sourceFiles : Option Nat
  vars : Option Bindings
  flags : List String
  installed : Option Installed
  test : Option TestOutcome

/-- The evidence in a report. -/
def Report.evidence (r : Report) : Evidence :=
  ⟨r.dependencies, r.host, r.sourceFiles, r.vars, r.flags, r.installed, r.test⟩

theorem Report.Closes.evidence {r r' : Report} (h : r.Closes r') : r.evidence = r'.evidence := by
  obtain ⟨_, _, _, _, rfl⟩ := h
  rfl

/-- The evidence in a report agrees with its trail. -/
structure Report.Evident (r : Report) : Prop where
  /-- The host was checked when the source was to be fetched. -/
  host : r.host.isSome = true ↔ r.Entered .fetching
  /-- Then the dependencies were sorted. -/
  dependencies : r.host.isSome = true → r.dependencies.isSome = true
  /-- The files were counted when variables were to be resolved. -/
  sourceFiles : r.sourceFiles.isSome = true ↔ r.Entered .resolving
  /-- There are flags when the build was to begin. -/
  flags : r.flags ≠ [] ↔ r.Entered .building
  /-- Then there are variables. -/
  vars : r.flags ≠ [] → r.vars.isSome = true
  /-- There is an installation when there was a test to come, or nothing more. -/
  installed : r.installed.isSome = true ↔ r.Entered .testing ∨ r.Entered .done
  /-- An outcome is that of a test. -/
  tested : r.test.isSome = true → r.Entered .testing
  /-- The test passed when the cook went on to its end. -/
  passed : r.test = some .passed ↔ r.Entered .testing ∧ r.Entered .done
  /-- A test that did not pass made the cook fail, and the installation stays. -/
  notPassed : ∀ outcome, r.test = some outcome → outcome ≠ .passed →
    (∃ message, r.failure = some ⟨.testing, .test, message⟩) ∧ r.installed.isSome = true

/-- After the phase of the test there is only the end. -/
theorem Phase.testing_le_iff {p : Phase} :
    Phase.testing.index ≤ p.index ↔ p = .testing ∨ p = .done := by
  cases p <;> decide

/-- Nothing comes after the end. -/
theorem Phase.done_le_iff {p : Phase} : Phase.done.index ≤ p.index ↔ p = .done := by
  cases p <;> decide

namespace Evidence

/-- The evidence that there is in a phase, the outcome of a test apart. -/
structure Shows (e : Evidence) (p : Phase) : Prop where
  host : e.host.isSome = true ↔ Phase.fetching.index ≤ p.index
  dependencies : e.host.isSome = true → e.dependencies.isSome = true
  sourceFiles : e.sourceFiles.isSome = true ↔ Phase.resolving.index ≤ p.index
  flags : e.flags ≠ [] ↔ Phase.building.index ≤ p.index
  vars : e.flags ≠ [] → e.vars.isSome = true
  installed : e.installed.isSome = true ↔ Phase.testing.index ≤ p.index

/-- The evidence when a phase is about to begin. -/
structure Ready (hasTest : Bool) (p : Phase) (e : Evidence) : Prop extends e.Shows p where
  test : e.test = if p = .done ∧ hasTest = true then some .passed else none

/-- The evidence when a cook has failed in a phase. -/
structure Stopped (p : Phase) (failure : Error) (e : Evidence) : Prop extends e.Shows p where
  test : e.test = none ∨ e.test ≠ some .passed ∧ p = .testing ∧ failure.kind = .test

variable {e : Evidence} {hasTest : Bool} {p : Phase}

/-- What there is in a phase there is in another, unless one of the phases lies between them that
evidence comes with. -/
theorem Shows.later {q : Phase} (h : e.Shows p)
    (hbetween : ∀ m ∈ [Phase.fetching, .resolving, .building, .testing],
      m.index ≤ p.index ↔ m.index ≤ q.index) : e.Shows q where
  host := h.host.trans (hbetween _ (by decide))
  dependencies := h.dependencies
  sourceFiles := h.sourceFiles.trans (hbetween _ (by decide))
  flags := h.flags.trans (hbetween _ (by decide))
  vars := h.vars
  installed := h.installed.trans (hbetween _ (by decide))

theorem Ready.test_eq_none (h : Ready hasTest p e) (hp : p ≠ .done) : e.test = none := by
  rw [h.test, if_neg fun hand => hp hand.1]

theorem Ready.of_shows (hp : p ≠ .done) (h : e.Shows p) (ht : e.test = none) :
    Ready hasTest p e :=
  ⟨h, by rw [ht, if_neg fun hand => hp hand.1]⟩

theorem Ready.later {q : Phase} (h : Ready hasTest p e) (hp : p ≠ .done) (hq : q ≠ .done)
    (hbetween : ∀ m ∈ [Phase.fetching, .resolving, .building, .testing],
      m.index ≤ p.index ↔ m.index ≤ q.index) : Ready hasTest q e :=
  .of_shows hq (h.toShows.later hbetween) (h.test_eq_none hp)

/-- Before its end a cook may fail at any time. -/
theorem Ready.stopped (h : Ready hasTest p e) (hp : p ≠ .done) (failure : Error) :
    Stopped p failure e :=
  ⟨h.toShows, .inl (h.test_eq_none hp)⟩

end Evidence

theorem Flags.ne_nil_of_render {entries : List FlagEntry} {vars : Bindings} {flags : List String}
    (h : render entries vars = .ok flags) : flags ≠ [] := by
  obtain ⟨rendered, rfl, -⟩ := render_eq_ok_iff.1 h
  exact List.cons_ne_nil _ _

theorem TestOutcome.eq_passed_of_toResult {outcome : TestOutcome} {u : Unit}
    (h : outcome.toResult = .ok u) : outcome = .passed := by
  cases outcome with
  | passed => rfl
  | failed reason => exact absurd h nofun
  | stubbed reason => exact absurd h nofun

theorem TestOutcome.of_toResult_eq_error {outcome : TestOutcome} {e : Error}
    (h : outcome.toResult = .error e) : outcome ≠ .passed ∧ e.kind = .test := by
  cases outcome with
  | passed => exact absurd h nofun
  | failed reason => exact ⟨nofun, by obtain rfl := Except.error.inj h; rfl⟩
  | stubbed reason => exact ⟨nofun, by obtain rfl := Except.error.inj h; rfl⟩

namespace Cook

open Evidence

variable {k : Kitchen} {f : Formula} {install : InstallProcedure} {hasTest : Bool}

/-! ## The phases -/

theorem tells_fixBase : Tells (fun r => Ready hasTest .init r.evidence) fixBase
    (fun _ r => Ready hasTest .init r.evidence) (fun e r => Stopped .init e r.evidence) := by
  refine tells_get.bind fun c => ?_
  dsimp only
  split
  · exact tells_throw fun r h => h.2.stopped (by decide) _
  · split
    · exact tells_record _ fun r h => h.2
    · exact tells_throw fun r h => h.2.stopped (by decide) _

theorem tells_checkHost (needed : Classified) {before : Report → Prop}
    {failed : Error → Report → Prop} (h : ∀ e r, before r → failed e r) :
    Tells before (checkHost k needed) (fun _ => before) failed := by
  have hanswer {ε α : Type} (toError : ε → Error) (answer : Except ε α) :
      Tells before (orHalt toError answer) (fun _ => before) failed :=
    (tells_orHalt fun e r _ hr => h _ r hr).mono fun _ _ hr => hr.2
  unfold checkHost
  split
  · exact tells_pure fun r hr => hr
  · refine ((tells_inWorld _).mono fun _ _ hr => hr.2).bind fun answer => ?_
    exact (hanswer id answer).bind fun host => hanswer _ _

theorem tells_prepare (k : Kitchen) (f : Formula) :
    Tells (fun r => Ready hasTest .init r.evidence) (prepare k f)
      (fun _ r => Ready hasTest .fetching r.evidence) (fun e r => Stopped .init e r.evidence) := by
  have hstopped : ∀ e r, Ready hasTest .init r.evidence ∧ r.dependencies.isSome = true →
      Stopped .init e (Report.evidence r) := fun e r hr => hr.1.stopped (by decide) e
  have hfound (check : HostCheck) (r : Report)
      (hr : Ready hasTest .init r.evidence ∧ r.dependencies.isSome = true) :
      Ready hasTest .fetching { r.evidence with host := some check } :=
    .of_shows (by decide) {
      host := by simp
      dependencies := fun _ => hr.2
      sourceFiles := hr.1.sourceFiles.trans (by decide)
      flags := hr.1.flags.trans (by decide)
      vars := hr.1.vars
      installed := hr.1.installed.trans (by decide) } (hr.1.test_eq_none (by decide))
  refine tells_fixBase.bind fun _ => ?_
  refine (tells_orHalt fun e r _ hr => hr.stopped (by decide) _).bind fun warnings => ?_
  refine (tells_record (fun r => Ready hasTest .init r.evidence) fun r hr => hr.2).bind fun _ => ?_
  refine (tells_record
    (fun r => Ready hasTest .init r.evidence ∧ r.dependencies.isSome = true)
    fun r hr => ⟨?_, rfl⟩).bind fun _ => ?_
  · exact .of_shows (by decide) { hr.toShows with dependencies := fun _ => rfl }
      (hr.test_eq_none (by decide))
  refine (tells_checkHost _ hstopped).bind fun check => ?_
  split
  · refine (tells_inWorld _).bind fun answer => ?_
    refine (tells_orHalt fun e r _ hr => hstopped _ r hr.2).bind fun _ => ?_
    exact tells_record _ fun r hr => hfound check r hr.2.2
  · exact tells_record _ fun r hr => hfound check r hr

theorem tells_fetchSource (k : Kitchen) (f : Formula) :
    Tells (fun r => Ready hasTest .fetching r.evidence) (fetchSource k f)
      (fun _ r => Ready hasTest .verifying r.evidence)
      (fun e r => Stopped .fetching e r.evidence) := by
  refine (tells_enter _).bind fun _ => (tells_inWorld _).bind fun answer => ?_
  refine (tells_orHalt fun e r _ hr => hr.2.stopped (by decide) _).bind fun archive => ?_
  exact (tells_record (fun r => Ready hasTest .verifying r.evidence) fun r hr =>
    hr.2.2.later (by decide) (by decide) (by decide)).bind fun _ => tells_pure fun r hr => hr

theorem tells_unpackSource (k : Kitchen) (archive : Verified) :
    Tells (fun r => Ready hasTest .verifying r.evidence) (unpackSource k archive)
      (fun _ r => Ready hasTest .resolving r.evidence)
      (fun e r => Stopped .verifying e r.evidence) := by
  refine (tells_enter _).bind fun _ => (tells_inWorld _).bind fun made => ?_
  cases made with
  | error f => exact tells_throw fun r hr => hr.2.stopped (by decide) _
  | ok p =>
    refine (tells_inWorld _).bind fun unpacked => ?_
    cases unpacked with
    | error f =>
      exact (tells_inWorld _).bind fun _ =>
        tells_throw fun r hr => hr.2.2.2.stopped (by decide) _
    | ok tree =>
      refine (tells_inWorld _).bind fun files => ?_
      refine (tells_record (fun r => Ready hasTest .verifying r.evidence)
        fun r hr => hr.2.2.2).bind fun _ => ?_
      refine (tells_record (fun r => Ready hasTest .resolving r.evidence) fun r hr => ?_).bind
        fun _ => (tells_buildDirectory p).bind fun _ => tells_pure fun r hr => hr
      exact .of_shows (by decide) {
        host := hr.host.trans (by decide)
        dependencies := hr.dependencies
        sourceFiles := by simp [Report.evidence]
        flags := hr.flags.trans (by decide)
        vars := hr.vars
        installed := hr.installed.trans (by decide) } (hr.test_eq_none (by decide))

/-- The variables stay when they cannot be rendered, but there are no flags then. -/
theorem tells_resolveFlags (k : Kitchen) (f : Formula) (tree : SourceTree) :
    Tells (fun r => Ready hasTest .resolving r.evidence) (resolveFlags k f tree)
      (fun _ r => Ready hasTest .building r.evidence)
      (fun e r => Stopped .resolving e r.evidence) := by
  refine (tells_enter _).bind fun _ => (tells_inWorld _).bind fun answer => ?_
  refine (tells_orHalt fun e r _ hr => hr.2.stopped (by decide) _).bind fun vars => ?_
  refine (tells_record
    (fun r => Ready hasTest .resolving r.evidence ∧ r.vars.isSome = true)
    fun r hr => ⟨?_, rfl⟩).bind fun _ => ?_
  · exact .of_shows (by decide) { hr.2.2.toShows with vars := fun _ => rfl }
      (hr.2.2.test_eq_none (by decide))
  refine (tells_orHalt fun e r _ hr => hr.1.stopped (by decide) _).bind fun flags => ?_
  refine (tells_record (fun r => Ready hasTest .building r.evidence) fun r hr => ?_).bind
    fun _ => tells_pure fun r hr => hr
  obtain ⟨hrender, hready, hvars⟩ := hr
  exact .of_shows (by decide) {
    host := hready.host.trans (by decide)
    dependencies := hready.dependencies
    sourceFiles := hready.sourceFiles.trans (by decide)
    flags := iff_of_true (Flags.ne_nil_of_render hrender) le_rfl
    vars := fun _ => hvars
    installed := hready.installed.trans (by decide) } (hready.test_eq_none (by decide))

theorem tells_build (install : InstallProcedure) (context : BuildContext) :
    Tells (fun r => Ready hasTest .building r.evidence) (build install context)
      (fun _ r => Ready hasTest .installing r.evidence)
      (fun e r => Stopped .building e r.evidence) := by
  refine (tells_enter _).bind fun _ => (tells_inWorld _).bind fun there => ?_
  split
  · refine (tells_inWorld _).bind fun answer => ?_
    refine (tells_orHalt fun e r _ hr => hr.2.2.stopped (by decide) _).bind fun log => ?_
    exact tells_record _ fun r hr => hr.2.2.2.later (by decide) (by decide) (by decide)
  · exact tells_throw fun r hr => hr.2.stopped (by decide) _

/-- What was installed is shown when only the test is left, or nothing. -/
theorem tells_installArtifacts (install : InstallProcedure) (context : BuildContext) :
    Tells (fun r => Ready hasTest .installing r.evidence) (installArtifacts install context)
      (fun _ r => Ready hasTest (if hasTest then .testing else .done) r.evidence)
      (fun e r => Stopped .installing e r.evidence) := by
  refine (tells_enter _).bind fun _ => (tells_inWorld _).bind fun answer => ?_
  refine (tells_orHalt fun e r _ hr => hr.2.stopped (by decide) _).bind fun installed => ?_
  refine (tells_record (fun r => Ready hasTest .installing r.evidence) fun r hr => hr.2.2).bind
    fun _ => tells_record _ fun r hr => ?_
  have hshows (q : Phase) (hq : Phase.testing.index ≤ q.index) :
      Shows { r.evidence with installed := some installed } q := {
    host := hr.host.trans (iff_of_true (by decide) (le_trans (by decide) hq))
    dependencies := hr.dependencies
    sourceFiles := hr.sourceFiles.trans (iff_of_true (by decide) (le_trans (by decide) hq))
    flags := hr.flags.trans (iff_of_true (by decide) (le_trans (by decide) hq))
    vars := hr.vars
    installed := iff_of_true rfl hq }
  cases hasTest with
  | true => exact .of_shows (by decide) (hshows .testing le_rfl) (hr.test_eq_none (by decide))
  | false => exact ⟨hshows .done (by decide), hr.test_eq_none (by decide)⟩

/-- The outcome of a test is shown before it is judged. -/
theorem tells_runTest (k : Kitchen) (test : TestProcedure) (base : Path) :
    Tells (fun r => Ready true .testing r.evidence) (runTest k test base)
      (fun _ r => Ready true .done r.evidence) (fun e r => Stopped .testing e r.evidence) := by
  refine (tells_enter _).bind fun _ => (tells_inWorld _).bind fun answer => ?_
  -- a sandbox that fails leaves the test without an outcome
  refine (tells_orHalt fun e r _ hr => hr.2.stopped (by decide) _).bind fun outcome => ?_
  refine (tells_record (fun r => Shows r.evidence .testing ∧ r.test = some outcome)
    fun r hr => ⟨{ hr.2.2.toShows with }, rfl⟩).bind fun _ => ?_
  refine (tells_orHalt fun e r he hr => ?_).mono fun _ r hr => ?_
  · obtain ⟨hne, hkind⟩ := TestOutcome.of_toResult_eq_error he
    refine ⟨hr.1, .inr ⟨fun h => hne ?_, rfl, hkind⟩⟩
    exact Option.some.inj (hr.2.symm.trans h)
  · obtain ⟨hpassed, hshows, houtcome⟩ := hr
    rw [TestOutcome.eq_passed_of_toResult hpassed] at houtcome
    exact ⟨hshows.later (by decide), houtcome⟩

/-! ## The whole cook -/

variable {test : Option TestProcedure}

theorem contract_evidence (k : Kitchen) (f : Formula) (install : InstallProcedure)
    (test : Option TestProcedure) :
    Contract k f install test (fun p r => Ready test.isSome p r.evidence)
      (fun p e r => Stopped p e r.evidence) where
  prepare := tells_prepare k f
  fetch := tells_fetchSource k f
  unpack := tells_unpackSource k
  resolve := tells_resolveFlags k f
  build _ _ _ _ := tells_build install _
  install _ _ _ _ := tells_installArtifacts install _
  test t base ht := by
    rw [ht]
    exact tells_runTest k t base

theorem ready_start (k : Kitchen) (f : Formula) (base : Path) (hasTest : Bool) (w : World) :
    Ready hasTest .init (start k f base hasTest w).report.evidence := by
  refine .of_shows (by decide) ?_ rfl
  constructor <;> simp [Report.evidence, start] <;> decide

/-- The report of a cook was closed in some phase, shows the evidence of it, and there is no failure
or one in that phase. -/
theorem report_shows (k : Kitchen) (f : Formula) (install : InstallProcedure)
    (test : Option TestProcedure) (base : Path) (w : World) :
    let r := (k.cookWith f install test base w).1
    ∃ p r', ClosedIn test.isSome p r r' ∧ r.evidence.Shows p ∧
      (p = .done ∧ r.test = (if test.isSome = true then some .passed else none) ∧
          r.failure = none ∨
        p ≠ .done ∧ ∃ e, Stopped p e r.evidence ∧ r.failure = some (.of p e)) := by
  intro r
  rcases (contract_evidence k f install test).report base w (ready_start k f base _ w) with
    ⟨c, hready, hclosed, hfailure, -⟩ | ⟨p, e, c, hp, hstopped, hclosed, hfailure, -⟩
  · rw [← hclosed.closes.evidence] at hready
    have htest : r.test = if test.isSome = true then some .passed else none :=
      hready.test.trans (if_congr (and_iff_right rfl) rfl rfl)
    exact ⟨.done, c.report, hclosed, hready.toShows, .inl ⟨rfl, htest, hfailure⟩⟩
  · rw [← hclosed.closes.evidence] at hstopped
    exact ⟨p, c.report, hclosed, hstopped.toShows, .inr ⟨hp, e, hstopped, hfailure⟩⟩

variable {r r' : Report} {p : Phase}

/-- After the installation there is the test or the end. -/
theorem ClosedIn.testing_le_iff (h : ClosedIn hasTest p r r') :
    Phase.testing.index ≤ p.index ↔ r.Entered .testing ∨ r.Entered .done := by
  rw [h.entered_testing_iff, h.entered_iff (by decide)]
  constructor
  · intro hle
    rcases Phase.testing_le_iff.1 hle with rfl | rfl
    · exact .inl ⟨Phase.mem_path_iff.1 h.mem_path rfl, hle⟩
    · exact .inr le_rfl
  · rintro (⟨-, hle⟩ | hle)
    · exact hle
    · exact le_trans (by decide) hle

/-- What a report shows of the phase that it was closed in agrees with its trail. The outcome of the
test is left. -/
theorem evident_of_shows (hclosed : ClosedIn hasTest p r r') (hshows : r.evidence.Shows p)
    (tested : r.test.isSome = true → r.Entered .testing)
    (passed : r.test = some .passed ↔ r.Entered .testing ∧ r.Entered .done)
    (notPassed : ∀ outcome, r.test = some outcome → outcome ≠ .passed →
      (∃ message, r.failure = some ⟨.testing, .test, message⟩) ∧ r.installed.isSome = true) :
    r.Evident := by
  have hentered {q : Phase} (hq : q ≠ .testing) : q.index ≤ p.index ↔ r.Entered q :=
    (hclosed.entered_iff hq).symm
  exact {
    host := hshows.host.trans (hentered (by decide))
    dependencies := hshows.dependencies
    sourceFiles := hshows.sourceFiles.trans (hentered (by decide))
    flags := hshows.flags.trans (hentered (by decide))
    vars := hshows.vars
    installed := hshows.installed.trans hclosed.testing_le_iff
    tested, passed, notPassed }

/-- A test before the end has passed. -/
theorem evident_of_finished (hclosed : ClosedIn hasTest .done r r')
    (hshows : r.evidence.Shows .done)
    (htest : r.test = if hasTest = true then some .passed else none) : r.Evident := by
  have hdone : r.Entered .done := (hclosed.entered_iff (by decide)).2 le_rfl
  have htesting : r.Entered .testing ↔ hasTest = true := by
    rw [hclosed.entered_testing_iff, and_iff_left (by decide)]
  refine evident_of_shows hclosed hshows (fun htested => ?_) ?_ fun outcome houtcome hne => ?_
  · rw [htest] at htested
    exact htesting.2 (of_not_not fun hnone => by simp [hnone] at htested)
  · rw [htest, htesting, and_iff_left hdone]
    cases hasTest <;> decide
  · rw [htest] at houtcome
    split at houtcome
    · exact absurd (Option.some.inj houtcome).symm hne
    · exact absurd houtcome nofun

/-- A test before a failure is none, or is the one that did not pass. -/
theorem evident_of_stopped {e : Error} (hclosed : ClosedIn hasTest p r r') (hp : p ≠ .done)
    (hstopped : Stopped p e r.evidence) (hfailure : r.failure = some (.of p e)) : r.Evident := by
  have hdone : ¬r.Entered .done := fun h =>
    hp (Phase.done_le_iff.1 ((hclosed.entered_iff (by decide)).1 h))
  have hnot : r.test ≠ some .passed := by
    rcases hstopped.test with hnone | ⟨hnot, -⟩
    · exact fun hpassed => absurd (hnone.symm.trans hpassed) nofun
    · exact hnot
  have htesting (outcome : TestOutcome) (houtcome : r.test = some outcome) :
      p = .testing ∧ e.kind = .test := by
    rcases hstopped.test with hnone | ⟨-, hand⟩
    · exact absurd (hnone.symm.trans houtcome) nofun
    · exact hand
  refine evident_of_shows hclosed hstopped.toShows (fun htested => ?_)
    (iff_of_false hnot fun h => hdone h.2) fun outcome houtcome _ => ?_
  · obtain ⟨outcome, houtcome⟩ := Option.isSome_iff_exists.1 htested
    obtain ⟨rfl, -⟩ := htesting outcome houtcome
    exact (hclosed.entered _).2 ⟨hclosed.mem_path, le_rfl⟩
  · obtain ⟨rfl, hkind⟩ := htesting outcome houtcome
    refine ⟨⟨e.message, ?_⟩, hstopped.installed.2 le_rfl⟩
    rw [hfailure, Failure.of, hkind]

/-- The report of every cook shows what its trail says. -/
theorem evident (k : Kitchen) (f : Formula) (install : InstallProcedure)
    (test : Option TestProcedure) (base : Path) (w : World) :
    (k.cookWith f install test base w).1.Evident := by
  obtain ⟨p, r', hclosed, hshows, hend⟩ := report_shows k f install test base w
  rcases hend with ⟨rfl, htest, -⟩ | ⟨hp, e, hstopped, hfailure⟩
  · exact evident_of_finished hclosed hshows htest
  · exact evident_of_stopped hclosed hp hstopped hfailure

end Cook

end Formulary
