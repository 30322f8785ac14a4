import Formulary.Kitchen
import Formulary.Proofs.Cook.Steps
import Formulary.Proofs.Lifecycle

/-!
# The trail of a cook

Every step of a cook enters at most one phase, and all else it does leaves its standing : where it
is, which phases it was refused, and whether it has failed. So a cook that is lawfully in a phase
(`Cook.InPhase`) comes lawfully into the next one, or halts on the way (`Passes`).

The main result is `Cook.report_consistent` : the report of any cook is that of a cook which went
the whole legal path, or of one which halted at some phase of it, and failure, trail and exit
status agree.
-/

namespace Formulary.Cook

variable {α β : Type} {hasTest : Bool} {p q s : Phase}

/-! ## Standing -/

/-- Where a cook is, which phases it was refused, and whether it has failed. -/
def standing (c : Cook) : Lifecycle × List Phase × Option Failure :=
  (c.lifecycle, c.refused, c.report.failure)

/-- The cook came to a phase on the legal path, no phase was refused, and it has not failed. -/
structure InPhase (hasTest : Bool) (p : Phase) (c : Cook) : Prop where
  isAt : c.lifecycle.IsAt hasTest p
  refused : c.refused = []
  failure : c.report.failure = none

theorem InPhase.of_standing_eq {c c' : Cook} (h : c.InPhase hasTest p)
    (hs : c'.standing = c.standing) : c'.InPhase hasTest p := by
  obtain ⟨hl, hr, hf⟩ : c'.lifecycle = c.lifecycle ∧ c'.refused = c.refused ∧
      c'.report.failure = c.report.failure := by
    simpa [standing] using hs
  exact ⟨hl ▸ h.isAt, hr.trans h.refused, hf.trans h.failure⟩

theorem inPhase_start (k : Kitchen) (f : Formula) (base : Path) (hasTest : Bool) (w : World) :
    (start k f base hasTest w).InPhase hasTest .init :=
  ⟨Lifecycle.isAt_start hasTest, rfl, rfl⟩

/-- The cook came to some phase before the last. -/
def IsUnderWay (hasTest : Bool) (c : Cook) : Prop := ∃ p, p ≠ .done ∧ c.InPhase hasTest p

/-- From one phase, the step leads to another, or halts before the last. -/
def Passes (hasTest : Bool) (p q : Phase) (x : CookM α) : Prop :=
  Ensures (InPhase hasTest p) x (fun _ => InPhase hasTest q) (IsUnderWay hasTest)

theorem Passes.refused {x : CookM α} (hx : Passes hasTest p q x) {c : Cook}
    (hc : c.InPhase hasTest p) : (x.run c).2.refused = [] := by
  have h := hx c hc
  cases hr : x.run c with
  | mk r c' =>
    rw [hr] at h
    cases r with
    | error e =>
      obtain ⟨s, -, hin⟩ := h
      exact hin.refused
    | ok a => exact h.refused

/-- From one phase, the step leads to another, however it ends. -/
def Leads (hasTest : Bool) (p q : Phase) (x : CookM α) : Prop :=
  ∀ c, c.InPhase hasTest p → (x.run c).2.InPhase hasTest q

theorem Leads.passes {x : CookM α} (h : Leads hasTest p q x) (hq : q ≠ .done) :
    Passes hasTest p q x := by
  intro c hc
  have hin := h c hc
  cases hr : x.run c with
  | mk r c' =>
    rw [hr] at hin
    cases r with
    | error e => exact ⟨q, hq, hin⟩
    | ok a => exact hin

/-- A step that keeps the standing stays in its phase. -/
theorem Keeps.leads {x : CookM α} (h : Keeps standing x) : Leads hasTest p p x :=
  fun c hc => hc.of_standing_eq (h c)

/-- The phase that follows is entered, and not refused. -/
theorem leads_enter (hn : p.next? hasTest = some q) : Leads hasTest p q (enter q) := by
  intro c hc
  obtain ⟨hadv, hat⟩ := hc.isAt.advance hn
  rw [run_enter, hadv]
  exact ⟨hat, hc.refused, hc.failure⟩

/-- The end is entered without a failure. -/
theorem passes_enter_done (hn : p.next? hasTest = some .done) :
    Passes hasTest p .done (enter .done) :=
  fun c hc => leads_enter hn c hc

/-- A step that enters a phase and then keeps the standing. -/
theorem leads_enter_bind {x : CookM α} (hn : p.next? hasTest = some q)
    (h : Keeps standing x) : Leads hasTest p q (enter q >>= fun _ => x) :=
  fun c hc => h.leads _ (leads_enter hn c hc)

theorem keeps_standing_inWorld (act : WorldM α) : Keeps standing (inWorld act) :=
  keeps_inWorld act fun _ _ => rfl

theorem keeps_standing_logLine (line : String) : Keeps standing (logLine line) :=
  keeps_record _ fun _ => rfl

/-! ## The phases -/

theorem leads_prepare (k : Kitchen) (f : Formula) :
    Leads hasTest .init .init (prepare k f) :=
  (keeps_prepare (fun _ _ => rfl) (fun _ _ _ _ _ => rfl) k f).leads

theorem leads_fetchSource (k : Kitchen) (f : Formula) :
    Leads hasTest .init .fetching (fetchSource k f) := by
  refine leads_enter_bind rfl ?_
  exact (keeps_standing_inWorld _).bind fun _ => (keeps_orHalt _ _).bind fun _ =>
    (keeps_standing_logLine _).bind fun _ => keeps_pure _

theorem leads_unpackSource (k : Kitchen) (archive : Verified) :
    Leads hasTest .fetching .verifying (unpackSource k archive) := by
  refine leads_enter_bind rfl ?_
  refine (keeps_standing_inWorld _).bind fun made => ?_
  cases made with
  | error f => exact keeps_throw _
  | ok p =>
    refine (keeps_standing_inWorld _).bind fun unpacked => ?_
    cases unpacked with
    | error f => exact (keeps_standing_inWorld _).bind fun _ => keeps_throw _
    | ok tree =>
      exact (keeps_standing_inWorld _).bind fun _ => (keeps_standing_logLine _).bind fun _ =>
        Keeps.bind (keeps_record _ fun _ => rfl) fun _ =>
        Keeps.bind (keeps_modify _ fun _ => rfl) fun _ => keeps_pure _

theorem leads_resolveFlags (k : Kitchen) (f : Formula) (tree : SourceTree) :
    Leads hasTest .verifying .resolving (resolveFlags k f tree) := by
  refine leads_enter_bind rfl ?_
  exact (keeps_standing_inWorld _).bind fun _ => (keeps_orHalt _ _).bind fun _ =>
    Keeps.bind (keeps_record _ fun _ => rfl) fun _ => (keeps_orHalt _ _).bind fun _ =>
    Keeps.bind (keeps_record _ fun _ => rfl) fun _ => keeps_pure _

theorem leads_build (install : InstallProcedure) (context : BuildContext) :
    Leads hasTest .resolving .building (build install context) := by
  refine leads_enter_bind rfl ?_
  refine (keeps_standing_inWorld _).bind fun there => ?_
  split
  · exact (keeps_standing_inWorld _).bind fun _ => (keeps_orHalt _ _).bind fun _ =>
      keeps_record _ fun _ => rfl
  · exact keeps_throw _

theorem leads_installArtifacts (install : InstallProcedure) (context : BuildContext) :
    Leads hasTest .building .installing (installArtifacts install context) := by
  refine leads_enter_bind rfl ?_
  exact (keeps_standing_inWorld _).bind fun _ => (keeps_orHalt _ _).bind fun _ =>
    (keeps_standing_logLine _).bind fun _ => keeps_record _ fun _ => rfl

theorem leads_runTest (k : Kitchen) (test : TestProcedure) (base : Path) :
    Leads true .installing .testing (runTest k test base) := by
  refine leads_enter_bind rfl ?_
  exact (keeps_standing_inWorld _).bind fun _ => (keeps_orHalt _ _).bind fun _ =>
    Keeps.bind (keeps_record _ fun _ => rfl) fun _ => keeps_orHalt _ _

/-! ## Whole runs -/

theorem passes_prepare (k : Kitchen) (f : Formula) :
    Passes hasTest .init .init (prepare k f) :=
  (leads_prepare k f).passes (by decide)

theorem passes_fetchSource (k : Kitchen) (f : Formula) :
    Passes hasTest .init .fetching (fetchSource k f) :=
  (leads_fetchSource k f).passes (by decide)

theorem passes_unpackSource (k : Kitchen) (archive : Verified) :
    Passes hasTest .fetching .verifying (unpackSource k archive) :=
  (leads_unpackSource k archive).passes (by decide)

theorem passes_resolveFlags (k : Kitchen) (f : Formula) (tree : SourceTree) :
    Passes hasTest .verifying .resolving (resolveFlags k f tree) :=
  (leads_resolveFlags k f tree).passes (by decide)

theorem passes_fetchOnly (k : Kitchen) (f : Formula) :
    Passes hasTest .init .fetching (fetchOnly k f) :=
  (passes_prepare k f).bind fun _ => passes_fetchSource k f

theorem passes_flagsOnly (k : Kitchen) (f : Formula) :
    Passes hasTest .init .resolving (flagsOnly k f) :=
  (passes_prepare k f).bind fun _ => (passes_fetchSource k f).bind fun archive =>
    (passes_unpackSource k archive).bind fun tree => passes_resolveFlags k f tree

theorem passes_installOnly (k : Kitchen) (f : Formula) (install : InstallProcedure) :
    Passes hasTest .init .installing (installOnly k f install) := by
  refine (passes_prepare k f).bind fun _ => (passes_fetchSource k f).bind fun archive =>
    (passes_unpackSource k archive).bind fun tree =>
    (passes_resolveFlags k f tree).bind fun resolved =>
    (keeps_get.leads.passes (by decide)).bind fun c =>
    ((leads_build install _).passes (by decide)).bind fun _ =>
    ((leads_installArtifacts install _).passes (by decide)).bind fun _ => ?_
  exact (keeps_pure _).leads.passes (by decide)

/-- A test is run exactly when there is one, so the end is reached lawfully. -/
theorem passes_phases (k : Kitchen) (f : Formula) (install : InstallProcedure)
    (test : Option TestProcedure) :
    Passes test.isSome .init .done (phases k f install test) := by
  refine (passes_installOnly k f install).bind fun context => ?_
  cases test with
  | none => exact passes_enter_done rfl
  | some test =>
    exact ((leads_runTest k test _).passes (by decide)).bind fun _ => passes_enter_done rfl

/-! ## Halting and finishing -/

theorem standing_keepBuildDirectory (c : Cook) :
    (keepBuildDirectory c).2.standing = c.standing := by
  unfold keepBuildDirectory
  rw [modify_apply]
  dsimp only
  split <;> rfl

theorem standing_cleanUp (c : Cook) : (cleanUp c).2.standing = c.standing := by
  unfold cleanUp
  rw [modify_apply]
  dsimp only
  split <;> rfl

/-- Closing the report copies the trail into it. -/
theorem finish_spec (k : Kitchen) (c : Cook) :
    (finish k c).2.refused = c.refused ∧ (finish k c).2.report.failure = c.report.failure ∧
      (finish k c).2.report.trail = c.lifecycle.trail := by
  have hview : ∀ d : Cook, d.standing = c.standing → d.refused = c.refused ∧
      d.report.failure = c.report.failure ∧ d.lifecycle.trail = c.lifecycle.trail := by
    intro d hd
    obtain ⟨hl, hr, hf⟩ := by simpa [standing] using hd
    exact ⟨hr, hf, by rw [hl]⟩
  unfold finish
  split
  · exact hview _ (standing_keepBuildDirectory c)
  · exact hview _ (standing_cleanUp c)

/-- A run takes the steps of the phases, halts if they failed, and closes the report. -/
theorem run_eq (k : Kitchen) (f : Formula) (install : InstallProcedure)
    (test : Option TestProcedure) (c : Cook) :
    (run k f install test c).2 = match (phases k f install test).run c with
      | (.ok _, c') => (finish k c').2
      | (.error e, c') => (finish k (halt e c').2).2 := by
  show (StateT.bind (phases k f install test).run _ c).2 = _
  unfold StateT.bind
  obtain ⟨_ | _, _⟩ := (phases k f install test).run c <;> rfl

/-- The report of a cook that went the whole path. -/
def Completed (hasTest : Bool) (r : Report) : Prop :=
  r.trail = (Phase.path hasTest).map .reached ∧ r.failure = none

/-- The report of a cook that halted with a failure : its trail is a part of the path that does
not reach the end, and then the failure in the last phase of that part. -/
def Halted (hasTest : Bool) (e : Error) (r : Report) : Prop :=
  ∃ passed p rest, Phase.path hasTest = passed ++ p :: rest ∧ rest ≠ [] ∧
    r.trail = (passed ++ [p]).map .reached ++ [.failed p e.kind] ∧ r.failure = some (.of p e)

/-- No phase is refused. When the steps of the phases succeed the report is that of a completed
cook, and otherwise that of one that halted with their failure. -/
theorem run_spec (k : Kitchen) (f : Formula) (install : InstallProcedure)
    (test : Option TestProcedure) {c : Cook} (hc : c.InPhase test.isSome .init) :
    (run k f install test c).2.refused = [] ∧
      match ((phases k f install test).run c).1 with
      | .ok _ => Completed test.isSome (run k f install test c).2.report
      | .error e => Halted test.isSome e (run k f install test c).2.report := by
  have hp := passes_phases k f install test c hc
  rw [run_eq]
  cases hs : (phases k f install test).run c with
  | mk r c' =>
    rw [hs] at hp
    cases r with
    | ok u =>
      obtain ⟨⟨-, passed, rest, hpath, htrail⟩, hrefused, hfailure⟩ := hp
      obtain ⟨hr, hf, ht⟩ := finish_spec k c'
      obtain rfl := (Phase.eq_nil_iff_of_path hpath).2 rfl
      exact ⟨hr.trans hrefused, by rw [ht, htrail, hpath], hf.trans hfailure⟩
    | error e =>
      obtain ⟨p, hne, hin⟩ := hp
      obtain ⟨hr, hf, ht⟩ := finish_spec k (halt e c').2
      obtain ⟨-, passed, rest, hpath, htrail⟩ := hin.isAt
      refine ⟨hr.trans hin.refused, passed, p, rest, hpath,
        fun h => hne ((Phase.eq_nil_iff_of_path hpath).1 h), ?_, ?_⟩
      · rw [ht, ← htrail]
        exact hin.isAt.trail_fail hne e.kind
      · rw [hf, ← hin.isAt.phase]
        rfl

/-! ## Verdicts -/

theorem Completed.state {r : Report} (h : Completed hasTest r) : r.state = .reached .done := by
  rw [Report.state, h.1, List.getLast?_map, Phase.getLast?_path]
  rfl

theorem Halted.state {e : Error} {r : Report} (h : Halted hasTest e r) :
    ∃ p, r.state = .failed p e.kind := by
  obtain ⟨passed, p, rest, -, -, ht, -⟩ := h
  refine ⟨p, ?_⟩
  rw [Report.state, ht, List.getLast?_concat]
  rfl

theorem Completed.succeeded {r : Report} (h : Completed hasTest r) : r.succeeded = true := by
  simp [Report.succeeded, h.state]

theorem Halted.succeeded {e : Error} {r : Report} (h : Halted hasTest e r) :
    r.succeeded = false := by
  obtain ⟨p, hp⟩ := h.state
  simp [Report.succeeded, hp]

theorem Completed.exitCode {r : Report} (h : Completed hasTest r) : r.exitCode = 0 := by
  simp [Report.exitCode, h.2, h.succeeded]

theorem Halted.exitCode {e : Error} {r : Report} (h : Halted hasTest e r) :
    r.exitCode = e.kind.exitCode := by
  obtain ⟨passed, p, rest, -, -, -, hf⟩ := h
  simp [Report.exitCode, hf, Failure.of]

theorem exitCode_ne_one (kind : Error.Kind) : kind.exitCode ≠ 1 := by
  cases kind <;> decide

/-- The report of any cook is terminal and agrees with itself. Either the steps of the phases
succeeded, the trail is the whole legal path and there is no failure; or they failed with some
error, the trail is a part of the path closed by one failure, in the last phase entered and of the
kind of the error, and the recorded failure is the same. The exit status is zero exactly for a
success, that is without a failure, is otherwise that of the failure, and never that of a halt
without a failure. No phase is ever refused, neither in a cook nor when only the source or only
the flags are asked for. -/
theorem report_consistent (k : Kitchen) (f : Formula) (install : InstallProcedure)
    (test : Option TestProcedure) (base : Path) (w : World) :
    let begun := start k f base test.isSome w
    let partly := start k f (k.config.home f) false w
    let r := (k.cookWith f install test base w).1
    (match ((phases k f install test).run begun).1 with
      | .ok _ => Completed test.isSome r
      | .error e => Halted test.isSome e r) ∧
    r.state.isTerminal = true ∧
    (r.exitCode = 0 ↔ r.succeeded = true) ∧
    (r.succeeded = true ↔ r.failure = none) ∧
    (∀ failure, r.failure = some failure → r.exitCode = failure.kind.exitCode) ∧
    r.exitCode ≠ 1 ∧
    (run k f install test begun).2.refused = [] ∧
    ((fetchOnly k f).run partly).2.refused = [] ∧
    ((flagsOnly k f).run partly).2.refused = [] := by
  intro begun partly r
  obtain ⟨hrefused, hr⟩ := run_spec k f install test (inPhase_start k f base test.isSome w)
  change match ((phases k f install test).run begun).1 with
    | .ok _ => Completed test.isSome r
    | .error e => Halted test.isSome e r at hr
  have hfetch := (passes_fetchOnly k f).refused (inPhase_start k f (k.config.home f) false w)
  have hflags := (passes_flagsOnly k f).refused (inPhase_start k f (k.config.home f) false w)
  refine ⟨hr, ?_⟩
  cases hs : ((phases k f install test).run begun).1 with
  | ok u =>
    rw [hs] at hr
    have hfailure : r.failure = none := hr.2
    refine ⟨by rw [hr.state]; rfl, by simp [hr.exitCode, hr.succeeded],
      by simp [hr.succeeded, hfailure], fun fl h => ?_, by simp [hr.exitCode], hrefused, hfetch,
      hflags⟩
    rw [hfailure] at h
    exact absurd h (by simp)
  | error e =>
    rw [hs] at hr
    obtain ⟨p, hstate⟩ := hr.state
    obtain ⟨-, q, -, -, -, -, hfailure⟩ := id hr
    refine ⟨by rw [hstate]; rfl, by simp [hr.exitCode, hr.succeeded, e.kind.exitCode_ne_zero],
      by simp [hr.succeeded, hfailure], fun fl h => ?_, ?_, hrefused, hfetch, hflags⟩
    · rw [hr.exitCode]
      rw [hfailure] at h
      obtain rfl := Option.some.inj h
      rfl
    · rw [hr.exitCode]
      exact exitCode_ne_one e.kind

end Formulary.Cook
