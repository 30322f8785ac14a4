import Formulary.Proofs.Cook.Journal
import Formulary.Proofs.Cook.Trail

/-!
# The course of a cook

What a whole cook does follows from what its phases do. A contract says for each phase what the
report is like when the phase is about to begin, and what failure and what report there may be when
the cook fails in it (`Cook.Contract`). When each phase meets its part, the report at the end is one
that the contract has for the phase in which the cook ended, closed with the trail up to there
(`Cook.Contract.report`).
-/

namespace Formulary

/-! ## Phases in a trail -/

namespace Report

/-- The cook came to a phase. -/
def Entered (r : Report) (p : Phase) : Prop := .reached p ∈ r.trail

/-- The cook ended with a failure in a phase. -/
def HaltedIn (r : Report) (p : Phase) : Prop := ∃ kind, r.state = .failed p kind

/-- A report is another one, closed : the two differ at most in the trail, the time at the end, the
warnings and the failure. -/
def Closes (r r' : Report) : Prop :=
  ∃ trail finishedAt warnings failure, r = { r' with trail, finishedAt, warnings, failure }

end Report

/-- Each phase has a place of its own. -/
theorem Phase.index_injective : Function.Injective index := by
  intro p q
  cases p <;> cases q <;> decide

/-- The phases of the path stand in their order. -/
theorem Phase.pairwise_path (hasTest : Bool) :
    (path hasTest).Pairwise fun p q => p.index < q.index := by
  cases hasTest <;> decide

/-- The path has every phase, but that of the test only when there is one. -/
theorem Phase.mem_path_iff {hasTest : Bool} {p : Phase} :
    p ∈ path hasTest ↔ (p = .testing → hasTest = true) := by
  cases hasTest <;> cases p <;> decide

/-- Only a phase of the path can be come to. -/
theorem Lifecycle.IsAt.mem_path {l : Lifecycle} {hasTest : Bool} {p : Phase}
    (h : l.IsAt hasTest p) : p ∈ Phase.path hasTest := by
  obtain ⟨-, passed, rest, hpath, -⟩ := h
  rw [hpath]
  exact List.mem_append_right _ List.mem_cons_self

/-- The trail up to a phase has the phases of the path that do not come later. -/
theorem Lifecycle.IsAt.mem_trail_iff {l : Lifecycle} {hasTest : Bool} {p q : Phase}
    (h : l.IsAt hasTest p) :
    .reached q ∈ l.trail ↔ q ∈ Phase.path hasTest ∧ q.index ≤ p.index := by
  obtain ⟨-, passed, rest, hpath, htrail⟩ := h
  have hordered := Phase.pairwise_path hasTest
  rw [hpath, List.pairwise_append, List.pairwise_cons] at hordered
  obtain ⟨-, ⟨hrest, -⟩, hpassed⟩ := hordered
  have hmem : .reached q ∈ l.trail ↔ q ∈ passed ∨ q = p := by
    rw [htrail]
    simp
  rw [hmem, hpath, List.mem_append, List.mem_cons]
  constructor
  · rintro (hq | rfl)
    · exact ⟨.inl hq, (hpassed q hq p List.mem_cons_self).le⟩
    · exact ⟨.inr (.inl rfl), le_rfl⟩
  · rintro ⟨hq | rfl | hq, hle⟩
    · exact .inl hq
    · exact .inr rfl
    · exact absurd (hrest q hq) hle.not_gt

namespace Cook

variable {α β : Type} {hasTest : Bool} {p q : Phase} {k : Kitchen} {f : Formula}
  {install : InstallProcedure} {test : Option TestProcedure}

/-! ## The end of a cook -/

/-- A cook is in one phase at a time. -/
theorem InPhase.unique {c : Cook} (hp : c.InPhase hasTest p) (hq : c.InPhase hasTest q) : p = q :=
  hp.isAt.phase.symm.trans hq.isAt.phase

/-- To finish closes the report. -/
theorem report_finish (k : Kitchen) (c : Cook) : ∃ warnings, (finish k c).2.report =
    { c.report with warnings, trail := c.lifecycle.trail, finishedAt := some k.now } := by
  unfold finish
  split
  · show ∃ warnings, { (keepBuildDirectory c).2.report with
      trail := (keepBuildDirectory c).2.lifecycle.trail, finishedAt := some k.now } = _
    unfold keepBuildDirectory
    rw [modify_apply]
    dsimp only
    split <;> exact ⟨_, rfl⟩
  · show ∃ warnings, { (cleanUp c).2.report with
      trail := (cleanUp c).2.lifecycle.trail, finishedAt := some k.now } = _
    unfold cleanUp
    rw [modify_apply]
    dsimp only
    split <;> exact ⟨_, rfl⟩

/-- A report that was closed in a phase of the path, with the path up to there in its trail. -/
structure ClosedIn (hasTest : Bool) (p : Phase) (r r' : Report) : Prop where
  closes : r.Closes r'
  mem_path : p ∈ Phase.path hasTest
  entered (q : Phase) : r.Entered q ↔ q ∈ Phase.path hasTest ∧ q.index ≤ p.index

section

variable {r r' : Report}

/-- Whether a phase was come to is a matter of order, that of the test apart. -/
theorem ClosedIn.entered_iff (h : ClosedIn hasTest p r r') {q : Phase} (hq : q ≠ .testing) :
    r.Entered q ↔ q.index ≤ p.index := by
  rw [h.entered, and_iff_right (Phase.mem_path_iff.2 fun h => absurd h hq)]

theorem ClosedIn.entered_testing_iff (h : ClosedIn hasTest p r r') :
    r.Entered .testing ↔ hasTest = true ∧ Phase.testing.index ≤ p.index := by
  rw [h.entered, Phase.mem_path_iff]
  exact and_congr_left' ⟨fun h => h rfl, fun h _ => h⟩

end

/-- The report of a cook that went the whole path, without a failure. -/
def Finished (hasTest : Bool) (c : Cook) (r : Report) : Prop :=
  ClosedIn hasTest .done r c.report ∧ r.failure = none ∧ r.state = .reached .done

/-- The report of a cook that failed in a phase. -/
def Failed (hasTest : Bool) (p : Phase) (e : Error) (c : Cook) (r : Report) : Prop :=
  ClosedIn hasTest p r c.report ∧ r.failure = some (.of p e) ∧ r.HaltedIn p

theorem finished_of_inPhase (k : Kitchen) {c : Cook} (h : c.InPhase hasTest .done) :
    Finished hasTest c (finish k c).2.report := by
  obtain ⟨warnings, hr⟩ := report_finish k c
  refine ⟨⟨⟨_, _, _, c.report.failure, hr⟩, h.isAt.mem_path, fun q => ?_⟩, ?_, ?_⟩
  · rw [Report.Entered, hr]
    exact h.isAt.mem_trail_iff
  · rw [hr]
    exact h.failure
  · obtain ⟨-, passed, rest, -, htrail⟩ := h.isAt
    rw [Report.state, hr, htrail, List.map_append, List.map_singleton, List.getLast?_concat]
    rfl

theorem failed_of_inPhase (k : Kitchen) {c : Cook} (h : c.InPhase hasTest p) (hp : p ≠ .done)
    (e : Error) : Failed hasTest p e c (finish k (halt e c).2).2.report := by
  obtain ⟨warnings, hr⟩ := report_finish k (halt e c).2
  have htrail : (halt e c).2.lifecycle.trail = c.lifecycle.trail ++ [.failed p e.kind] :=
    h.isAt.trail_fail hp e.kind
  have hfailure : (halt e c).2.report.failure = some (.of p e) := by
    rw [← h.isAt.phase]
    rfl
  rw [htrail] at hr
  refine ⟨⟨⟨_, _, _, some (.of c.lifecycle.phase e), hr⟩, h.isAt.mem_path, fun q => ?_⟩, ?_,
    e.kind, ?_⟩
  · rw [Report.Entered, hr]
    simpa using h.isAt.mem_trail_iff
  · rw [hr]
    exact hfailure
  · rw [Report.state, hr, List.getLast?_concat]
    rfl

/-- The report of a cook, by how its phases ended. -/
theorem run_cases (k : Kitchen) (f : Formula) (install : InstallProcedure)
    (test : Option TestProcedure) {c : Cook} (hc : c.InPhase test.isSome .init) :
    match (phases k f install test).run c with
    | (.ok _, c') => Finished test.isSome c' (run k f install test c).2.report
    | (.error e, c') => ∃ p, p ≠ .done ∧ c'.InPhase test.isSome p ∧
        Failed test.isSome p e c' (run k f install test c).2.report := by
  have hpasses := passes_phases k f install test c hc
  rw [run_eq]
  rcases hrun : (phases k f install test).run c with ⟨e | u, c'⟩
  · rw [hrun] at hpasses
    obtain ⟨p, hp, hin⟩ := hpasses
    exact ⟨p, hp, hin, failed_of_inPhase k hin hp e⟩
  · rw [hrun] at hpasses
    exact finished_of_inPhase k hpasses

/-! ## What a step tells the report -/

/-- From a report with the first property, the step comes to a value and a report with the second,
or fails, with a failure and a report as the third says. -/
def Tells (before : Report → Prop) (x : CookM α) (after : α → Report → Prop)
    (failed : Error → Report → Prop) : Prop :=
  Meets (fun c => before c.report) x (fun a c => after a c.report) fun e c => failed e c.report

section

variable {before : Report → Prop} {between after : α → Report → Prop}
  {failed : Error → Report → Prop}

theorem Tells.bind {after : β → Report → Prop} {x : CookM α} {g : α → CookM β}
    (hx : Tells before x between failed) (hg : ∀ a, Tells (between a) (g a) after failed) :
    Tells before (x >>= g) after failed := Meets.bind hx hg

/-- What holds of any end of a step holds of its end. -/
theorem tells_of_forall {x : CookM α} (hafter : ∀ a r, after a r) (hfailed : ∀ e r, failed e r) :
    Tells before x after failed := by
  intro c _
  rcases x.run c with ⟨e | a, c'⟩
  · exact hfailed e c'.report
  · exact hafter a c'.report

theorem Tells.mono {x : CookM α} (hx : Tells before x between failed)
    (h : ∀ a r, between a r → after a r) : Tells before x after failed :=
  Meets.mono hx (fun a c => h a c.report) fun _ _ hfailed => hfailed

theorem tells_pure {a : α} (h : ∀ r, before r → after a r) :
    Tells before (pure a) after failed := fun c => h c.report

theorem tells_throw {e : Error} (h : ∀ r, before r → failed e r) :
    Tells before (throw e) after failed := fun c => h c.report

theorem tells_get : Tells before get (fun c r => c.report = r ∧ before r) failed :=
  fun _ h => ⟨rfl, h⟩

theorem tells_enter (p : Phase) : Tells before (enter p) (fun _ => before) failed := fun _ h => h

theorem tells_inWorld (act : WorldM α) :
    Tells before (inWorld act) (fun a r => (∃ w, (act w).1 = a) ∧ before r) failed :=
  fun c h => ⟨⟨c.world, rfl⟩, h⟩

theorem tells_record {change : Report → Report} (after : Report → Prop)
    (h : ∀ r, before r → after (change r)) :
    Tells before (record change) (fun _ => after) failed := fun c => h c.report

theorem tells_record_any (change : Report → Report) :
    Tells before (record change) (fun _ _ => True) failed :=
  tells_record _ fun _ _ => trivial

theorem tells_buildDirectory (p : Path) :
    Tells before (modify fun c => { c with buildDirectory := some p }) (fun _ => before) failed :=
  fun _ h => h

/-- What makes a cook halt is known of its failure. -/
theorem tells_orHalt {ε : Type} {toError : ε → Error} {result : Except ε α}
    (h : ∀ e r, result = .error e → before r → failed (toError e) r) :
    Tells before (orHalt toError result) (fun a r => result = .ok a ∧ before r) failed := by
  intro c hc
  cases result with
  | error e => exact h e c.report rfl hc
  | ok a => exact ⟨rfl, hc⟩

end

/-! ## Contracts -/

/-- What holds of the report when a phase is about to begin, and of failure and report when the cook
fails in it, for each phase of a cook. -/
structure Contract (k : Kitchen) (f : Formula) (install : InstallProcedure)
    (test : Option TestProcedure) (ready : Phase → Report → Prop)
    (failed : Phase → Error → Report → Prop) : Prop where
  prepare : Tells (ready .init) (prepare k f) (fun _ => ready .fetching) (failed .init)
  fetch : Tells (ready .fetching) (fetchSource k f) (fun _ => ready .verifying) (failed .fetching)
  unpack (archive : Verified) :
    Tells (ready .verifying) (unpackSource k archive) (fun _ => ready .resolving)
      (failed .verifying)
  resolve (tree : SourceTree) :
    Tells (ready .resolving) (resolveFlags k f tree) (fun _ => ready .building)
      (failed .resolving)
  build (tree : SourceTree) (vars : Bindings) (flags : List String) (r : Report) :
    Tells (ready .building) (build install (contextOf k f tree vars flags r))
      (fun _ => ready .installing) (failed .building)
  install (tree : SourceTree) (vars : Bindings) (flags : List String) (r : Report) :
    Tells (ready .installing) (installArtifacts install (contextOf k f tree vars flags r))
      (fun _ => ready (if test.isSome then .testing else .done)) (failed .installing)
  test (t : TestProcedure) (base : Path) : test = some t →
    Tells (ready .testing) (runTest k t base) (fun _ => ready .done) (failed .testing)

/-- The cook failed in a phase before the last, as it may fail there. -/
def Broke (hasTest : Bool) (failed : Phase → Error → Report → Prop) (e : Error) (c : Cook) :
    Prop :=
  ∃ p, p ≠ .done ∧ c.InPhase hasTest p ∧ failed p e c.report

/-- A step that leads to a phase fails there if it fails. -/
theorem Leads.tells {x : CookM α} (hl : Leads hasTest p q x) (hq : q ≠ .done)
    {before after : Report → Prop} {failed : Phase → Error → Report → Prop}
    (hx : Tells before x (fun _ => after) (failed q)) :
    Meets (fun c => c.InPhase hasTest p ∧ before c.report) x
      (fun _ c => c.InPhase hasTest q ∧ after c.report) (Broke hasTest failed) := by
  rintro c ⟨hin, hbefore⟩
  have hin' := hl c hin
  have h := hx c hbefore
  rcases hr : x.run c with ⟨e | a, c'⟩
  · rw [hr] at h hin'
    exact ⟨q, hq, hin', h⟩
  · rw [hr] at h hin'
    exact ⟨hin', h⟩

namespace Contract

variable {ready : Phase → Report → Prop} {failed : Phase → Error → Report → Prop}

/-- The phases of a cook are taken one after the other. -/
theorem phases (h : Contract k f install test ready failed) :
    Meets (fun c => c.InPhase test.isSome .init ∧ ready .init c.report)
      (phases k f install test)
      (fun _ c => c.InPhase test.isSome .done ∧ ready .done c.report)
      (Broke test.isSome failed) := by
  have hinstalled : Meets (fun c => c.InPhase test.isSome .init ∧ ready .init c.report)
      (installOnly k f install) (fun _ c => c.InPhase test.isSome .installing ∧
        ready (if test.isSome then .testing else .done) c.report) (Broke test.isSome failed) := by
    refine ((leads_prepare k f).tells (by decide) h.prepare).bind fun _ => ?_
    refine ((leads_fetchSource k f).tells (by decide) h.fetch).bind fun archive => ?_
    refine ((leads_unpackSource k archive).tells (by decide) (h.unpack archive)).bind
      fun tree => ?_
    refine ((leads_resolveFlags k f tree).tells (by decide) (h.resolve tree)).bind
      fun resolved => ?_
    -- the context of the build holds the prefix of the report as it is by then
    intro c hc
    rw [run_bind, run_get]
    refine Meets.bind ((leads_build install _).tells (by decide) (h.build tree _ _ _))
      (fun _ => ?_) c hc
    refine Meets.bind ((leads_installArtifacts install _).tells (by decide) (h.install tree _ _ _))
      fun _ => ?_
    exact fun _ h => h
  refine hinstalled.bind fun context => ?_
  cases test with
  | none => exact fun c hc => ⟨leads_enter rfl c hc.1, hc.2⟩
  | some t =>
    refine ((leads_runTest k t context.base).tells (by decide) (h.test t _ rfl)).bind fun _ => ?_
    exact fun c hc => ⟨leads_enter rfl c hc.1, hc.2⟩

/-- The report of a cook is one that the contract has for the phase it ended in, closed there. -/
theorem report (h : Contract k f install test ready failed) (base : Path) (w : World)
    (hstart : ready .init (start k f base test.isSome w).report) :
    let r := (k.cookWith f install test base w).1
    (∃ c, ready .done c.report ∧ Finished test.isSome c r) ∨
      ∃ p e c, p ≠ .done ∧ failed p e c.report ∧ Failed test.isSome p e c r := by
  intro r
  have hin := inPhase_start k f base test.isSome w
  have hphases := h.phases _ ⟨hin, hstart⟩
  have hcases := run_cases k f install test hin
  rcases hrun : (Cook.phases k f install test).run (start k f base test.isSome w) with ⟨e | u, c⟩
  · rw [hrun] at hphases hcases
    obtain ⟨p, hp, hinp, hfailed⟩ := hphases
    obtain ⟨q, -, hinq, hr⟩ := hcases
    obtain rfl := hinp.unique hinq
    exact .inr ⟨p, e, c, hp, hfailed, hr⟩
  · rw [hrun] at hphases hcases
    exact .inl ⟨c, hphases.2, hcases⟩

end Contract

end Cook

end Formulary
