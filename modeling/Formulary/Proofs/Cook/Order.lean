import Formulary.Proofs.Archive.Tar
import Formulary.Proofs.Checksum.Spelling
import Formulary.Proofs.Cook.Stages
import Formulary.Proofs.Disk.Removal
import Formulary.Proofs.Installation

/-!
# The order of effects

The effects of any cook, as its journal shows them, keep the order of the phases, and a test comes
after everything else (`Cook.effects_ordered`). What the test leaves on the disk is only cleaned of
the two temporary directories, which need not lie outside the prefix (`Cook.prefix_not_left`).
-/

namespace Formulary

namespace Cook

variable {k : Kitchen} {f : Formula} {w : World}

/-! ## Complete installations -/

/-- What the report says is installed is what the artifacts say. -/
theorem installed_of_installArtifacts {install : InstallProcedure} {context : BuildContext}
    {c c' : Cook} {u : Unit} (h : (installArtifacts install context).run c = (.ok u, c')) :
    ∃ files, c'.report.installed = some ⟨context.base, files⟩ ∧
      List.Forall₂ (Installation.Places context.base) (install.artifacts context) files := by
  unfold installArtifacts at h
  rw [run_bind, run_enter] at h
  dsimp only at h
  rw [run_bind, run_inWorld] at h
  unfold World.call at h
  dsimp only at h
  rcases hrun : (Installation.run context.workdir context.base (install.artifacts context)).run
    c.world.disk with ⟨e | installed, d⟩
  · rw [hrun] at h
    cases h
  · rw [hrun] at h
    cases h
    obtain ⟨hbase, hplaces⟩ := Installation.places_of_run hrun
    exact ⟨installed.files, by rw [← hbase], hplaces⟩

theorem installed_of_installOnly {install : InstallProcedure} {context : BuildContext} {c c' : Cook}
    (h : (installOnly k f install).run c = (.ok context, c')) :
    ∃ files, c'.report.installed = some ⟨context.base, files⟩ ∧
      List.Forall₂ (Installation.Places context.base) (install.artifacts context) files := by
  unfold installOnly at h
  obtain ⟨_, c₁, -, h⟩ := exists_of_run_bind h
  obtain ⟨archive, c₂, -, h⟩ := exists_of_run_bind h
  obtain ⟨tree, c₃, -, h⟩ := exists_of_run_bind h
  obtain ⟨resolved, c₄, -, h⟩ := exists_of_run_bind h
  obtain ⟨seen, c₅, -, h⟩ := exists_of_run_bind h
  obtain ⟨_, c₆, -, h⟩ := exists_of_run_bind h
  obtain ⟨_, c₇, hinstall, h⟩ := exists_of_run_bind h
  cases h
  exact installed_of_installArtifacts hinstall

/-! ## After the test -/

/-- Since a test ended, the disk has lost at most what lies at or below the places that the paths of
the two temporary directories, the sandbox and that of the build, then led to. Nothing else was
lost, added or exchanged. -/
def OnlyCleaned (sandbox : Path) (buildDirectory : Option Path) (d d' : Disk) : Prop :=
  Disk.Thinned (fun q => d.IsUnder sandbox q ∨ ∃ p, buildDirectory = some p ∧ d.IsUnder p q) d d'

/-- The test of a cook ran in a sandbox, and ended so or so : all steps up to the installation had
succeeded, every artifact was installed, and what the test left on the disk was only cleaned. -/
def Tested (k : Kitchen) (f : Formula) (install : InstallProcedure) (test : Option TestProcedure)
    (begun : Cook) (sandbox : Path) (good : Bool) (final : Disk) : Prop :=
  ∃ t context c files d, test = some t ∧ (installOnly k f install).run begun = (.ok context, c) ∧
    c.report.installed = some ⟨context.base, files⟩ ∧
    List.Forall₂ (Installation.Places context.base) (install.artifacts context) files ∧
    Sandbox.make k.config.sandboxRoot k.temporary "kiln-test-" c.world.disk = (.ok sandbox, d) ∧
    good = (t.run ⟨sandbox, context.base⟩ d).1.isOk ∧
    OnlyCleaned sandbox c.buildDirectory (t.run ⟨sandbox, context.base⟩ d).2 final

/-- The test ran and its sandbox was removed, or else there was no sandbox. -/
theorem run_runTest (test : TestProcedure) (base : Path) (c : Cook) :
    ((runTest k test base).run c).2.buildDirectory = c.buildDirectory ∧
      ((∃ reason d, Sandbox.make k.config.sandboxRoot k.temporary "kiln-test-" c.world.disk =
          (.error reason, d) ∧ ((runTest k test base).run c).2.world = ⟨d, c.world.journal⟩) ∨
        ∃ p d, Sandbox.make k.config.sandboxRoot k.temporary "kiln-test-" c.world.disk =
            (.ok p, d) ∧
          ((runTest k test base).run c).2.world =
            ⟨(Sandbox.remove p (test.run ⟨p, base⟩ d).2).2,
              ⟨.test p, (test.run ⟨p, base⟩ d).1.isOk⟩ :: c.world.journal⟩) := by
  unfold runTest
  rw [run_bind, run_enter]
  dsimp only
  rw [run_bind, run_inWorld]
  dsimp only
  have h := tries test base k.config.sandboxRoot k.temporary c.world
  generalize Sandbox.runBy World.onDisk (journaled test) test.stub base k.config.sandboxRoot
    k.temporary c.world = result at h ⊢
  cases h with
  | notMade hmake => exact ⟨rfl, .inl ⟨_, _, hmake, rfl⟩⟩
  | notRemoved hmake hrun hremove =>
    refine ⟨rfl, .inr ⟨_, _, hmake, ?_⟩⟩
    rw [hrun, hremove]
    rfl
  | @ended p d d' d'' result hmake hrun hremove =>
    rw [run_bind, run_orHalt_ok]
    dsimp only
    rw [run_bind, run_record]
    dsimp only
    cases (Sandbox.outcomeOf test.stub result).toResult <;>
      exact ⟨rfl, .inr ⟨p, d, hmake, by rw [hrun, hremove]; rfl⟩⟩

/-- To close the report adds no event, and cleans at most the build directory. -/
theorem finish_world (k : Kitchen) (c : Cook) :
    (finish k c).2.world.journal = c.world.journal ∧
      Disk.Thinned (fun q => ∃ p, c.buildDirectory = some p ∧ c.world.disk.IsUnder p q)
        c.world.disk (finish k c).2.world.disk := by
  have hkept : (keepBuildDirectory c).2.world = c.world := by
    unfold keepBuildDirectory
    rw [modify_apply]
    dsimp only
    split <;> rfl
  have hcleaned : (cleanUp c).2.world.journal = c.world.journal ∧
      Disk.Thinned (fun q => ∃ p, c.buildDirectory = some p ∧ c.world.disk.IsUnder p q)
        c.world.disk (cleanUp c).2.world.disk := by
    unfold cleanUp
    rw [modify_apply]
    dsimp only
    cases c.buildDirectory with
    | none => exact ⟨rfl, .refl _⟩
    | some p =>
      exact ⟨rfl, (Disk.thinned_removeTree p c.world.disk).mono fun q hq => ⟨p, rfl, hq⟩⟩
  unfold finish
  split
  · show (keepBuildDirectory c).2.world.journal = _ ∧
      Disk.Thinned _ _ (keepBuildDirectory c).2.world.disk
    rw [hkept]
    exact ⟨rfl, .refl _⟩
  · exact hcleaned

/-- After its phases a cook adds no event, and cleans at most the build directory. -/
theorem run_world (install : InstallProcedure) (test : Option TestProcedure) (c : Cook) :
    let left := ((phases k f install test).run c).2
    (run k f install test c).2.world.journal = left.world.journal ∧
      Disk.Thinned (fun q => ∃ p, left.buildDirectory = some p ∧ left.world.disk.IsUnder p q)
        left.world.disk (run k f install test c).2.world.disk := by
  rw [run_eq]
  rcases (phases k f install test).run c with ⟨e | u, c'⟩
  · exact finish_world k (halt e c').2
  · exact finish_world k c'

/-- Once everything is installed, the world and the build directory are left as the test leaves
them. -/
theorem phases_of_installOnly {install : InstallProcedure} {context : BuildContext} {c c' : Cook}
    (t : TestProcedure) (h : (installOnly k f install).run c = (.ok context, c')) :
    let tested := ((runTest k t context.base).run c').2
    ((phases k f install (some t)).run c).2.world = tested.world ∧
      ((phases k f install (some t)).run c).2.buildDirectory = tested.buildDirectory := by
  intro tested
  unfold phases
  rw [run_bind, h]
  dsimp only
  rw [run_bind]
  rcases hrun : (runTest k t context.base).run c' with ⟨e | u, c₂⟩ <;>
    exact ⟨(congrArg (·.2.world) hrun).symm, (congrArg (·.2.buildDirectory) hrun).symm⟩

/-- No test runs before its phase. -/
theorem not_test_mem {events : List Event} {sandbox : Path} {good : Bool}
    (h : ∀ e ∈ events, e.effect.phase.index ≤ Phase.installing.index) :
    ⟨.test sandbox, good⟩ ∉ events :=
  fun hmem => absurd (h _ hmem) (by decide : ¬Phase.testing.index ≤ Phase.installing.index)

/-- A test in the journal ran after a complete installation, and its disk was only cleaned. -/
theorem tested_of_mem (k : Kitchen) (f : Formula) (install : InstallProcedure)
    (test : Option TestProcedure) {begun : Cook} (hin : begun.InPhase test.isSome .init)
    (hw : begun.world = w) (events : List Event) (sandbox : Path) (good : Bool)
    (hmem : ⟨.test sandbox, good⟩ ∈ events) :
    let c := ((phases k f install test).run begun).2
    c.world.journal = events ++ w.journal → ∀ final,
      Disk.Thinned (fun q => ∃ p, c.buildDirectory = some p ∧ c.world.disk.IsUnder p q)
        c.world.disk final → Tested k f install test begun sandbox good final := by
  intro c hjournal final hthinned
  have hinstall := ensures_installOnly (k := k) (f := f) install begun ⟨hin, hw⟩
  rcases hrun : (installOnly k f install).run begun with ⟨e | context, c₁⟩
  · -- the cook halted before the test
    rw [hrun] at hinstall
    obtain ⟨p, hp, -, events', hj, hclosed⟩ := hinstall
    have hc : c = c₁ := by
      show ((installOnly k f install >>= _).run begun).2 = _
      rw [run_bind, hrun]
    rw [hc, hj] at hjournal
    obtain rfl := List.append_cancel_right hjournal
    exact absurd hmem (not_test_mem fun e he => (hclosed.phases e he).1.trans hp)
  · rw [hrun] at hinstall
    obtain ⟨-, events', hj, hsound, -⟩ := hinstall
    have hbefore : ∀ sandbox good, ⟨.test sandbox, good⟩ ∉ events' := fun _ _ =>
      not_test_mem fun e he => Effect.index_phase_le_of_rank_lt (hsound.good e he).2
    cases test with
    | none =>
      have hc : c.world = c₁.world := by
        show ((installOnly k f install >>= _).run begun).2.world = _
        rw [run_bind, hrun]
        rfl
      rw [hc, hj] at hjournal
      obtain rfl := List.append_cancel_right hjournal
      exact absurd hmem (hbefore sandbox good)
    | some t =>
      have hc := phases_of_installOnly (k := k) (f := f) t hrun
      dsimp only at hc
      obtain ⟨hbuild, ⟨_, _, -, hworld⟩ | ⟨p, d, hmake, hworld⟩⟩ :=
        run_runTest (k := k) t context.base c₁
      · rw [hc.1, hworld] at hjournal
        dsimp only at hjournal
        rw [hj] at hjournal
        obtain rfl := List.append_cancel_right hjournal
        exact absurd hmem (hbefore sandbox good)
      · rw [hc.1, hworld] at hjournal hthinned
        rw [hc.2, hbuild] at hthinned
        dsimp only at hjournal hthinned
        rw [hj, ← List.cons_append] at hjournal
        obtain rfl := List.append_cancel_right hjournal
        rcases List.mem_cons.1 hmem with heq | hmem
        · cases heq
          obtain ⟨files, hinstalled, hplaces⟩ := installed_of_installOnly hrun
          refine ⟨t, context, c₁, files, d, rfl, hrun, hinstalled, hplaces, hmake, rfl, ?_⟩
          have hremoved := Sandbox.thinned_remove sandbox (t.run ⟨sandbox, context.base⟩ d).2
          refine (hremoved.mono fun q hq => .inl hq).trans (hthinned.mono ?_)
          rintro q ⟨b, hb, hq⟩
          exact .inr ⟨b, hb, hremoved.isUnder hq⟩
        · exact absurd hmem (hbefore sandbox good)

/-! ## Whole cooks -/

/-- The effects of any cook, seen in its journal. They are lawful : each ranks above all before it,
all of which succeeded, so that the phases keep their order, nothing is done twice and nothing
follows a failure; and what must come before each effect came before it. When the cook fails, no
effect belongs to a later phase, and an effect that failed belongs to the very phase; when it does
not fail, no effect did. A test ran when everything was installed, and since it ended the disk was
only cleaned of what lies at and below the two temporary directories. -/
theorem effects_ordered (k : Kitchen) (f : Formula) (install : InstallProcedure)
    (test : Option TestProcedure) (base : Path) (w : World) :
    let r := (k.cookWith f install test base w).1
    let w' := (k.cookWith f install test base w).2
    ∃ events, w'.journal = events ++ w.journal ∧ Lawful (k.Justified f w.disk) events ∧
      (∀ failure, r.failure = some failure → ∀ e ∈ events,
        e.effect.phase.index ≤ failure.phase.index ∧
          (e.succeeded = false → e.effect.phase = failure.phase)) ∧
      (r.failure = none → ∀ e ∈ events, e.succeeded = true) ∧
      ∀ sandbox good, ⟨.test sandbox, good⟩ ∈ events →
        Tested k f install test (start k f base test.isSome w) sandbox good w'.disk := by
  intro r w'
  have hin := inPhase_start k f base test.isSome w
  have hphases := ensures_phases (k := k) (f := f) install test _ ⟨hin, rfl⟩
  have hpasses := passes_phases k f install test _ hin
  have htested := tested_of_mem k f install test hin rfl
  obtain ⟨hjournal, hthinned⟩ :=
    run_world (k := k) (f := f) install test (start k f base test.isSome w)
  have hr : r = (run k f install test (start k f base test.isSome w)).2.report := rfl
  rw [run_eq] at hr
  rcases hrun : (phases k f install test).run (start k f base test.isSome w) with ⟨e | u, c⟩
  · rw [hrun] at hphases htested hjournal hthinned hr
    obtain ⟨p, -, hinp, events, hj, hevents⟩ := hphases
    have hfailure : r.failure = some (.of p e) := by
      rw [hr, ← hinp.isAt.phase]
      exact (finish_spec k (halt e c).2).2.1
    refine ⟨events, hjournal.trans hj, hevents.lawful, fun failure hf => ?_, fun hnone => ?_,
      fun sandbox good hmem => htested events sandbox good hmem hj _ hthinned⟩
    · obtain rfl := Option.some.inj (hfailure.symm.trans hf)
      exact hevents.phases
    · exact absurd (hfailure.symm.trans hnone) (by simp)
  · rw [hrun] at hphases hpasses htested hjournal hthinned hr
    obtain ⟨events, hj, hsound, -⟩ := hphases
    have hfailure : r.failure = none := by
      rw [hr]
      exact (finish_spec k c).2.1.trans hpasses.failure
    refine ⟨events, hjournal.trans hj, hsound.lawful, fun failure hf => ?_, fun _ e he =>
      (hsound.good e he).1, fun sandbox good hmem => htested events sandbox good hmem hj _ hthinned⟩
    exact absurd (hfailure.symm.trans hf) (by simp)

/-! ## Phases that succeed -/

/-- What the fetcher gives is the source, when it verifies and there is no cache. -/
theorem run_fetchSource_ok {a : Verified} {c : Cook} {d : Disk}
    (hcache : k.config.sourceCache = none)
    (hfetch : k.fetcher f.source.url c.world.disk = (.ok a.bytes, d))
    (hparse : Checksum.parse f.source.checksum = .ok a.digest) :
    ∃ c', (fetchSource k f).run c = (.ok a, c') ∧ c'.world.disk = d := by
  have hretrieve := Cache.retrieve_of_fetched (w := c.world) (rfl : Cache.consult _ none _ = _)
    hfetch hparse
  unfold fetchSource
  rw [run_bind, run_enter]
  dsimp only
  rw [run_bind, run_inWorld]
  dsimp only
  rw [hcache, hretrieve]
  exact ⟨_, rfl, rfl⟩

theorem run_unpackSource_ok {archive : Verified} {c : Cook} {p : Path} {tree : SourceTree}
    {d d' : Disk}
    (hmake : Sandbox.make k.config.buildRoot k.temporary "kiln-build-" c.world.disk = (.ok p, d))
    (hunpack : (Extraction.run archive (p.join "source")).run d = (.ok tree, d')) :
    ∃ c', (unpackSource k archive).run c = (.ok tree, c') ∧
      c'.world.disk = (Disk.countFiles tree.root d').2 ∧ c'.buildDirectory = some p := by
  unfold unpackSource
  rw [run_bind, run_enter]
  dsimp only
  rw [run_bind, run_onDisk]
  dsimp only
  rw [hmake]
  dsimp only
  rw [run_bind, run_inWorld]
  unfold World.call
  dsimp only
  rw [hunpack]
  exact ⟨_, rfl, rfl, rfl⟩

theorem run_build_ok {install : InstallProcedure} {context : BuildContext} {c : Cook} {d d' : Disk}
    {log : String} (hworkdir : Disk.isDirectory context.workdir c.world.disk = (true, d))
    (hbuild : install.build context d = (.ok log, d')) :
    ∃ c', (build install context).run c = (.ok (), c') ∧ c'.world.disk = d' := by
  unfold build
  rw [run_bind, run_enter]
  dsimp only
  rw [run_bind, run_onDisk]
  dsimp only
  rw [hworkdir]
  dsimp only
  rw [if_pos rfl, run_bind, run_inWorld]
  unfold World.call
  dsimp only
  rw [hbuild]
  exact ⟨_, rfl, rfl⟩

theorem run_installArtifacts_ok {install : InstallProcedure} {context : BuildContext} {c : Cook}
    {d : Disk} {installed : Installed}
    (hrun : (Installation.run context.workdir context.base (install.artifacts context)).run
      c.world.disk = (.ok installed, d)) :
    ∃ c', (installArtifacts install context).run c = (.ok (), c') ∧ c'.world.disk = d := by
  unfold installArtifacts
  rw [run_bind, run_enter]
  dsimp only
  rw [run_bind, run_inWorld]
  unfold World.call
  dsimp only
  rw [hrun]
  exact ⟨_, rfl, rfl⟩

/-- Everything is installed when every phase up to there succeeds. -/
theorem run_installOnly_ok {install : InstallProcedure} {archive : Verified} {tree : SourceTree}
    {vars : Bindings} {flags : List String} {c c₁ c₂ c₃ c₄ c₅ c₆ : Cook}
    (hprepare : (prepare k f).run c = (.ok (), c₁))
    (hfetch : (fetchSource k f).run c₁ = (.ok archive, c₂))
    (hunpack : (unpackSource k archive).run c₂ = (.ok tree, c₃))
    (hresolve : (resolveFlags k f tree).run c₃ = (.ok (vars, flags), c₄))
    (hbuild : (build install (contextOf k f tree vars flags c₄.report)).run c₄ = (.ok (), c₅))
    (hinstall : (installArtifacts install (contextOf k f tree vars flags c₄.report)).run c₅ =
      (.ok (), c₆)) :
    (installOnly k f install).run c = (.ok (contextOf k f tree vars flags c₄.report), c₆) := by
  unfold installOnly
  rw [run_bind, hprepare]
  dsimp only
  rw [run_bind, hfetch]
  dsimp only
  rw [run_bind, hunpack]
  dsimp only
  rw [run_bind, hresolve]
  dsimp only
  rw [run_bind, run_get]
  dsimp only
  rw [run_bind, hbuild]
  dsimp only
  rw [run_bind, hinstall]
  rfl

/-! ## A sandbox below the prefix -/

/-- What a failed test leaves at or below the prefix is still there when the cook has ended. -/
def LeavesPrefix (k : Kitchen) (f : Formula) (install : InstallProcedure) (test : TestProcedure)
    (base : Path) (w : World) : Prop :=
  ∀ context c sandbox d, (installOnly k f install).run (start k f base true w) = (.ok context, c) →
    Sandbox.make k.config.sandboxRoot k.temporary "kiln-test-" c.world.disk = (.ok sandbox, d) →
    let left := (test.run ⟨sandbox, context.base⟩ d).2
    (test.run ⟨sandbox, context.base⟩ d).1.isOk = false → ∀ q, left.IsUnder base q →
      left.entryAt? q ≠ none → (k.cookWith f install (some test) base w).2.disk.entryAt? q ≠ none

/-- A place that is empty once the sandbox is removed stays so. -/
theorem entryAt?_cookWith {install : InstallProcedure} {test : TestProcedure} {base : Path}
    {context : BuildContext} {c : Cook} {sandbox : Path} {d : Disk} {q : Place}
    (hinstall : (installOnly k f install).run (start k f base true w) = (.ok context, c))
    (hmake : Sandbox.make k.config.sandboxRoot k.temporary "kiln-test-" c.world.disk =
      (.ok sandbox, d))
    (hq : (Sandbox.remove sandbox (test.run ⟨sandbox, context.base⟩ d).2).2.entryAt? q = none) :
    (k.cookWith f install (some test) base w).2.disk.entryAt? q = none := by
  obtain ⟨-, hthinned⟩ :=
    run_world (k := k) (f := f) install (some test) (start k f base true w)
  have hleft := (phases_of_installOnly test hinstall).1
  obtain ⟨-, ⟨_, _, hnot, -⟩ | ⟨p, d', hmade, hworld⟩⟩ :=
    run_runTest (k := k) test context.base c
  · exact absurd (congrArg Prod.fst (hnot.symm.trans hmake)) nofun
  · obtain ⟨hp, rfl⟩ := Prod.mk.injEq .. ▸ hmade.symm.trans hmake
    obtain rfl := Except.ok.inj hp
    rw [hleft, hworld] at hthinned
    rcases hthinned.entries q with hsame | hgone
    · dsimp only at hsame
      rw [hq] at hsame
      exact Option.map_eq_none_iff.1 hsame
    · exact hgone.2

namespace Narrow

/-! What follows is a kitchen whose tests run below the prefix, and a cook there up to a test that
fails. -/

/-- The header of an empty file whose name says nothing. -/
def block : List UInt8 :=
  46 :: List.replicate 99 0 ++ [48, 48, 48, 48, 54, 52, 52, 0] ++
    List.replicate 7 48 ++ 0 :: List.replicate 7 48 ++ 0 :: List.replicate 11 48 ++
    0 :: List.replicate 11 48 ++ [0, 48, 48, 54, 48, 49, 51, 0, 32, 48] ++ List.replicate 100 0 ++
    [117, 115, 116, 97, 114, 0, 48, 48] ++ List.replicate 247 0

def contents : Tar.Contents :=
  ⟨[Tar.memberOf ⟨block⟩ {} (some (Bytes.slice (Bytes.ofList block) Tar.blockSize 0))], true⟩

def archive : Verified where
  bytes := Bytes.ofList block
  digest := .of .sha256 (Bytes.ofList block)
  matches_digest := Checksum.matches_of ..

def formula : Formula where
  identity := { name := "empty", version := some "1" }
  source := { url := "empty.tar", checksum := archive.digest.display }
  build := { command := ["true"], output := "empty" }

def install : InstallProcedure where
  build _ := pure (.ok "")
  artifacts _ := []

def test : TestProcedure where
  run _ := pure (.error (.panic none))

/-- A kitchen whose tests run below the prefix. -/
def kitchen : Kitchen where
  config := { sandboxRoot := some ⟨"/prefix/sandboxes"⟩, probes := false }
  fetcher _ := pure (.ok archive.bytes)
  metadata := .fixed { commit := some "c", toolchainVersion := some "t", now := ⟨0, 0⟩ }
  probe := .acceptAll
  host := pure (.error (.io ""))
  temporary := .numbered ⟨"/"⟩
  now := ⟨0, 0⟩

theorem read_archive : Tar.read (Codec.unwrap archive.bytes) = contents := by
  have hplain : Codec.unwrap archive.bytes = .whole (Bytes.ofList block) := by
    have hsniff : Codec.sniff (Bytes.ofList block) = .plain := by decide +kernel
    show (Codec.sniff (Bytes.ofList block)).decode (Bytes.ofList block) = _
    rw [hsniff]
    rfl
  rw [hplain]
  exact Tar.read_block (by decide +kernel)
    ⟨by decide +kernel, by decide +kernel, by decide +kernel, by decide +kernel⟩

theorem parse_formula : Checksum.parse formula.source.checksum = .ok archive.digest :=
  Checksum.parse_display _

theorem validate_formula : ∃ warnings, formula.validate = .ok warnings := by
  have hsource : formula.checkSource = .ok () := by
    unfold Formula.checkSource
    rw [parse_formula]
    rfl
  unfold Formula.validate
  rw [hsource]
  exact ⟨_, rfl⟩

/-- Where the archive is unpacked. -/
def tree : SourceTree :=
  ⟨⟨"/kiln-build-000000/source"⟩, ⟨"/kiln-build-000000/source"⟩, 1⟩

/-- The disk with a build directory. -/
def buildMade : Except Disk.TemporaryFailure Path × Disk :=
  Sandbox.make none (.numbered ⟨"/"⟩) "kiln-build-" {}

def unpacked : Except Extraction.Failure SourceTree × Disk :=
  (Extraction.unpackContents contents tree.directory).run buildMade.2

def lookedAt : Bool × Disk :=
  Disk.isDirectory tree.root (Disk.countFiles tree.root unpacked.2).2

/-- The disk with the sandbox. -/
def sandboxMade : Except Disk.TemporaryFailure Path × Disk :=
  Sandbox.make (some ⟨"/prefix/sandboxes"⟩) (.numbered ⟨"/"⟩) "kiln-test-" lookedAt.2

theorem buildMade_fst : buildMade.1 = .ok ⟨"/kiln-build-000000"⟩ := by decide +kernel

theorem unpacked_fst : unpacked.1 = .ok tree := by decide +kernel

theorem lookedAt_fst : lookedAt.1 = true := by decide +kernel

theorem sandboxMade_eq :
    sandboxMade.1 = .ok ⟨"/prefix/sandboxes/kiln-test-000000"⟩ ∧
      sandboxMade.2.freed.found false ⟨"/prefix"⟩ = .ok (["prefix"], .directory 0o755) ∧
      sandboxMade.2.entryAt? ["prefix", "sandboxes", "kiln-test-000000"] ≠ none ∧
      (Sandbox.remove ⟨"/prefix/sandboxes/kiln-test-000000"⟩ sandboxMade.2).2.entryAt?
        ["prefix", "sandboxes", "kiln-test-000000"] = none := by
  decide +kernel

theorem run_extraction (d : Disk) :
    (Extraction.run archive ((Path.mk "/kiln-build-000000").join "source")).run d =
      (Extraction.unpackContents contents tree.directory).run d := by
  have hjoin : (Path.mk "/kiln-build-000000").join "source" = tree.directory := rfl
  unfold Extraction.run
  rw [hjoin, read_archive]

/-- On an empty disk the source is unpacked into the first build directory. -/
theorem run_unpackSource {c : Cook} (hempty : c.world.disk = {}) :
    ∃ c', (unpackSource kitchen archive).run c = (.ok tree, c') ∧
      c'.world.disk = (Disk.countFiles tree.root unpacked.2).2 := by
  have hmake : Sandbox.make kitchen.config.buildRoot kitchen.temporary "kiln-build-"
      c.world.disk = (.ok ⟨"/kiln-build-000000"⟩, buildMade.2) := by
    rw [hempty]
    show buildMade = _
    rw [← buildMade_fst]
  have hunpack : (Extraction.run archive ((Path.mk "/kiln-build-000000").join "source")).run
      buildMade.2 = (.ok tree, unpacked.2) := by
    rw [run_extraction]
    show unpacked = _
    rw [← unpacked_fst]
  obtain ⟨c', hrun, hdisk, -⟩ := run_unpackSource_ok hmake hunpack
  exact ⟨c', hrun, hdisk⟩

theorem run_installOnly :
    ∃ context c, (installOnly kitchen formula install).run
      (start kitchen formula ⟨"/prefix"⟩ true ⟨{}, []⟩) = (.ok context, c) ∧
      c.world.disk = lookedAt.2 := by
  obtain ⟨warnings, hvalid⟩ := validate_formula
  have hprepare : ∃ c, (prepare kitchen formula).run
      (start kitchen formula ⟨"/prefix"⟩ true ⟨{}, []⟩) = (.ok (), c) ∧
        c.world.disk = {} := by
    unfold prepare
    rw [hvalid]
    exact ⟨_, rfl, rfl⟩
  obtain ⟨c₁, hprepare, hd₁⟩ := hprepare
  obtain ⟨c₂, hfetch, hd₂⟩ := run_fetchSource_ok (k := kitchen) (c := c₁) rfl rfl
    parse_formula
  rw [hd₁] at hd₂
  obtain ⟨c₃, hunpack, hd₃⟩ := run_unpackSource hd₂
  have hresolve : ∃ p c, (resolveFlags kitchen formula tree).run c₃ = (.ok p, c) ∧
      c.world.disk = c₃.world.disk := ⟨_, _, rfl, rfl⟩
  obtain ⟨⟨vars, flags⟩, c₄, hresolve, hd₄⟩ := hresolve
  have hlook : Disk.isDirectory (contextOf kitchen formula tree vars flags c₄.report).workdir
      c₄.world.disk = (true, lookedAt.2) := by
    rw [hd₄, hd₃]
    show lookedAt = _
    rw [← lookedAt_fst]
  obtain ⟨c₅, hbuild, hd₅⟩ : ∃ c₅, (build install
      (contextOf kitchen formula tree vars flags c₄.report)).run c₄ = (.ok (), c₅) ∧
        c₅.world.disk = lookedAt.2 := run_build_ok hlook rfl
  obtain ⟨c₆, hinstall, hd₆⟩ : ∃ c₆, (installArtifacts install
      (contextOf kitchen formula tree vars flags c₄.report)).run c₅ = (.ok (), c₆) ∧
        c₆.world.disk = c₅.world.disk := run_installArtifacts_ok rfl
  exact ⟨_, c₆, run_installOnly_ok hprepare hfetch hunpack hresolve hbuild hinstall,
    hd₆.trans hd₅⟩

end Narrow

/-- When tests run below the prefix, what a failed test leaves there goes with its sandbox. -/
theorem prefix_not_left :
    ¬LeavesPrefix Narrow.kitchen Narrow.formula Narrow.install Narrow.test ⟨"/prefix"⟩
      ⟨{}, []⟩ := by
  intro hleaves
  obtain ⟨context, c, hinstall, hdisk⟩ := Narrow.run_installOnly
  obtain ⟨hmade, hfound, hthere, hremoved⟩ := Narrow.sandboxMade_eq
  have hmake : Sandbox.make Narrow.kitchen.config.sandboxRoot Narrow.kitchen.temporary "kiln-test-"
      c.world.disk = (.ok ⟨"/prefix/sandboxes/kiln-test-000000"⟩, Narrow.sandboxMade.2) := by
    rw [hdisk]
    show Narrow.sandboxMade = _
    rw [← hmade]
  -- from here on the disk is any with these properties, lest it be computed again
  generalize Narrow.sandboxMade.2 = d at hfound hthere hremoved hmake
  have hunder : d.IsUnder ⟨"/prefix"⟩ ["prefix", "sandboxes", "kiln-test-000000"] :=
    ⟨["prefix"], ⟨_, hfound⟩, by decide⟩
  exact hleaves context c _ _ hinstall hmake rfl _ hunder hthere
    (entryAt?_cookWith hinstall hmake hremoved)

end Cook

end Formulary
