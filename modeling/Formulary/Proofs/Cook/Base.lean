import Formulary.Proofs.Cook.FirstSteps
import Formulary.Proofs.Installation.Programs

/-!
# The prefix of a cook

A cook fixes its prefix first, as an absolute path (`Path.isAbsolute_of_absolute?`), and keeps it to
its end. The report names this path, what is installed lies below it, and no procedure is ever told
another one : a cook goes in the same way with any procedures that do the same in the contexts of
this prefix (`Cook.one_base`).
-/

namespace Formulary

/-- Behind an absolute path everything is absolute. -/
theorem Path.isAbsolute_join_of_isAbsolute {p : Path} (h : p.isAbsolute = true) (q : String) :
    (p.join q).isAbsolute = true := by
  cases hq : (Path.mk q).isAbsolute with
  | true => rwa [Path.join_of_isAbsolute hq]
  | false => rwa [Path.isAbsolute_join (text_ne_of_isAbsolute h) hq]

theorem Path.isAbsolute_of_absolute? {p q workdir : Path} (hworkdir : workdir.isAbsolute = true)
    (h : p.absolute? workdir = some q) : q.isAbsolute = true := by
  have hslash (b : Bool) (text : String) :
      (Path.mk ((if b then "//" else "/") ++ text)).isAbsolute = true := by
    rw [isAbsolute_iff, String.toList_append]
    cases b <;> rfl
  have happend {p : Path} (h : p.isAbsolute = true) (text : String) :
      (Path.mk (p.text ++ text)).isAbsolute = true := by
    rw [isAbsolute_iff, String.toList_append, List.head?_append, isAbsolute_iff.1 h]
    rfl
  unfold absolute? at h
  split at h
  · exact absurd h nofun
  · dsimp only at h
    split at h
    · obtain rfl := Option.some.inj h
      rw [String.append_assoc]
      exact hslash _ _
    · split at h
      · obtain rfl := Option.some.inj h
        split
        exacts [isAbsolute_join_of_isAbsolute hworkdir "", hworkdir]
      · obtain rfl := Option.some.inj h
        exact happend (isAbsolute_join_of_isAbsolute hworkdir _) _

/-! ## What procedures do for a prefix -/

/-- Both do the same in every context of the prefix. -/
structure InstallProcedure.AgreesAt (base : Path) (a b : InstallProcedure) : Prop where
  build : ∀ context : BuildContext, context.base = base → a.build context = b.build context
  artifacts : ∀ context : BuildContext, context.base = base →
    a.artifacts context = b.artifacts context

/-- Both do the same in every context of the prefix. -/
structure TestProcedure.AgreesAt (base : Path) (a b : TestProcedure) : Prop where
  stub : a.stub = b.stub
  run : ∀ context : TestContext, context.base = base → a.run context = b.run context

theorem Sandbox.runBy_congr {m : Type → Type} [Monad m]
    (onDisk : {α : Type} → StateM Disk α → m α) {call call' : TestContext → m (Except Halt String)}
    {base : Path} (h : ∀ p, call ⟨p, base⟩ = call' ⟨p, base⟩) (stub : Bool) (root : Option Path)
    (temporary : Temporary) : runBy onDisk call stub base root temporary =
      runBy onDisk call' stub base root temporary := by
  simp only [runBy, h]

namespace Cook

variable {k : Kitchen} {f : Formula} {install install' : InstallProcedure}
  {test test' : Option TestProcedure} {context : BuildContext} {c c' : Cook}

theorem runTest_congr {t t' : TestProcedure} {base : Path} (h : t.AgreesAt base t') :
    runTest k t base = runTest k t' base := by
  have hcall (p : Path) : journaled t ⟨p, base⟩ = journaled t' ⟨p, base⟩ := by
    rw [journaled, journaled, h.run _ rfl]
  rw [runTest, runTest, Sandbox.runBy_congr _ hcall, h.stub]

/-- What follows the context only depends on what the procedures do for its prefix. -/
theorem fromContext_congr (hinstall : install.AgreesAt context.base install')
    (htest : Option.Rel (TestProcedure.AgreesAt context.base) test test') :
    fromContext k install test context = fromContext k install' test' context := by
  have hbuild : build install context = build install' context := by
    rw [build, build, hinstall.build context rfl]
  have hartifacts : installArtifacts install context = installArtifacts install' context := by
    rw [installArtifacts, installArtifacts, hinstall.artifacts context rfl]
  rw [fromContext, fromContext, hbuild, hartifacts]
  cases htest with
  | none => rfl
  | some h => simp only [runTest_congr h]

/-! ## Fixing the prefix -/

/-- The prefix becomes its absolute path, and nothing else changes. -/
theorem eq_of_run_fixBase (h : fixBase.run c = (.ok (), c')) :
    ∃ p, c.report.base.absolute? c.world.disk.workdir = some p ∧
      c' = { c with report := { c.report with base := p } } := by
  unfold fixBase at h
  rw [run_bind, run_get] at h
  dsimp only at h
  split at h
  · exact absurd (congrArg Prod.fst h) nofun
  next p hp =>
    split at h
    · exact ⟨p, hp, (congrArg Prod.snd h).symm⟩
    · exact absurd (congrArg Prod.fst h) nofun

/-! ## Keeping the prefix -/

/-- What the report says of where and what is installed. -/
def placed (c : Cook) : Path × Option Installed := (c.report.base, c.report.installed)

theorem overlooks_placed : Overlooks placed := ⟨fun _ _ => rfl, fun _ _ _ => rfl⟩

/-- The steps from the fixed prefix up to the context of the build. -/
def toContextFrom (k : Kitchen) (f : Formula) : CookM BuildContext := do
  inspect k f
  let archive ← fetchSource k f
  let tree ← unpackSource k archive
  let (vars, flags) ← resolveFlags k f tree
  pure (contextOf k f tree vars flags (← get).report)

theorem toContext_eq (k : Kitchen) (f : Formula) :
    toContext k f = fixBase >>= fun _ => toContextFrom k f := by
  rw [toContext, prepare_eq, bind_assoc]
  rfl

theorem keeps_placed_toContextFrom (k : Kitchen) (f : Formula) :
    Keeps placed (toContextFrom k f) :=
  (keeps_inspect (fun _ _ => rfl) (fun _ _ _ _ => rfl) k f).bind fun _ =>
    (overlooks_placed.keeps_fetchSource (fun _ _ => rfl) k f).bind fun archive =>
    (overlooks_placed.keeps_unpackSource (fun _ _ _ => rfl) (fun _ _ => rfl) k archive).bind
      fun tree => (overlooks_placed.keeps_resolveFlags (fun _ _ _ => rfl) k f tree).bind fun _ =>
    keeps_get.bind fun _ => keeps_pure _

theorem placed_finish (k : Kitchen) (c : Cook) : placed (finish k c).2 = placed c := by
  obtain ⟨warnings, hr⟩ := report_finish k c
  rw [placed, hr]
  rfl

/-- Once the prefix is fixed, all that comes before the context keeps it, and installs nothing. -/
theorem placed_of_toContext (hfix : fixBase.run c = (.ok (), c')) :
    placed ((toContext k f).run c).2 = placed c' := by
  rw [toContext_eq, run_bind, hfix]
  exact keeps_placed_toContextFrom k f c'

/-- The context has the prefix of the report. -/
theorem base_of_toContext (h : (toContext k f).run c = (.ok context, c')) :
    context.base = c'.report.base := by
  obtain ⟨tree, vars, -, rfl⟩ := run_toContext h
  rfl

/-- An installation that succeeds is reported, and one that fails is not. -/
theorem installArtifacts_cases (install : InstallProcedure) (context : BuildContext) (c : Cook) :
    (∃ e c', (installArtifacts install context).run c = (.error e, c') ∧ placed c' = placed c) ∨
    ∃ i d' c', (installArtifacts install context).run c = (.ok (), c') ∧
      placed c' = (c.report.base, some i) ∧
      (Installation.run context.workdir context.base (install.artifacts context)).run
        c.world.disk = (.ok i, d') := by
  unfold installArtifacts
  rw [run_bind, run_enter]
  dsimp only
  rw [run_bind, run_inWorld]
  unfold World.call
  dsimp only
  rcases (Installation.run context.workdir context.base (install.artifacts context)).run
    c.world.disk with ⟨e | i, d'⟩
  · exact .inl ⟨_, _, rfl, rfl⟩
  · exact .inr ⟨i, d', _, rfl, rfl, rfl⟩

/-- What comes from the context keeps the prefix, and an installation that succeeds is reported. -/
theorem fromContext_cases (k : Kitchen) (install : InstallProcedure) (test : Option TestProcedure)
    (context : BuildContext) (c : Cook) :
    placed ((fromContext k install test context).run c).2 = placed c ∨
    ∃ i d d', placed ((fromContext k install test context).run c).2 = (c.report.base, some i) ∧
      (Installation.run context.workdir context.base (install.artifacts context)).run d =
        (.ok i, d') := by
  have hbuild := overlooks_placed.keeps_build (fun _ _ => rfl) install context c
  unfold fromContext
  rw [run_bind]
  rcases hrun : (build install context).run c with ⟨e | u, c₁⟩ <;> rw [hrun] at hbuild
  · exact .inl hbuild
  · dsimp only at hbuild ⊢
    rw [run_bind]
    rcases installArtifacts_cases install context c₁ with ⟨e, c₂, hrun, hkept⟩ |
      ⟨i, d', c₂, hrun, hplaced, hi⟩
    · rw [hrun]
      exact .inl (hkept.trans hbuild)
    · rw [hrun]
      refine .inr ⟨i, c₁.world.disk, d', ?_, hi⟩
      have hbase : c₁.report.base = c.report.base := congrArg Prod.fst hbuild
      rw [← hbase, ← hplaced]
      cases test with
      | none => exact overlooks_placed.keeps_enter .done c₂
      | some t =>
        exact ((overlooks_placed.keeps_runTest (fun _ _ => rfl) k t _).bind fun _ =>
          overlooks_placed.keeps_enter .done) c₂

/-! ## Whole cooks -/

/-- The whole cook keeps the prefix, and installs nothing or what it reports. -/
theorem run_placed_cases (k : Kitchen) (f : Formula) (install : InstallProcedure)
    (test : Option TestProcedure) {c fixed : Cook} (hfix : fixBase.run c = (.ok (), fixed)) :
    placed (run k f install test c).2 = placed fixed ∨
    ∃ context c' i d d', (toContext k f).run c = (.ok context, c') ∧
      context.base = fixed.report.base ∧
      placed (run k f install test c).2 = (fixed.report.base, some i) ∧
      (Installation.run context.workdir context.base (install.artifacts context)).run d =
        (.ok i, d') := by
  have hstart := placed_of_toContext (k := k) (f := f) hfix
  have hplaced : placed (run k f install test c).2 =
      placed ((phases k f install test).run c).2 := by
    rw [run_eq]
    rcases (phases k f install test).run c with ⟨e | u, c'⟩ <;> exact placed_finish k _
  rw [hplaced, phases_eq, run_bind]
  rcases hcontext : (toContext k f).run c with ⟨e | context, c'⟩ <;> rw [hcontext] at hstart
  · exact .inl hstart
  · have hbase : c'.report.base = fixed.report.base := congrArg Prod.fst hstart
    rcases fromContext_cases k install test context c' with hkept | ⟨i, d, d', hi, hrun⟩
    · exact .inl (hkept.trans hstart)
    · exact .inr ⟨context, c', i, d, d', rfl, (base_of_toContext hcontext).trans hbase,
        hbase ▸ hi, hrun⟩

/-- A cook reports the fixed prefix, and what it reports to be installed was installed from the
context of its build. -/
theorem base_of_run (k : Kitchen) (f : Formula) (install : InstallProcedure)
    (test : Option TestProcedure) {c fixed : Cook} (hfix : fixBase.run c = (.ok (), fixed))
    (hnone : c.report.installed = none) :
    let r := (run k f install test c).2.report
    r.base = fixed.report.base ∧ ∀ i, r.installed = some i → ∃ context c' d d',
      (toContext k f).run c = (.ok context, c') ∧ context.base = r.base ∧
      (Installation.run context.workdir context.base (install.artifacts context)).run d =
        (.ok i, d') := by
  intro r
  rcases run_placed_cases k f install test hfix with
    hkept | ⟨context, c', i, d, d', hcontext, hbase, hi, hrun⟩
  · obtain ⟨p, -, rfl⟩ := eq_of_run_fixBase hfix
    have hinstalled : r.installed = c.report.installed := congrArg Prod.snd hkept
    refine ⟨congrArg Prod.fst hkept, fun i hi => ?_⟩
    exact absurd ((hinstalled.trans hnone).symm.trans hi) nofun
  · have hr : r.base = fixed.report.base := congrArg Prod.fst hi
    have hinstalled : r.installed = some i := congrArg Prod.snd hi
    refine ⟨hr, fun j hj => ⟨context, c', d, d', hcontext, hbase.trans hr.symm, ?_⟩⟩
    obtain rfl := Option.some.inj (hj.symm.trans hinstalled)
    exact hrun

/-- Other procedures that do the same for the fixed prefix do not change the cook. -/
theorem run_congr {fixed : Cook} (hfix : fixBase.run c = (.ok (), fixed))
    (hinstall : install.AgreesAt fixed.report.base install')
    (htest : Option.Rel (TestProcedure.AgreesAt fixed.report.base) test test') :
    (run k f install test c).2 = (run k f install' test' c).2 := by
  have hstart := placed_of_toContext (k := k) (f := f) hfix
  rw [run_eq, run_eq, phases_eq, phases_eq, run_bind, run_bind]
  rcases hcontext : (toContext k f).run c with ⟨e | context, c'⟩
  · rfl
  · rw [hcontext] at hstart
    have hbase : context.base = fixed.report.base :=
      (base_of_toContext hcontext).trans (congrArg Prod.fst hstart)
    rw [← hbase] at hinstall htest
    dsimp only
    rw [fromContext_congr hinstall htest]

theorem cookWith_congr {base : Path} {w : World} {fixed : Cook}
    (hfix : fixBase.run (start k f base test.isSome w) = (.ok (), fixed))
    (hinstall : install.AgreesAt fixed.report.base install')
    (htest : Option.Rel (TestProcedure.AgreesAt fixed.report.base) test test') :
    k.cookWith f install' test' base w = k.cookWith f install test base w := by
  have hsome : test'.isSome = test.isSome := by cases htest <;> rfl
  have hsame := run_congr (k := k) (f := f) hfix hinstall htest
  show ((run k f install' test' (start k f base test'.isSome w)).2.report,
    (run k f install' test' (start k f base test'.isSome w)).2.world) = _
  rw [hsome, ← hsame]
  rfl

/-! ## What is installed -/

/-- The file is where the artifact is to go, strictly below an absolute prefix. -/
def LiesBelow (base : Path) (a : Artifact) (file : InstalledFile) : Prop :=
  ∃ dest, Destination.check a.dest = .ok dest ∧ file.path = base.join dest.text ∧
    file.path.isAbsolute = true ∧ file.path.IsBelow base

theorem liesBelow_of_places {base : Path} (hbase : base.isAbsolute = true) {a : Artifact}
    {file : InstalledFile} (h : Installation.Places base a file) : LiesBelow base a file := by
  obtain ⟨dest, hcheck, rfl⟩ := h
  refine ⟨dest, hcheck, rfl, ?_, dest.isBelow_under base⟩
  rw [← hbase]
  exact Path.isAbsolute_join (Path.text_ne_of_isAbsolute hbase) dest.isAbsolute_text

/-- Every declared program is installed among the programs under its file name. -/
theorem exists_program {workdir base : Path} (hbase : base.isAbsolute = true) {i : Installed}
    {d d' : Disk} (hrun : (Installation.run workdir base
      (CommandBuild.artifacts f context)).run d = (.ok i, d')) {n : Nat} {entry : String}
    (hentry : f.install.bin[n]? = some entry) :
    ∃ name file, (Path.mk entry).fileName? = some name ∧ i.files[n]? = some file ∧
      file.path = (base.join "bin").join name := by
  obtain ⟨hn, rfl⟩ := List.getElem?_eq_some_iff.1 hentry
  have hartifact : (CommandBuild.artifacts f context)[n]? =
      some (.ofProgram f.install.bin[n]) := by
    have hall : f.install.all[n]? = some (.ofProgram f.install.bin[n]) := by
      rw [Install.all, List.getElem?_append_left (by simpa using hn), List.getElem?_map,
        List.getElem?_eq_getElem hn, Option.map_some]
    unfold CommandBuild.artifacts
    split
    next hnil =>
      rw [hnil] at hall
      exact absurd hall nofun
    next => exact hall
  obtain ⟨steps, hmade⟩ := Installation.exists_made_of_run hrun
  obtain ⟨-, hplaces⟩ := Installation.places_of_run hrun
  obtain ⟨hn', hget⟩ := List.getElem?_eq_some_iff.1 hartifact
  obtain ⟨name, hname, hunder⟩ :=
    (hmade.passes _ (List.mem_of_getElem? hartifact)).exists_fileName?
  have hn'' : n < i.files.length := hplaces.length_eq ▸ hn'
  obtain ⟨dest, hcheck, hfile⟩ := hplaces.get hn' hn''
  rw [List.get_eq_getElem] at hcheck hfile
  rw [hget] at hcheck
  refine ⟨name, i.files[n], hname, List.getElem?_eq_getElem hn'', ?_⟩
  rw [hfile]
  exact hunder dest hcheck base (Path.text_ne_of_isAbsolute hbase)

/-! ## One prefix -/

/-- A cook that can make its prefix absolute has this one prefix in its report, in the context of
its build, and in all contexts that its procedures are told : it goes in the same way when they do
something else for other prefixes. What it installs is strictly below this prefix, and the programs
that a formula declares are where a test looks for them, each under its file name. The working
directory of a process is an absolute path. -/
theorem one_base (k : Kitchen) (f : Formula) (install : InstallProcedure)
    (test : Option TestProcedure) (base : Path) (w : World)
    (hworkdir : w.disk.workdir.isAbsolute = true)
    (hfixed : (fixBase.run (start k f base test.isSome w)).1 = .ok ()) :
    let begun := start k f base test.isSome w
    let r := (k.cookWith f install test base w).1
    base.absolute? w.disk.workdir = some r.base ∧ r.base.isAbsolute = true ∧
      (∀ context c, (toContext k f).run begun = (.ok context, c) → context.base = r.base) ∧
      (∀ install' test', install.AgreesAt r.base install' →
        Option.Rel (TestProcedure.AgreesAt r.base) test test' →
        k.cookWith f install' test' base w = k.cookWith f install test base w) ∧
      ∀ i, r.installed = some i → i.base = r.base ∧
        ∃ context c, (toContext k f).run begun = (.ok context, c) ∧
          List.Forall₂ (LiesBelow r.base) (install.artifacts context) i.files ∧
          ∀ m, install = CommandBuild.procedure m f →
            ∀ (n : Nat) (entry : String), f.install.bin[n]? = some entry →
              ∃ name file, (Path.mk entry).fileName? = some name ∧ i.files[n]? = some file ∧
                ∀ sandbox, file.path = (TestContext.mk sandbox r.base).bin.join name := by
  intro begun r
  obtain ⟨fixed, hfix⟩ : ∃ fixed, fixBase.run begun = (.ok (), fixed) :=
    ⟨(fixBase.run begun).2, Prod.ext hfixed rfl⟩
  obtain ⟨hr, hinstalled⟩ : r.base = fixed.report.base ∧ _ :=
    base_of_run k f install test hfix rfl
  obtain ⟨p, habsolute, rfl⟩ := eq_of_run_fixBase hfix
  have hfinal : base.absolute? w.disk.workdir = some r.base :=
    habsolute.trans (congrArg some hr.symm)
  have hroot := Path.isAbsolute_of_absolute? hworkdir hfinal
  refine ⟨hfinal, hroot, fun context c hcontext => ?_, fun install' test' hinstall htest => ?_,
    fun i hi => ?_⟩
  · have hplaced := placed_of_toContext (k := k) (f := f) hfix
    rw [hcontext] at hplaced
    exact (base_of_toContext hcontext).trans ((congrArg Prod.fst hplaced).trans hr.symm)
  · rw [hr] at hinstall htest
    exact cookWith_congr hfix hinstall htest
  · obtain ⟨context, c, d, d', hcontext, hcontextBase, hrun⟩ := hinstalled i hi
    change context.base = r.base at hcontextBase
    rw [hcontextBase] at hrun
    obtain ⟨hwhere, hplaces⟩ := Installation.places_of_run hrun
    refine ⟨hwhere, context, c, hcontext, hplaces.imp fun _ _ h => liesBelow_of_places hroot h,
      fun m hprocedure n entry hentry => ?_⟩
    rw [hprocedure] at hrun
    obtain ⟨name, file, hname, hfile, hpath⟩ := exists_program hroot hrun hentry
    exact ⟨name, file, hname, hfile, fun _ => hpath⟩

/-- A relative prefix is taken from the working directory. -/
theorem one_base_relative :
    ({} : Disk).workdir.isAbsolute = true ∧
      (fixBase.run (start Narrow.kitchen Narrow.formula ⟨"prefix"⟩ true ⟨{}, []⟩)).1 = .ok () ∧
      (Narrow.kitchen.cookWith Narrow.formula Narrow.install (some Narrow.test) ⟨"prefix"⟩
        ⟨{}, []⟩).1.base = ⟨"/prefix"⟩ := by
  have hworkdir : ({} : Disk).workdir.isAbsolute = true := by decide
  have hfixed : (fixBase.run (start Narrow.kitchen Narrow.formula ⟨"prefix"⟩ true
      ⟨{}, []⟩)).1 = .ok () := rfl
  obtain ⟨habsolute, -⟩ := one_base Narrow.kitchen Narrow.formula Narrow.install
    (some Narrow.test) ⟨"prefix"⟩ ⟨{}, []⟩ hworkdir hfixed
  have hroot : (Path.mk "prefix").absolute? ({} : Disk).workdir = some ⟨"/prefix"⟩ := by decide
  exact ⟨hworkdir, hfixed, Option.some.inj (habsolute.symm.trans hroot)⟩

end Cook

end Formulary
