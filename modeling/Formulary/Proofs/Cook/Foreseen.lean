import Formulary.Proofs.Cook.Failures
import Formulary.Proofs.Cook.FirstSteps
import Formulary.Proofs.Destination
import Formulary.Proofs.Installation
import Formulary.Proofs.Validation

/-!
# What validation does not foresee

Validation checks every destination that a formula declares, and that a test has commands. It does
not look at the destination of a formula that declares none, which is made of the output of its
build, nor into the commands. So a formula is accepted whose output leads upwards, or whose test has
a command without a program (`Formula.not_foreseen`), and a cook of it goes on to the installation
or to the test, and fails there for sure. Nothing else is refused for a destination
(`Formula.foreseen`).
-/

namespace Formulary

namespace Formula

/-- The output of the build is installed where it cannot be : nothing is declared to be installed,
and it has a segment of two dots. -/
def OutputEscapes (f : Formula) : Prop :=
  f.install.all = [] ∧ ".." ∈ Text.pieces '/' f.build.output

/-- A command of the test names no program. -/
def HasEmptyCommand (f : Formula) : Prop := ∃ t, f.test = some t ∧ [] ∈ t.commands

/-- Why the output is refused. -/
def outputRefusal (f : Formula) : Destination.Refusal := .escapes ("bin/" ++ f.build.output)

/-- What a formula is refused for, by an installation and by a test, and when. -/
structure Foreseen (f : Formula) : Prop where
  /-- Every destination will do, unless it is that of an output that escapes. -/
  destinations (k : Kitchen) (tree : SourceTree) (vars : Bindings) (flags : List String)
    (r : Report) :
    (∀ a ∈ CommandBuild.artifacts f (Cook.contextOf k f tree vars flags r),
      ∃ dest, Destination.check a.dest = .ok dest) ↔ ¬f.OutputEscapes
  /-- An installation refuses such an output and no other destination. -/
  refused (k : Kitchen) (tree : SourceTree) (vars : Bindings) (flags : List String) (r : Report)
    (workdir base : Path) (d : Disk) (refusal : Destination.Refusal) :
    (∃ d', (Installation.run workdir base
        (CommandBuild.artifacts f (Cook.contextOf k f tree vars flags r))).run d =
      (.error (.destination refusal), d')) ↔ f.OutputEscapes ∧ refusal = f.outputRefusal
  /-- A test that is no placeholder has commands. -/
  commands (t : SmokeTest) : f.test = some t → t.stub = false → t.commands ≠ []
  /-- No test with an empty command comes to its end. -/
  tested (t : SmokeTest) (m : Machine) (c : TestContext) (d : Disk) (log : String) :
    f.test = some t → [] ∈ t.commands → (CommandTest.run m f t c d).1 ≠ .ok log
  /-- A cook that comes to the installation of an output that escapes fails there. -/
  installing (k : Kitchen) (m : Machine) (base : Path) (w : World) : f.OutputEscapes →
    (k.cook m f base w).1.Entered .installing → (k.cook m f base w).1.failure =
      some (.of .installing (Installation.Failure.toError (.destination f.outputRefusal)))
  /-- A cook that comes to a test with an empty command fails there. -/
  testing (k : Kitchen) (m : Machine) (base : Path) (w : World) : f.HasEmptyCommand →
    (k.cook m f base w).1.Entered .testing →
      ∃ message, (k.cook m f base w).1.failure = some ⟨.testing, .test, message⟩

variable {f : Formula}

/-! ## Destinations -/

/-- When nothing is declared, the output is what is installed. -/
theorem artifacts_of_nil (h : f.install.all = []) (k : Kitchen) (tree : SourceTree)
    (vars : Bindings) (flags : List String) (r : Report) :
    CommandBuild.artifacts f (Cook.contextOf k f tree vars flags r) =
      [⟨f.build.output, "bin/" ++ f.build.output, .executable⟩] := by
  rw [CommandBuild.artifacts, h]
  rfl

theorem artifacts_of_ne_nil (h : f.install.all ≠ []) (context : BuildContext) :
    CommandBuild.artifacts f context = f.install.all := by
  unfold CommandBuild.artifacts
  split
  · contradiction
  · rfl

theorem Usable.destinations_iff (h : f.Usable) (k : Kitchen) (tree : SourceTree) (vars : Bindings)
    (flags : List String) (r : Report) :
    (∀ a ∈ CommandBuild.artifacts f (Cook.contextOf k f tree vars flags r),
      ∃ dest, Destination.check a.dest = .ok dest) ↔ ¬f.OutputEscapes := by
  by_cases hnil : f.install.all = []
  · rw [artifacts_of_nil hnil, List.forall_mem_singleton, Destination.exists_check_program_iff,
      OutputEscapes, and_iff_right hnil]
  · rw [artifacts_of_ne_nil hnil]
    exact iff_of_true h.destinations fun hescapes => hnil hescapes.1

theorem OutputEscapes.check (h : f.OutputEscapes) :
    Destination.check ("bin/" ++ f.build.output) = .error f.outputRefusal :=
  Destination.check_of_escapes (Destination.escapes_program_iff.2 h.2)

/-- An output that escapes is refused before anything is done. -/
theorem OutputEscapes.run (h : f.OutputEscapes) (k : Kitchen) (tree : SourceTree)
    (vars : Bindings) (flags : List String) (r : Report) (workdir base : Path) (d : Disk) :
    (Installation.run workdir base
        (CommandBuild.artifacts f (Cook.contextOf k f tree vars flags r))).run d =
      (.error (.destination f.outputRefusal), d) := by
  have hrefused : Destination.check
      (Artifact.mk f.build.output ("bin/" ++ f.build.output) .executable).dest =
        .error f.outputRefusal := h.check
  rw [artifacts_of_nil h.1, Installation.run_of_refused hrefused]

theorem Usable.refused_iff (h : f.Usable) (k : Kitchen) (tree : SourceTree) (vars : Bindings)
    (flags : List String) (r : Report) (workdir base : Path) (d : Disk)
    (refusal : Destination.Refusal) :
    (∃ d', (Installation.run workdir base
        (CommandBuild.artifacts f (Cook.contextOf k f tree vars flags r))).run d =
      (.error (.destination refusal), d')) ↔ f.OutputEscapes ∧ refusal = f.outputRefusal := by
  constructor
  · rintro ⟨d', hrun⟩
    have hescapes : f.OutputEscapes := by
      by_contra hnot
      obtain ⟨a, ha, hrefused⟩ := Installation.refused_of_run hrun
      obtain ⟨dest, hdest⟩ := (h.destinations_iff k tree vars flags r).2 hnot a ha
      exact absurd (hrefused.symm.trans hdest) nofun
    rw [hescapes.run] at hrun
    exact ⟨hescapes, (Installation.Failure.destination.inj (Except.error.inj
      (congrArg Prod.fst hrun))).symm⟩
  · rintro ⟨hescapes, rfl⟩
    exact ⟨d, hescapes.run k tree vars flags r workdir base d⟩

/-! ## Commands -/

/-- Commands are run up to an empty one at most, by induction on the commands. -/
theorem runFrom_ne_ok (f : Formula) (m : Machine) (c : TestContext) (path : String)
    {commands : List (List String)} (hempty : [] ∈ commands) (log last : String) (d : Disk)
    (printed : String × String) :
    (CommandTest.runFrom m f c path log last commands d).1 ≠ .ok printed := by
  induction commands generalizing log last d with
  | nil => exact absurd hempty List.not_mem_nil
  | cons command rest ih =>
    unfold CommandTest.runFrom
    cases hcommand : command.map (f.substitute · c.substitutions) with
    | nil => exact nofun
    | cons program arguments =>
      have hrest : [] ∈ rest := by
        refine (List.mem_cons.1 hempty).resolve_left fun hnil => ?_
        rw [← hnil] at hcommand
        exact absurd hcommand nofun
      dsimp only
      rw [bind_apply]
      generalize m.launch _ d = launched
      obtain ⟨cause | done, d'⟩ := launched
      · exact nofun
      · dsimp only
        split
        · exact ih hrest _ _ _
        · exact nofun

/-- No test with an empty command comes to its end. -/
theorem run_ne_ok {t : SmokeTest} (hempty : [] ∈ t.commands) (m : Machine) (c : TestContext)
    (d : Disk) (log : String) : (CommandTest.run m f t c d).1 ≠ .ok log := by
  unfold CommandTest.run
  split
  · exact nofun
  · cases CommandTest.searchPath m c with
    | error reason => exact nofun
    | ok path =>
      dsimp only
      rw [bind_apply]
      have hne := runFrom_ne_ok f m c path hempty "" "" d
      generalize CommandTest.runFrom m f c path "" "" t.commands d = result at hne ⊢
      obtain ⟨reason | printed, d'⟩ := result
      · exact nofun
      · exact absurd rfl (hne printed)

end Formula

namespace Cook

variable {α : Type} {f : Formula}

/-! ## A cook of such a formula -/

/-- What does not come before a cook is ready for a phase. -/
structure Spared (f : Formula) (p : Phase) : Prop where
  /-- An output that escapes is not installed. -/
  output : Phase.installing.index < p.index → ¬f.OutputEscapes
  /-- A test with an empty command does not pass. -/
  command : p = .done → ¬f.HasEmptyCommand

/-- How a cook of such a formula fails in a phase. -/
structure Refuses (f : Formula) (p : Phase) (e : Error) : Prop where
  /-- The installation comes first. -/
  output : f.OutputEscapes → p.index ≤ Phase.installing.index
  /-- There the output is refused. -/
  refusal : p = .installing → f.OutputEscapes →
    e = Installation.Failure.toError (.destination f.outputRefusal)
  /-- A failed test is one. -/
  test : p = .testing → e.kind = .test

theorem spared_of_le {p : Phase} (hp : p.index ≤ Phase.installing.index) : Spared f p where
  output hlt := absurd hp hlt.not_ge
  command hdone := absurd (hdone ▸ hp) (by decide)

theorem refuses_of_lt {p : Phase} (hp : p.index < Phase.installing.index) (e : Error) :
    Refuses f p e where
  output _ := hp.le
  refusal hinstalling := absurd (hinstalling ▸ hp) (by decide)
  test htesting := absurd (htesting ▸ hp) (by decide)

theorem spares_installArtifacts (k : Kitchen) (m : Machine) (f : Formula) (tree : SourceTree)
    (vars : Bindings) (flags : List String) (r : Report) {before : Report → Prop} {p : Phase}
    (hp : p = .done → ¬f.HasEmptyCommand) :
    Tells before (installArtifacts (CommandBuild.procedure m f) (contextOf k f tree vars flags r))
      (fun _ _ => Spared f p) (fun e _ => Refuses f .installing e) := by
  refine (tells_enter _).bind fun _ => (tells_inWorld _).bind fun answer => ?_
  -- such an output is refused on any disk, so the world before does not matter
  have hanswer (w : World) (hescapes : f.OutputEscapes) :
      (World.call (.installation (contextOf k f tree vars flags r).base
        (CommandBuild.artifacts f (contextOf k f tree vars flags r))) Except.isOk
        (Installation.run (contextOf k f tree vars flags r).workdir
          (contextOf k f tree vars flags r).base
          (CommandBuild.artifacts f (contextOf k f tree vars flags r))).run w).1 =
      .error (.destination f.outputRefusal) :=
    congrArg Prod.fst (hescapes.run k tree vars flags r _ _ w.disk)
  refine (tells_orHalt fun failure r he hr => ?_).bind fun installed => ?_
  · obtain ⟨⟨w, hw⟩, -⟩ := hr
    refine ⟨fun _ => le_rfl, fun _ hescapes => ?_, nofun⟩
    rw [← Except.error.inj ((hanswer w hescapes).symm.trans (hw.trans he))]
  refine (tells_record (fun _ => ¬f.OutputEscapes) fun r hr hescapes => ?_).bind fun _ =>
    tells_record _ fun r hr => ⟨fun _ => hr, hp⟩
  obtain ⟨hinstalled, ⟨w, hw⟩, -⟩ := hr
  exact absurd ((hanswer w hescapes).symm.trans (hw.trans hinstalled)) nofun

/-- A test that passed came to its end. -/
theorem exists_of_passed {t : TestProcedure} {base : Path} {root : Option Path}
    {temporary : Temporary} {w : World}
    (h : (Sandbox.runBy World.onDisk (journaled t) t.stub base root temporary w).1 =
      .ok .passed) : ∃ c d log, (t.run c d).1 = .ok log := by
  have htries := tries t base root temporary w
  generalize Sandbox.runBy World.onDisk (journaled t) t.stub base root temporary w = tried
    at h htries
  cases htries with
  | notMade => exact absurd h nofun
  | notRemoved => exact absurd h nofun
  | @ended p d d' d'' result _ hrun =>
    cases result with
    | error halt =>
      unfold Sandbox.outcomeOf at h
      dsimp only at h
      split at h
      · exact absurd h nofun
      · exact absurd h nofun
    | ok log => exact ⟨⟨p, base⟩, d, log, congrArg Prod.fst hrun⟩

theorem spares_runTest (k : Kitchen) {m : Machine} {t : TestProcedure}
    (ht : CommandTest.procedure? m f = some t) (base : Path) :
    Tells (fun _ => Spared f .testing) (runTest k t base) (fun _ _ => Spared f .done)
      (fun e _ => Refuses f .testing e) := by
  have hrefuses (e : Error) (hkind : e.kind = .test) (hspared : Spared f .testing) :
      Refuses f .testing e :=
    ⟨fun hescapes => absurd hescapes (hspared.output (by decide)), nofun, fun _ => hkind⟩
  refine (tells_enter _).bind fun _ => (tells_inWorld _).bind fun answer => ?_
  refine (tells_orHalt fun failure r _ hr => ?_).bind fun outcome => ?_
  · exact hrefuses _ failure.kind_toError hr.2
  refine (tells_record (fun _ => (∃ w, (Sandbox.runBy World.onDisk (journaled t) t.stub base
    k.config.sandboxRoot k.temporary w).1 = .ok outcome) ∧ Spared f .testing)
    fun r hr => ?_).bind fun _ => ?_
  · obtain ⟨houtcome, ⟨w, hw⟩, hspared⟩ := hr
    exact ⟨⟨w, hw.trans houtcome⟩, hspared⟩
  refine (tells_orHalt fun e r he hr => ?_).mono fun _ r hr => ?_
  · exact hrefuses _ (TestOutcome.of_toResult_eq_error he).2 hr.2
  · obtain ⟨hpassed, ⟨w, hw⟩, hspared⟩ := hr
    rw [TestOutcome.eq_passed_of_toResult hpassed] at hw
    refine ⟨fun _ => hspared.output (by decide), fun _ ⟨s, hs, hempty⟩ => ?_⟩
    obtain ⟨c, d, log, hrun⟩ := exists_of_passed hw
    rw [CommandTest.procedure?, hs] at ht
    obtain rfl := Option.some.inj ht
    have hresult : (CommandTest.run m f s c d).1.mapError
        (fun reason => Halt.error (.test reason s.stub)) = .ok log := hrun
    cases hended : (CommandTest.run m f s c d).1 with
    | error reason =>
      rw [hended] at hresult
      exact absurd hresult nofun
    | ok log' => exact Formula.run_ne_ok hempty m c d log' hended

/-- Before the installation nothing is said of either. -/
theorem spares_early {x : CookM α} {before : Report → Prop} {p q : Phase}
    (hp : p.index < Phase.installing.index) (hq : q.index ≤ Phase.installing.index) :
    Tells before x (fun _ _ => Spared f q) (fun e _ => Refuses f p e) :=
  tells_of_forall (fun _ _ => spared_of_le hq) fun e _ => refuses_of_lt hp e

theorem contract_refusals (k : Kitchen) (m : Machine) (f : Formula) :
    Contract k f (CommandBuild.procedure m f) (CommandTest.procedure? m f)
      (fun p _ => Spared f p) (fun p e _ => Refuses f p e) where
  prepare := spares_early (by decide) (by decide)
  fetch := spares_early (by decide) (by decide)
  unpack _ := spares_early (by decide) (by decide)
  resolve _ := spares_early (by decide) (by decide)
  build _ _ _ _ := spares_early (by decide) (by decide)
  install tree vars flags r := by
    refine spares_installArtifacts k m f tree vars flags r fun hdone => ?_
    rintro ⟨t, ht, -⟩
    rw [CommandTest.procedure?, ht] at hdone
    exact absurd hdone nofun
  test t base ht := spares_runTest k ht base

/-- A cook of such a formula does not come past what it is refused for. -/
theorem refused_of_cook (k : Kitchen) (m : Machine) (f : Formula) (base : Path) (w : World) :
    let r := (k.cook m f base w).1
    (f.OutputEscapes → r.Entered .installing → r.failure =
      some (.of .installing (Installation.Failure.toError (.destination f.outputRefusal)))) ∧
    (f.HasEmptyCommand → r.Entered .testing →
      ∃ message, r.failure = some ⟨.testing, .test, message⟩) := by
  intro r
  rcases (contract_refusals k m f).report base w (spared_of_le (by decide)) with
    ⟨c, hspared, -⟩ | ⟨p, e, c, hp, hrefuses, hclosed, hfailure, -⟩
  · exact ⟨fun hescapes => absurd hescapes (hspared.output (by decide)),
      fun hempty => absurd hempty (hspared.command rfl)⟩
  · refine ⟨fun hescapes hentered => ?_, fun _ hentered => ?_⟩
    · have hle := hrefuses.output hescapes
      have hge := (hclosed.entered_iff (by decide)).1 hentered
      obtain rfl : p = .installing := Phase.index_injective (le_antisymm hle hge)
      rw [← hrefuses.refusal rfl hescapes]
      exact hfailure
    · have hlate := (hclosed.entered_testing_iff.1 hentered).2
      obtain rfl := (Phase.testing_le_iff.1 hlate).resolve_right hp
      refine ⟨e.message, hfailure.trans ?_⟩
      rw [Failure.of, hrefuses.test rfl]

end Cook

namespace Formula

/-- What an accepted formula is still refused for is the output of its build, or a test with an
empty command. -/
theorem foreseen (f : Formula) (h : ∃ warnings, f.validate = .ok warnings) : f.Foreseen := by
  have husable : f.Usable := exists_validate_iff.1 h
  exact {
    destinations := husable.destinations_iff
    refused := husable.refused_iff
    commands := fun t ht => husable.test t ht
    tested := fun t m c d log _ hempty => run_ne_ok hempty m c d log
    installing := fun k m base w => (Cook.refused_of_cook k m f base w).1
    testing := fun k m base w => (Cook.refused_of_cook k m f base w).2 }

/-- Every destination will do. -/
def HasGoodDestinations (f : Formula) : Prop :=
  ∀ k tree vars flags r, ∀ a ∈ CommandBuild.artifacts f (Cook.contextOf k f tree vars flags r),
    ∃ dest, Destination.check a.dest = .ok dest

/-- A test that is no placeholder has no empty command. -/
def HasGoodCommands (f : Formula) : Prop :=
  ∀ t, f.test = some t → t.stub = false → [] ∉ t.commands

end Formula

/-! ## An output that is refused -/

namespace Cook

/-- The steps up to the end of the build. -/
def buildOnly (k : Kitchen) (f : Formula) (install : InstallProcedure) : CookM BuildContext := do
  let context ← toContext k f
  build install context
  pure context

/-- The steps from the installation on. -/
def fromBuild (k : Kitchen) (install : InstallProcedure) (test : Option TestProcedure)
    (context : BuildContext) : CookM Unit := do
  installArtifacts install context
  match test with
  | some test => runTest k test context.base
  | none => pure ()
  enter .done

theorem run_buildOnly_ok {k : Kitchen} {f : Formula} {install : InstallProcedure}
    {context : BuildContext} {c c' c'' : Cook}
    (hcontext : (toContext k f).run c = (.ok context, c'))
    (hbuild : (build install context).run c' = (.ok (), c'')) :
    (buildOnly k f install).run c = (.ok context, c'') := by
  unfold buildOnly
  rw [run_bind, hcontext]
  dsimp only
  rw [run_bind, hbuild]
  rfl

theorem phases_eq_buildOnly (k : Kitchen) (f : Formula) (install : InstallProcedure)
    (test : Option TestProcedure) :
    phases k f install test = buildOnly k f install >>= fromBuild k install test := by
  rw [phases_eq]
  simp only [buildOnly, bind_assoc, pure_bind]
  rfl

/-- A cook comes to the installation exactly when all steps up to there succeed. -/
theorem entered_installing_iff (k : Kitchen) (m : Machine) (f : Formula) (base : Path) (w : World) :
    (k.cook m f base w).1.Entered .installing ↔
      ∃ context c, (buildOnly k f (CommandBuild.procedure m f)).run
        (start k f base (CommandTest.procedure? m f).isSome w) = (.ok context, c) := by
  have hfirst : Spans (CommandTest.procedure? m f).isSome .init .building
      [.init, .fetching, .verifying, .resolving, .building]
      (buildOnly k f (CommandBuild.procedure m f)) :=
    ((spans_toContext k f).mono (by decide)).bind fun context =>
      ((leads_build _ context).spans (by decide)).bind fun _ =>
      (keeps_pure _).leads.spans (by decide)
  have hsecond (context : BuildContext) : Spans (CommandTest.procedure? m f).isSome .building .done
      [.installing, .testing]
      (fromBuild k (CommandBuild.procedure m f) (CommandTest.procedure? m f) context) := by
    refine ((leads_installArtifacts _ context).spans (by decide)).bind fun _ => ?_
    cases CommandTest.procedure? m f with
    | none => exact spans_enter_done rfl
    | some test =>
      exact ((leads_runTest k test _).spans (by decide)).bind fun _ => spans_enter_done rfl
  have hnext : Phase.installing ≠ .testing := by decide
  have htallies := tallies_of_split (phases_eq_buildOnly k f _ _) hfirst hsecond (by decide)
    (by decide) hnext (inPhase_start k f base _ w)
  refine htallies.value.symm.trans ⟨?_, ?_⟩
  · rintro ⟨context, hrun⟩
    exact ⟨context, _, Prod.ext hrun rfl⟩
  · rintro ⟨context, c, hrun⟩
    exact ⟨context, congrArg Prod.fst hrun⟩

namespace Upward

/-! What follows is a formula whose output leads upwards, and a cook of it up to the
installation. -/

/-- A formula that declares nothing to be installed. -/
def formula (output : String) (commands : List (List String)) : Formula := {
  Narrow.formula with
  build := { Narrow.formula.build with output }
  test := some { commands } }

/-- A machine on which every program succeeds. -/
def machine : Machine where
  launch _ := pure (.ok ⟨some 0, .empty, .empty⟩)

/-- Such a formula is accepted, whatever its output and its commands are. -/
theorem validate_formula {output : String} {commands : List (List String)}
    (houtput : Text.isBlankText output = false) (hcommands : commands ≠ []) :
    ∃ warnings, (formula output commands).validate = .ok warnings := by
  have hname : Text.isBlankText "empty" = false := by decide
  refine Formula.exists_validate_iff.2 {
    name := hname, version := ⟨"1", rfl⟩, checksum := ⟨_, Narrow.parse_formula⟩, command := nofun
    output := houtput, workdir := nofun, vars := nofun, flags := nofun, stages := nofun
    conditions := nofun, destinations := nofun, test := fun t ht _ => ?_ }
  obtain rfl := Option.some.inj ht
  exact hcommands

/-- The source is unpacked, and the build succeeds in it. -/
theorem run_buildOnly (output : String) (commands : List (List String))
    (houtput : Text.isBlankText output = false) (hcommands : commands ≠ []) (hasTest : Bool) :
    ∃ context c, (buildOnly Narrow.kitchen (formula output commands)
      (CommandBuild.procedure machine (formula output commands))).run
        (start Narrow.kitchen (formula output commands) ⟨"/prefix"⟩ hasTest ⟨{}, []⟩) =
      (.ok context, c) := by
  obtain ⟨warnings, hvalid⟩ := validate_formula houtput hcommands
  have hbase : (Path.mk "/prefix").absolute? ({} : Disk).workdir = some ⟨"/prefix"⟩ ∧
      (Path.mk "/prefix").isAbsolute = true := ⟨rfl, rfl⟩
  obtain ⟨c₁, hprepare, hw₁⟩ := run_prepare_ok (k := Narrow.kitchen) (f := formula output commands)
    (c := start Narrow.kitchen (formula output commands) ⟨"/prefix"⟩ hasTest ⟨{}, []⟩)
    hbase.1 hbase.2 hvalid rfl rfl
  obtain ⟨c₂, hfetch, hd₂⟩ := run_fetchSource_ok (k := Narrow.kitchen)
    (f := formula output commands) (c := c₁) rfl rfl Narrow.parse_formula
  obtain ⟨c₃, hunpack, hd₃⟩ := Narrow.run_unpackSource (hd₂.trans (congrArg World.disk hw₁))
  obtain ⟨vars, flags, c₄, hresolve, hd₄⟩ : ∃ vars flags c,
      (resolveFlags Narrow.kitchen (formula output commands) Narrow.tree).run c₃ =
        (.ok (vars, flags), c) ∧ c.world.disk = c₃.world.disk := ⟨_, _, _, rfl, rfl⟩
  have hcontext := run_toContext_ok hprepare hfetch hunpack hresolve
  have hlook : Disk.isDirectory
      (contextOf Narrow.kitchen (formula output commands) Narrow.tree vars flags
        c₄.report).workdir c₄.world.disk = (true, Narrow.lookedAt.2) := by
    rw [hd₄, hd₃]
    show Narrow.lookedAt = _
    rw [← Narrow.lookedAt_fst]
  obtain ⟨c₅, hbuild, -⟩ : ∃ c₅, (build (CommandBuild.procedure machine (formula output commands))
      (contextOf Narrow.kitchen (formula output commands) Narrow.tree vars flags c₄.report)).run
        c₄ = (.ok (), c₅) ∧ c₅.world.disk = _ := run_build_ok hlook rfl
  exact ⟨_, c₅, run_buildOnly_ok hcontext hbuild⟩

end Upward

end Cook

namespace Formula

open Cook

/-- The output of this build is refused below the prefix, after it was built. -/
theorem foreseen_upward :
    let f := Upward.formula "../empty" [["empty"]]
    let r := (Narrow.kitchen.cook Upward.machine f ⟨"/prefix"⟩ ⟨{}, []⟩).1
    (∃ warnings, f.validate = .ok warnings) ∧ f.OutputEscapes ∧ r.Entered .installing ∧
      r.failure = some ⟨.installing, .install,
        "install failed: destination 'bin/../empty' escapes the installation prefix"⟩ := by
  intro f r
  have houtput : Text.isBlankText "../empty" = false := by decide
  have hvalid : ∃ warnings, f.validate = .ok warnings := Upward.validate_formula houtput nofun
  have hescapes : f.OutputEscapes := ⟨rfl, by decide⟩
  have hentered : r.Entered .installing :=
    (entered_installing_iff Narrow.kitchen Upward.machine f ⟨"/prefix"⟩ ⟨{}, []⟩).2
      (Upward.run_buildOnly "../empty" [["empty"]] houtput nofun true)
  refine ⟨hvalid, hescapes, hentered, ?_⟩
  rw [(foreseen f hvalid).installing Narrow.kitchen Upward.machine _ _ hescapes hentered]
  rfl

/-- A formula is accepted whose output is not installed, and one whose test has a command without a
program. -/
theorem not_foreseen :
    let f := Upward.formula "../empty" [["empty"]]
    let f' := Upward.formula "empty" [[]]
    (∃ warnings, f.validate = .ok warnings) ∧ ¬f.HasGoodDestinations ∧
      (∃ warnings, f'.validate = .ok warnings) ∧ ¬f'.HasGoodCommands := by
  intro f f'
  have hescapes : f.OutputEscapes := ⟨rfl, by decide⟩
  refine ⟨Upward.validate_formula (by decide) nofun, fun hgood => ?_,
    Upward.validate_formula (by decide) nofun, fun hgood => ?_⟩
  · have hdest := hgood Narrow.kitchen Narrow.tree .empty [] default
    rw [artifacts_of_nil hescapes.1, List.forall_mem_singleton, hescapes.check] at hdest
    exact hdest.elim nofun
  · exact hgood _ rfl rfl List.mem_cons_self

end Formula

end Formulary
