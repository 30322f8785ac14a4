import Formulary.Proofs.Cook.Course
import Formulary.Proofs.Cook.Order
import Formulary.Proofs.Flags
import Formulary.Proofs.Template
import Formulary.Proofs.Validation
import Formulary.Proofs.Variables

/-!
# What the build is told

A cook comes to the context of its build (`toContext`), and what it does from there on
(`fromContext`) leaves the reported flags as they are. So the flags of the context are those of the
report. On the way into a command they go through one more replacement : names that come after the
flags in the order of replacement are looked for in the flags, too (`ldflags_of_command`). A value
that reads like the placeholder of such a name does not reach the build as it was reported
(`flags_not_passed`).
-/

namespace Formulary.Cook

variable {k : Kitchen} {f : Formula}

/-! ## The way to the context -/

/-- The steps up to the context of the build. -/
def toContext (k : Kitchen) (f : Formula) : CookM BuildContext := do
  prepare k f
  let archive ← fetchSource k f
  let tree ← unpackSource k archive
  let (vars, flags) ← resolveFlags k f tree
  pure (contextOf k f tree vars flags (← get).report)

/-- The steps from the context on. -/
def fromContext (k : Kitchen) (install : InstallProcedure) (test : Option TestProcedure)
    (context : BuildContext) : CookM Unit := do
  build install context
  installArtifacts install context
  match test with
  | some test => runTest k test context.base
  | none => pure ()
  enter .done

theorem phases_eq (k : Kitchen) (f : Formula) (install : InstallProcedure)
    (test : Option TestProcedure) :
    phases k f install test = toContext k f >>= fromContext k install test := by
  cases test <;> simp only [phases, installOnly, toContext, fromContext, bind_assoc, pure_bind]

/-- The variables and the flags that are rendered are recorded. -/
theorem run_resolveFlags {tree : SourceTree} {vars : Bindings} {flags : List String} {c c' : Cook}
    (h : (resolveFlags k f tree).run c = (.ok (vars, flags), c')) :
    Flags.render f.build.flags vars = .ok flags ∧ c'.report.vars = some vars ∧
      c'.report.flags = flags := by
  obtain ⟨-, c₁, -, h⟩ := exists_of_run_bind h
  obtain ⟨resolved, c₂, -, h⟩ := exists_of_run_bind h
  obtain ⟨vars', c₃, -, h⟩ := exists_of_run_bind h
  obtain ⟨_, c₄, hvars, h⟩ := exists_of_run_bind h
  obtain ⟨flags', c₅, hhalt, h⟩ := exists_of_run_bind h
  obtain ⟨_, c₆, hflags, h⟩ := exists_of_run_bind h
  obtain ⟨hpair, rfl⟩ := Prod.mk.inj h
  obtain ⟨rfl, rfl⟩ := Prod.mk.inj (Except.ok.inj hpair)
  obtain ⟨-, rfl⟩ := Prod.mk.inj hflags
  obtain ⟨hrender, rfl⟩ := eq_of_run_orHalt hhalt
  obtain ⟨-, rfl⟩ := Prod.mk.inj hvars
  exact ⟨hrender, rfl, rfl⟩

/-- The context has the flags of the report. -/
theorem run_toContext {context : BuildContext} {c c' : Cook}
    (h : (toContext k f).run c = (.ok context, c')) :
    ∃ tree vars, Flags.render f.build.flags vars = .ok c'.report.flags ∧
      context = contextOf k f tree vars c'.report.flags c'.report := by
  obtain ⟨-, c₁, -, h⟩ := exists_of_run_bind h
  obtain ⟨archive, c₂, -, h⟩ := exists_of_run_bind h
  obtain ⟨tree, c₃, -, h⟩ := exists_of_run_bind h
  obtain ⟨⟨vars, flags⟩, c₄, hresolve, h⟩ := exists_of_run_bind h
  obtain ⟨hrender, -, rfl⟩ := run_resolveFlags hresolve
  obtain ⟨hcontext, rfl⟩ := Prod.mk.inj h
  exact ⟨tree, vars, hrender, (Except.ok.inj hcontext).symm⟩

/-- The context has the variables of the report. -/
theorem vars_of_run_toContext {context : BuildContext} {c c' : Cook}
    (h : (toContext k f).run c = (.ok context, c')) : c'.report.vars = some context.vars := by
  obtain ⟨-, c₁, -, h⟩ := exists_of_run_bind h
  obtain ⟨archive, c₂, -, h⟩ := exists_of_run_bind h
  obtain ⟨tree, c₃, -, h⟩ := exists_of_run_bind h
  obtain ⟨⟨vars, flags⟩, c₄, hresolve, h⟩ := exists_of_run_bind h
  obtain ⟨-, hvars, -⟩ := run_resolveFlags hresolve
  obtain ⟨hcontext, rfl⟩ := Prod.mk.inj h
  rw [hvars, ← Except.ok.inj hcontext]
  rfl

/-! ## The way from the context -/

/-- A view of reports that sees nothing of what is added after the flags. -/
def Settled {γ : Type} (view : Report → γ) : Prop :=
  ∀ r trail finishedAt installed test failure warnings log,
    view { r with trail, finishedAt, installed, test, failure, warnings, log } = view r

section

variable {γ : Type} {view : Report → γ}

theorem overlooks_view (view : Report → γ) : Overlooks fun c => view c.report :=
  ⟨fun _ _ => rfl, fun _ _ _ => rfl⟩

theorem Settled.keeps_fromContext (h : Settled view) (k : Kitchen) (install : InstallProcedure)
    (test : Option TestProcedure) (context : BuildContext) :
    Keeps (fun c => view c.report) (fromContext k install test context) := by
  have hview := overlooks_view view
  refine (hview.keeps_build (fun c _ => h c.report _ _ _ _ _ _ _) _ _).bind fun _ =>
    (hview.keeps_installArtifacts (fun c _ _ => h c.report _ _ _ _ _ _ _) _ _).bind fun _ => ?_
  cases test with
  | none => exact hview.keeps_enter _
  | some test =>
    exact (hview.keeps_runTest (fun c _ => h c.report _ _ _ _ _ _ _) k test _).bind fun _ =>
      hview.keeps_enter _

theorem Settled.finish (h : Settled view) (k : Kitchen) (c : Cook) :
    view (finish k c).2.report = view c.report := by
  obtain ⟨warnings, hr⟩ := report_finish k c
  rw [hr]
  exact h c.report _ _ _ _ _ _ _

/-- What is known when a cook comes to a context stays in its report, however it goes on. -/
theorem Settled.of_toContext (h : Settled view) (install : InstallProcedure)
    (test : Option TestProcedure) {context : BuildContext} {c c' : Cook}
    (hrun : (toContext k f).run c = (.ok context, c')) :
    view (run k f install test c).2.report = view c'.report := by
  have hkeeps := h.keeps_fromContext k install test context c'
  rw [run_eq, phases_eq, run_bind, hrun]
  dsimp only
  rcases hr : (fromContext k install test context).run c' with ⟨e | u, c''⟩
  · rw [hr] at hkeeps
    have hhalt : view (halt e c'').2.report = view c''.report := h c''.report _ _ _ _ _ _ _
    exact (h.finish k _).trans (hhalt.trans hkeeps)
  · rw [hr] at hkeeps
    exact (h.finish k c'').trans hkeeps

end

/-- A cook that came to a context reports the variables of it, however it goes on. -/
theorem vars_of_toContext (install : InstallProcedure) (test : Option TestProcedure)
    {context : BuildContext} {c c' : Cook} (h : (toContext k f).run c = (.ok context, c')) :
    (run k f install test c).2.report.vars = some context.vars := by
  have hsettled : Settled Report.vars := fun _ _ _ _ _ _ _ _ => rfl
  rw [hsettled.of_toContext install test h, vars_of_run_toContext h]

/-- A cook that came to a context reports the flags of it, however it goes on. -/
theorem flags_of_toContext (install : InstallProcedure) (test : Option TestProcedure)
    {context : BuildContext} {c c' : Cook} (h : (toContext k f).run c = (.ok context, c')) :
    (run k f install test c).2.report.flags = context.flags := by
  obtain ⟨tree, vars, -, hcontext⟩ := run_toContext h
  have hsettled : Settled Report.flags := fun _ _ _ _ _ _ _ _ => rfl
  rw [hsettled.of_toContext install test h, hcontext]
  rfl

theorem flags_of_cookWith (install : InstallProcedure) (test : Option TestProcedure) (base : Path)
    (w : World) {context : BuildContext} {c : Cook}
    (h : (toContext k f).run (start k f base test.isSome w) = (.ok context, c)) :
    (k.cookWith f install test base w).1.flags = context.flags :=
  flags_of_toContext install test h

/-! ## The flags in a command -/

theorem get?_ldflags (context : BuildContext) :
    context.substitutions.get? "ldflags" = some context.linkerFlags := by
  simp [BuildContext.substitutions]

/-- An argument that names the flags becomes them, with the names replaced that come later. -/
theorem getElem?_argv (context : BuildContext) {i : Nat}
    (hi : f.build.command[i]? = some (placeholder "ldflags")) :
    (CommandBuild.argv f context)[i]? =
      some ((f.replacedAfter context.substitutions "ldflags").foldl fillOne
        context.linkerFlags) := by
  have hkey : IsKey "ldflags" := by decide
  have hfilled := substitute_placeholder f hkey (by decide) (by decide) (get?_ldflags context)
  rw [CommandBuild.argv, List.getElem?_map, hi, Option.map_some, hfilled]

/-! ## Phases that succeed -/

/-- A formula without dependencies only has to be accepted. -/
theorem run_prepare_ok {c : Cook} {base : Path} {warnings : List String}
    (hbase : c.report.base.absolute? c.world.disk.workdir = some base)
    (habsolute : c.report.base.isAbsolute = true) (hvalid : f.validate = .ok warnings)
    (hnone : f.dependencies = []) (hprobes : k.config.probes = false) :
    ∃ c', (prepare k f).run c = (.ok (), c') ∧ c'.world = c.world := by
  have hfix : fixBase.run c =
      (.ok (), { c with report := { c.report with base := base } }) := by
    unfold fixBase
    rw [run_bind, run_get]
    dsimp only
    rw [hbase]
    dsimp only
    rw [habsolute]
    rfl
  unfold prepare
  rw [run_bind, hfix]
  dsimp only
  rw [hvalid, hnone, hprobes]
  exact ⟨_, rfl, rfl⟩

theorem run_resolveFlags_ok {tree : SourceTree} {vars : Bindings} {flags : List String} {c : Cook}
    {w : World}
    (hresolve : (Variables.resolve (recorded k.metadata) f tree.root).run c.world = (.ok vars, w))
    (hrender : Flags.render f.build.flags vars = .ok flags) :
    ∃ c', (resolveFlags k f tree).run c = (.ok (vars, flags), c') := by
  unfold resolveFlags
  rw [run_bind, run_enter]
  dsimp only
  rw [run_bind, run_inWorld]
  dsimp only
  rw [hresolve, run_bind, run_orHalt_ok]
  dsimp only
  rw [run_bind, run_record]
  dsimp only
  rw [hrender]
  exact ⟨_, rfl⟩

/-- The context is made when every phase up to there succeeds. -/
theorem run_toContext_ok {archive : Verified} {tree : SourceTree} {vars : Bindings}
    {flags : List String} {c c₁ c₂ c₃ c₄ : Cook}
    (hprepare : (prepare k f).run c = (.ok (), c₁))
    (hfetch : (fetchSource k f).run c₁ = (.ok archive, c₂))
    (hunpack : (unpackSource k archive).run c₂ = (.ok tree, c₃))
    (hresolve : (resolveFlags k f tree).run c₃ = (.ok (vars, flags), c₄)) :
    (toContext k f).run c = (.ok (contextOf k f tree vars flags c₄.report), c₄) := by
  unfold toContext
  rw [run_bind, hprepare]
  dsimp only
  rw [run_bind, hfetch]
  dsimp only
  rw [run_bind, hunpack]
  dsimp only
  rw [run_bind, hresolve]
  rfl

namespace Banner

/-! What follows is a formula that puts a banner into what it builds, and a cook of it up to the
context. -/

/-- The formula with a banner. -/
def formula (banner : String) : Formula := { Narrow.formula with
  build := {
    command := ["tool", placeholder "ldflags"]
    output := "empty"
    flags := [⟨"main.Banner", "banner"⟩] }
  vars := .ofList [("banner", banner)] }

/-- The variables of the formula. -/
def vars (banner : String) : Bindings :=
  Variables.withOwn (formula banner) (Variables.builtins "1" "c" "HEAD" "t" ⟨0, 0⟩)

/-- The flags of the formula. -/
def flags (banner : String) : List String := ["-s", "-w", "-X " ++ ("main.Banner=" ++ banner)]

/-- What the build is told, with the report so far. -/
def context (banner : String) (r : Report) : BuildContext :=
  contextOf Narrow.kitchen (formula banner) Narrow.tree (vars banner) (flags banner) r

theorem linkerFlags_context (banner : String) (r : Report) :
    (context banner r).linkerFlags = Flags.joined (flags banner) := rfl

theorem validate_formula (banner : String) :
    ∃ warnings, (formula banner).validate = .ok warnings := by
  have hblank : Text.isBlankText "empty" = false := by decide
  have hcontains : (formula banner).vars.contains "banner" = true := rfl
  refine Formula.exists_validate_iff.2 {
    name := hblank, version := ⟨"1", rfl⟩, checksum := ⟨_, Narrow.parse_formula⟩, command := nofun
    output := hblank, workdir := nofun, vars := fun name hname => ?_, flags := fun e he => ?_
    stages := nofun, conditions := nofun, destinations := nofun, test := nofun }
  · have hnames : (formula banner).vars.names = ["banner"] := rfl
    rw [Bindings.contains_iff_mem_names, hnames, List.mem_singleton] at hname
    rw [hname]
    decide
  · obtain rfl := List.mem_singleton.1 he
    exact .inr hcontains

theorem resolve_formula (banner : String) (w : World) :
    ∃ w', (Variables.resolve (recorded Narrow.kitchen.metadata) (formula banner)
      Narrow.tree.root).run w = (.ok (vars banner), w') := ⟨_, rfl⟩

theorem render_flags {banner : String} (hbanner : Flags.IsWord banner) :
    Flags.render (formula banner).build.flags (vars banner) = .ok (flags banner) := by
  have hvalue : (vars banner).get? "banner" = some banner := by
    rw [vars, Variables.get?_withOwn]
    rfl
  have hsymbol : Flags.IsWord "main.Banner=" := by decide
  have hword : Flags.IsWord ("main.Banner" ++ "=" ++ banner) := by
    intro c hc
    rw [String.toList_append, List.mem_append] at hc
    exact hc.elim (hsymbol c) (hbanner c)
  have hone := Flags.renderOne_eq_ok_iff (e := ⟨"main.Banner", "banner"⟩).2
    ⟨banner, _, hvalue, Flags.assignment_of_isWord hword, rfl⟩
  exact Flags.render_eq_ok_iff.2 ⟨_, rfl, .cons hone .nil⟩

/-- The source is unpacked, and the variables are those of the formula. -/
theorem run_toContext_formula (banner : String) (hbanner : Flags.IsWord banner) :
    ∃ r c, (toContext Narrow.kitchen (formula banner)).run
        (start Narrow.kitchen (formula banner) ⟨"/prefix"⟩ false ⟨{}, []⟩) =
      (.ok (context banner r), c) := by
  obtain ⟨warnings, hvalid⟩ := validate_formula banner
  have hbase : (Path.mk "/prefix").absolute? ({} : Disk).workdir = some ⟨"/prefix"⟩ ∧
      (Path.mk "/prefix").isAbsolute = true := ⟨rfl, rfl⟩
  obtain ⟨c₁, hprepare, hw₁⟩ := run_prepare_ok (k := Narrow.kitchen) (f := formula banner)
    (c := start Narrow.kitchen (formula banner) ⟨"/prefix"⟩ false ⟨{}, []⟩)
    hbase.1 hbase.2 hvalid rfl rfl
  obtain ⟨c₂, hfetch, hd₂⟩ := run_fetchSource_ok (k := Narrow.kitchen) (f := formula banner)
    (c := c₁) rfl rfl Narrow.parse_formula
  obtain ⟨c₃, hunpack, -⟩ := Narrow.run_unpackSource (hd₂.trans (congrArg World.disk hw₁))
  obtain ⟨w, hresolve⟩ := resolve_formula banner c₃.world
  obtain ⟨c₄, hresolve⟩ := run_resolveFlags_ok (k := Narrow.kitchen) (f := formula banner)
    (c := c₃) hresolve (render_flags hbanner)
  exact ⟨c₄.report, c₄, run_toContext_ok hprepare hfetch hunpack hresolve⟩

/-- The command names the flags in its second argument. -/
theorem getElem?_command (banner : String) :
    (formula banner).build.command[1]? = some (placeholder "ldflags") := rfl

/-- The names after `ldflags`, when the report is any. -/
theorem replacedAfter_ldflags (r : Report) :
    (formula (placeholder "output")).replacedAfter
        (context (placeholder "output") r).substitutions "ldflags" =
      [("output", "empty"), ("prefix", r.base.display), ("toolchain_version", "t"),
        ("version", "1"), ("banner", placeholder "output")] := by
  have hvars : (vars (placeholder "output")).entries = [("banner", placeholder "output"),
      ("branch", "HEAD"), ("build_time", "1970-01-01T00:00:00Z"), ("commit", "c"),
      ("toolchain_version", "t"), ("version", "1")] := rfl
  have hentries : ∀ flags jobs base : String,
      ((((vars (placeholder "output")).insert "ldflags" flags).insert "output" "empty").insert
        "jobs" jobs |>.insert "prefix" base).entries.filter ("ldflags" < ·.1) =
      [("output", "empty"), ("prefix", base), ("toolchain_version", "t"), ("version", "1")] := by
    intro flags jobs base
    simp +decide only [Bindings.insert, Bindings.insertEntry, hvars, if_true, if_false,
      List.filter_cons, List.filter_nil, decide_eq_true_eq]
  exact congrArg (· ++ _) (hentries _ _ _)

/-- The first of these names is in the banner, and then there is no placeholder left. -/
theorem getElem?_argv_output (r : Report) :
    (CommandBuild.argv (formula (placeholder "output")) (context (placeholder "output") r))[1]? =
      some "-s -w -X main.Banner=empty" := by
  have hfilled : fillOne (Flags.joined (flags (placeholder "output"))) ("output", "empty") =
      "-s -w -X main.Banner=empty" := rfl
  have hstays : ∀ e, fillOne "-s -w -X main.Banner=empty" e = "-s -w -X main.Banner=empty" :=
    fun e => fillOne_of_not_contains (not_contains_placeholder (by decide) e.1)
  rw [getElem?_argv _ (getElem?_command _), replacedAfter_ldflags, linkerFlags_context,
    List.foldl_cons, hfilled, foldl_fillOne_of_forall fun e _ => hstays e]

end Banner

/-! ## The flags that are built with -/

/-- What a cook reports as flags is what its flags were rendered to, and what the context of the
build has. An argument of the build command that names the flags becomes the reported ones, joined,
after those names were replaced in them that come after `ldflags` in the order of replacement. It
is the reported flags as they are if these hold no placeholder of such a name. -/
theorem ldflags_of_command (k : Kitchen) (f : Formula) (install : InstallProcedure)
    (test : Option TestProcedure) (base : Path) (w : World) (context : BuildContext) (c : Cook)
    (h : (toContext k f).run (start k f base test.isSome w) = (.ok context, c)) :
    let flags := (k.cookWith f install test base w).1.flags
    let later := f.replacedAfter context.substitutions "ldflags"
    Flags.render f.build.flags context.vars = .ok flags ∧ context.flags = flags ∧
    ∀ i : Nat, f.build.command[i]? = some (placeholder "ldflags") →
      (CommandBuild.argv f context)[i]? = some (later.foldl fillOne (Flags.joined flags)) ∧
      ((∀ e ∈ later, Text.contains (Flags.joined flags) (placeholder e.1) = false) →
        (CommandBuild.argv f context)[i]? = some (Flags.joined flags)) := by
  intro flags later
  have hflags : flags = context.flags := flags_of_cookWith install test base w h
  obtain ⟨tree, vars, hrender, hcontext⟩ := run_toContext h
  refine ⟨?_, hflags.symm, fun i hi => ?_⟩
  · rw [hflags, hcontext]
    exact hrender
  · have hargument := getElem?_argv context hi
    rw [hflags]
    refine ⟨hargument, fun hcontains => hargument.trans (congrArg some ?_)⟩
    exact foldl_fillOne_of_forall fun e he => fillOne_of_not_contains (hcontains e he)

/-- The flags of a banner that is a word. -/
theorem ldflags_of_command_word :
    let f := Banner.formula "Kiln"
    ∃ context c, (toContext Narrow.kitchen f).run
        (start Narrow.kitchen f ⟨"/prefix"⟩ false ⟨{}, []⟩) = (.ok context, c) ∧
      (CommandBuild.argv f context)[1]? = some "-s -w -X main.Banner=Kiln" := by
  intro f
  obtain ⟨r, c, hrun⟩ := Banner.run_toContext_formula "Kiln" (by decide)
  obtain ⟨-, hflags, hcommand⟩ := ldflags_of_command Narrow.kitchen f Narrow.install none
    ⟨"/prefix"⟩ ⟨{}, []⟩ _ c hrun
  have hplain : '%' ∉ (Flags.joined (Banner.flags "Kiln")).toList := by decide
  rw [← hflags] at hcommand
  exact ⟨_, c, hrun, (hcommand 1 (Banner.getElem?_command _)).2 fun e _ =>
    not_contains_placeholder hplain e.1⟩

/-- Wherever the command names the flags, the build is passed those of the report. -/
def PassesFlags (k : Kitchen) (f : Formula) (install : InstallProcedure)
    (test : Option TestProcedure) (base : Path) (w : World) : Prop :=
  ∀ context c, (toContext k f).run (start k f base test.isSome w) = (.ok context, c) →
    ∀ i : Nat, f.build.command[i]? = some (placeholder "ldflags") →
      (CommandBuild.argv f context)[i]? =
        some (Flags.joined (k.cookWith f install test base w).1.flags)

/-- A banner that reads like the placeholder of the output is reported as it is, but the build is
passed the name of the output in its place. -/
theorem flags_not_passed :
    (∃ warnings, (Banner.formula (placeholder "output")).validate = .ok warnings) ∧
      ¬PassesFlags Narrow.kitchen (Banner.formula (placeholder "output")) Narrow.install none
        ⟨"/prefix"⟩ ⟨{}, []⟩ := by
  refine ⟨Banner.validate_formula _, fun hpasses => ?_⟩
  obtain ⟨r, c, hrun⟩ := Banner.run_toContext_formula (placeholder "output") (by decide)
  have hpassed := hpasses _ c hrun 1 (Banner.getElem?_command _)
  have hreported := flags_of_cookWith Narrow.install none ⟨"/prefix"⟩ ⟨{}, []⟩ hrun
  have hjoined : Flags.joined (Banner.flags (placeholder "output")) =
      "-s -w -X main.Banner=%(output)s" := rfl
  rw [Banner.getElem?_argv_output, hreported, ← BuildContext.linkerFlags,
    Banner.linkerFlags_context, hjoined] at hpassed
  simp at hpassed

end Formulary.Cook
