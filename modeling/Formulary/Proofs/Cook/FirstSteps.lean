import Formulary.Kitchen
import Formulary.Proofs.Cook.Context

/-!
# The first steps of a cook

To fetch the source or to render the flags is to take the first steps of a cook, into another prefix
and without a test. Once its prefix is fixed, what these steps come to and what they do depends on
the world alone (`Cook.Alike`). So they come to a value exactly when a cook from the same world goes
on to the phase that follows, and fail as a cook does that fails on the way
(`Cook.partly_tallies`).
-/

namespace Formulary

/-! ## Prefixes -/

theorem Path.exists_absolute? {p : Path} (h : p.text ≠ "") (workdir : Path) :
    ∃ q, p.absolute? workdir = some q := by
  have hempty : p.text.isEmpty = false := by simpa using h
  unfold absolute?
  rw [hempty, if_neg (by decide)]
  dsimp only
  split
  · exact ⟨_, rfl⟩
  · split
    · exact ⟨_, rfl⟩
    · exact ⟨_, rfl⟩

theorem Path.text_ne_of_isAbsolute {p : Path} (h : p.isAbsolute = true) : p.text ≠ "" := by
  intro hempty
  rw [isAbsolute, hempty] at h
  exact absurd h (by decide)

theorem Path.join_text_ne (p : Path) {q : String} (h : q ≠ "") : (p.join q).text ≠ "" := by
  unfold join
  split
  · exact h
  · split
    · exact h
    · simp [h]
    · simp [h]

/-- The place of a formula in the cellar has a name. -/
theorem Config.home_text_ne (config : Config) (f : Formula) : (config.home f).text ≠ "" := by
  refine Path.join_text_ne _ ?_
  cases h : f.packageVersion? with
  | none => decide
  | some v => exact Formula.packageVersion?_ne_empty h

/-! ## Results -/

/-- The steps up to a phase came to a result exactly as the report tells of a cook. How the message
of their failure is told there may depend on the phase. -/
structure Report.Tallies {α : Type} (told : Phase → String → String → Prop) (r : Report)
    (result : Except Error α) (early : List Phase) (next : Phase) : Prop where
  /-- They came to a value when the cook went on to the next phase. -/
  value : (∃ a, result = .ok a) ↔ r.Entered next
  /-- They failed when the cook failed in an early phase. -/
  error : (∃ e, result = .error e) ↔ ∃ p ∈ early, r.HaltedIn p
  /-- The failure of the cook is then theirs. -/
  failure : ∀ e, result = .error e → ∃ p ∈ early, r.HaltedIn p ∧
    ∃ message, r.failure = some ⟨p, e.kind, message⟩ ∧ told p e.message message

/-- What tallies with a result tallies with any other that is a value when it is one, or else a
failure of the same kind. -/
theorem Report.Tallies.of_outcomes {α β : Type} {told : Phase → String → String → Prop}
    {r : Report} {result : Except Error α} {result' : Except Error β} {early : List Phase}
    {next : Phase} (h : r.Tallies (fun _ => Eq) result' early next)
    (hresults : Outcomes (fun e e' => e'.kind = e.kind ∧
      ∀ p ∈ early, r.HaltedIn p → told p e.message e'.message) (fun _ _ => True) result result') :
    r.Tallies told result early next := by
  obtain ⟨hvalue, herror, hfailure⟩ := h
  cases hresults with
  | ok _ =>
    refine ⟨iff_of_true ⟨_, rfl⟩ (hvalue.1 ⟨_, rfl⟩), iff_of_false nofun fun hhalted => ?_, nofun⟩
    exact absurd (herror.2 hhalted) nofun
  | error htold =>
    refine ⟨iff_of_false nofun fun hentered => ?_, iff_of_true ⟨_, rfl⟩ (herror.1 ⟨_, rfl⟩), ?_⟩
    · exact absurd (hvalue.2 hentered) nofun
    · rintro _ ⟨⟩
      obtain ⟨p, hp, hhalted, message, hreported, rfl⟩ := hfailure _ rfl
      exact ⟨p, hp, hhalted, _, hreported.trans (by rw [htold.1]), htold.2 p hp hhalted⟩

theorem Report.Tallies.map {α β : Type} {r : Report} {result : Except Error α} {early : List Phase}
    {next : Phase} (h : r.Tallies (fun _ => Eq) result early next) (g : α → β) :
    r.Tallies (fun _ => Eq) (result.map g) early next := by
  refine h.of_outcomes ?_
  cases result with
  | error e => exact .error ⟨rfl, fun _ _ _ => rfl⟩
  | ok a => exact .ok trivial

/-- Every phase comes before the end. -/
theorem Phase.index_le_done (p : Phase) : p.index ≤ done.index := by
  cases p <;> decide

theorem Report.HaltedIn.unique {r : Report} {p q : Phase} (hp : r.HaltedIn p) (hq : r.HaltedIn q) :
    p = q := by
  obtain ⟨kind, hp⟩ := hp
  obtain ⟨kind', hq⟩ := hq
  exact (CookState.failed.inj (hp.symm.trans hq)).1

namespace Cook

variable {α β : Type} {hasTest : Bool} {p q s : Phase} {k : Kitchen} {f : Formula}

/-! ## Two cooks in one world -/

/-- From any two cooks with the first property that are in the same world, the step comes to the
same result and to the same world. -/
def Alike (before : Cook → Prop) (x : CookM α) : Prop :=
  ∀ c c', before c → before c' → c.world = c'.world →
    (x.run c).1 = (x.run c').1 ∧ (x.run c).2.world = (x.run c').2.world

section

variable {before : Cook → Prop}

theorem alike_pure (a : α) : Alike before (pure a : CookM α) := fun _ _ _ _ hw => ⟨rfl, hw⟩

theorem alike_throw (e : Error) : Alike before (throw e : CookM α) := fun _ _ _ _ hw => ⟨rfl, hw⟩

theorem alike_enter (p : Phase) : Alike before (enter p) := fun _ _ _ _ hw => ⟨rfl, hw⟩

theorem alike_record (change : Report → Report) : Alike before (record change) :=
  fun _ _ _ _ hw => ⟨rfl, hw⟩

theorem alike_buildDirectory (p : Path) :
    Alike before (modify fun c => { c with buildDirectory := some p }) :=
  fun _ _ _ _ hw => ⟨rfl, hw⟩

theorem alike_inWorld (act : WorldM α) : Alike before (inWorld act) := by
  intro c c' _ _ hw
  rw [run_inWorld, run_inWorld, hw]
  exact ⟨rfl, rfl⟩

theorem alike_orHalt {ε : Type} (toError : ε → Error) (result : Except ε α) :
    Alike before (orHalt toError result) := by
  cases result with
  | error e => exact alike_throw _
  | ok a => exact alike_pure a

theorem Alike.bind {x : CookM α} {g : α → CookM β} (hx : Alike before x)
    (hg : ∀ a, Alike (fun _ => True) (g a)) : Alike before (x >>= g) := by
  intro c c' hc hc' hw
  obtain ⟨hresult, hworld⟩ := hx c c' hc hc' hw
  rw [run_bind, run_bind]
  generalize x.run c = run at hresult hworld
  generalize x.run c' = run' at hresult hworld
  obtain ⟨result, d⟩ := run
  obtain ⟨_, d'⟩ := run'
  obtain rfl := hresult
  cases result with
  | error e => exact ⟨rfl, hworld⟩
  | ok a => exact hg a d d' trivial trivial hworld

end

/-! ## The steps -/

/-- The prefix can be made absolute. -/
def Fixable (c : Cook) : Prop :=
  c.report.base.text ≠ "" ∧ (c.report.base.isAbsolute = true ∨ c.world.disk.hasWorkdir = true)

theorem Fixable.run_fixBase {c : Cook} (h : c.Fixable) :
    ∃ p, fixBase.run c = (.ok (), { c with report := { c.report with base := p } }) := by
  obtain ⟨p, hp⟩ := Path.exists_absolute? h.1 c.world.disk.workdir
  refine ⟨p, ?_⟩
  unfold fixBase
  rw [run_bind, run_get]
  dsimp only
  rw [hp]
  dsimp only
  rw [if_pos (by simpa using h.2)]
  rfl

theorem alike_fixBase : Alike Fixable fixBase := by
  intro c c' hc hc' hw
  obtain ⟨p, hp⟩ := hc.run_fixBase
  obtain ⟨p', hp'⟩ := hc'.run_fixBase
  rw [hp, hp']
  exact ⟨rfl, hw⟩

theorem alike_checkHost (k : Kitchen) (needed : Classified) {before : Cook → Prop} :
    Alike before (checkHost k needed) := by
  unfold checkHost
  split
  · exact alike_pure _
  · exact (alike_inWorld _).bind fun _ => (alike_orHalt _ _).bind fun _ => alike_orHalt _ _

theorem alike_prepare (k : Kitchen) (f : Formula) : Alike Fixable (prepare k f) := by
  refine alike_fixBase.bind fun _ => (alike_orHalt _ _).bind fun _ =>
    (alike_record _).bind fun _ => (alike_record _).bind fun _ =>
    (alike_checkHost k _).bind fun check => ?_
  split
  · exact (alike_inWorld _).bind fun _ => (alike_orHalt _ _).bind fun _ => alike_record _
  · exact alike_record _

theorem alike_fetchSource (k : Kitchen) (f : Formula) {before : Cook → Prop} :
    Alike before (fetchSource k f) :=
  (alike_enter _).bind fun _ => (alike_inWorld _).bind fun _ => (alike_orHalt _ _).bind fun _ =>
    (alike_record _).bind fun _ => alike_pure _

theorem alike_unpackSource (k : Kitchen) (archive : Verified) {before : Cook → Prop} :
    Alike before (unpackSource k archive) := by
  refine (alike_enter _).bind fun _ => (alike_inWorld _).bind fun made => ?_
  cases made with
  | error f => exact alike_throw _
  | ok p =>
    refine (alike_inWorld _).bind fun unpacked => ?_
    cases unpacked with
    | error f => exact (alike_inWorld _).bind fun _ => alike_throw _
    | ok tree =>
      exact (alike_inWorld _).bind fun _ => (alike_record _).bind fun _ =>
        (alike_record _).bind fun _ => (alike_buildDirectory p).bind fun _ => alike_pure _

theorem alike_resolveFlags (k : Kitchen) (f : Formula) (tree : SourceTree) {before : Cook → Prop} :
    Alike before (resolveFlags k f tree) :=
  (alike_enter _).bind fun _ => (alike_inWorld _).bind fun _ => (alike_orHalt _ _).bind fun _ =>
    (alike_record _).bind fun _ => (alike_orHalt _ _).bind fun _ =>
    (alike_record _).bind fun _ => alike_pure _

theorem alike_fetchOnly (k : Kitchen) (f : Formula) : Alike Fixable (fetchOnly k f) :=
  (alike_prepare k f).bind fun _ => alike_fetchSource k f

/-- The steps of a cook up to the source tree. -/
def unpackOnly (k : Kitchen) (f : Formula) : CookM SourceTree := fetchOnly k f >>= unpackSource k

theorem alike_unpackOnly (k : Kitchen) (f : Formula) : Alike Fixable (unpackOnly k f) :=
  (alike_fetchOnly k f).bind fun archive => alike_unpackSource k archive

theorem alike_flagsOnly (k : Kitchen) (f : Formula) : Alike Fixable (flagsOnly k f) :=
  (alike_prepare k f).bind fun _ => (alike_fetchSource k f).bind fun archive =>
    (alike_unpackSource k archive).bind fun tree => alike_resolveFlags k f tree

/-! ## Where a cook may fail -/

/-- The cook is in one of some phases. -/
def IsInOneOf (hasTest : Bool) (l : List Phase) (c : Cook) : Prop := ∃ p ∈ l, c.InPhase hasTest p

/-- From one phase, the step leads to another, or fails in one of some phases. -/
def Spans (hasTest : Bool) (p q : Phase) (l : List Phase) (x : CookM α) : Prop :=
  Ensures (InPhase hasTest p) x (fun _ => InPhase hasTest q) (IsInOneOf hasTest l)

variable {l : List Phase}

theorem Leads.spans {x : CookM α} (h : Leads hasTest p q x) (hq : q ∈ l) :
    Spans hasTest p q l x := by
  intro c hc
  have hin := h c hc
  rcases hr : x.run c with ⟨e | a, c'⟩
  · rw [hr] at hin
    exact ⟨q, hq, hin⟩
  · rw [hr] at hin
    exact hin

theorem Spans.mono {l' : List Phase} {x : CookM α} (h : Spans hasTest p q l x)
    (hl : ∀ p ∈ l, p ∈ l') : Spans hasTest p q l' x :=
  Ensures.mono h (fun _ _ hin => hin) fun _ ⟨p, hp, hin⟩ => ⟨p, hl p hp, hin⟩

theorem spans_enter_done (hn : p.next? hasTest = some .done) :
    Spans hasTest p .done l (enter .done) := fun c hc => leads_enter hn c hc

theorem spans_fetchOnly (k : Kitchen) (f : Formula) :
    Spans hasTest .init .fetching [.init, .fetching] (fetchOnly k f) :=
  ((leads_prepare k f).spans (by decide)).bind fun _ => (leads_fetchSource k f).spans (by decide)

theorem spans_unpackOnly (k : Kitchen) (f : Formula) :
    Spans hasTest .init .verifying [.init, .fetching, .verifying] (unpackOnly k f) :=
  ((spans_fetchOnly k f).mono (by decide)).bind fun archive =>
    (leads_unpackSource k archive).spans (by decide)

theorem spans_toContext (k : Kitchen) (f : Formula) :
    Spans hasTest .init .resolving [.init, .fetching, .verifying, .resolving] (toContext k f) :=
  ((leads_prepare k f).spans (by decide)).bind fun _ =>
    ((leads_fetchSource k f).spans (by decide)).bind fun archive =>
    ((leads_unpackSource k archive).spans (by decide)).bind fun tree =>
    ((leads_resolveFlags k f tree).spans (by decide)).bind fun resolved =>
    (keeps_get.leads.spans (by decide)).bind fun c => (keeps_pure _).leads.spans (by decide)

theorem spans_fromContext (k : Kitchen) (install : InstallProcedure) (test : Option TestProcedure)
    (context : BuildContext) :
    Spans test.isSome .resolving .done [.building, .installing, .testing]
      (fromContext k install test context) := by
  refine ((leads_build install context).spans (by decide)).bind fun _ =>
    ((leads_installArtifacts install context).spans (by decide)).bind fun _ => ?_
  cases test with
  | none => exact spans_enter_done rfl
  | some test =>
    exact ((leads_runTest k test _).spans (by decide)).bind fun _ => spans_enter_done rfl

/-- The steps of a cook from the source tree on. -/
def fromTree (k : Kitchen) (f : Formula) (install : InstallProcedure)
    (test : Option TestProcedure) (tree : SourceTree) : CookM Unit := do
  let (vars, flags) ← resolveFlags k f tree
  fromContext k install test (contextOf k f tree vars flags (← get).report)

/-- The steps of a cook from the source on. -/
def fromSource (k : Kitchen) (f : Formula) (install : InstallProcedure)
    (test : Option TestProcedure) (archive : Verified) : CookM Unit := do
  let tree ← unpackSource k archive
  fromTree k f install test tree

theorem phases_eq_fetchOnly (k : Kitchen) (f : Formula) (install : InstallProcedure)
    (test : Option TestProcedure) :
    phases k f install test = fetchOnly k f >>= fromSource k f install test := by
  rw [phases_eq]
  simp only [toContext, fetchOnly, bind_assoc, pure_bind]
  rfl

theorem phases_eq_unpackOnly (k : Kitchen) (f : Formula) (install : InstallProcedure)
    (test : Option TestProcedure) :
    phases k f install test = unpackOnly k f >>= fromTree k f install test := by
  rw [phases_eq_fetchOnly, unpackOnly, bind_assoc]
  rfl

theorem spans_fromTree (k : Kitchen) (f : Formula) (install : InstallProcedure)
    (test : Option TestProcedure) (tree : SourceTree) :
    Spans test.isSome .verifying .done [.resolving, .building, .installing, .testing]
      (fromTree k f install test tree) :=
  ((leads_resolveFlags k f tree).spans (by decide)).bind fun _ =>
    (keeps_get.leads.spans (by decide)).bind fun _ =>
    (spans_fromContext k install test _).mono (by decide)

theorem spans_fromSource (k : Kitchen) (f : Formula) (install : InstallProcedure)
    (test : Option TestProcedure) (archive : Verified) :
    Spans test.isSome .fetching .done [.verifying, .resolving, .building, .installing, .testing]
      (fromSource k f install test archive) :=
  ((leads_unpackSource k archive).spans (by decide)).bind fun tree =>
    (spans_fromTree k f install test tree).mono (by decide)

theorem flagsOnly_eq_unpackOnly (k : Kitchen) (f : Formula) :
    flagsOnly k f = unpackOnly k f >>= resolveFlags k f := by
  simp only [flagsOnly, unpackOnly, fetchOnly, bind_assoc]

/-- The flags are those of the context. -/
theorem flagsOnly_eq (k : Kitchen) (f : Formula) :
    flagsOnly k f = toContext k f >>= fun context => pure (context.vars, context.flags) := by
  have hlast (tree : SourceTree) : (do
      let p ← resolveFlags k f tree
      let c ← get
      let context := contextOf k f tree p.1 p.2 c.report
      pure (context.vars, context.flags)) = resolveFlags k f tree := bind_pure _
  simp only [flagsOnly, toContext, bind_assoc, pure_bind, hlast]

/-! ## Results and reports -/

/-- When a cook is cut in two parts, and the second part begins with a phase that comes later than
all phases that the first part may fail in, then the result of the first part tells where the cook
comes to. -/
theorem tallies_of_split {install : InstallProcedure} {test : Option TestProcedure}
    {x : CookM α} {g : α → CookM Unit} {early late : List Phase} {next : Phase} {c : Cook}
    (hsplit : phases k f install test = x >>= g) (hx : Spans test.isSome .init q early x)
    (hg : ∀ a, Spans test.isSome q .done late (g a)) (hearly : ∀ p ∈ early, p.index < next.index)
    (hlate : ∀ p ∈ late, next.index ≤ p.index) (hnext : next ≠ .testing)
    (hc : c.InPhase test.isSome .init) :
    (run k f install test c).2.report.Tallies (fun _ => Eq) (x.run c).1 early next := by
  have hcases := run_cases k f install test hc
  have hfirst := hx c hc
  rw [hsplit, run_bind] at hcases
  rcases hrun : x.run c with ⟨e | a, c'⟩
  · rw [hrun] at hcases hfirst
    obtain ⟨p, hp, hin⟩ := hfirst
    obtain ⟨p', -, hin', hclosed, hfailure, hhalted⟩ := hcases
    obtain rfl := hin.unique hin'
    -- the cook fails where the first part does
    refine ⟨iff_of_false nofun fun hentered => ?_, iff_of_true ⟨e, rfl⟩ ⟨p, hp, hhalted⟩, ?_⟩
    · exact absurd ((hclosed.entered_iff hnext).1 hentered) (hearly p hp).not_ge
    · rintro _ ⟨⟩
      exact ⟨p, hp, hhalted, _, hfailure, rfl⟩
  · rw [hrun] at hcases hfirst
    have hsecond := hg a c' hfirst
    dsimp only at hcases
    rcases hrest : (g a).run c' with ⟨e | u, c''⟩
    · rw [hrest] at hcases hsecond
      obtain ⟨p, hp, hin⟩ := hsecond
      obtain ⟨p', -, hin', hclosed, -, hhalted⟩ := hcases
      obtain rfl := hin.unique hin'
      -- the cook fails in the second part, and so too late for the first
      refine ⟨iff_of_true ⟨a, rfl⟩ ((hclosed.entered_iff hnext).2 (hlate p hp)),
        iff_of_false nofun ?_, nofun⟩
      rintro ⟨s, hs, hhalted'⟩
      obtain rfl := hhalted.unique hhalted'
      exact absurd (hlate p hp) (hearly p hs).not_ge
    · rw [hrest] at hcases
      obtain ⟨hclosed, -, hstate⟩ := hcases
      refine ⟨iff_of_true ⟨a, rfl⟩ ((hclosed.entered_iff hnext).2 (Phase.index_le_done next)),
        iff_of_false nofun ?_, nofun⟩
      rintro ⟨s, -, kind, hfailed⟩
      exact absurd (hstate.symm.trans hfailed) nofun

variable {base : Path} {w : World}

/-- A cook can make any absolute prefix absolute, and others while there is a working directory. -/
theorem fixable_start (k : Kitchen) (f : Formula) (hasTest : Bool) (hbase : base.text ≠ "")
    (h : base.isAbsolute = true ∨ w.disk.hasWorkdir = true) :
    (start k f base hasTest w).Fixable := ⟨hbase, h⟩

theorem fixable_home (k : Kitchen) (f : Formula) (hworkdir : w.disk.hasWorkdir = true) :
    (start k f (k.config.home f) false w).Fixable :=
  fixable_start k f false (k.config.home_text_ne f) (.inr hworkdir)

/-- Fetching comes to what the first steps of a cook in the same world come to. -/
theorem fetch_eq (k : Kitchen) (f : Formula) (hworkdir : w.disk.hasWorkdir = true)
    (hfixable : (start k f base hasTest w).Fixable) :
    (k.fetch f w).1 = ((fetchOnly k f).run (start k f base hasTest w)).1 :=
  (alike_fetchOnly k f _ _ (fixable_home k f hworkdir) hfixable rfl).1

/-- What is rendered is in the context that a cook in the same world comes to. -/
theorem renderFlags_eq (k : Kitchen) (f : Formula) (hworkdir : w.disk.hasWorkdir = true)
    (hfixable : (start k f base hasTest w).Fixable) :
    (k.renderFlags f w).1 = ((toContext k f).run (start k f base hasTest w)).1.map
      fun context => (context.vars, context.flags) := by
  refine (alike_flagsOnly k f _ _ (fixable_home k f hworkdir) hfixable rfl).1.trans ?_
  rw [flagsOnly_eq, run_bind]
  obtain ⟨_ | _, _⟩ := (toContext k f).run (start k f base hasTest w) <;> rfl

/-- Unpacking comes to what the first steps of a cook in the same world come to. -/
theorem unpackOnly_tallies (k : Kitchen) (f : Formula) (install : InstallProcedure)
    (test : Option TestProcedure) (base : Path) (w : World) (habsolute : base.isAbsolute = true)
    (hworkdir : w.disk.hasWorkdir = true) :
    (k.cookWith f install test base w).1.Tallies (fun _ => Eq)
      ((unpackOnly k f).run (start k f (k.config.home f) false w)).1
      [.init, .fetching, .verifying] .resolving := by
  have hfixable : (start k f base test.isSome w).Fixable :=
    fixable_start k f test.isSome (Path.text_ne_of_isAbsolute habsolute) (.inl habsolute)
  rw [(alike_unpackOnly k f _ _ (fixable_home k f hworkdir) hfixable rfl).1]
  exact tallies_of_split (phases_eq_unpackOnly k f install test) (spans_unpackOnly k f)
    (spans_fromTree k f install test) (by decide) (by decide) (by decide)
    (inPhase_start k f base test.isSome w)

/-- To render the flags, or to fetch the source, tallies with a cook into any absolute prefix from
the same world, for which the same names are drawn. -/
theorem partly_tallies (k : Kitchen) (f : Formula) (install : InstallProcedure)
    (test : Option TestProcedure) (base : Path) (w : World) (habsolute : base.isAbsolute = true)
    (hworkdir : w.disk.hasWorkdir = true) :
    let r := (k.cookWith f install test base w).1
    r.Tallies (fun _ => Eq) (k.renderFlags f w).1
      [.init, .fetching, .verifying, .resolving] .building ∧
    (∀ vars flags, (k.renderFlags f w).1 = .ok (vars, flags) →
      r.vars = some vars ∧ r.flags = flags) ∧
    r.Tallies (fun _ => Eq) (k.fetch f w).1 [.init, .fetching] .verifying := by
  intro r
  have hfixable : (start k f base test.isSome w).Fixable :=
    fixable_start k f test.isSome (Path.text_ne_of_isAbsolute habsolute) (.inl habsolute)
  have hstart := inPhase_start k f base test.isSome w
  rw [renderFlags_eq k f hworkdir hfixable, fetch_eq k f hworkdir hfixable]
  refine ⟨Report.Tallies.map ?_ _, fun vars flags h => ?_, ?_⟩
  · exact tallies_of_split (phases_eq k f install test) (spans_toContext k f)
      (spans_fromContext k install test) (by decide) (by decide) (by decide) hstart
  · rcases hrun : (toContext k f).run (start k f base test.isSome w) with ⟨e | context, c⟩
    · rw [hrun] at h
      exact absurd h nofun
    · rw [hrun] at h
      obtain ⟨rfl, rfl⟩ := Prod.mk.inj (Except.ok.inj h)
      exact ⟨vars_of_toContext install test hrun, flags_of_toContext install test hrun⟩
  · exact tallies_of_split (phases_eq_fetchOnly k f install test) (spans_fetchOnly k f)
      (spans_fromSource k f install test) (by decide) (by decide) (by decide) hstart

end Cook

end Formulary
