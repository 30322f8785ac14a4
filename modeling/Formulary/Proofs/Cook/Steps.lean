import Formulary.Cook
import Formulary.Proofs.Runs

/-!
# Steps of a cook

What the small steps of a cook do. A step that leaves some view of the cook as it was is said to
keep it (`Keeps`); every small step keeps all that it is not about. A phase keeps what it does not
report, when neither the world nor the entering of phases shows in it (`Overlooks`).
-/

namespace Formulary.Cook

variable {α β γ : Type}

/-! ## Running -/

@[simp]
theorem run_inWorld (act : WorldM α) (c : Cook) :
    (inWorld act).run c = (.ok (act c.world).1, { c with world := (act c.world).2 }) := rfl

@[simp]
theorem run_onDisk (act : StateM Disk α) (c : Cook) :
    (onDisk act).run c =
      (.ok (act c.world.disk).1,
        { c with world := { c.world with disk := (act c.world.disk).2 } }) := rfl

@[simp]
theorem run_record (change : Report → Report) (c : Cook) :
    (record change).run c = (.ok (), { c with report := change c.report }) := rfl

@[simp]
theorem run_orHalt_ok {ε : Type} (toError : ε → Error) (a : α) (c : Cook) :
    (orHalt toError (.ok a)).run c = (.ok a, c) := rfl

@[simp]
theorem run_orHalt_error {ε : Type} (toError : ε → Error) (e : ε) (c : Cook) :
    (orHalt toError (.error e) : CookM α).run c = (.error (toError e), c) := rfl

/-- Only a value lets a cook go on. -/
theorem eq_of_run_orHalt {ε : Type} {toError : ε → Error} {r : Except ε α} {a : α} {c c' : Cook}
    (h : (orHalt toError r).run c = (.ok a, c')) : r = .ok a ∧ c' = c := by
  cases r with
  | error e => exact absurd (congrArg Prod.fst h) nofun
  | ok b =>
    obtain ⟨hb, rfl⟩ := Prod.mk.inj h
    exact ⟨congrArg Except.ok (Except.ok.inj hb), rfl⟩

theorem run_enter (p : Phase) (c : Cook) :
    (enter p).run c = (.ok (), { c with
      lifecycle := (c.lifecycle.advance p).2
      refused := if (c.lifecycle.advance p).1 then c.refused else p :: c.refused }) := rfl

/-! ## Keeping -/

/-- A step leaves a view of the cook as it was, however it ends. -/
def Keeps (view : Cook → γ) (x : CookM α) : Prop := Obeys (fun c c' => view c' = view c) x

variable {view : Cook → γ}

theorem keeps_pure (a : α) : Keeps view (pure a : CookM α) := fun _ => rfl

theorem keeps_throw (e : Error) : Keeps view (throw e : CookM α) := fun _ => rfl

theorem keeps_get : Keeps view (get : CookM Cook) := fun _ => rfl

theorem Keeps.bind {x : CookM α} {g : α → CookM β} (hx : Keeps view x)
    (hg : ∀ a, Keeps view (g a)) : Keeps view (x >>= g) :=
  Obeys.bind (fun _ _ _ h h' => h'.trans h) hx hg

theorem keeps_orHalt {ε : Type} (toError : ε → Error) (r : Except ε α) :
    Keeps view (orHalt toError r) := by
  cases r
  · exact keeps_throw _
  · exact keeps_pure _

theorem keeps_inWorld (act : WorldM α) (h : ∀ c w, view { c with world := w } = view c) :
    Keeps view (inWorld act) := fun c => h c _

theorem keeps_record (change : Report → Report)
    (h : ∀ c, view { c with report := change c.report } = view c) : Keeps view (record change) :=
  fun c => h c

theorem keeps_modify (change : Cook → Cook) (h : ∀ c, view (change c) = view c) :
    Keeps view (modify change : CookM Unit) := fun c => h c

theorem keeps_fixBase
    (hbase : ∀ c base, view { c with report := { c.report with base } } = view c) :
    Keeps view fixBase := by
  refine keeps_get.bind fun c => ?_
  dsimp only
  split
  · exact keeps_throw _
  · split
    · exact keeps_record _ fun c => hbase c _
    · exact keeps_throw _

theorem keeps_checkHost (hworld : ∀ c w, view { c with world := w } = view c) (k : Kitchen)
    (needed : Classified) : Keeps view (checkHost k needed) := by
  unfold checkHost
  split
  · exact keeps_pure _
  · exact (keeps_inWorld _ hworld).bind fun _ =>
      (keeps_orHalt _ _).bind fun _ => keeps_orHalt _ _

/-- What a cook does before it fetches anything, once its prefix is fixed. -/
def inspect (k : Kitchen) (f : Formula) : CookM Unit := do
  let warnings ← orHalt Formula.Defect.toError f.validate
  record fun r => { r with warnings := r.warnings ++ warnings }
  let needed := Classified.ofDeclarations f.dependencies
  record fun r => { r with dependencies := some needed }
  let check ← checkHost k needed
  if k.config.probes then orHalt id (← inWorld (Probe.run k.probe f.dependencies check))
  record fun r => { r with host := some check }

theorem prepare_eq (k : Kitchen) (f : Formula) :
    prepare k f = fixBase >>= fun _ => inspect k f := rfl

theorem keeps_inspect (hworld : ∀ c w, view { c with world := w } = view c)
    (hreport : ∀ c warnings dependencies host,
      view { c with report := { c.report with warnings, dependencies, host } } = view c)
    (k : Kitchen) (f : Formula) : Keeps view (inspect k f) := by
  refine (keeps_orHalt _ _).bind fun _ =>
    Keeps.bind (keeps_record _ fun c => hreport c _ _ _) fun _ =>
    Keeps.bind (keeps_record _ fun c => hreport c _ _ _) fun _ =>
    (keeps_checkHost hworld k _).bind fun check => ?_
  split
  · exact (keeps_inWorld _ hworld).bind fun _ =>
      (keeps_orHalt _ _).bind fun _ => keeps_record _ fun c => hreport c _ _ _
  · exact keeps_record _ fun c => hreport c _ _ _

/-- Before anything is fetched, only the world and four fields of the report change. -/
theorem keeps_prepare (hworld : ∀ c w, view { c with world := w } = view c)
    (hreport : ∀ c base warnings dependencies host,
      view { c with report := { c.report with base, warnings, dependencies, host } } = view c)
    (k : Kitchen) (f : Formula) : Keeps view (prepare k f) :=
  (keeps_fixBase fun c base => hreport c base _ _ _).bind fun _ =>
    keeps_inspect hworld (fun c => hreport c _) k f

/-! ## Keeping through the phases -/

/-- The view sees nothing of the world, nor which phases were entered. -/
structure Overlooks (view : Cook → γ) : Prop where
  world : ∀ c world, view { c with world } = view c
  lifecycle : ∀ c lifecycle refused, view { c with lifecycle, refused } = view c

namespace Overlooks

variable (h : Overlooks view)

include h

theorem keeps_enter (p : Phase) : Keeps view (enter p) := fun c => h.lifecycle c _ _

theorem keeps_work (act : WorldM α) : Keeps view (inWorld act) := keeps_inWorld act h.world

theorem keeps_fetchSource
    (hreport : ∀ c log, view { c with report := { c.report with log } } = view c) (k : Kitchen)
    (f : Formula) : Keeps view (fetchSource k f) :=
  (h.keeps_enter _).bind fun _ => (h.keeps_work _).bind fun _ => (keeps_orHalt _ _).bind fun _ =>
    Keeps.bind (keeps_record _ fun c => hreport c _) fun _ => keeps_pure _

theorem keeps_unpackSource
    (hreport : ∀ c log sourceFiles,
      view { c with report := { c.report with log, sourceFiles } } = view c)
    (hdirectory : ∀ c buildDirectory, view { c with buildDirectory } = view c) (k : Kitchen)
    (archive : Verified) : Keeps view (unpackSource k archive) := by
  refine (h.keeps_enter _).bind fun _ => (h.keeps_work _).bind fun made => ?_
  cases made with
  | error failure => exact keeps_throw _
  | ok p =>
    refine (h.keeps_work _).bind fun unpacked => ?_
    cases unpacked with
    | error failure => exact (h.keeps_work _).bind fun _ => keeps_throw _
    | ok tree =>
      exact (h.keeps_work _).bind fun _ =>
        Keeps.bind (keeps_record _ fun c => hreport c _ _) fun _ =>
        Keeps.bind (keeps_record _ fun c => hreport c _ _) fun _ =>
        Keeps.bind (keeps_modify _ fun c => hdirectory c _) fun _ => keeps_pure _

theorem keeps_resolveFlags
    (hreport : ∀ c vars flags, view { c with report := { c.report with vars, flags } } = view c)
    (k : Kitchen) (f : Formula) (tree : SourceTree) : Keeps view (resolveFlags k f tree) :=
  (h.keeps_enter _).bind fun _ => (h.keeps_work _).bind fun _ => (keeps_orHalt _ _).bind fun _ =>
    Keeps.bind (keeps_record _ fun c => hreport c _ _) fun _ => (keeps_orHalt _ _).bind fun _ =>
    Keeps.bind (keeps_record _ fun c => hreport c _ _) fun _ => keeps_pure _

theorem keeps_build
    (hreport : ∀ c log, view { c with report := { c.report with log } } = view c)
    (install : InstallProcedure) (context : BuildContext) : Keeps view (build install context) := by
  refine (h.keeps_enter _).bind fun _ => (h.keeps_work _).bind fun there => ?_
  split
  · exact (h.keeps_work _).bind fun _ => (keeps_orHalt _ _).bind fun _ =>
      keeps_record _ fun c => hreport c _
  · exact keeps_throw _

theorem keeps_installArtifacts
    (hreport : ∀ c log installed,
      view { c with report := { c.report with log, installed } } = view c)
    (install : InstallProcedure) (context : BuildContext) :
    Keeps view (installArtifacts install context) :=
  (h.keeps_enter _).bind fun _ => (h.keeps_work _).bind fun _ => (keeps_orHalt _ _).bind fun _ =>
    Keeps.bind (keeps_record _ fun c => hreport c _ _) fun _ =>
    keeps_record _ fun c => hreport c _ _

theorem keeps_runTest
    (hreport : ∀ c test, view { c with report := { c.report with test } } = view c) (k : Kitchen)
    (test : TestProcedure) (base : Path) : Keeps view (runTest k test base) :=
  (h.keeps_enter _).bind fun _ => (h.keeps_work _).bind fun _ => (keeps_orHalt _ _).bind fun _ =>
    Keeps.bind (keeps_record _ fun c => hreport c _) fun _ => keeps_orHalt _ _

end Overlooks

end Formulary.Cook
