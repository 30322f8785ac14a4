import Formulary.Proofs.Disk.Filling
import Formulary.Proofs.Installation

/-!
# What a failed installation leaves

An installation that fails takes nothing back. While it only checks, there is nothing to take back.
When a copy fails, those before it stay where they are, and so do the directories for it and maybe
the file that it was to make; all else on the disk is as before (`Installation.remains_of_run`).
-/

namespace Formulary

theorem exists_of_forall₂_append {α β : Type} {r : α → β → Prop} {as : List α} {b : β}
    {left right : List β} (h : List.Forall₂ r as (left ++ b :: right)) :
    ∃ before a behind, as = before ++ a :: behind ∧ List.Forall₂ r before left ∧ r a b ∧
      List.Forall₂ r behind right := by
  have hleft := List.forall₂_take_append as left (b :: right) h
  have hright := List.forall₂_drop_append as left (b :: right) h
  obtain ⟨a, behind, hab, hbehind, has⟩ := List.forall₂_cons_right_iff.1 hright
  have hall : as = as.take left.length ++ a :: behind := by rw [← has, List.take_append_drop]
  exact ⟨_, a, behind, hall, hleft, hab, hbehind⟩

namespace Installation

open Disk (Filled FilledUpTo LeadsToFile LiesIn Unchanged)

/-- The failure is one of making the copy. -/
inductive Failure.Strikes (s : Step) : Failure → Prop
  | directory {above : Path} (cause : Cause) : s.target.parent? = some above →
    Strikes s (.directory above cause)
  | copy (cause : Cause) : Strikes s (.copy s.source s.target cause)
  | mode (cause : Cause) : Strikes s (.mode s.target cause)

/-- How an installation fails, and what it leaves. -/
inductive Remains (workdir base : Path) (artifacts : List Artifact) (d : Disk) :
    Failure → Disk → Prop
  /-- A destination is refused, and nothing was done. -/
  | refused {a : Artifact} {refusal : Destination.Refusal} {d' : Disk} : a ∈ artifacts →
    Destination.check a.dest = .error refusal → Unchanged d d' →
    Remains workdir base artifacts d (.destination refusal) d'
  /-- A source is no file, and nothing was done. -/
  | notProduced {a : Artifact} {d' : Disk} : a ∈ artifacts → Unchanged d d' →
    Remains workdir base artifacts d (.notProduced (workdir.join a.path)) d'
  /-- A copy fails after those before it were made. They are still there, and only what they and
  that one need has changed. -/
  | halfway {before behind : List Artifact} {a : Artifact} {copies : List Step} {s : Step}
    {failure : Failure} {d' : Disk} : artifacts = before ++ a :: behind →
    List.Forall₂ (Plans workdir base) before copies → Plans workdir base a s →
    failure.Strikes s → Filled ((copies ++ [s]).map Step.target) d d' →
    (∀ c ∈ copies, ∃ n, d'.LeadsToFile c.target n) →
    Remains workdir base artifacts d failure d'

variable {workdir base : Path} {artifacts : List Artifact} {d d' : Disk}

/-! ## Checking -/

theorem obeys_check (workdir base : Path) (a : Artifact) :
    Obeys Unchanged (check workdir base a) := by
  have hchained := Disk.chained_unchanged
  unfold check
  cases Destination.check a.dest with
  | error refusal => exact hchained.refl
  | ok dest =>
    refine Obeys.bind hchained.trans (hchained.isKind .file _) fun there => ?_
    cases there <;> exact hchained.refl

theorem obeys_checks (workdir base : Path) (artifacts : List Artifact) :
    Obeys Unchanged (artifacts.mapM (check workdir base)) :=
  Obeys.mapM Disk.chained_unchanged.refl Disk.chained_unchanged.trans (obeys_check workdir base) _

theorem remains_of_checks {failure : Failure}
    (h : (artifacts.mapM (check workdir base)).run d = (.error failure, d')) :
    Remains workdir base artifacts d failure d' := by
  have hunchanged : Unchanged d d' := by
    have hobeys := obeys_checks workdir base artifacts d
    rwa [h] at hobeys
  obtain ⟨before, a, behind, steps, t, rfl, -, ha⟩ := exists_of_run_mapM_eq_error h
  have hmem : a ∈ before ++ a :: behind := by simp
  unfold check at ha
  cases hdest : Destination.check a.dest with
  | error refusal =>
    rw [hdest] at ha
    cases ha
    exact .refused hmem hdest hunchanged
  | ok dest =>
    rw [hdest] at ha
    dsimp only at ha
    rw [run_bind, run_liftM] at ha
    dsimp only at ha
    cases hfile : (Disk.isFile (workdir.join a.path) t).1 with
    | false =>
      rw [hfile] at ha
      cases ha
      exact .notProduced hmem hunchanged
    | true =>
      rw [hfile] at ha
      cases ha

/-! ## Copying -/

variable {targets : List Path}

/-- Making the copy failed, and only what the targets need has changed. -/
def Struck (targets : List Path) (s : Step) (d : Disk) (failure : Failure) (d' : Disk) : Prop :=
  Filled targets d d' ∧ failure.Strikes s

theorem meets_makeRoom {s : Step} (hs : s.target ∈ targets) (d : Disk) :
    Meets (Filled targets d) (makeRoom s.target) (fun _ => Filled targets d)
      (Struck targets s d) := by
  have hchained := Disk.chained_filled targets
  unfold makeRoom
  cases hparent : s.target.parent? with
  | none => exact fun _ h => h
  | some above =>
    have hmade : Obeys (Filled targets) (Disk.makeDirectories above) :=
      hchained.makeDirectories fun p hp => Disk.obeys_filled_makeDirectory hs hparent hp
    refine (meets_named (hmade.meets hchained.trans d) _).mono (fun _ _ h => h) ?_
    rintro _ d' ⟨cause, rfl, h⟩
    exact ⟨h, .directory cause hparent⟩

theorem meets_carryOut_filled {s : Step} (hs : s.target ∈ targets) (d : Disk) :
    Meets (Filled targets d) (carryOut s) (fun _ => FilledUpTo targets s.target d)
      (Struck targets s d) := by
  have hcopy : Meets (Filled targets d)
      (named (Disk.copy s.source s.target) (.copy s.source s.target))
      (fun _ => FilledUpTo targets s.target d) (Struck targets s d) := by
    refine (meets_named (Disk.meets_filled_copy hs s.source) _).mono (fun _ _ h => h) ?_
    rintro _ d' ⟨cause, rfl, h⟩
    exact ⟨h, .copy cause⟩
  have hmode : Meets (FilledUpTo targets s.target d)
      (named (Disk.setMode s.target s.mode.bits) (.mode s.target))
      (fun _ => FilledUpTo targets s.target d) (Struck targets s d) := by
    refine (meets_named (Disk.meets_filled_setMode hs s.mode.bits) _).mono (fun _ _ h => h) ?_
    rintro _ d' ⟨cause, rfl, h⟩
    exact ⟨h, .mode cause⟩
  exact (meets_makeRoom hs d).bind fun _ => hcopy.bind fun _ => hmode.bind fun _ _ h => h

/-- Copies that are made stay where they are, by induction on them. -/
theorem filled_of_copies {copies : List Step} {files : List InstalledFile}
    (htargets : ∀ s ∈ copies, s.target ∈ targets)
    (h : (copies.mapM carryOut).run d = (.ok files, d')) :
    Filled targets d d' ∧ ∀ s ∈ copies, ∃ n, d'.LeadsToFile s.target n := by
  induction copies generalizing d files with
  | nil =>
    rw [List.mapM_nil] at h
    cases h
    exact ⟨(Disk.chained_filled targets).refl _, nofun⟩
  | cons s copies ih =>
    rw [List.mapM_cons] at h
    obtain ⟨file, d₁, hs, h⟩ := exists_of_run_bind h
    obtain ⟨rest, d₂, hcopies, h⟩ := exists_of_run_bind h
    cases h
    have hfirst := meets_carryOut_filled (htargets s List.mem_cons_self) d d
      ((Disk.chained_filled targets).refl d)
    rw [hs] at hfirst
    obtain ⟨hfilled, n, hleads⟩ := hfirst
    obtain ⟨hrest, hstay⟩ := ih (fun c hc => htargets c (List.mem_cons_of_mem s hc)) hcopies
    refine ⟨hfilled.trans hrest, fun c hc => ?_⟩
    rcases List.mem_cons.1 hc with rfl | hc
    · exact ⟨n, hrest.leadsToFile hleads⟩
    · exact hstay c hc

/-- Copies fail at one of them, when those before it are made. -/
theorem exists_of_copies_eq_error {steps : List Step} {failure : Failure}
    (h : (steps.mapM carryOut).run d = (.error failure, d')) :
    ∃ copies s rest, steps = copies ++ s :: rest ∧ failure.Strikes s ∧
      Filled ((copies ++ [s]).map Step.target) d d' ∧
      ∀ c ∈ copies, ∃ n, d'.LeadsToFile c.target n := by
  obtain ⟨copies, s, rest, files, t, rfl, hcopies, hs⟩ := exists_of_run_mapM_eq_error h
  have hcopied : ∀ c ∈ copies, c.target ∈ (copies ++ [s]).map Step.target :=
    fun c hc => List.mem_map_of_mem (List.mem_append_left [s] hc)
  have hlast : s.target ∈ (copies ++ [s]).map Step.target :=
    List.mem_map_of_mem (List.mem_append_right copies List.mem_cons_self)
  obtain ⟨hfilled, hstay⟩ := filled_of_copies hcopied hcopies
  have hstruck := meets_carryOut_filled hlast t t ((Disk.chained_filled _).refl t)
  rw [hs] at hstruck
  obtain ⟨hfilled', hstrikes⟩ := hstruck
  refine ⟨copies, s, rest, rfl, hstrikes, hfilled.trans hfilled', fun c hc => ?_⟩
  obtain ⟨n, hn⟩ := hstay c hc
  exact ⟨n, hfilled'.leadsToFile hn⟩

/-- An installation that fails has changed nothing, or left what was made up to the copy that
failed. -/
theorem remains_of_run {failure : Failure}
    (h : (run workdir base artifacts).run d = (.error failure, d')) :
    Remains workdir base artifacts d failure d' := by
  unfold run at h
  rw [run_bind] at h
  have hchecked := obeys_checks workdir base artifacts d
  rcases hsteps : (artifacts.mapM (check workdir base)).run d with ⟨_ | steps, d₁⟩
  · rw [hsteps] at h
    cases h
    exact remains_of_checks hsteps
  · rw [hsteps] at h hchecked
    dsimp only at h
    rw [run_bind] at h
    rcases hfiles : (steps.mapM carryOut).run d₁ with ⟨_ | files, d₂⟩
    · rw [hfiles] at h
      cases h
      obtain ⟨copies, s, rest, rfl, hstrikes, hfilled, hstay⟩ := exists_of_copies_eq_error hfiles
      have hplans := (forall₂_of_mapM hsteps).imp fun a s ⟨t, t', hcheck⟩ => plans_of_check hcheck
      obtain ⟨before, a, behind, rfl, hbefore, ha, -⟩ := exists_of_forall₂_append hplans
      have hunchanged := Filled.of_unchanged ((copies ++ [s]).map Step.target) hchecked
      exact .halfway rfl hbefore ha hstrikes (hunchanged.trans hfilled) hstay
    · rw [hfiles] at h
      cases h

/-! ## Two destinations, one of which is to lie in the other -/

namespace Halfway

/-- A build directory with one file, and no prefix yet. -/
def disk : Disk where
  entries := [([], .directory 0o755), (["work"], .directory 0o755), (["work", "a"], .file 0)]
  files := [(0, ⟨.empty, 0o644⟩)]

/-- The file is to go to `x`, and then to `x/y`. -/
def wanted : List Artifact := [⟨"a", "x", .executable⟩, ⟨"a", "x/y", .readable⟩]

/-- The installation. -/
def outcome : Except Failure Installed × Disk := (run ⟨"/work"⟩ ⟨"/prefix"⟩ wanted).run disk

theorem outcome_eq : outcome = (.error (.directory ⟨"/prefix/x"⟩ .exists), outcome.2) := by
  have hfailed : outcome.1 = .error (.directory ⟨"/prefix/x"⟩ .exists) := by decide +kernel
  rw [← hfailed]

end Halfway

/-- The prefix is made, and the first file stays in it. -/
theorem not_undone : ∃ failure d',
    (run ⟨"/work"⟩ ⟨"/prefix"⟩ Halfway.wanted).run Halfway.disk = (.error failure, d') ∧
      Halfway.disk.entryAt? ["prefix"] = none ∧
      d'.entryAt? ["prefix"] = some (.directory 0o755) ∧
      d'.entryAt? ["prefix", "x"] = some (.file 1) :=
  ⟨_, _, Halfway.outcome_eq, by decide +kernel, by decide +kernel, by decide +kernel⟩

theorem remains_of_run_halfway :
    Halfway.outcome = (.error (.directory ⟨"/prefix/x"⟩ .exists), Halfway.outcome.2) ∧
      Remains ⟨"/work"⟩ ⟨"/prefix"⟩ Halfway.wanted Halfway.disk
        (.directory ⟨"/prefix/x"⟩ .exists) Halfway.outcome.2 :=
  ⟨Halfway.outcome_eq, remains_of_run Halfway.outcome_eq⟩

end Installation

end Formulary
