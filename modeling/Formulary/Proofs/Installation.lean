import Formulary.Installation
import Formulary.Proofs.Runs
import Mathlib.Data.List.Forall2

/-!
# What an installation reports

An installation that succeeds has carried out one copy for each artifact, in order, to where the
artifact is to go (`Installation.places_of_run`). It fails for a destination only if that of some
artifact is refused (`Installation.refused_of_run`).
-/

namespace Formulary

variable {σ ε α β γ : Type}

/-- Each value that a sequence of steps gives is that of the step for its place. -/
theorem forall₂_of_mapM {g : α → ExceptT ε (StateM σ) β} {l : List α} {bs : List β} {s s' : σ}
    (h : (l.mapM g).run s = (.ok bs, s')) :
    List.Forall₂ (fun a b => ∃ t t', (g a).run t = (.ok b, t')) l bs := by
  induction l generalizing bs s with
  | nil =>
    rw [List.mapM_nil] at h
    cases h
    exact .nil
  | cons a l ih =>
    rw [List.mapM_cons] at h
    obtain ⟨b, t, ha, h⟩ := exists_of_run_bind h
    obtain ⟨bs', t', hl, h⟩ := exists_of_run_bind h
    cases h
    exact .cons ⟨s, t, ha⟩ (ih hl)

theorem Forall₂.comp {r : α → β → Prop} {r' : β → γ → Prop} {as : List α} {bs : List β}
    {cs : List γ} (h : List.Forall₂ r as bs) (h' : List.Forall₂ r' bs cs) :
    List.Forall₂ (fun a c => ∃ b, r a b ∧ r' b c) as cs := by
  induction h generalizing cs with
  | nil =>
    cases h'
    exact .nil
  | @cons a b as bs hab _ ih =>
    cases h' with
    | cons hbc h' => exact .cons ⟨b, hab, hbc⟩ (ih h')

namespace Installation

/-- The file is where the artifact is to go below a prefix. -/
def Places (base : Path) (a : Artifact) (file : InstalledFile) : Prop :=
  ∃ dest, Destination.check a.dest = .ok dest ∧ file = ⟨dest.under base, a.mode⟩

/-- The step is the copy for the artifact. -/
def Plans (workdir base : Path) (a : Artifact) (s : Step) : Prop :=
  ∃ dest, Destination.check a.dest = .ok dest ∧ s = ⟨workdir.join a.path, dest.under base, a.mode⟩

theorem plans_of_check {workdir base : Path} {a : Artifact} {s : Step} {d d' : Disk}
    (h : (check workdir base a).run d = (.ok s, d')) : Plans workdir base a s := by
  unfold check at h
  cases hdest : Destination.check a.dest with
  | error refusal =>
    rw [hdest] at h
    cases h
  | ok dest =>
    rw [hdest] at h
    obtain ⟨there, t, -, h⟩ := exists_of_run_bind h
    cases there with
    | false => cases h
    | true =>
      cases h
      exact ⟨dest, hdest, rfl⟩

theorem Plans.places {workdir base : Path} {a : Artifact} {s : Step} (h : Plans workdir base a s) :
    Places base a ⟨s.target, s.mode⟩ := by
  obtain ⟨dest, hdest, rfl⟩ := h
  exact ⟨dest, hdest, rfl⟩

theorem eq_of_carryOut {s : Step} {file : InstalledFile} {d d' : Disk}
    (h : (carryOut s).run d = (.ok file, d')) : file = ⟨s.target, s.mode⟩ := by
  unfold carryOut at h
  obtain ⟨-, d₁, -, h⟩ := exists_of_run_bind h
  obtain ⟨-, d₂, -, h⟩ := exists_of_run_bind h
  obtain ⟨-, d₃, -, h⟩ := exists_of_run_bind h
  cases h
  rfl

/-- Every artifact was put where it is to go, and nothing else was installed. -/
theorem places_of_run {workdir base : Path} {artifacts : List Artifact} {i : Installed}
    {d d' : Disk} (h : (run workdir base artifacts).run d = (.ok i, d')) :
    i.base = base ∧ List.Forall₂ (Places base) artifacts i.files := by
  unfold run at h
  obtain ⟨steps, d₁, hsteps, h⟩ := exists_of_run_bind h
  obtain ⟨files, d₂, hfiles, h⟩ := exists_of_run_bind h
  cases h
  refine ⟨rfl, (Forall₂.comp (forall₂_of_mapM hsteps) (forall₂_of_mapM hfiles)).imp ?_⟩
  rintro a file ⟨s, ⟨t, t', hcheck⟩, u, u', hcarry⟩
  obtain rfl := eq_of_carryOut hcarry
  exact (plans_of_check hcheck).places

/-! ## Refusals -/

/-- The failure is not about a destination. -/
def Failure.IsOther (failure : Failure) : Prop := ∀ refusal, failure ≠ .destination refusal

/-- A named step does as the step does, and its failure has the name. -/
theorem meets_named {α : Type} {before : Disk → Prop} {act : DiskM α} {after : α → Disk → Prop}
    {failed : Cause → Disk → Prop} (hact : Meets before act after failed) (f : Cause → Failure) :
    Meets before (named act f) after
      fun failure d => ∃ cause, failure = f cause ∧ failed cause d := by
  intro d hd
  have h := hact d hd
  unfold named
  rw [run_bind, run_liftM]
  dsimp only
  rcases hrun : act.run d with ⟨cause | a, d'⟩
  · rw [hrun] at h
    exact ⟨cause, rfl, h⟩
  · rw [hrun] at h
    exact h

theorem meets_named_of_isOther {α : Type} {f : Cause → Failure} (hf : ∀ cause, (f cause).IsOther)
    (act : DiskM α) :
    Meets (fun _ => True) (named act f) (fun _ _ => True) fun failure _ => failure.IsOther := by
  have hact : Meets (fun _ => True) act (fun _ _ => True) fun _ _ => True := by
    intro d _
    rcases act.run d with ⟨_ | _, _⟩ <;> trivial
  refine (meets_named hact f).mono (fun _ _ h => h) ?_
  rintro _ _ ⟨cause, rfl, -⟩
  exact hf cause

/-- What goes wrong with a copy is not its destination. -/
theorem meets_carryOut (s : Step) :
    Meets (fun _ => True) (carryOut s) (fun _ _ => True) fun failure _ => failure.IsOther := by
  have hroom : Meets (fun _ => True) (makeRoom s.target) (fun _ _ => True)
      fun failure _ => failure.IsOther := by
    unfold makeRoom
    split
    · exact meets_named_of_isOther (fun _ _ h => by cases h) _
    · exact fun _ _ => trivial
  exact hroom.bind fun _ => (meets_named_of_isOther (fun _ _ h => by cases h) _).bind fun _ =>
    (meets_named_of_isOther (fun _ _ h => by cases h) _).bind fun _ _ _ => trivial

theorem meets_check (workdir base : Path) (a : Artifact) :
    Meets (fun _ => True) (check workdir base a) (fun _ _ => True) fun failure _ =>
      ∀ refusal, failure = .destination refusal → Destination.check a.dest = .error refusal := by
  intro d _
  unfold check
  cases Destination.check a.dest with
  | error refused =>
    rintro _ ⟨⟩
    rfl
  | ok dest =>
    dsimp only
    rw [run_bind, run_liftM]
    dsimp only
    cases (Disk.isFile (workdir.join a.path) d).1 with
    | true => trivial
    | false => rintro _ ⟨⟩

/-- A destination is refused only when it is checked. -/
theorem refused_of_run {workdir base : Path} {artifacts : List Artifact}
    {refusal : Destination.Refusal} {d d' : Disk}
    (h : (run workdir base artifacts).run d = (.error (.destination refusal), d')) :
    ∃ a ∈ artifacts, Destination.check a.dest = .error refusal := by
  have hrun : Meets (fun _ => True) (run workdir base artifacts) (fun _ _ => True)
      fun failure _ => ∀ refusal, failure = .destination refusal →
        ∃ a ∈ artifacts, Destination.check a.dest = .error refusal := by
    refine (meets_mapM fun a ha => ?_).bind fun steps =>
      (meets_mapM fun s _ => ?_).bind fun files _ _ => trivial
    · exact (meets_check workdir base a).mono (fun _ _ _ => trivial)
        fun failure _ hfailure refusal hrefusal => ⟨a, ha, hfailure refusal hrefusal⟩
    · exact (meets_carryOut s).mono (fun _ _ _ => trivial)
        fun failure _ hfailure refusal hrefusal => absurd hrefusal (hfailure refusal)
  have hfailed := hrun d trivial
  rw [h] at hfailed
  exact hfailed refusal rfl

/-- The first destination is checked before anything is done. -/
theorem run_of_refused {workdir base : Path} {a : Artifact} {rest : List Artifact}
    {refusal : Destination.Refusal} (h : Destination.check a.dest = .error refusal) (d : Disk) :
    (run workdir base (a :: rest)).run d = (.error (.destination refusal), d) := by
  unfold run
  rw [List.mapM_cons]
  unfold check
  rw [h]
  rfl

end Installation

end Formulary
