import Formulary.Proofs.Disk.Filling

/-!
# What a copy puts into a file

A copy that succeeds puts the bytes of its source into the file that it leads to, unless that is the
source itself, which is emptied first (`Disk.exists_of_run_copy`). Neither a copy nor making
directories gives a file that is there another name (`Disk.KeepsApart`).
-/

namespace Formulary.Disk

variable {d d' : Disk}

/-! ## Names of one file -/

/-- The places are one, or hold names of one file. -/
def SameFile (d : Disk) (p q : Place) : Prop :=
  p = q ∨ ∃ n, d.entryAt? p = some (.file n) ∧ d.entryAt? q = some (.file n)

/-- Two places are of one file only if they were before. -/
def KeepsApart (d d' : Disk) : Prop := ∀ p q, d'.SameFile p q → d.SameFile p q

theorem chained_keepsApart : Chained KeepsApart where
  refl _ _ _ h := h
  trans _ _ _ h h' p q hsame := h p q (h' p q hsame)
  past _ _ _ h := h

theorem keepsApart_of_entries (h : ∀ q n, d'.entryAt? q = some (.file n) →
    d.entryAt? q = some (.file n)) : KeepsApart d d' := by
  rintro p q (rfl | ⟨n, hp, hq⟩)
  · exact .inl rfl
  · exact .inr ⟨n, h p n hp, h q n hq⟩

/-- A directory is no name of a file. -/
theorem keepsApart_put_directory (d : Disk) (r : Place) (mode : Nat) :
    KeepsApart d (d.put r (.directory mode)) := by
  refine keepsApart_of_entries fun q n hq => ?_
  rw [entryAt?_put] at hq
  split at hq
  · exact absurd hq nofun
  · exact hq

/-- A file that is made has one name. -/
theorem keepsApart_putFile (d : Disk) (r : Place) (data : FileData) :
    KeepsApart d (d.putFile r data) := by
  rintro p q (rfl | ⟨n, hp, hq⟩)
  · exact .inl rfl
  · rw [entryAt?_putFile] at hp hq
    by_cases hpr : p = r
    · by_cases hqr : q = r
      · exact .inl (hpr.trans hqr.symm)
      · rw [if_pos hpr] at hp
        rw [if_neg hqr, ← hp] at hq
        exact absurd hq entryAt?_ne_unused
    · rw [if_neg hpr] at hp
      by_cases hqr : q = r
      · rw [if_pos hqr, ← hp, eq_comm] at hq
        exact absurd hq entryAt?_ne_unused
      · rw [if_neg hqr] at hq
        exact .inr ⟨n, hp, hq⟩

theorem keepsApart_setFile (d : Disk) (n : Nat) (data : FileData) :
    KeepsApart d (d.setFile n data) := fun _ _ h => h

theorem Opened.keepsApart {p : Path} {mode : Nat} {result : Except Cause Nat}
    (h : Opened p mode d (result, d')) : KeepsApart d d' := by
  cases h with
  | refused => exact chained_keepsApart.refl d
  | emptied => exact keepsApart_setFile d _ _
  | made => exact keepsApart_putFile d _ _

theorem obeys_keepsApart_makeDirectory (p : Path) : Obeys KeepsApart (makeDirectory p) := by
  intro d
  rcases run_makeDirectory p directoryMode d with ⟨cause, hr⟩ | ⟨t, -, -, hr⟩
  · rw [hr]
    exact chained_keepsApart.past d
  · rw [hr]
    exact keepsApart_put_directory d.past _ _

theorem obeys_keepsApart_copy (source onto : Path) : Obeys KeepsApart (copy source onto) := by
  have hchained := chained_keepsApart
  refine hchained.pouring fun cut =>
    hchained.bind hchained.get fun now => hchained.bind (hchained.orFail _) ?_
  rintro ⟨q, _ | n | _⟩
  · exact hchained.throw _
  · dsimp only
    cases now.fileData? n with
    | none => exact hchained.throw _
    | some data =>
      dsimp only
      split
      · exact hchained.throw _
      · have hopened : Obeys KeepsApart (opened onto data.mode) :=
          fun d => (opened_spec onto data.mode d).keepsApart
        exact hchained.bind hopened fun number => hchained.bind hchained.get fun _ d =>
          keepsApart_setFile d number _
  · exact hchained.throw _

theorem obeys_keepsApart_setMode (p : Path) (mode : Nat) : Obeys KeepsApart (setMode p mode) := by
  refine chained_keepsApart.step fun d => ?_
  rw [run_bind, run_get]
  dsimp only
  rw [run_bind]
  cases d.found true p with
  | error cause => exact chained_keepsApart.refl d
  | ok found =>
    obtain ⟨q, _ | n | _⟩ := found
    · exact keepsApart_put_directory d q mode
    · exact keepsApart_setFile d n _
    · exact chained_keepsApart.refl d

/-- Places of one file still are when nothing is taken away. -/
theorem SameFile.number_eq {targets : List Path} {p q : Place} {m n : Nat} (h : d.SameFile p q)
    (hfilled : Filled targets d d') (hp : d'.entryAt? p = some (.file m))
    (hq : d'.entryAt? q = some (.file n)) : m = n := by
  rcases h with rfl | ⟨k, hpk, hqk⟩
  · exact Entry.file.inj (Option.some.inj (hp.symm.trans hq))
  · obtain rfl := Entry.file.inj (Option.some.inj (hp.symm.trans (hfilled.entryAt? hpk)))
    exact Entry.file.inj (Option.some.inj ((hfilled.entryAt? hqk).symm.trans hq))

theorem LeadsToFile.number_eq {p : Path} {m n : Nat} (h : d.LeadsToFile p m)
    (h' : d.LeadsToFile p n) : m = n := by
  obtain ⟨q, hq⟩ := h
  obtain ⟨r, hr⟩ := h'
  exact Entry.file.inj (Prod.mk.inj (Except.ok.inj (hq.symm.trans hr))).2

/-! ## What is copied -/

/-- A copy that succeeds puts the bytes of its source, as they were, into the file that it leads to,
unless that is the source itself. -/
theorem exists_of_run_copy {source t : Path} {q : Place} {m : Nat}
    (h : (copy source t).run d = (.ok (), d')) (hf : d.found true source = .ok (q, .file m)) :
    ∃ data n, d.fileData? m = some data ∧ d'.LeadsToFile t n ∧
      (n ≠ m → d'.fileData? n = some data) := by
  unfold copy at h
  rcases run_pouring (transfer source t) d with hr | ⟨cause, hr⟩ | ⟨cause, n, hr⟩
  · rw [hr] at h
    unfold transfer at h
    rw [run_bind, run_get] at h
    dsimp only at h
    rw [run_bind, (chained_unchanged.past d).found hf] at h
    dsimp only [orFail, run_pure] at h
    cases hdata : d.past.fileData? m with
    | none =>
      rw [hdata] at h
      cases h
    | some data =>
      rw [hdata] at h
      dsimp only at h
      split at h
      · cases h
      · obtain ⟨n, d₁, hopened, h⟩ := exists_of_run_bind h
        obtain ⟨now, d₂, hget, h⟩ := exists_of_run_bind h
        obtain ⟨rfl, rfl⟩ : d₁ = now ∧ d₁ = d₂ := by
          cases hget
          exact ⟨rfl, rfl⟩
        rw [run_modify] at h
        have hspec := opened_spec t data.mode d.past
        rw [hopened] at hspec
        obtain ⟨r, hr⟩ := hspec.wroteTo.found
        refine ⟨data, n, hdata, ?_, fun hnm => ?_⟩
        · cases h
          exact ⟨r, found_setFile hr n _⟩
        · -- the source is not what was opened, and so it still has its bytes
          have hkept : d₁.fileData? m = some data :=
            (hspec.fileData?_of_ne hnm.symm).trans hdata
          cases h
          rw [fileData?_setFile, if_pos rfl, hkept]
          rfl
  · rw [hr] at h
    cases h
  · rw [hr] at h
    cases h

/-- A mode that is set is that of the file, which keeps its bytes. -/
theorem run_setMode_of_leadsToFile {t : Path} {mode n : Nat}
    (h : (setMode t mode).run d = (.ok (), d')) (hleads : d.LeadsToFile t n) :
    d' = d.past.setFile n { (d.fileData? n).getD ⟨.empty, 0⟩ with mode } := by
  obtain ⟨q, hq⟩ := hleads
  unfold setMode at h
  rcases run_step _ d with hr | ⟨cause, hr⟩
  · rw [hr, run_bind, run_get] at h
    dsimp only at h
    rw [run_bind, (chained_unchanged.past d).found hq] at h
    dsimp only [orFail, run_pure] at h
    cases h
    rfl
  · rw [hr] at h
    cases h

end Formulary.Disk
