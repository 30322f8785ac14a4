import Formulary.Proofs.Disk.Writing

/-!
# What filling targets changes

Copies to some targets, with the directories for them, take nothing away (`Disk.Filled`). What is
new lies on the way to a target or is a file that a target leads to, and no other file has changed.
This holds for each single step, and for steps one after the other (`Filled.trans`) : the disk
covers the one before, so what led somewhere still does.
-/

namespace Formulary.Disk

variable {d d' d'' : Disk} {targets : List Path}

/-- The path leads to the file with the number. -/
def LeadsToFile (d : Disk) (p : Path) (n : Nat) : Prop := ∃ q, d.found true p = .ok (q, .file n)

/-- What the place holds is there for one of the targets. -/
inductive Needed (targets : List Path) (d : Disk) (q : Place) : Prop
  /-- A directory on the way to a target, with the mode of those that are made without one. -/
  | directory {t dir upper : Path} : t ∈ targets → t.parent? = some dir → LiesIn dir upper →
    d.found false upper = .ok (q, .directory directoryMode) → Needed targets d q
  /-- The file that a target leads to. -/
  | file {t : Path} {n : Nat} : t ∈ targets → d.found true t = .ok (q, .file n) →
    Needed targets d q

/-- Nothing was taken away, what is new is there for one of the targets, and only files that the
targets lead to have changed. -/
structure Filled (targets : List Path) (d d' : Disk) : Prop where
  workdir : d'.workdir = d.workdir
  superuser : d'.superuser = d.superuser
  entries : ∀ q, d'.entryAt? q = d.entryAt? q ∨ d.entryAt? q = none ∧ Needed targets d' q
  files : ∀ n, d'.fileData? n = d.fileData? n ∨ ∃ t ∈ targets, d'.LeadsToFile t n

theorem Needed.entry {q : Place} (h : Needed targets d q) :
    d.entryAt? q = some (.directory directoryMode) ∨ ∃ n, d.entryAt? q = some (.file n) := by
  cases h with
  | directory _ _ _ hf => exact .inl (found_eq_ok_iff.1 hf).2
  | file _ hf => exact .inr ⟨_, (found_eq_ok_iff.1 hf).2⟩

theorem Filled.of_unchanged (targets : List Path) (h : Unchanged d d') : Filled targets d d' where
  workdir := h.workdir
  superuser := h.superuser
  entries q := .inl (congrArg (List.lookup q) h.entries)
  files n := .inl (congrArg (List.lookup n) h.files)

/-! ## One after the other -/

theorem Filled.entryAt? (h : Filled targets d d') {q : Place} {e : Entry}
    (he : d.entryAt? q = some e) : d'.entryAt? q = some e := by
  rcases h.entries q with hq | ⟨hnone, -⟩
  · exact hq.trans he
  · exact absurd (hnone.symm.trans he) nofun

theorem Filled.covers (h : Filled targets d d') : Covers d d' := by
  refine ⟨fun q e he => ⟨e, h.entryAt? he, rfl⟩, fun q hq => ?_, h.workdir⟩
  unfold directoryPermits at hq ⊢
  rcases h.entries q with heq | ⟨-, hneeded⟩
  · rw [heq]
    unfold permits at hq ⊢
    rwa [h.superuser]
  · rcases hneeded.entry with hdir | ⟨n, hfile⟩
    · rw [hdir]
      exact permits_directoryMode d' .search
    · rw [hfile]

/-- What a path led to it still leads to. -/
theorem Filled.found (h : Filled targets d d') {follow : Bool} {p : Path} {q : Place} {e : Entry}
    (hf : d.found follow p = .ok (q, e)) : d'.found follow p = .ok (q, e) := by
  obtain ⟨e', hf', he', -⟩ := h.covers.found hf
  have he : d'.entryAt? q = some e := h.entryAt? (found_eq_ok_iff.1 hf).2
  obtain rfl := Option.some.inj (he'.symm.trans he)
  exact hf'

theorem Filled.leadsToFile (h : Filled targets d d') {p : Path} {n : Nat} (hp : d.LeadsToFile p n) :
    d'.LeadsToFile p n := by
  obtain ⟨q, hq⟩ := hp
  exact ⟨q, h.found hq⟩

theorem Filled.needed (h : Filled targets d d') {q : Place} (hq : Needed targets d q) :
    Needed targets d' q := by
  cases hq with
  | directory ht hparent hupper hf => exact .directory ht hparent hupper (h.found hf)
  | file ht hf => exact .file ht (h.found hf)

theorem Filled.trans (h : Filled targets d d') (h' : Filled targets d' d'') :
    Filled targets d d'' where
  workdir := h'.workdir.trans h.workdir
  superuser := h'.superuser.trans h.superuser
  entries q := by
    rcases h'.entries q with hsame' | ⟨hnone', hneeded'⟩
    · rcases h.entries q with hsame | ⟨hnone, hneeded⟩
      · exact .inl (hsame'.trans hsame)
      · exact .inr ⟨hnone, h'.needed hneeded⟩
    · rcases h.entries q with hsame | ⟨-, hneeded⟩
      · exact .inr ⟨hsame ▸ hnone', hneeded'⟩
      · -- what one step has put there the next one does not find missing
        rcases hneeded.entry with hdir | ⟨n, hfile⟩
        · exact absurd (hdir.symm.trans hnone') nofun
        · exact absurd (hfile.symm.trans hnone') nofun
  files n := by
    rcases h'.files n with hsame' | hleads'
    · rcases h.files n with hsame | ⟨t, ht, hleads⟩
      · exact .inl (hsame'.trans hsame)
      · exact .inr ⟨t, ht, h'.leadsToFile hleads⟩
    · exact .inr hleads'

theorem chained_filled (targets : List Path) : Chained (Filled targets) where
  refl d := .of_unchanged targets (chained_unchanged.refl d)
  trans _ _ _ h h' := h.trans h'
  past d := .of_unchanged targets (chained_unchanged.past d)

/-! ## Single steps -/

theorem Filled.setFile {t : Path} {n : Nat} (ht : t ∈ targets) (h : d.LeadsToFile t n)
    (data : FileData) : Filled targets d (d.setFile n data) where
  workdir := rfl
  superuser := rfl
  entries _ := .inl rfl
  files m := by
    by_cases hm : m = n
    · subst hm
      obtain ⟨q, hq⟩ := h
      exact .inr ⟨t, ht, q, found_setFile hq m data⟩
    · exact .inl ((fileData?_setFile ..).trans (if_neg hm))

theorem obeys_filled_makeDirectory {t dir p : Path} (ht : t ∈ targets)
    (hparent : t.parent? = some dir) (hp : LiesIn dir p) :
    Obeys (Filled targets) (makeDirectory p) := by
  intro d
  have hpast := (chained_filled targets).past d
  rcases run_makeDirectory p directoryMode d with ⟨cause, hr⟩ | ⟨spot, htarget, hnone, hr⟩
  · rw [hr]
    exact hpast
  · rw [hr]
    refine hpast.trans ⟨rfl, rfl, fun q => ?_, fun n => .inl rfl⟩
    rw [entryAt?_put]
    by_cases hq : q = spot.place
    · subst hq
      have hfound := found_put_directory htarget hnone (permits_directoryMode d.past .search)
      exact .inr ⟨hnone, .directory ht hparent hp hfound⟩
    · exact .inl (if_neg hq)

theorem Opened.filled {p : Path} {mode n : Nat} (hp : p ∈ targets)
    (h : Opened p mode d (.ok n, d')) : Filled targets d d' := by
  have hkept := fun m (hm : m ≠ n) => h.fileData?_of_ne hm
  cases h with
  | @emptied q _ hf => exact .setFile hp ⟨q, hf⟩ _
  | @made q ht hnone =>
    have hfound := found_putFile ht hnone ⟨.empty, mode⟩
    refine ⟨rfl, rfl, fun r => ?_, fun m => ?_⟩
    · by_cases hr : r = q
      · subst hr
        exact .inr ⟨hnone, .file hp hfound⟩
      · exact .inl ((entryAt?_putFile ..).trans (if_neg hr))
    · by_cases hm : m = d.unused
      · exact .inr ⟨p, hp, q, hm ▸ hfound⟩
      · exact .inl (hkept m hm)

/-- Only what the targets need has changed, and one of them leads to a file. -/
def FilledUpTo (targets : List Path) (t : Path) (d d' : Disk) : Prop :=
  Filled targets d d' ∧ ∃ n, d'.LeadsToFile t n

theorem meets_filled_copy {t : Path} (ht : t ∈ targets) (source : Path) :
    Meets (Filled targets d) (copy source t) (fun _ => FilledUpTo targets t d)
      fun _ => Filled targets d := by
  have hpast : ∀ d', Filled targets d d' → Filled targets d d'.past :=
    fun d' h => h.trans ((chained_filled targets).past d')
  refine meets_pouring hpast (fun _ d' h => hpast d' h) (fun cut d' h => ?_) ?_
  rotate_left
  · rintro _ d' (⟨h, -⟩ | ⟨-, h⟩) <;> exact h
  unfold transfer
  rw [run_bind, run_get]
  dsimp only
  rw [run_bind]
  cases d'.found true source with
  | error cause => exact h
  | ok found =>
    obtain ⟨q, _ | n | _⟩ := found
    · exact h
    · dsimp only [orFail, run_pure]
      cases d'.fileData? n with
      | none => exact h
      | some data =>
        dsimp only
        cases d'.permits data.mode .read with
        | false => exact h
        | true =>
          have hopened := opened_spec t data.mode d'
          rw [Bool.not_true, if_neg Bool.false_ne_true, run_bind]
          generalize (opened t data.mode).run d' = result at hopened ⊢
          obtain ⟨_ | m, d''⟩ := result
          · cases hopened
            exact h
          · -- the file that was opened is the one that gets the bytes
            have hleads : d''.LeadsToFile t m := hopened.wroteTo.found
            have hset :=
              Filled.setFile ht hleads ⟨cut ((d''.fileData? n).getD data).bytes, data.mode⟩
            exact ⟨(h.trans (hopened.filled ht)).trans hset, m, hset.leadsToFile hleads⟩
    · exact h

theorem meets_filled_setMode {t : Path} (ht : t ∈ targets) (mode : Nat) :
    Meets (FilledUpTo targets t d) (setMode t mode) (fun _ => FilledUpTo targets t d)
      fun _ => Filled targets d := by
  have hpast : ∀ d', FilledUpTo targets t d d' → FilledUpTo targets t d d'.past := by
    rintro d' ⟨h, n, hleads⟩
    have hd' := (chained_filled targets).past d'
    exact ⟨h.trans hd', n, hd'.leadsToFile hleads⟩
  refine meets_step hpast (fun _ d' h => (hpast d' h).1) ?_
  rintro d' ⟨h, n, q, hq⟩
  rw [run_bind, run_get]
  dsimp only
  rw [run_bind, hq]
  dsimp only [orFail, run_pure]
  have hset := Filled.setFile ht ⟨q, hq⟩ { (d'.fileData? n).getD ⟨.empty, 0⟩ with mode }
  exact ⟨h.trans hset, n, hset.leadsToFile ⟨q, hq⟩⟩

end Formulary.Disk
