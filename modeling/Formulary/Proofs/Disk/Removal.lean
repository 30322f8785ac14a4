import Formulary.Proofs.Disk.Walk
import Formulary.Proofs.Runs
import Formulary.Sandbox

/-!
# What a removal leaves

A disk that was thinned out has lost entries only where some were to go, and nothing else on it has
changed but modes and faults (`Disk.Thinned`); one that was pruned has not even changed in modes
(`Disk.Pruned`). The removal of a tree prunes a disk below the place that its path leads to
(`pruned_removeTree`), and that of a sandbox thins it out there (`Sandbox.thinned_remove`). A path
never leads elsewhere for it (`Thinned.leadsTo`).
-/

namespace Formulary

namespace Disk

/-! ## Where a path leads without regard to rights -/

/-- The disk of a process that no mode holds back. -/
def freed (d : Disk) : Disk := { d with superuser := true }

/-- The path leads to a place that holds something, for a process that no mode holds back. A link
that the path itself names is not followed. -/
def LeadsTo (d : Disk) (p : Path) (q : Place) : Prop := ∃ e, d.freed.found false p = .ok (q, e)

/-- The place lies at or below one that the path leads to. -/
def IsUnder (d : Disk) (p : Path) (q : Place) : Prop :=
  ∃ r, d.LeadsTo p r ∧ isWithin r q = true

/-! ## Thinning out -/

/-- Entries are lost only where `gone` says so, and nothing else is lost, added or exchanged. -/
structure Thinned (gone : Place → Prop) (d d' : Disk) : Prop where
  files : d'.files = d.files
  workdir : d'.workdir = d.workdir
  entries : ∀ q, (d'.entryAt? q).map Entry.bare = (d.entryAt? q).map Entry.bare ∨
    gone q ∧ d'.entryAt? q = none

variable {gone gone' : Place → Prop} {d d' d'' : Disk}

theorem Thinned.refl (d : Disk) : Thinned gone d d := ⟨rfl, rfl, fun _ => .inl rfl⟩

theorem Thinned.trans (h : Thinned gone d d') (h' : Thinned gone d' d'') : Thinned gone d d'' := by
  refine ⟨h'.files.trans h.files, h'.workdir.trans h.workdir, fun q => ?_⟩
  rcases h'.entries q with hq' | hq'
  · rcases h.entries q with hq | ⟨hgone, hq⟩
    · exact .inl (hq'.trans hq)
    · rw [hq] at hq'
      exact .inr ⟨hgone, Option.map_eq_none_iff.1 hq'⟩
  · exact .inr hq'

theorem Thinned.mono (h : Thinned gone d d') (hgone : ∀ q, gone q → gone' q) :
    Thinned gone' d d' :=
  ⟨h.files, h.workdir, fun q => (h.entries q).imp_right fun hq => ⟨hgone q hq.1, hq.2⟩⟩

/-- Only faults changed. -/
theorem Thinned.of_past (d : Disk) : Thinned gone d d.past := ⟨rfl, rfl, fun _ => .inl rfl⟩

/-- An entry with every right of its owner, if it is a directory that can be reached. -/
def unlocked (d : Disk) (upper q : Place) : Entry → Entry
  | .directory mode =>
    if isWithin upper q ∧ d.isReachable upper q then .directory (mode ||| 0o700)
    else .directory mode
  | e => e

theorem bare_unlocked (d : Disk) (upper q : Place) (e : Entry) :
    (d.unlocked upper q e).bare = e.bare := by
  cases e with
  | directory mode =>
    dsimp only [unlocked]
    split <;> rfl
  | file n => rfl
  | link target => rfl

theorem unlock_eq (upper : Place) (d : Disk) :
    d.unlock upper =
      { d with entries := d.entries.map fun x => (x.1, d.unlocked upper x.1 x.2) } := by
  unfold unlock
  refine congrArg (fun entries => { d with entries := entries }) (List.map_congr_left ?_)
  rintro ⟨q, e⟩ -
  cases e with
  | directory mode =>
    dsimp only [unlocked]
    split <;> rfl
  | file n => rfl
  | link target => rfl

theorem entryAt?_unlock (upper : Place) (d : Disk) (q : Place) :
    (d.unlock upper).entryAt? q = (d.entryAt? q).map (d.unlocked upper q) := by
  rw [unlock_eq]
  exact lookup_map_value (d.unlocked upper) q d.entries

/-- To unlock directories changes only modes. -/
theorem thinned_unlock (upper : Place) (d : Disk) : Thinned gone d (d.unlock upper) := by
  refine ⟨rfl, rfl, fun q => .inl ?_⟩
  rw [entryAt?_unlock, Option.map_map]
  exact congrArg (Option.map · _) (funext (bare_unlocked d upper q))

theorem thinned_unlockTree (p : Path) (d : Disk) : Thinned gone d (d.unlockTree p) := by
  unfold unlockTree
  split
  · exact thinned_unlock _ d
  · exact Thinned.refl d

/-- A disk covers those that it was thinned out to. -/
theorem Thinned.covers (h : Thinned gone d d') : Covers d' d.freed := by
  refine ⟨fun q e he => ?_, fun q _ => ?_, h.workdir.symm⟩
  · rcases h.entries q with hq | ⟨-, hq⟩
    · rw [he, Option.map_some, eq_comm, Option.map_eq_some_iff] at hq
      exact hq
    · rw [he] at hq
      exact absurd hq (by simp)
  · unfold directoryPermits permits freed
    cases entryAt? _ q with
    | none => rfl
    | some e => cases e <;> simp

theorem covers_freed (d : Disk) : Covers d d.freed := by
  have hsame : Thinned (fun _ => False) d d := .refl d
  exact hsame.covers

theorem leadsTo_of_found {p : Path} {q : Place} {e : Entry} (hf : d.found false p = .ok (q, e)) :
    d.LeadsTo p q := by
  obtain ⟨e', hf', -⟩ := (covers_freed d).found hf
  exact ⟨e', hf'⟩

theorem Thinned.freed (h : Thinned gone d d') : Thinned gone d.freed d'.freed :=
  ⟨h.files, h.workdir, h.entries⟩

theorem Thinned.leadsTo_of_found (h : Thinned gone d d') {p : Path} {q : Place} {e : Entry}
    (hf : d'.found false p = .ok (q, e)) : d.LeadsTo p q := by
  obtain ⟨e', hf', -⟩ := h.covers.found hf
  exact ⟨e', hf'⟩

/-- Where a path leads on the thinned disk, it led before. -/
theorem Thinned.leadsTo (h : Thinned gone d d') {p : Path} {q : Place} (hp : d'.LeadsTo p q) :
    d.LeadsTo p q := by
  obtain ⟨e, he⟩ := hp
  exact Thinned.leadsTo_of_found (d := d.freed) h.freed he

theorem Thinned.isUnder (h : Thinned gone d d') {p : Path} {q : Place} (hp : d'.IsUnder p q) :
    d.IsUnder p q := by
  obtain ⟨r, hr, hq⟩ := hp
  exact ⟨r, h.leadsTo hr, hq⟩

/-! ## Pruning -/

/-- Entries are lost only where `gone` says so, and nothing else has changed but faults. -/
structure Pruned (gone : Place → Prop) (d d' : Disk) : Prop where
  files : d'.files = d.files
  workdir : d'.workdir = d.workdir
  superuser : d'.superuser = d.superuser
  entries : ∀ q, d'.entryAt? q = d.entryAt? q ∨ gone q ∧ d'.entryAt? q = none

theorem Pruned.thinned (h : Pruned gone d d') : Thinned gone d d' :=
  ⟨h.files, h.workdir, fun q => (h.entries q).imp_left (congrArg (Option.map Entry.bare))⟩

theorem Pruned.refl (d : Disk) : Pruned gone d d := ⟨rfl, rfl, rfl, fun _ => .inl rfl⟩

theorem Pruned.trans (h : Pruned gone d d') (h' : Pruned gone d' d'') : Pruned gone d d'' := by
  refine ⟨h'.files.trans h.files, h'.workdir.trans h.workdir, h'.superuser.trans h.superuser,
    fun q => ?_⟩
  rcases h'.entries q with hq' | hq'
  · rcases h.entries q with hq | ⟨hgone, hq⟩
    · exact .inl (hq'.trans hq)
    · exact .inr ⟨hgone, hq'.trans hq⟩
  · exact .inr hq'

theorem Pruned.mono (h : Pruned gone d d') (hgone : ∀ q, gone q → gone' q) : Pruned gone' d d' :=
  ⟨h.files, h.workdir, h.superuser, fun q => (h.entries q).imp_right fun hq => ⟨hgone q hq.1, hq.2⟩⟩

theorem chained_pruned : Chained (Pruned gone) :=
  ⟨.refl, fun _ _ _ h h' => h.trans h', fun _ => ⟨rfl, rfl, rfl, fun _ => .inl rfl⟩⟩

theorem pruned_drop {p : Place} (hp : gone p) (d : Disk) : Pruned gone d (d.drop p) := by
  refine ⟨rfl, rfl, rfl, fun q => ?_⟩
  rw [entryAt?_drop]
  by_cases hq : q = p
  · subst hq
    exact .inr ⟨hp, if_pos rfl⟩
  · rw [if_neg hq]
    exact .inl rfl

theorem thinned_drop {p : Place} (hp : gone p) (d : Disk) : Thinned gone d (d.drop p) :=
  (pruned_drop hp d).thinned

/-! ## Removing trees -/

theorem obeys_removeAt {p : Place} (hp : gone p) : Obeys (Pruned gone) (removeAt p) := by
  refine chained_pruned.step fun d => ?_
  rw [run_bind, run_get]
  dsimp only
  split
  · exact Pruned.refl d
  · split
    · exact pruned_drop hp d
    · exact Pruned.refl d

/-- The name of a file is removed, where names may be. -/
theorem run_removeFile_of_found (hfaults : d.faults = []) {p : Path} {q : Place} {n : Nat}
    (hf : d.found false p = .ok (q, .file n)) (hchange : d.canChange q = true) :
    (removeFile p).run d = (.ok (), d.drop q) := by
  unfold removeFile
  rw [run_step_of_faults _ hfaults, run_bind, run_get]
  dsimp only
  rw [run_bind, hf]
  dsimp only [orFail, run_pure]
  rw [if_pos hchange]
  rfl

/-- To remove a name takes only what its path leads to. -/
theorem thinned_removeFile (p : Path) (d : Disk) :
    Thinned (d.LeadsTo p) d ((removeFile p).run d).2 := by
  unfold removeFile
  rcases run_step _ d with hr | ⟨cause, hr⟩
  · rw [hr, run_bind, run_get]
    dsimp only
    rw [run_bind]
    have hpast : Thinned (d.LeadsTo p) d d.past := .of_past d
    cases hf : d.past.found false p with
    | error cause => exact hpast
    | ok found =>
      obtain ⟨q, e⟩ := found
      have hq : d.LeadsTo p q := hpast.leadsTo_of_found hf
      dsimp only [orFail, run_pure]
      cases e with
      | directory mode => exact hpast
      | file n =>
        dsimp only
        split
        · exact hpast.trans (thinned_drop hq d.past)
        · exact hpast
      | link target =>
        dsimp only
        split
        · exact hpast.trans (thinned_drop hq d.past)
        · exact hpast
  · rw [hr]
    exact .of_past d

/-- All that goes with a directory lies within it, by induction on the depth. -/
theorem obeys_removeTreeAt (depth : Nat) {p : Place} (hp : ∀ q, isWithin p q = true → gone q) :
    Obeys (Pruned gone) (removeTreeAt depth p) := by
  have h : Chained (Pruned gone) := chained_pruned
  induction depth generalizing p with
  | zero => exact h.throw _
  | succ depth ih =>
    refine h.bind h.get fun d => ?_
    split
    · exact h.throw _
    · refine h.bind (Obeys.forIn h.refl h.trans ?_ _ _)
        fun _ => obeys_removeAt (hp p (isWithin_refl p))
      intro name _
      have hchild : ∀ q, isWithin (p ++ [name]) q = true → gone q :=
        fun q hq => hp q (isWithin_of_child hq)
      refine h.bind h.get fun d => ?_
      split
      · exact h.bind (ih hchild) fun _ => h.pure _
      · exact h.bind (obeys_removeAt (hchild _ (isWithin_refl _))) fun _ => h.pure _

/-- What is looked up is what the path leads to, with at most one fault met on the way. -/
theorem run_lookUp {follow : Bool} {p : Path} {q : Place} {e : Entry}
    (h : (lookUp follow p).run d = (.ok (q, e), d')) :
    d' = d.past ∧ d.past.found follow p = .ok (q, e) := by
  unfold lookUp at h
  rcases run_step (do orFail ((← get).found follow p)) d with hr | ⟨cause, hr⟩
  · rw [hr, run_bind, run_get] at h
    dsimp only at h
    cases hf : d.past.found follow p with
    | error cause =>
      rw [hf] at h
      exact absurd (congrArg Prod.fst h) (by simp [orFail])
    | ok r =>
      rw [hf] at h
      obtain ⟨hr, hd⟩ := Prod.mk.injEq .. ▸ h
      exact ⟨hd.symm, hr⟩
  · rw [hr] at h
    exact absurd (congrArg Prod.fst h) (by simp)

/-- The removal of a tree takes only what lies at or below the place that its path leads to. -/
theorem pruned_removeTree (p : Path) (d : Disk) :
    Pruned (d.IsUnder p) d ((removeTree p).run d).2 := by
  unfold removeTree
  rw [run_bind]
  have hlook : Pruned (d.IsUnder p) d ((lookUp false p).run d).2 :=
    chained_pruned.lookUp false p d
  cases hr : (lookUp false p).run d with
  | mk r d' =>
    rw [hr] at hlook
    cases r with
    | error cause => exact hlook
    | ok found =>
      obtain ⟨q, e⟩ := found
      obtain ⟨rfl, hf⟩ := run_lookUp hr
      have hq : ∀ r, isWithin q r = true → d.IsUnder p r :=
        fun r hr => ⟨q, hlook.thinned.leadsTo_of_found hf, hr⟩
      refine hlook.trans ?_
      cases e with
      | directory mode =>
        exact chained_pruned.bind chained_pruned.get (fun _ => obeys_removeTreeAt _ hq) d.past
      | file n => exact chained_pruned.throw _ d.past
      | link target => exact obeys_removeAt (hq q (isWithin_refl q)) d.past

theorem thinned_removeTree (p : Path) (d : Disk) :
    Thinned (d.IsUnder p) d ((removeTree p).run d).2 := (pruned_removeTree p d).thinned

end Disk

theorem Sandbox.remove_eq (p : Path) (d : Disk) :
    (Sandbox.remove p d).2 = match (Disk.removeTree p).run d with
      | (.ok _, d') => d'
      | (.error _, d') => ((Disk.removeTree p).run (d'.unlockTree p)).2 := by
  unfold remove
  rw [bind_apply]
  rcases (Disk.removeTree p).run d with ⟨_ | _, d'⟩
  · dsimp only
    rw [bind_apply, modify_apply, bind_apply]
    rcases (Disk.removeTree p).run (d'.unlockTree p) with ⟨_ | _, _⟩ <;> rfl
  · rfl

/-- The removal of a sandbox takes only what lies at or below the place that its path leads to. -/
theorem Sandbox.thinned_remove (p : Path) (d : Disk) :
    Disk.Thinned (d.IsUnder p) d (Sandbox.remove p d).2 := by
  have hfirst := Disk.thinned_removeTree p d
  rw [Sandbox.remove_eq]
  cases hr : (Disk.removeTree p).run d with
  | mk r d₁ =>
    rw [hr] at hfirst
    cases r with
    | ok u => exact hfirst
    | error cause =>
      have hunlocked : Disk.Thinned (d.IsUnder p) d (d₁.unlockTree p) :=
        hfirst.trans (Disk.thinned_unlockTree p d₁)
      exact hunlocked.trans
        ((Disk.thinned_removeTree p _).mono fun q hq => hunlocked.isUnder hq)

end Formulary
