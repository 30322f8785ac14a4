import Formulary.Proofs.Disk.Exchange

/-!
# Steps on disks with names exchanged

Steps on two disks that differ in names alone go side by side when they are told paths that differ
in the same way (`Disk.Mirrored`). This is shown for each single step of a file system that a
directory is made, filled or looked at by, and so holds of all that is put together from these
(`Mirrored.bind`).
-/

namespace Formulary.Disk

variable {σ : String → String} {α β α' β' : Type} {r : α → β → Prop} {r' : α' → β' → Prop}
  {d d' : Disk} {p p' q q' : Path}

/-! ## Sequences -/

/-- From disks with names exchanged the steps come to such disks, and to related values or to the
same failure. -/
def Mirrored (σ : String → String) (r : α → β → Prop) (x : DiskM α) (y : DiskM β) : Prop :=
  Abreast (Exchanged σ) (Outcomes Eq r) x.run y.run

theorem mirrored_pure {a : α} {b : β} (h : r a b) :
    Mirrored σ r (pure a : DiskM α) (pure b : DiskM β) := Abreast.run_pure h

theorem mirrored_throw (cause : Cause) :
    Mirrored σ r (throw cause : DiskM α) (throw cause : DiskM β) := Abreast.run_throw rfl

theorem Mirrored.bind {x : DiskM α} {y : DiskM β} {g : α → DiskM α'} {h : β → DiskM β'}
    (hx : Mirrored σ r x y) (hg : ∀ a b, r a b → Mirrored σ r' (g a) (h b)) :
    Mirrored σ r' (x >>= g) (y >>= h) := Abreast.run_bind hx hg

theorem Mirrored.bind_eq {x y : DiskM α} {g : α → DiskM α'} {h : α → DiskM β'}
    (hx : Mirrored σ Eq x y) (hg : ∀ a, Mirrored σ r' (g a) (h a)) :
    Mirrored σ r' (x >>= g) (y >>= h) := Abreast.run_bind_eq hx hg

theorem Mirrored.attempt {x y : DiskM α} (h : Mirrored σ Eq x y) :
    Mirrored σ Eq x.attempt y.attempt :=
  fun d d' hd => ⟨.ok (h d d' hd).result.eq, (h d d' hd).state⟩

theorem mirrored_liftM {x : StateM Disk α} {y : StateM Disk β}
    (h : Abreast (Exchanged σ) r x y) :
    Mirrored σ r (liftM x : DiskM α) (liftM y : DiskM β) := Abreast.run_liftM h

theorem Mirrored.step {x : DiskM α} {y : DiskM β} (h : Mirrored σ r x y) :
    Mirrored σ r (step x) (step y) := by
  rintro ⟨entries, files, workdir, superuser, faults⟩ _ ⟨hsuits, rfl⟩
  have hpast := Exchanged.past ⟨hsuits, rfl⟩
  rcases faults with _ | ⟨_ | f, rest⟩
  · exact h _ _ ⟨hsuits, rfl⟩
  · exact h _ _ hpast
  · exact ⟨.error rfl, hpast⟩

theorem Mirrored.pouring {x y : (ByteArray → ByteArray) → DiskM Unit}
    (h : ∀ cut, Mirrored σ Eq (x cut) (y cut)) : Mirrored σ Eq (pouring x) (pouring y) := by
  rintro ⟨entries, files, workdir, superuser, faults⟩ _ ⟨hsuits, rfl⟩
  have hpast := Exchanged.past ⟨hsuits, rfl⟩
  rcases faults with _ | ⟨_ | f, rest⟩
  · exact h id _ _ ⟨hsuits, rfl⟩
  · exact h id _ _ hpast
  · have hfault : Mirrored σ Eq (f.written.elim (pure ()) fun n => x (·.extract 0 n))
        (f.written.elim (pure ()) fun n => y (·.extract 0 n)) := by
      cases f.written with
      | none => exact mirrored_pure rfl
      | some n => exact h _
    exact (hfault.bind fun _ _ _ => mirrored_throw f.cause) _ _ hpast

/-- Steps that begin with a look at the disk. -/
theorem mirrored_get_bind {g : Disk → DiskM α} {h : Disk → DiskM β}
    (hg : ∀ d d', Exchanged σ d d' →
      Alongside (Exchanged σ) (Outcomes Eq r) ((g d).run d) ((h d').run d')) :
    Mirrored σ r (get >>= g) (get >>= h) := Abreast.run_get_bind hg

/-- Steps that go on with a value, or fail. -/
theorem alongside_orFail_bind {e : Except Cause α} {e' : Except Cause β} (he : Outcomes Eq r e e')
    (hd : Exchanged σ d d') {g : α → DiskM α'} {h : β → DiskM β'}
    (hg : ∀ a b, r a b →
      Alongside (Exchanged σ) (Outcomes Eq r') ((g a).run d) ((h b).run d')) :
    Alongside (Exchanged σ) (Outcomes Eq r') ((orFail e >>= g).run d)
      ((orFail e' >>= h).run d') := by
  cases he with
  | ok hab => exact hg _ _ hab
  | error hcause => exact ⟨.error hcause, hd⟩

theorem alongside_throw (hd : Exchanged σ d d') (cause : Cause) :
    Alongside (Exchanged σ) (Outcomes Eq r) ((throw cause : DiskM α).run d)
      ((throw cause : DiskM β).run d') := ⟨.error rfl, hd⟩

section

variable (hσ : Exchange σ)

include hσ

/-! ## Looking -/

theorem mirrored_lookUp (follow : Bool) (hp : Path.Exchanged σ p p') :
    Mirrored σ (fun x x' => x' = (x.1.map σ, x.2) ∧ Spelt σ x.1) (lookUp follow p)
      (lookUp follow p') := by
  refine Mirrored.step (mirrored_get_bind fun d d' hd => ?_)
  have hfound := hd.found hσ follow hp
  generalize d.found follow p = reached at hfound ⊢
  generalize d'.found follow p' = reached' at hfound ⊢
  cases hfound with
  | ok hx => exact ⟨.ok ⟨hx.1, hx.2.1⟩, hd⟩
  | error hcause => exact ⟨.error hcause, hd⟩

theorem mirrored_kind (follow : Bool) (hp : Path.Exchanged σ p p') :
    Mirrored σ Eq (kind follow p) (kind follow p') :=
  (mirrored_lookUp hσ follow hp).bind fun x _ hx => mirrored_pure (by rw [hx.1])

theorem abreast_isKind (k : Kind) (hp : Path.Exchanged σ p p') :
    Abreast (Exchanged σ) Eq (isKind k p) (isKind k p') := by
  refine Abreast.bind (mirrored_kind hσ true hp) fun result _ h => ?_
  rw [← h.eq]
  cases result <;> exact Abreast.pure rfl

theorem mirrored_canonical (hp : Path.Exchanged σ p p') :
    Mirrored σ (Path.Exchanged σ) (canonical p) (canonical p') :=
  (mirrored_lookUp hσ true hp).bind fun x _ hx => mirrored_pure <| by
    rw [hx.1]
    exact Path.exchanged_pathOf hσ hx.2

theorem mirrored_list (hp : Path.Exchanged σ p p') :
    Mirrored σ (fun names names' => names' = names.map σ ∧ Spelt σ names) (list p) (list p') := by
  refine Mirrored.step (mirrored_get_bind fun d d' hd => ?_)
  refine alongside_orFail_bind (hd.found hσ true hp) hd fun x x' hx => ?_
  obtain ⟨rfl, -, -⟩ := hx
  obtain ⟨place, _ | _ | _⟩ := x
  · dsimp only
    rw [hd.permits]
    split
    · exact ⟨.ok (hd.namesIn hσ), hd⟩
    · exact alongside_throw hd _
  · exact alongside_throw hd _
  · exact alongside_throw hd _

/-! ## Files -/

theorem mirrored_opened (mode : Nat) (hp : Path.Exchanged σ p p') :
    Mirrored σ Eq (opened p mode) (opened p' mode) := by
  refine mirrored_get_bind fun d d' hd => ?_
  refine alongside_orFail_bind (hd.target hσ true hp) hd fun t t' ht => ?_
  rw [ht.place, hd.entryAt? hσ, ht.needsDirectory, hd.canChange hσ, hd.unused]
  rcases d.entryAt? t.place with _ | _ | n | _
  · dsimp only
    split
    · exact alongside_throw hd _
    · split
      · exact alongside_throw hd _
      · exact ⟨.ok rfl, hd.putFile hσ ht.spelt _⟩
  · exact alongside_throw hd _
  · dsimp only
    rw [hd.fileData?, hd.permits]
    split
    · exact alongside_throw hd _
    · exact ⟨.ok rfl, hd.setFile n _⟩
  · exact alongside_throw hd _

theorem mirrored_write (bytes : ByteArray) (hp : Path.Exchanged σ p p') :
    Mirrored σ Eq (write p bytes) (write p' bytes) := by
  refine Mirrored.pouring fun cut => (mirrored_opened hσ fileMode hp).bind_eq fun n => ?_
  intro d d' hd
  refine ⟨.ok rfl, ?_⟩
  show Exchanged σ (d.setFile n _) (d'.setFile n _)
  rw [hd.fileData?]
  exact hd.setFile n _

theorem mirrored_createNew (bytes : ByteArray) (mode : Nat) (hp : Path.Exchanged σ p p') :
    Mirrored σ Eq (createNew p bytes mode) (createNew p' bytes mode) := by
  refine Mirrored.step (mirrored_get_bind fun d d' hd => ?_)
  refine alongside_orFail_bind (hd.target hσ false hp) hd fun t t' ht => ?_
  rw [ht.place, hd.entryAt? hσ, ht.needsDirectory, hd.canChange hσ]
  cases d.entryAt? t.place with
  | some e => exact alongside_throw hd _
  | none =>
    dsimp only
    split
    · exact alongside_throw hd _
    · split
      · exact ⟨.ok rfl, hd.putFile hσ ht.spelt _⟩
      · exact alongside_throw hd _

theorem mirrored_setMode (mode : Nat) (hp : Path.Exchanged σ p p') :
    Mirrored σ Eq (setMode p mode) (setMode p' mode) := by
  refine Mirrored.step (mirrored_get_bind fun d d' hd => ?_)
  refine alongside_orFail_bind (hd.found hσ true hp) hd fun x x' hx => ?_
  obtain ⟨rfl, hspelt, -⟩ := hx
  obtain ⟨place, _ | n | _⟩ := x
  · exact ⟨.ok rfl, hd.put hσ hspelt (Entry.suits_directory mode)⟩
  · dsimp only
    rw [hd.fileData?]
    exact ⟨.ok rfl, hd.setFile n _⟩
  · exact alongside_throw hd _

/-! ## Names -/

theorem mirrored_putNew {e : Entry} (he : e.Suits σ) (hp : Path.Exchanged σ p p') :
    Mirrored σ Eq (putNew p e) (putNew p' e) := by
  refine Mirrored.step (mirrored_get_bind fun d d' hd => ?_)
  refine alongside_orFail_bind (hd.target hσ false hp) hd fun t t' ht => ?_
  rw [ht.place, hd.entryAt? hσ, ht.needsDirectory, hd.canChange hσ]
  cases d.entryAt? t.place with
  | some e => exact alongside_throw hd _
  | none =>
    dsimp only
    split
    · exact alongside_throw hd _
    · split
      · exact ⟨.ok rfl, hd.put hσ ht.spelt he⟩
      · exact alongside_throw hd _

theorem mirrored_makeDirectory (mode : Nat) (hp : Path.Exchanged σ p p') :
    Mirrored σ Eq (makeDirectory p mode) (makeDirectory p' mode) :=
  mirrored_putNew hσ (Entry.suits_directory mode) hp

theorem mirrored_makeLink {target : String} (htarget : Path.Exchanged σ ⟨target⟩ ⟨target⟩)
    (hp : Path.Exchanged σ p p') : Mirrored σ Eq (makeLink target p) (makeLink target p') := by
  unfold makeLink
  split
  · exact mirrored_throw _
  · exact mirrored_putNew hσ (fun _ h => Entry.link.inj h ▸ htarget) hp

theorem mirrored_addName (hq : Path.Exchanged σ q q') (hp : Path.Exchanged σ p p') :
    Mirrored σ Eq (addName q p) (addName q' p') := by
  refine Mirrored.step (mirrored_get_bind fun d d' hd => ?_)
  refine alongside_orFail_bind (hd.found hσ false hq) hd fun x x' hx => ?_
  obtain ⟨rfl, -, he⟩ := hx
  obtain ⟨_, e⟩ := x
  refine alongside_orFail_bind (hd.target hσ false hp) hd fun t t' ht => ?_
  dsimp only
  rw [ht.place, hd.entryAt? hσ, ht.needsDirectory, hd.canChange hσ]
  have hput : Alongside (Exchanged σ) (Outcomes Eq Eq)
      ((if t.needsDirectory then throw .notFound
        else if d.canChange t.place then set (d.put t.place e) else throw .denied :
        DiskM Unit).run d)
      ((if t.needsDirectory then throw .notFound
        else if d.canChange t.place then set (d'.put (t.place.map σ) e) else throw .denied :
        DiskM Unit).run d') := by
    split
    · exact alongside_throw hd _
    · split
      · exact ⟨.ok rfl, hd.put hσ ht.spelt he⟩
      · exact alongside_throw hd _
  rcases d.entryAt? t.place with _ | _
  · rcases e with _ | _ | _
    · exact alongside_throw hd _
    · exact hput
    · exact hput
  · exact alongside_throw hd _

theorem mirrored_removeFile (hp : Path.Exchanged σ p p') :
    Mirrored σ Eq (removeFile p) (removeFile p') := by
  refine Mirrored.step (mirrored_get_bind fun d d' hd => ?_)
  refine alongside_orFail_bind (hd.found hσ false hp) hd fun x x' hx => ?_
  obtain ⟨rfl, -, -⟩ := hx
  obtain ⟨place, e⟩ := x
  have hdrop : Alongside (Exchanged σ) (Outcomes Eq Eq)
      ((if d.canChange place then set (d.drop place) else throw .denied : DiskM Unit).run d)
      ((if d'.canChange (place.map σ) then set (d'.drop (place.map σ)) else throw .denied :
        DiskM Unit).run d') := by
    rw [hd.canChange hσ]
    split
    · exact ⟨.ok rfl, hd.drop hσ⟩
    · exact alongside_throw hd _
  rcases e with _ | _ | _
  · exact alongside_throw hd _
  · exact hdrop
  · exact hdrop

/-! ## Trees -/

/-- What was to be made may be there already. -/
theorem mirrored_orThere (cause : Cause) (hp : Path.Exchanged σ p p') :
    Mirrored σ Eq (do if ← isDirectory p then pure () else throw cause : DiskM Unit)
      (do if ← isDirectory p' then pure () else throw cause) := by
  refine (mirrored_liftM (abreast_isKind hσ .directory hp)).bind_eq fun found => ?_
  split
  · exact mirrored_pure rfl
  · exact mirrored_throw _

theorem mirrored_ensureDirectory (hp : Path.Exchanged σ p p') :
    Mirrored σ Eq (ensureDirectory p) (ensureDirectory p') := by
  refine (mirrored_makeDirectory hσ directoryMode hp).attempt.bind_eq fun made => ?_
  cases made with
  | ok _ => exact mirrored_pure rfl
  | error cause => exact mirrored_orThere hσ cause hp

theorem mirrored_makeDirectoriesUpTo (fuel : Nat) (hp : Path.Exchanged σ p p') :
    Mirrored σ Eq (makeDirectoriesUpTo fuel p) (makeDirectoriesUpTo fuel p') := by
  induction fuel generalizing p p' with
  | zero => exact mirrored_throw _
  | succ fuel ih =>
    unfold makeDirectoriesUpTo
    simp only [hp.text_eq_empty_iff hσ]
    split
    · exact mirrored_pure rfl
    · refine (mirrored_makeDirectory hσ directoryMode hp).attempt.bind_eq fun made => ?_
      split
      · exact mirrored_pure rfl
      · have hparent := hp.parent? hσ
        generalize p.parent? = above at hparent ⊢
        generalize p'.parent? = above' at hparent ⊢
        cases hparent with
        | none => exact mirrored_throw _
        | some habove => exact (ih habove).bind_eq fun _ => mirrored_ensureDirectory hσ hp
      · exact mirrored_orThere hσ _ hp

theorem mirrored_makeDirectories (hp : Path.Exchanged σ p p') :
    Mirrored σ Eq (makeDirectories p) (makeDirectories p') := by
  unfold makeDirectories
  rw [hp.components hσ, List.length_map]
  exact mirrored_makeDirectoriesUpTo hσ _ hp

end

end Formulary.Disk
