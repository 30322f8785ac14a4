import Formulary.Disk.Trees
import Formulary.Proofs.Disk.Member
import Formulary.Proofs.Runs

/-!
# What making, writing and moving leave

To make directories adds directories and nothing else (`furnished_makeDirectories`). A write that
gets as far as to open its file changes only that one, to which its path then leads, and ends well
only with all bytes written (`writes`). A move puts the entry under its new name, or fails and
changes nothing (`renames`).
-/

namespace Formulary.Disk

variable {d d' d'' : Disk}

/-! ## Making directories -/

/-- The one path is the other, or has what is left of it when its last components are taken
away. -/
inductive LiesIn (p : Path) : Path → Prop
  | self : LiesIn p p
  | above {q upper : Path} : LiesIn p q → q.parent? = some upper → LiesIn p upper

theorem LiesIn.trans {p q upper : Path} (h : LiesIn p q) (h' : LiesIn q upper) :
    LiesIn p upper := by
  induction h' with
  | self => exact h
  | above _ hparent ih => exact .above ih hparent

section Chains

variable {r : Disk → Disk → Prop}

theorem Chained.ensureDirectory (h : Chained r) {p : Path} (hp : Obeys r (makeDirectory p)) :
    Obeys r (ensureDirectory p) := by
  refine h.bind (Chained.attempt hp) fun made => ?_
  split
  · exact h.pure _
  · refine h.bind (h.isKind .directory p) fun found => ?_
    split
    · exact h.pure _
    · exact h.throw _

/-- By induction on the directories that may be missing. -/
theorem Chained.makeDirectoriesUpTo (h : Chained r) (fuel : Nat) {p : Path}
    (hp : ∀ q, LiesIn p q → Obeys r (makeDirectory q)) : Obeys r (makeDirectoriesUpTo fuel p) := by
  induction fuel generalizing p with
  | zero => exact h.throw _
  | succ fuel ih =>
    unfold Disk.makeDirectoriesUpTo
    split
    · exact h.pure _
    · refine h.bind (Chained.attempt (hp p .self)) fun made => ?_
      split
      · exact h.pure _
      · split
        · exact h.throw _
        · rename_i upper hparent
          have hupper : LiesIn p upper := .above .self hparent
          refine h.bind (ih fun q hq => hp q (hupper.trans hq)) fun _ => ?_
          exact h.ensureDirectory (hp p .self)
      · refine h.bind (h.isKind .directory p) fun found => ?_
        split
        · exact h.pure _
        · exact h.throw _

/-- What making one directory obeys, for each on the way, making them all does. -/
theorem Chained.makeDirectories (h : Chained r) {p : Path}
    (hp : ∀ q, LiesIn p q → Obeys r (makeDirectory q)) : Obeys r (makeDirectories p) :=
  h.makeDirectoriesUpTo _ hp

end Chains

/-- Directories were added, and nothing else has changed but faults. -/
structure Furnished (d d' : Disk) : Prop where
  files : d'.files = d.files
  workdir : d'.workdir = d.workdir
  entries : ∀ q, d'.entryAt? q = d.entryAt? q ∨
    d.entryAt? q = none ∧ ∃ mode, d'.entryAt? q = some (.directory mode)

theorem Furnished.refl (d : Disk) : Furnished d d := ⟨rfl, rfl, fun _ => .inl rfl⟩

theorem Furnished.trans (h : Furnished d d') (h' : Furnished d' d'') : Furnished d d'' := by
  refine ⟨h'.files.trans h.files, h'.workdir.trans h.workdir, fun q => ?_⟩
  rcases h'.entries q with hq' | ⟨hq', hmade⟩
  · rw [hq']
    exact h.entries q
  · rcases h.entries q with hq | ⟨-, mode, hq⟩
    · exact .inr ⟨hq ▸ hq', hmade⟩
    · exact absurd (hq.symm.trans hq') (by simp)

theorem Furnished.of_past (d : Disk) : Furnished d d.past := ⟨rfl, rfl, fun _ => .inl rfl⟩

theorem Furnished.file (h : Furnished d d') {q : Place} {n : Nat}
    (hq : d'.entryAt? q = some (.file n)) : d.entryAt? q = some (.file n) := by
  rcases h.entries q with he | ⟨-, mode, he⟩
  · exact he ▸ hq
  · exact absurd (he.symm.trans hq) (by simp)

theorem Furnished.fileData? (h : Furnished d d') (n : Nat) : d'.fileData? n = d.fileData? n :=
  congrArg (List.lookup n) h.files

/-- The process may do everything with directories that it makes. -/
theorem permits_directoryMode (d : Disk) (r : Right) : d.permits directoryMode r = true := by
  have hbit : directoryMode / r.bit % 2 = 1 := by cases r <;> rfl
  unfold permits
  rw [hbit]
  exact Bool.or_true _

/-- A directory that was made is where its path leads. -/
theorem found_put_directory {p : Path} {t : Target} (ht : d.target false p = .ok t)
    (hnone : d.entryAt? t.place = none) {mode : Nat} (hmode : d.permits mode .search = true) :
    (d.put t.place (.directory mode)).found false p = .ok (t.place, .directory mode) := by
  have hentry := (entryAt?_put d t.place t.place (.directory mode)).trans (if_pos rfl)
  have ht' := (covers_put_directory hnone hmode).target ht (.inr (by simp [hentry]))
    (by simp [hentry])
  exact found_eq_ok_iff.2 ⟨⟨t.needsDirectory, ht'⟩, hentry⟩

theorem chained_furnished : Chained Furnished := ⟨.refl, fun _ _ _ h h' => h.trans h', .of_past⟩

/-- A directory is made where there is nothing, or nothing is done. -/
theorem run_makeDirectory (p : Path) (mode : Nat) (d : Disk) :
    (∃ cause, (makeDirectory p mode).run d = (.error cause, d.past)) ∨
    ∃ t, d.past.target false p = .ok t ∧ d.past.entryAt? t.place = none ∧
      (makeDirectory p mode).run d = (.ok (), d.past.put t.place (.directory mode)) := by
  unfold makeDirectory putNew
  rcases run_step _ d with hr | ⟨cause, hr⟩
  · rw [hr, run_bind, run_get]
    dsimp only
    rw [run_bind]
    cases ht : d.past.target false p with
    | error cause => exact .inl ⟨cause, rfl⟩
    | ok t =>
      dsimp only [orFail, run_pure]
      cases hentry : d.past.entryAt? t.place with
      | some e => exact .inl ⟨_, rfl⟩
      | none =>
        dsimp only
        rw [if_neg (fun h => h.2 rfl)]
        cases hcan : d.past.canChange t.place with
        | false => exact .inl ⟨_, rfl⟩
        | true => exact .inr ⟨t, rfl, hentry, rfl⟩
  · exact .inl ⟨cause, hr⟩

/-- A directory that could not be made left nothing behind. -/
theorem eq_past_of_run_makeDirectory {p : Path} {mode : Nat} {cause : Cause}
    (h : (makeDirectory p mode).run d = (.error cause, d')) : d' = d.past := by
  rcases run_makeDirectory p mode d with ⟨_, hr⟩ | ⟨t, -, -, hr⟩
  · exact congrArg Prod.snd (h.symm.trans hr)
  · exact absurd (congrArg Prod.fst (h.symm.trans hr)) nofun

theorem obeys_makeDirectory (p : Path) (mode : Nat) :
    Obeys Furnished (makeDirectory p mode) := by
  intro d
  rcases run_makeDirectory p mode d with ⟨cause, hr⟩ | ⟨t, -, hnone, hr⟩
  · rw [hr]
    exact .of_past d
  · rw [hr]
    refine ⟨rfl, rfl, fun q => ?_⟩
    rw [entryAt?_put]
    by_cases hq : q = t.place
    · exact .inr ⟨hq ▸ hnone, mode, if_pos hq⟩
    · exact .inl (if_neg hq)

theorem furnished_makeDirectories (p : Path) (d : Disk) :
    Furnished d ((makeDirectories p).run d).2 :=
  chained_furnished.makeDirectories (fun q _ => obeys_makeDirectory q directoryMode) d

/-! ## What is there -/

theorem run_lookUp_of_found (hfaults : d.faults = []) {follow : Bool} {p : Path} {q : Place}
    {e : Entry} (hf : d.found follow p = .ok (q, e)) :
    (lookUp follow p).run d = (.ok (q, e), d) := by
  unfold lookUp
  rw [run_step_of_faults _ hfaults, run_bind, run_get]
  dsimp only
  rw [hf]
  rfl

theorem run_kind_of_found (hfaults : d.faults = []) {follow : Bool} {p : Path} {q : Place}
    {e : Entry} (hf : d.found follow p = .ok (q, e)) :
    (kind follow p).run d = (.ok (kindOf e), d) := by
  unfold kind
  rw [run_bind, run_lookUp_of_found hfaults hf]
  rfl

/-- The kind of what a path leads to is told, unless the disk fails to. -/
theorem run_kind_cases (follow : Bool) (p : Path) (d : Disk) :
    (kind follow p).run d = ((d.past.found follow p).map fun found => kindOf found.2, d.past) ∨
      ∃ f, d.faults[0]? = some (some f) ∧ (kind follow p).run d = (.error f.cause, d.past) := by
  unfold kind lookUp
  rw [run_bind]
  rcases run_step_cases _ d with hr | ⟨f, hf, hr⟩
  · refine .inl ?_
    rw [hr, run_bind, run_get]
    dsimp only
    cases d.past.found follow p <;> rfl
  · refine .inr ⟨f, hf, ?_⟩
    rw [hr]

/-- A path leads to a file or not, unless the disk fails to tell. -/
theorem isFile_cases (p : Path) (d : Disk) :
    isFile p d = (true, d.past) ∧ (∃ q n, d.found true p = .ok (q, .file n)) ∨
    isFile p d = (false, d.past) ∧
      ((¬∃ q n, d.found true p = .ok (q, .file n)) ∨ ∃ f, d.faults[0]? = some (some f)) := by
  unfold isFile isKind
  rw [bind_apply]
  rcases run_kind_cases true p d with hr | ⟨f, hf, hr⟩
  · rw [hr]
    have hnot (h : ∀ q n, d.past.found true p ≠ .ok (q, .file n)) :
        ¬∃ q n, d.found true p = .ok (q, .file n) :=
      fun ⟨q, n, hf⟩ => h q n ((chained_unchanged.past d).found hf)
    cases hfound : d.past.found true p with
    | error cause =>
      rw [hfound] at hnot
      exact .inr ⟨rfl, .inl (hnot nofun)⟩
    | ok found =>
      obtain ⟨q, _ | n | _⟩ := found
      · rw [hfound] at hnot
        exact .inr ⟨rfl, .inl (hnot nofun)⟩
      · exact .inl ⟨rfl, q, n, found_of_past hfound⟩
      · rw [hfound] at hnot
        exact .inr ⟨rfl, .inl (hnot nofun)⟩
  · rw [hr]
    exact .inr ⟨rfl, .inr ⟨f, hf⟩⟩

theorem isKind_of_found (hfaults : d.faults = []) {p : Path} {q : Place} {e : Entry}
    (hf : d.found true p = .ok (q, e)) (k : Kind) : isKind k p d = (kindOf e == k, d) := by
  unfold isKind
  rw [bind_apply, run_kind_of_found hfaults hf]
  rfl

theorem isThere_of_found (hfaults : d.faults = []) {p : Path} {q : Place} {e : Entry}
    (hf : d.found true p = .ok (q, e)) : isThere p d = (true, d) := by
  unfold isThere
  rw [bind_apply, run_kind_of_found hfaults hf]
  rfl

theorem isThere_of_error (hfaults : d.faults = []) {p : Path} {cause : Cause}
    (hf : d.found true p = .error cause) : isThere p d = (false, d) := by
  have hkind : (kind true p).run d = (.error cause, d) := by
    unfold kind lookUp
    rw [run_bind, run_step_of_faults _ hfaults, run_bind, run_get]
    dsimp only
    rw [hf]
    rfl
  unfold isThere
  rw [bind_apply, hkind]
  rfl

theorem run_read_of_found (hfaults : d.faults = []) {p : Path} {q : Place} {n : Nat}
    {data : FileData} (hf : d.found true p = .ok (q, .file n)) (hdata : d.fileData? n = some data)
    (hread : d.permits data.mode .read = true) : (read p).run d = (.ok data.bytes, d) := by
  unfold read
  rw [run_step_of_faults _ hfaults, run_bind, run_get]
  dsimp only
  rw [run_bind, hf]
  dsimp only [orFail, run_pure]
  rw [hdata]
  dsimp only
  rw [if_pos hread]
  rfl

/-- Where there is something, no directory is made. -/
theorem run_makeDirectory_of_there (hfaults : d.faults = []) {p : Path} {t : Target} {e : Entry}
    (ht : d.target false p = .ok t) (he : d.entryAt? t.place = some e) :
    (makeDirectory p).run d = (.error .exists, d) := by
  unfold makeDirectory putNew
  rw [run_step_of_faults _ hfaults, run_bind, run_get]
  dsimp only
  rw [run_bind, ht]
  dsimp only [orFail, run_pure]
  rw [he]
  rfl

/-- Where a directory is made at once, those above it are there. -/
theorem run_makeDirectories_of_made {p : Path} (hp : p.text ≠ "")
    (h : (makeDirectory p).run d = (.ok (), d')) : (makeDirectories p).run d = (.ok (), d') := by
  have hattempt : (makeDirectory p).attempt.run d = (.ok (.ok ()), d') := by
    show ((fun a => (Except.ok a.1, a.2)) ((makeDirectory p).run d)) = _
    rw [h]
  unfold makeDirectories makeDirectoriesUpTo
  rw [if_neg hp, run_bind, hattempt]
  rfl

/-- Where a path leads to a directory, none is made. -/
theorem run_makeDirectories_of_there (hfaults : d.faults = []) {p : Path} {t : Target} {e : Entry}
    (ht : d.target false p = .ok t) (he : d.entryAt? t.place = some e) {q : Place} {mode : Nat}
    (hf : d.found true p = .ok (q, .directory mode)) :
    (makeDirectories p).run d = (.ok (), d) := by
  have hattempt : (makeDirectory p).attempt.run d = (.ok (.error .exists), d) := by
    show ((fun a => (Except.ok a.1, a.2)) ((makeDirectory p).run d)) = _
    rw [run_makeDirectory_of_there hfaults ht he]
  have hdirectory : isDirectory p d = (true, d) := isKind_of_found hfaults hf .directory
  have hne : p.text ≠ "" := (target_eq_ok_iff.1 ht).1.text_ne
  unfold makeDirectories makeDirectoriesUpTo
  rw [if_neg hne, run_bind, hattempt]
  dsimp only
  rw [run_bind]
  have hlift : (liftM (isDirectory p) : DiskM Bool).run d =
      (.ok (isDirectory p d).1, (isDirectory p d).2) := rfl
  rw [hlift, hdirectory]
  rfl

/-! ## Writing -/

/-- How a file is opened to be written, and with what result. -/
inductive Opened (p : Path) (mode : Nat) (d : Disk) : Except Cause Nat × Disk → Prop
  /-- It is not. -/
  | refused (cause : Cause) : Opened p mode d (.error cause, d)
  /-- The file is there, and is emptied. -/
  | emptied {q : Place} {n : Nat} : d.found true p = .ok (q, .file n) →
    Opened p mode d (.ok n, d.setFile n { (d.fileData? n).getD ⟨.empty, 0⟩ with bytes := .empty })
  /-- The file is made. -/
  | made {q : Place} : d.target true p = .ok ⟨q, false⟩ → d.entryAt? q = none →
    Opened p mode d (.ok d.unused, d.putFile q ⟨.empty, mode⟩)

theorem opened_spec (p : Path) (mode : Nat) (d : Disk) :
    Opened p mode d ((opened p mode).run d) := by
  unfold opened
  rw [run_bind, run_get]
  dsimp only
  rw [run_bind]
  cases ht : d.target true p with
  | error cause => exact .refused cause
  | ok t =>
    dsimp only [orFail, run_pure]
    cases he : d.entryAt? t.place with
    | none =>
      dsimp only
      split
      · exact .refused _
      · rename_i hneeds
        split
        · exact .refused _
        · have hfalse : t = ⟨t.place, false⟩ := by
            obtain ⟨q, needs⟩ := t
            simpa using hneeds
          exact .made (hfalse ▸ ht) he
    | some e =>
      cases e with
      | directory m => exact .refused _
      | link target => exact .refused _
      | file n =>
        dsimp only
        split
        · exact .refused _
        · exact .emptied (found_eq_ok_iff.2 ⟨⟨t.needsDirectory, ht⟩, he⟩)

/-- The other files stay as they are. -/
theorem Opened.fileData?_of_ne {p : Path} {mode n m : Nat} (h : Opened p mode d (.ok n, d'))
    (hm : m ≠ n) : d'.fileData? m = d.fileData? m := by
  cases h with
  | emptied => exact (fileData?_setFile ..).trans (if_neg hm)
  | made => exact (fileData?_putFile ..).trans (if_neg hm)

/-- The path leads to the file, and no other file has changed, nor has any file got a name that
it did not have. -/
structure WroteTo (p : Path) (n : Nat) (d d' : Disk) : Prop where
  found : ∃ q, d'.found true p = .ok (q, .file n)
  others : ∀ q m, d'.entryAt? q = some (.file m) →
    m = n ∨ d.entryAt? q = some (.file m) ∧ d'.fileData? m = d.fileData? m

theorem WroteTo.trans {p : Path} {n : Nat} (h : WroteTo p n d d') {data : FileData} :
    WroteTo p n d (d'.setFile n data) := by
  obtain ⟨q, hq⟩ := h.found
  refine ⟨⟨q, found_setFile hq n data⟩, fun q m hm => ?_⟩
  rw [entryAt?_setFile] at hm
  rcases h.others q m hm with rfl | ⟨he, hdata⟩
  · exact .inl rfl
  · by_cases hmn : m = n
    · exact .inl hmn
    · exact .inr ⟨he, by rw [fileData?_setFile, if_neg hmn, hdata]⟩

/-- A file that was made is where its path leads. -/
theorem found_putFile {p : Path} {q : Place} (ht : d.target true p = .ok ⟨q, false⟩)
    (hnone : d.entryAt? q = none) (data : FileData) :
    (d.putFile q data).found true p = .ok (q, .file d.unused) := by
  have hentry := (entryAt?_putFile d q q data).trans (if_pos rfl)
  have ht' := (covers_putFile hnone data).target ht (.inr (by simp [hentry])) fun _ _ => rfl
  exact found_eq_ok_iff.2 ⟨⟨false, ht'⟩, hentry⟩

theorem Opened.wroteTo {p : Path} {mode n : Nat} (h : Opened p mode d (.ok n, d')) :
    WroteTo p n d d' := by
  have hkept := fun m (hm : m ≠ n) => h.fileData?_of_ne hm
  cases h with
  | @emptied q _ hf =>
    refine ⟨⟨q, found_setFile hf n _⟩, fun q m hm => ?_⟩
    by_cases hmn : m = n
    · exact .inl hmn
    · exact .inr ⟨hm, hkept m hmn⟩
  | @made q ht hnone =>
    refine ⟨⟨q, found_putFile ht hnone ⟨.empty, mode⟩⟩, fun r m hm => ?_⟩
    rw [entryAt?_putFile] at hm
    split at hm
    · exact .inl (by simpa using hm.symm)
    · by_cases hmn : m = d.unused
      · exact .inl hmn
      · exact .inr ⟨hm, hkept m hmn⟩

/-- How a file is written, and with what result. -/
inductive Writes (p : Path) (bytes : ByteArray) (d : Disk) : Except Cause Unit × Disk → Prop
  /-- It could not be opened. -/
  | refused (cause : Cause) : Writes p bytes d (.error cause, d.past)
  /-- Some of the bytes got through. -/
  | cut (cause : Cause) {n : Nat} {d' : Disk} :
    WroteTo p n d d' → Writes p bytes d (.error cause, d')
  /-- All bytes got through. -/
  | whole {n : Nat} {d' : Disk} {data : FileData} : WroteTo p n d d' →
    d'.fileData? n = some data → data.bytes = bytes → Writes p bytes d (.ok (), d')

/-- A file that is opened is filled with all the bytes. -/
theorem run_refill (p : Path) (bytes : ByteArray) (d : Disk) :
    (∃ cause, (refill p bytes).run d = (.error cause, d)) ∨
    ∃ n data d', (refill p bytes).run d = (.ok (), d') ∧
      WroteTo p n d d' ∧ d'.fileData? n = some data ∧ data.bytes = bytes := by
  have h := opened_spec p fileMode d
  unfold refill
  rw [run_bind]
  generalize (opened p fileMode).run d = result at h ⊢
  obtain ⟨_ | n, d'⟩ := result
  · cases h
    exact .inl ⟨_, rfl⟩
  · refine .inr ⟨n, _, _, rfl, h.wroteTo.trans, (fileData?_setFile ..).trans (if_pos rfl), rfl⟩

/-- A file that is there and may be written gets the bytes. -/
theorem run_write_of_found (hfaults : d.faults = []) {p : Path} {q : Place} {n : Nat}
    {data : FileData} (hf : d.found true p = .ok (q, .file n)) (hdata : d.fileData? n = some data)
    (hwrite : d.permits data.mode .write = true) (bytes : ByteArray) :
    (write p bytes).run d =
      (.ok (), (d.setFile n { data with bytes := .empty }).setFile n { data with bytes }) := by
  obtain ⟨⟨needs, ht⟩, he⟩ := found_eq_ok_iff.1 hf
  have hopened : (opened p fileMode).run d =
      (.ok n, d.setFile n { data with bytes := .empty }) := by
    unfold opened
    rw [run_bind, run_get]
    dsimp only
    rw [run_bind, ht]
    dsimp only [orFail, run_pure]
    rw [he]
    dsimp only
    rw [hdata, Option.getD_some, hwrite]
    rfl
  unfold write
  rw [run_pouring_of_faults _ hfaults]
  unfold refill fill
  rw [run_bind, hopened]
  dsimp only
  rw [run_modify, fileData?_setFile, if_pos rfl]
  rfl

theorem writes (p : Path) (bytes : ByteArray) (d : Disk) :
    Writes p bytes d ((write p bytes).run d) := by
  have hid : refill p (id bytes) = refill p bytes := rfl
  unfold write
  rcases run_pouring (fun cut => refill p (cut bytes)) d with hr | ⟨cause, hr⟩ | ⟨cause, n, hr⟩
  · rw [hr, hid]
    rcases run_refill p bytes d.past with ⟨cause, hr⟩ | ⟨n, data, d', hr, hwrote, hdata, hbytes⟩
    · rw [hr]
      exact .refused cause
    · rw [hr]
      exact .whole ⟨hwrote.found, hwrote.others⟩ hdata hbytes
  · rw [hr]
    exact .refused cause
  · rw [hr]
    rcases run_refill p (bytes.extract 0 n) d.past with ⟨_, hr⟩ | ⟨n, data, d', hr, hwrote, -⟩
    · rw [hr]
      exact .refused cause
    · rw [hr]
      exact .cut cause ⟨hwrote.found, hwrote.others⟩

/-! ## Moving -/

/-- How an entry is moved, and with what result. -/
inductive Renames (source onto : Path) (d : Disk) : Except Cause Unit × Disk → Prop
  /-- It is not. -/
  | refused (cause : Cause) : Renames source onto d (.error cause, d.past)
  /-- Both paths name one file already. -/
  | idle : Renames source onto d (.ok (), d.past)
  /-- It is moved. -/
  | moved {a : Place} {e : Entry} {t : Target} : d.past.found false source = .ok (a, e) →
    d.past.target false onto = .ok t → a ≠ t.place →
    Renames source onto d (.ok (), d.past.move e a t.place)

theorem renames (source onto : Path) (d : Disk) :
    Renames source onto d ((rename source onto).run d) := by
  unfold rename
  rcases run_step _ d with hr | ⟨cause, hr⟩
  · rw [hr, run_bind, run_get]
    dsimp only
    rw [run_bind]
    cases hf : d.past.found false source with
    | error cause => exact .refused cause
    | ok found =>
      obtain ⟨a, e⟩ := found
      dsimp only [orFail, run_pure]
      rw [run_bind]
      cases ht : d.past.target false onto with
      | error cause => exact .refused cause
      | ok t =>
        dsimp only [orFail, run_pure]
        split
        · exact .idle
        · rename_i hne
          split
          · exact .refused _
          · rw [run_bind]
            cases d.past.mayReplace e t with
            | error cause => exact .refused cause
            | ok u =>
              dsimp only [run_pure]
              split
              · exact .refused _
              · split
                · exact .idle
                · exact .moved hf ht hne
  · rw [hr]
    exact .refused cause

theorem fileData?_rename (source onto : Path) (d : Disk) (n : Nat) :
    ((rename source onto).run d).2.fileData? n = d.fileData? n := by
  have hrenames := renames source onto d
  generalize (rename source onto).run d = result at hrenames ⊢
  cases hrenames <;> rfl

/-- The keys of a table changed where `old` was the key of some of them. -/
theorem lookup_map_of_key {α : Type} (old new q : Place) (hne : old ≠ new) (l : List (Place × α))
    (hnew : l.lookup new = none) :
    (l.map fun x => (if x.1 = old then new else x.1, x.2)).lookup q =
      if q = new then l.lookup old else if q = old then none else l.lookup q := by
  induction l with
  | nil => simp
  | cons x l ih =>
    obtain ⟨p, v⟩ := x
    rw [lookup_of_cons] at hnew
    by_cases hp : new = p
    · simp [if_pos hp] at hnew
    · rw [if_neg hp] at hnew
      rw [List.map_cons, lookup_of_cons, lookup_of_cons, lookup_of_cons, ih hnew]
      by_cases hold : p = old
      · subst hold
        by_cases hq : q = new
        · simp [hq]
        · by_cases hqp : q = p <;> simp [hq, hqp, hne]
      · simp only [if_neg hold]
        by_cases hq : q = new
        · subst hq
          simp [hp, Ne.symm hold]
        · by_cases hqo : q = old
          · subst hqo
            simp [hq, Ne.symm hold]
          · simp [hq, hqo]

/-- Without a directory, a single name is moved. -/
theorem entryAt?_move {e : Entry} (he : kindOf e ≠ .directory) {a b : Place} (hne : a ≠ b)
    (q : Place) : (d.move e a b).entryAt? q =
      if q = b then d.entryAt? a else if q = a then none else d.entryAt? q := by
  have hmap : (d.move e a b).entries =
      (d.drop b).entries.map fun x => (if x.1 = a then b else x.1, x.2) := by
    refine List.map_congr_left fun x _ => ?_
    obtain ⟨p, held⟩ := x
    have halong : goesAlong e a p = (p == a) := by
      cases e with
      | directory mode => exact absurd rfl he
      | file n => rfl
      | link target => rfl
    dsimp only
    rw [halong]
    by_cases hp : p = a
    · subst hp
      simp [moved]
    · simp [hp]
  have hdropped : (d.drop b).entries.lookup b = none := (entryAt?_drop d b b).trans (if_pos rfl)
  have hkept : (d.drop b).entries.lookup a = d.entryAt? a :=
    (entryAt?_drop d b a).trans (if_neg hne)
  unfold entryAt?
  rw [hmap, lookup_map_of_key a b q hne _ hdropped, hkept]
  by_cases hq : q = b
  · rw [if_pos hq, if_pos hq]
    rfl
  · rw [if_neg hq, if_neg hq]
    by_cases hqa : q = a
    · rw [if_pos hqa, if_pos hqa]
    · rw [if_neg hqa, if_neg hqa]
      exact (entryAt?_drop d b q).trans (if_neg hq)

end Formulary.Disk
