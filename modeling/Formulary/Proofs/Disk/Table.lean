import Formulary.Disk.Operations
import Formulary.Proofs.Runs

/-!
# The table of a disk

What places and file numbers hold after a change of the table, as one `if` lemma for each change.
A number that is unused is that of no file (`entryAt?_ne_unused`), so a file that is put at a
place is the file of no other one.

`run_step` says what a step can do that the disk may fail : it runs, or it meets a fault, and
either way only the list of faults is one shorter. A relation between disks that puts up with this
(`Disk.Chained`) is obeyed by a sequence of steps when each of them obeys it.
-/

namespace Formulary.Disk

/-! ## Look-up -/

variable {α β : Type} [BEq α] [LawfulBEq α] [DecidableEq α]

theorem lookup_of_cons (k other : α) (v : β) (l : List (α × β)) :
    ((k, v) :: l).lookup other = if other = k then some v else l.lookup other := by
  by_cases h : other = k
  · rw [h, List.lookup_cons_self, if_pos rfl]
  · rw [List.lookup_cons, beq_false_of_ne h, if_neg h]

theorem lookup_filter_ne (k other : α) (l : List (α × β)) :
    (l.filter (·.1 != k)).lookup other = if other = k then none else l.lookup other := by
  induction l with
  | nil => simp
  | cons x l ih =>
    obtain ⟨n, v⟩ := x
    by_cases hn : n = k
    · rw [List.filter_cons_of_neg (by simp [hn]), ih, lookup_of_cons]
      by_cases ho : other = k
      · rw [if_pos ho, if_pos ho]
      · rw [if_neg ho, if_neg ho, if_neg (fun h => ho (h.trans hn))]
    · rw [List.filter_cons_of_pos (by simpa using hn), lookup_of_cons, lookup_of_cons, ih]
      by_cases ho : other = n
      · rw [if_pos ho, if_pos ho, if_neg (fun h => hn (ho.symm.trans h))]
      · rw [if_neg ho, if_neg ho]

/-- Values that are exchanged key by key. -/
theorem lookup_map_value (g : α → β → β) (k : α) (l : List (α × β)) :
    (l.map fun x => (x.1, g x.1 x.2)).lookup k = (l.lookup k).map (g k) := by
  induction l with
  | nil => rfl
  | cons x l ih =>
    rw [List.map_cons, lookup_of_cons, ih, lookup_of_cons x.1 k x.2 l]
    by_cases h : k = x.1
    · rw [if_pos h, if_pos h, h, Option.map_some]
    · rw [if_neg h, if_neg h]

/-! ## Places within others -/

section

variable {p q : Place}

theorem isWithin_iff : isWithin p q = true ↔ p <+: q :=
  List.isPrefixOf_iff_prefix

theorem isWithin_refl (p : Place) : isWithin p p = true := isWithin_iff.2 List.prefix_rfl

theorem isWithin_of_child {name : String} (h : isWithin (p ++ [name]) q = true) :
    isWithin p q = true :=
  isWithin_iff.2 ((List.prefix_append p [name]).trans (isWithin_iff.1 h))

/-- The place lies below the other. -/
def Below (p q : Place) : Prop := isWithin p q = true ∧ q ≠ p

instance (p q : Place) : Decidable (Below p q) := inferInstanceAs (Decidable (_ ∧ _))

theorem below_iff : Below p q ↔ ∃ names, names ≠ [] ∧ q = p ++ names := by
  constructor
  · rintro ⟨hwithin, hne⟩
    obtain ⟨names, rfl⟩ := isWithin_iff.1 hwithin
    exact ⟨names, by simpa using hne, rfl⟩
  · rintro ⟨names, hne, rfl⟩
    exact ⟨isWithin_iff.2 (List.prefix_append p names), by simpa using hne⟩

theorem below_append {names : List String} (h : names ≠ []) : Below p (p ++ names) :=
  below_iff.2 ⟨names, h, rfl⟩

end

/-! ## Places -/

variable (d : Disk) (p q : Place) (e : Entry) (n m : Nat) (data : FileData)

theorem entryAt?_put : (d.put p e).entryAt? q = if q = p then some e else d.entryAt? q := by
  refine (lookup_of_cons p q e _).trans ?_
  rw [lookup_filter_ne]
  split <;> rfl

theorem entryAt?_drop : (d.drop p).entryAt? q = if q = p then none else d.entryAt? q :=
  lookup_filter_ne p q d.entries

@[simp]
theorem entryAt?_setFile : (d.setFile n data).entryAt? q = d.entryAt? q := rfl

theorem entryAt?_putFile :
    (d.putFile p data).entryAt? q = if q = p then some (.file d.unused) else d.entryAt? q :=
  entryAt?_put d p q _

/-! ## Files -/

theorem fileData?_setFile :
    (d.setFile n data).fileData? m = if m = n then some data else d.fileData? m := by
  refine (lookup_of_cons n m data _).trans ?_
  rw [lookup_filter_ne]
  split <;> rfl

@[simp]
theorem fileData?_put : (d.put p e).fileData? n = d.fileData? n := rfl

@[simp]
theorem fileData?_drop : (d.drop p).fileData? n = d.fileData? n := rfl

theorem fileData?_putFile :
    (d.putFile p data).fileData? m = if m = d.unused then some data else d.fileData? m :=
  fileData?_setFile (d.put p (.file d.unused)) d.unused m data

/-! ## Unused numbers -/

theorem lt_bound_of_mem {n : Nat} {l : List Nat} (h : n ∈ l) :
    n < l.foldr (fun n bound => max (n + 1) bound) 0 := by
  induction l with
  | nil => simp at h
  | cons a l ih =>
    rw [List.foldr_cons]
    rcases List.mem_cons.1 h with rfl | h
    · omega
    · have := ih h
      omega

variable {d p n data}

theorem mem_numbersNamed (h : d.entryAt? p = some (.file n)) : n ∈ d.numbersNamed := by
  obtain ⟨l₁, l₂, hl, -⟩ := List.lookup_eq_some_iff.1 h
  unfold numbersNamed
  rw [hl]
  simp

/-- No place names the file with the unused number. -/
theorem entryAt?_ne_unused : d.entryAt? p ≠ some (.file d.unused) := by
  intro h
  have hlt : d.unused < d.unused := lt_bound_of_mem (List.mem_append_left _ (mem_numbersNamed h))
  omega

/-! ## Steps that the disk may fail -/

/-- The disk with one coming fault less. -/
def past (d : Disk) : Disk := { d with faults := d.faults.tail }

@[simp]
theorem entryAt?_past : d.past.entryAt? p = d.entryAt? p := rfl

@[simp]
theorem fileData?_past : d.past.fileData? n = d.fileData? n := rfl

/-- A step runs on the disk with one coming fault less, or meets that fault. -/
theorem run_step_cases {α : Type} (act : DiskM α) (d : Disk) :
    (step act).run d = act.run d.past ∨
      ∃ f, d.faults[0]? = some (some f) ∧ (step act).run d = (.error f.cause, d.past) := by
  obtain ⟨entries, files, workdir, superuser, faults⟩ := d
  rcases faults with _ | ⟨_ | f, rest⟩
  · exact .inl rfl
  · exact .inl rfl
  · exact .inr ⟨f, rfl, rfl⟩

/-- A step runs on the disk with one coming fault less, or fails and changes nothing else. -/
theorem run_step {α : Type} (act : DiskM α) (d : Disk) :
    (step act).run d = act.run d.past ∨ ∃ cause, (step act).run d = (.error cause, d.past) :=
  (run_step_cases act d).imp_right fun ⟨f, _, hr⟩ => ⟨f.cause, hr⟩

/-- A disk without faults fails no step. -/
theorem run_step_of_faults {α : Type} (act : DiskM α) (h : d.faults = []) :
    (step act).run d = act.run d := by
  obtain ⟨entries, files, workdir, superuser, faults⟩ := d
  subst h
  rfl

theorem meets_step {α : Type} {act : DiskM α} {before : Disk → Prop} {after : α → Disk → Prop}
    {failed : Cause → Disk → Prop} (hpast : ∀ d, before d → before d.past)
    (hfault : ∀ cause d, before d → failed cause d.past) (hact : Meets before act after failed) :
    Meets before (step act) after failed := by
  intro d hd
  rcases run_step act d with hr | ⟨cause, hr⟩
  · rw [hr]
    exact hact d.past (hpast d hd)
  · rw [hr]
    exact hfault cause d hd

/-- A step that puts bytes into a file runs, or meets a fault, which may let the first of them
through. -/
theorem run_pouring (act : (ByteArray → ByteArray) → DiskM Unit) (d : Disk) :
    (pouring act).run d = (act id).run d.past ∨
      (∃ cause, (pouring act).run d = (.error cause, d.past)) ∨
      ∃ cause n, (pouring act).run d = (.error cause, ((act (·.extract 0 n)).run d.past).2) := by
  obtain ⟨entries, files, workdir, superuser, faults⟩ := d
  rcases faults with _ | ⟨_ | f, rest⟩
  · exact .inl rfl
  · exact .inl rfl
  · refine .inr ?_
    unfold pouring
    rw [run_bind, run_get]
    dsimp only
    rw [run_bind, run_modify]
    dsimp only
    rw [run_bind]
    cases f.written with
    | none => exact .inl ⟨f.cause, rfl⟩
    | some n =>
      dsimp only [Option.elim, past, List.tail_cons]
      rcases hr : (act (·.extract 0 n)).run ⟨entries, files, workdir, superuser, rest⟩ with
        ⟨cause | u, d'⟩
      · exact .inr ⟨cause, n, by rw [hr]⟩
      · exact .inr ⟨f.cause, n, by rw [hr]; rfl⟩

theorem run_pouring_of_faults (act : (ByteArray → ByteArray) → DiskM Unit) (h : d.faults = []) :
    (pouring act).run d = (act id).run d := by
  obtain ⟨entries, files, workdir, superuser, faults⟩ := d
  subst h
  rfl

theorem meets_pouring {act : (ByteArray → ByteArray) → DiskM Unit} {before : Disk → Prop}
    {after : Unit → Disk → Prop} {failed : Cause → Disk → Prop}
    (hpast : ∀ d, before d → before d.past) (hfault : ∀ cause d, before d → failed cause d.past)
    (hact : ∀ cut, Meets before (act cut) after failed)
    (hcut : ∀ cause d, after () d ∨ (∃ cause, failed cause d) → failed cause d) :
    Meets before (pouring act) after failed := by
  intro d hd
  rcases run_pouring act d with hr | ⟨cause, hr⟩ | ⟨cause, n, hr⟩
  · rw [hr]
    exact hact id d.past (hpast d hd)
  · rw [hr]
    exact hfault cause d hd
  · rw [hr]
    have h := hact (·.extract 0 n) d.past (hpast d hd)
    refine hcut cause _ ?_
    rcases hrun : (act (·.extract 0 n)).run d.past with ⟨cause' | _, d'⟩
    · rw [hrun] at h
      exact .inr ⟨cause', h⟩
    · rw [hrun] at h
      exact .inl h

/-! ## Relations that steps obey -/

/-- The relation can be chained, and holds when nothing has changed but the faults. -/
structure Chained (r : Disk → Disk → Prop) : Prop where
  refl : ∀ d, r d d
  trans : ∀ d d' d'', r d d' → r d' d'' → r d d''
  past : ∀ d, r d d.past

variable {r : Disk → Disk → Prop} {α β : Type}

theorem Chained.bind (h : Chained r) {x : DiskM α} {g : α → DiskM β} (hx : Obeys r x)
    (hg : ∀ a, Obeys r (g a)) : Obeys r (x >>= g) :=
  Obeys.bind h.trans hx hg

theorem Chained.pure (h : Chained r) (a : α) : Obeys r (Pure.pure a : DiskM α) := h.refl

theorem Chained.throw (h : Chained r) (cause : Cause) :
    Obeys r (MonadExcept.throw cause : DiskM α) := h.refl

theorem Chained.get (h : Chained r) : Obeys r (MonadState.get : DiskM Disk) := h.refl

theorem Chained.orFail (h : Chained r) (result : Except Cause α) : Obeys r (orFail result) := by
  cases result with
  | error cause => exact h.throw cause
  | ok a => exact h.pure a

theorem Chained.attempt {act : DiskM α} (hact : Obeys r act) : Obeys r act.attempt := hact

theorem Chained.step (h : Chained r) {act : DiskM α} (hact : Obeys r act) :
    Obeys r (step act) := by
  intro d
  rcases run_step act d with hr | ⟨cause, hr⟩
  · rw [hr]
    exact h.trans _ _ _ (h.past d) (hact d.past)
  · rw [hr]
    exact h.past d

theorem Chained.pouring (h : Chained r) {act : (ByteArray → ByteArray) → DiskM Unit}
    (hact : ∀ cut, Obeys r (act cut)) : Obeys r (pouring act) := by
  intro d
  rcases run_pouring act d with hr | ⟨cause, hr⟩ | ⟨cause, n, hr⟩
  · rw [hr]
    exact h.trans _ _ _ (h.past d) (hact id d.past)
  · rw [hr]
    exact h.past d
  · rw [hr]
    exact h.trans _ _ _ (h.past d) (hact _ d.past)

theorem Chained.lookUp (h : Chained r) (follow : Bool) (p : Path) : Obeys r (lookUp follow p) :=
  h.step (h.bind h.get fun _ => h.orFail _)

theorem Chained.kind (h : Chained r) (follow : Bool) (p : Path) : Obeys r (Disk.kind follow p) :=
  h.bind (h.lookUp follow p) fun _ => h.pure _

theorem Chained.isKind (h : Chained r) (k : Kind) (p : Path) (d : Disk) :
    r d (Disk.isKind k p d).2 := by
  have hkind := h.kind true p d
  unfold Disk.isKind
  rw [bind_apply]
  rcases hrun : (Disk.kind true p).run d with ⟨_ | _, d'⟩ <;> rw [hrun] at hkind <;> exact hkind

theorem Chained.isThere (h : Chained r) (p : Path) (d : Disk) : r d (Disk.isThere p d).2 := by
  have hkind := h.kind true p d
  unfold Disk.isThere
  rw [bind_apply]
  rcases hrun : (Disk.kind true p).run d with ⟨_ | _, d'⟩ <;> rw [hrun] at hkind <;> exact hkind

/-- Nothing has changed but faults. -/
structure Unchanged (d d' : Disk) : Prop where
  entries : d'.entries = d.entries
  files : d'.files = d.files
  workdir : d'.workdir = d.workdir
  superuser : d'.superuser = d.superuser

theorem Unchanged.symm {d d' : Disk} (h : Unchanged d d') : Unchanged d' d :=
  ⟨h.entries.symm, h.files.symm, h.workdir.symm, h.superuser.symm⟩

theorem chained_unchanged : Chained Unchanged where
  refl _ := ⟨rfl, rfl, rfl, rfl⟩
  trans _ _ _ h h' := ⟨h'.entries.trans h.entries, h'.files.trans h.files,
    h'.workdir.trans h.workdir, h'.superuser.trans h.superuser⟩
  past _ := ⟨rfl, rfl, rfl, rfl⟩

end Formulary.Disk
