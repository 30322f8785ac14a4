import Formulary.Proofs.Disk.Removal

/-!
# Which trees can be removed

On a disk without faults, a tree is removed exactly if the process may read each of its directories
and change the directory of each of its entries (`MayClear`, `removeTree_eq_ok_iff`). Once the tree
is unlocked, to read its directories is enough (`mayClear_unlock`). The place itself is taken away
last, so a removal that succeeds leaves nothing there and one that fails leaves it
(`entryAt?_of_removeTree`).
-/

namespace Formulary.Disk

variable {d d' : Disk} {p q : Place} {gone : Place → Prop}

/-! ## Names and depths -/

theorem exists_mem_of_entryAt? (h : d.entryAt? q ≠ none) : ∃ e, (q, e) ∈ d.entries := by
  obtain ⟨e, he⟩ := Option.ne_none_iff_exists'.1 h
  obtain ⟨before, behind, hentries, -⟩ := List.lookup_eq_some_iff.1 he
  exact ⟨e, by rw [hentries]; simp⟩

theorem entryAt?_of_mem {e : Entry} (h : (q, e) ∈ d.entries) : d.entryAt? q ≠ none := by
  intro hnone
  exact bne_iff_ne.1 (List.lookup_eq_none_iff.1 hnone _ h) rfl

theorem childOf?_eq_some_iff {name : String} : childOf? p q = some name ↔ q = p ++ [name] := by
  unfold childOf?
  rcases List.eq_nil_or_concat q with rfl | ⟨above, last, rfl⟩
  · simp
  · simp only [List.concat_eq_append, List.getLast?_concat, List.dropLast_concat]
    constructor
    · intro h
      split at h
      · rename_i habove
        rw [habove, Option.some.inj h]
      · cases h
    · intro h
      obtain ⟨rfl, hlast⟩ := List.append_inj' h rfl
      rw [if_pos rfl, List.singleton_inj.1 hlast]

/-- The names in a directory are those of what lies right in it. -/
theorem mem_namesIn_iff {name : String} :
    name ∈ d.namesIn p ↔ d.entryAt? (p ++ [name]) ≠ none := by
  unfold namesIn
  rw [List.mem_filterMap]
  constructor
  · rintro ⟨⟨r, e⟩, hmem, hchild⟩
    obtain rfl := childOf?_eq_some_iff.1 hchild
    exact entryAt?_of_mem hmem
  · intro h
    obtain ⟨e, hmem⟩ := exists_mem_of_entryAt? h
    exact ⟨(p ++ [name], e), hmem, childOf?_eq_some_iff.2 rfl⟩

theorem le_foldl_max {n : Nat} (l : List Nat) (start : Nat) (h : n ≤ start ∨ n ∈ l) :
    n ≤ l.foldl max start := by
  induction l generalizing start with
  | nil => exact h.resolve_right (List.not_mem_nil)
  | cons m l ih =>
    refine ih (max start m) ?_
    rcases h with h | h
    · exact .inl (Nat.le_trans h (Nat.le_max_left ..))
    · rcases List.mem_cons.1 h with rfl | h
      · exact .inl (Nat.le_max_right ..)
      · exact .inr h

theorem length_le_depth (h : d.entryAt? q ≠ none) : q.length ≤ d.depth := by
  obtain ⟨e, hmem⟩ := exists_mem_of_entryAt? h
  exact le_foldl_max _ _ (.inr (List.mem_map.2 ⟨(q, e), hmem, rfl⟩))

/-! ## Trees -/

/-- The place is the first one or lies below it, through directories all the way. -/
inductive Reaches (d : Disk) (p : Place) : Place → Prop
  | here : Reaches d p p
  | child {q : Place} {name : String} {mode : Nat} : Reaches d p q →
    d.entryAt? q = some (.directory mode) → d.entryAt? (q ++ [name]) ≠ none →
      Reaches d p (q ++ [name])

theorem Reaches.isWithin (h : d.Reaches p q) : isWithin p q = true := by
  induction h with
  | here => exact isWithin_refl p
  | child _ _ _ ih => exact isWithin_iff.2 ((isWithin_iff.1 ih).trans (List.prefix_append ..))

/-- What can be reached from a place in a directory can be reached from the directory. -/
theorem Reaches.of_child {name : String} {mode : Nat} (hdir : d.entryAt? p = some (.directory mode))
    (hchild : d.entryAt? (p ++ [name]) ≠ none) (h : d.Reaches (p ++ [name]) q) : d.Reaches p q := by
  induction h with
  | here => exact .child .here hdir hchild
  | child _ hdir' hchild' ih => exact .child ih hdir' hchild'

theorem Reaches.eq_or_child (h : d.Reaches p q) :
    q = p ∨ (∃ mode, d.entryAt? p = some (.directory mode)) ∧
      ∃ name, d.entryAt? (p ++ [name]) ≠ none ∧ d.Reaches (p ++ [name]) q := by
  induction h with
  | here => exact .inl rfl
  | @child r name mode h hdir hchild ih =>
    rcases ih with rfl | ⟨htop, first, hfirst, hreach⟩
    · exact .inr ⟨⟨mode, hdir⟩, name, hchild, .here⟩
    · exact .inr ⟨htop, first, hfirst, .child hreach hdir hchild⟩

theorem Reaches.length_le (h : d.Reaches p q) : q.length ≤ p.length ∨ q.length ≤ d.depth := by
  cases h with
  | here => exact .inl (Nat.le_refl _)
  | child _ _ hchild => exact .inr (length_le_depth hchild)

/-- The process may take away the place with all below it : it may read each directory there, and
change the directory of each place there. -/
structure MayClear (d : Disk) (p : Place) : Prop where
  ne_root : p ≠ []
  read : ∀ q, d.Reaches p q → d.directoryPermits q .read = true
  change : ∀ q, d.Reaches p q → d.canChange q = true

theorem MayClear.child {name : String} {mode : Nat} (h : d.MayClear p)
    (hdir : d.entryAt? p = some (.directory mode)) (hchild : d.entryAt? (p ++ [name]) ≠ none) :
    d.MayClear (p ++ [name]) where
  ne_root := by simp
  read q hq := h.read q (hq.of_child hdir hchild)
  change q hq := h.change q (hq.of_child hdir hchild)

/-- What is no directory is all of its tree. -/
theorem MayClear.of_other (hdir : ∀ mode, d.entryAt? p ≠ some (.directory mode)) (hne : p ≠ [])
    (hchange : d.canChange p = true) : d.MayClear p := by
  have honly : ∀ q, d.Reaches p q → q = p := fun q hq =>
    hq.eq_or_child.resolve_right fun ⟨⟨mode, hmode⟩, _⟩ => hdir mode hmode
  refine ⟨hne, fun q hq => ?_, fun q hq => honly q hq ▸ hchange⟩
  rw [honly q hq]
  unfold Disk.directoryPermits
  split
  · rename_i mode hmode
    exact absurd hmode (hdir mode)
  · rfl

theorem MayClear.of_children (hne : p ≠ []) (hread : d.directoryPermits p .read = true)
    (hchange : d.canChange p = true) (hchildren : ∀ name ∈ d.namesIn p, d.MayClear (p ++ [name])) :
    d.MayClear p := by
  refine ⟨hne, fun q hq => ?_, fun q hq => ?_⟩
  · rcases hq.eq_or_child with rfl | ⟨-, name, hname, hreach⟩
    · exact hread
    · exact (hchildren name (mem_namesIn_iff.2 hname)).read q hreach
  · rcases hq.eq_or_child with rfl | ⟨-, name, hname, hreach⟩
    · exact hchange
    · exact (hchildren name (mem_namesIn_iff.2 hname)).change q hreach

/-- No mode holds the superuser back. -/
theorem mayClear_of_superuser (h : d.superuser = true) (hne : p ≠ []) : d.MayClear p := by
  have hall : ∀ q r, d.directoryPermits q r = true := by
    intro q r
    unfold directoryPermits permits
    rw [h]
    split <;> rfl
  refine ⟨hne, fun q _ => hall q .read, fun q _ => ?_⟩
  unfold Disk.canChange
  rw [hall, hall]
  rfl

/-- A directory that the process may not write holds back everything above what lies in it. -/
theorem not_mayClear {name : String} {mode : Nat} (hreach : d.Reaches p q)
    (hdir : d.entryAt? q = some (.directory mode)) (hchild : d.entryAt? (q ++ [name]) ≠ none)
    (hwrite : d.directoryPermits q .write = false) : ¬d.MayClear p := by
  intro h
  have hchange := h.change _ (.child hreach hdir hchild)
  unfold Disk.canChange at hchange
  rw [List.dropLast_concat, hwrite] at hchange
  cases hchange

/-! ## Trees on pruned disks -/

theorem directoryPermits_of_entry (hentry : d'.entryAt? q = d.entryAt? q)
    (hsuperuser : d'.superuser = d.superuser) (r : Right) :
    d'.directoryPermits q r = d.directoryPermits q r := by
  unfold directoryPermits permits
  rw [hentry, hsuperuser]

theorem Pruned.directoryPermits (h : Pruned gone d d') {r : Right}
    (hq : d.directoryPermits q r = true) : d'.directoryPermits q r = true := by
  rcases h.entries q with hsame | ⟨-, hnone⟩
  · rwa [directoryPermits_of_entry hsame h.superuser]
  · unfold Disk.directoryPermits
    rw [hnone]

theorem Pruned.canChange (h : Pruned gone d d') (hq : d.canChange q = true) :
    d'.canChange q = true := by
  unfold Disk.canChange at hq ⊢
  rw [Bool.and_eq_true] at hq ⊢
  exact ⟨h.directoryPermits hq.1, h.directoryPermits hq.2⟩

theorem Pruned.entryAt? (h : Pruned gone d d') {e : Entry} (hq : d'.entryAt? q = some e) :
    d.entryAt? q = some e := by
  rcases h.entries q with hsame | ⟨-, hnone⟩
  · exact hsame.symm.trans hq
  · exact absurd (hq.symm.trans hnone) nofun

theorem Pruned.ne_none (h : Pruned gone d d') (hq : d'.entryAt? q ≠ none) :
    d.entryAt? q ≠ none := by
  obtain ⟨e, he⟩ := Option.ne_none_iff_exists'.1 hq
  rw [h.entryAt? he]
  exact Option.some_ne_none e

theorem Pruned.reaches (h : Pruned gone d d') (hq : d'.Reaches p q) : d.Reaches p q := by
  induction hq with
  | here => exact .here
  | child _ hdir hchild ih => exact .child ih (h.entryAt? hdir) (h.ne_none hchild)

theorem Pruned.mayClear (h : Pruned gone d d') (hp : d.MayClear p) : d'.MayClear p where
  ne_root := hp.ne_root
  read q hq := h.directoryPermits (hp.read q (h.reaches hq))
  change q hq := h.canChange (hp.change q (h.reaches hq))

theorem isWithin_dropLast (h : isWithin p q = true) (hne : q ≠ p) :
    isWithin p q.dropLast = true := by
  obtain ⟨rest, rfl⟩ := isWithin_iff.1 h
  rcases List.eq_nil_or_concat rest with rfl | ⟨above, last, rfl⟩
  · exact absurd (List.append_nil p) hne
  · rw [List.concat_eq_append, ← List.append_assoc, List.dropLast_concat]
    exact isWithin_iff.2 (List.prefix_append ..)

/-- A tree that may be removed from the pruned disk may be removed from the other, if nothing of it
is missing. -/
theorem MayClear.of_pruned {name : String} (h : Pruned gone d d')
    (hkept : ∀ q, isWithin (p ++ [name]) q = true → ¬gone q) (hp : ¬gone p)
    (hclear : d'.MayClear (p ++ [name])) : d.MayClear (p ++ [name]) := by
  have hsame : ∀ q, ¬gone q → d'.entryAt? q = d.entryAt? q :=
    fun q hq => (h.entries q).resolve_right fun hgone => hq hgone.1
  have hreach : ∀ q, d.Reaches (p ++ [name]) q → d'.Reaches (p ++ [name]) q := by
    intro q hq
    induction hq with
    | here => exact .here
    | @child r last mode hr hdir hchild ih =>
      have hlast : isWithin (p ++ [name]) (r ++ [last]) = true :=
        (Reaches.child hr hdir hchild).isWithin
      exact .child ih ((hsame r (hkept r hr.isWithin)).trans hdir)
        (by rwa [hsame _ (hkept _ hlast)])
  refine ⟨hclear.ne_root, fun q hq => ?_, fun q hq => ?_⟩
  · rw [← directoryPermits_of_entry (hsame q (hkept q hq.isWithin)) h.superuser]
    exact hclear.read q (hreach q hq)
  · have habove : ¬gone q.dropLast := by
      by_cases heq : q = p ++ [name]
      · rwa [heq, List.dropLast_concat]
      · exact hkept _ (isWithin_dropLast hq.isWithin heq)
    have hchange := hclear.change q (hreach q hq)
    unfold Disk.canChange at hchange ⊢
    rwa [directoryPermits_of_entry (hsame _ habove) h.superuser,
      directoryPermits_of_entry (hsame _ habove) h.superuser] at hchange

/-! ## Removals on a disk without faults -/

theorem run_removeAt (hfaults : d.faults = []) (p : Place) :
    (removeAt p).run d = if p = [] then (.error .busy, d)
      else if d.canChange p then (.ok (), d.drop p) else (.error .denied, d) := by
  unfold removeAt
  rw [run_step_of_faults _ hfaults, run_bind, run_get]
  dsimp only
  split
  · rfl
  · split <;> rfl

theorem MayClear.run_removeAt (h : d.MayClear p) (hfaults : d.faults = []) :
    (removeAt p).run d = (.ok (), d.drop p) := by
  rw [Disk.run_removeAt hfaults, if_neg h.ne_root, if_pos (h.change p .here)]

/-- Take away what a place holds, with everything below it. -/
def removeEntryAt (depth : Nat) (p : Place) : DiskM Unit := do
  match (← get).entryAt? p with
  | some (.directory _) => removeTreeAt depth p
  | _ => removeAt p

/-- Take away what a directory has under some names. -/
def removeAllIn (depth : Nat) (p : Place) (names : List String) : DiskM PUnit :=
  forIn names ⟨⟩ fun name _ => do
    removeEntryAt depth (p ++ [name])
    pure (.yield ⟨⟩)

/-- A directory goes when all that lies in it is gone. -/
theorem removeTreeAt_succ (depth : Nat) (p : Place) : removeTreeAt (depth + 1) p = (do
    let d ← get
    if !d.directoryPermits p .read then throw .denied
    else
      removeAllIn depth p (d.namesIn p)
      removeAt p) := by
  conv in removeTreeAt _ _ => unfold removeTreeAt
  refine congrArg _ (funext fun d => ?_)
  split
  · rfl
  · refine congrArg (· >>= _) (congrArg _ (funext fun name => funext fun _ => ?_))
    unfold removeEntryAt
    rw [bind_assoc]
    refine bind_congr fun now => ?_
    rcases now.entryAt? (p ++ [name]) with _ | _ | _ | _ <;> rfl

theorem obeys_removeEntryAt (depth : Nat) {p : Place} (hp : ∀ q, isWithin p q = true → gone q) :
    Obeys (Pruned gone) (removeEntryAt depth p) := by
  refine chained_pruned.bind chained_pruned.get fun d => ?_
  split
  · exact obeys_removeTreeAt depth hp
  · exact obeys_removeAt (hp p (isWithin_refl p))

theorem run_removeEntryAt_directory {mode : Nat} (hdir : d.entryAt? p = some (.directory mode))
    (depth : Nat) : (removeEntryAt depth p).run d = (removeTreeAt depth p).run d := by
  unfold removeEntryAt
  rw [run_bind, run_get]
  dsimp only
  rw [hdir]

theorem run_removeEntryAt_other (hdir : ∀ mode, d.entryAt? p ≠ some (.directory mode))
    (depth : Nat) : (removeEntryAt depth p).run d = (removeAt p).run d := by
  unfold removeEntryAt
  rw [run_bind, run_get]
  dsimp only
  split
  · rename_i mode hmode
    exact absurd hmode (hdir mode)
  · rfl

theorem below_of_isWithin {name : String} (h : isWithin (p ++ [name]) q = true) : Below p q := by
  refine ⟨isWithin_of_child h, ?_⟩
  rintro rfl
  have hle := (isWithin_iff.1 h).length_le
  rw [List.length_append] at hle
  exact absurd hle (Nat.not_succ_le_self _)

theorem obeys_round (depth : Nat) (p : Place) (name : String) :
    Obeys (Pruned (Below p)) (removeEntryAt depth (p ++ [name])) :=
  obeys_removeEntryAt depth fun _ hq => below_of_isWithin hq

theorem obeys_removeAllIn (depth : Nat) (p : Place) (names : List String) :
    Obeys (Pruned (Below p)) (removeAllIn depth p names) :=
  Obeys.forIn chained_pruned.refl chained_pruned.trans
    (fun name _ => chained_pruned.bind (obeys_round depth p name) fun _ => chained_pruned.pure _)
    names _

/-- A loop of which every round succeeds on what is left. -/
theorem run_removeAllIn {depth : Nat} {names : List String} (hfaults : d.faults = [])
    (hround : ∀ name ∈ names, ∀ now : Disk, now.faults = [] → Pruned (Below p) d now →
      ∃ d', (removeEntryAt depth (p ++ [name])).run now = (.ok (), d') ∧ d'.faults = []) :
    ∃ now, (removeAllIn depth p names).run d = (.ok ⟨⟩, now) ∧ now.faults = [] ∧
      Pruned (Below p) d now := by
  have hloop : Meets (fun now => now.faults = [] ∧ Pruned (Below p) d now)
      (removeAllIn depth p names) (fun _ now => now.faults = [] ∧ Pruned (Below p) d now)
      (fun _ _ => False) := by
    refine Meets.forIn (fun _ now => now.faults = [] ∧ Pruned (Below p) d now) ?_
    rintro before name behind hnames now ⟨hnow, hpruned⟩
    obtain ⟨d', hrun, hfaults'⟩ := hround name (by simp [hnames]) now hnow hpruned
    have hpruned' := obeys_round depth p name now
    rw [hrun] at hpruned'
    rw [run_bind, hrun]
    exact ⟨rfl, hfaults', hpruned.trans hpruned'⟩
  have h := hloop d ⟨hfaults, Pruned.refl d⟩
  rcases hrun : (removeAllIn depth p names).run d with ⟨e | u, now⟩
  · rw [hrun] at h
    exact h.elim
  · rw [hrun] at h
    exact ⟨now, rfl, h⟩

/-- By induction on the depth. What may be removed from a disk may still be removed when some of it
is gone already. -/
theorem MayClear.run_removeEntryAt {depth : Nat} (h : d.MayClear p) (hfaults : d.faults = [])
    (hdepth : ∀ q, d.Reaches p q → q.length < p.length + depth) :
    ∃ d', (removeEntryAt depth p).run d = (.ok (), d') ∧ d'.faults = [] := by
  induction depth generalizing d p with
  | zero => exact absurd (hdepth p .here) (Nat.lt_irrefl _)
  | succ depth ih =>
    by_cases hdir : ∃ mode, d.entryAt? p = some (.directory mode)
    · obtain ⟨mode, hdir⟩ := hdir
      have hround : ∀ name ∈ d.namesIn p, ∀ now : Disk, now.faults = [] → Pruned (Below p) d now →
          ∃ d', (removeEntryAt depth (p ++ [name])).run now = (.ok (), d') ∧ d'.faults = [] := by
        intro name hname now hnow hpruned
        have hchild := mem_namesIn_iff.1 hname
        refine ih (hpruned.mayClear (h.child hdir hchild)) hnow fun q hq => ?_
        have hlt := hdepth q ((hpruned.reaches hq).of_child hdir hchild)
        rw [List.length_append, List.length_singleton]
        omega
      obtain ⟨now, hrun, hnow, hpruned⟩ := run_removeAllIn hfaults hround
      rw [run_removeEntryAt_directory hdir, removeTreeAt_succ, run_bind, run_get]
      dsimp only
      rw [h.read p .here, Bool.not_true, if_neg Bool.false_ne_true, run_bind, hrun]
      dsimp only
      rw [(hpruned.mayClear h).run_removeAt hnow]
      exact ⟨_, rfl, hnow⟩
    · rw [run_removeEntryAt_other (fun mode hmode => hdir ⟨mode, hmode⟩), h.run_removeAt hfaults]
      exact ⟨_, rfl, hfaults⟩

/-! ## Which removals succeed -/

theorem not_isWithin_child (p : Place) (name : String) : isWithin (p ++ [name]) p ≠ true :=
  fun h => (below_of_isWithin h).2 rfl

theorem not_isWithin_dropLast (p : Place) (name : String) :
    isWithin (p ++ [name]) p.dropLast ≠ true := by
  intro h
  have hle := (isWithin_iff.1 h).length_le
  rw [List.length_append, List.length_singleton, List.length_dropLast] at hle
  omega

theorem eq_of_isWithin_children {name name' : String} (h : isWithin (p ++ [name]) q = true)
    (h' : isWithin (p ++ [name']) q = true) : name = name' := by
  obtain ⟨rest, rfl⟩ := isWithin_iff.1 h
  obtain ⟨rest', hrest⟩ := isWithin_iff.1 h'
  rw [List.append_assoc, List.append_assoc] at hrest
  exact (List.cons.inj (List.append_cancel_left hrest)).1.symm

/-- The names gone through were those of what may be removed. -/
structure GoneThrough (d : Disk) (p : Place) (names : List String) (now : Disk) : Prop where
  faults : now.faults = []
  pruned : Pruned (fun q => ∃ name ∈ names, isWithin (p ++ [name]) q = true) d now
  mayClear : ∀ name ∈ names, d.MayClear (p ++ [name])

theorem GoneThrough.mayClear_of_next {names : List String} {now : Disk}
    (h : GoneThrough d p names now) {name : String} (hclear : now.MayClear (p ++ [name])) :
    d.MayClear (p ++ [name]) := by
  by_cases hname : name ∈ names
  · exact h.mayClear name hname
  · refine hclear.of_pruned h.pruned ?_ ?_
    · rintro q hq ⟨other, hother, hq'⟩
      exact hname (eq_of_isWithin_children hq hq' ▸ hother)
    · rintro ⟨other, -, hp⟩
      exact not_isWithin_child p other hp

theorem goneThrough_removeAllIn {depth : Nat} {names : List String} {now : Disk}
    (hround : ∀ name (now d' : Disk), now.faults = [] →
      (removeEntryAt depth (p ++ [name])).run now = (.ok (), d') →
        now.MayClear (p ++ [name]) ∧ d'.faults = [])
    (hfaults : d.faults = []) (hrun : (removeAllIn depth p names).run d = (.ok ⟨⟩, now)) :
    GoneThrough d p names now := by
  have hloop : Meets (GoneThrough d p []) (removeAllIn depth p names)
      (fun _ => GoneThrough d p names) (fun _ _ => True) := by
    refine Meets.forIn (GoneThrough d p) ?_
    intro before name behind _ now h
    rw [run_bind]
    have hpruned := obeys_removeEntryAt (p := p ++ [name]) depth (fun _ hq => hq) now
    rcases hr : (removeEntryAt depth (p ++ [name])).run now with ⟨e | u, d'⟩
    · trivial
    · rw [hr] at hpruned
      obtain ⟨hclear, hfaults'⟩ := hround name now d' h.faults hr
      refine ⟨rfl, hfaults', ?_, ?_⟩
      · refine (h.pruned.mono fun q hq => ?_).trans (hpruned.mono fun q hq => ?_)
        · obtain ⟨other, hother, hq⟩ := hq
          exact ⟨other, List.mem_append_left _ hother, hq⟩
        · exact ⟨name, by simp, hq⟩
      · intro other hother
        rcases List.mem_append.1 hother with hother | hother
        · exact h.mayClear other hother
        · rw [List.mem_singleton.1 hother]
          exact h.mayClear_of_next hclear
  have hstart : GoneThrough d p [] d := ⟨hfaults, Pruned.refl d, by simp⟩
  have h := hloop d hstart
  rwa [hrun] at h

theorem GoneThrough.canChange {names : List String} {now : Disk} (h : GoneThrough d p names now)
    (hchange : now.canChange p = true) : d.canChange p = true := by
  have hsame : now.entryAt? p.dropLast = d.entryAt? p.dropLast :=
    (h.pruned.entries p.dropLast).resolve_right fun ⟨⟨name, _, hp⟩, _⟩ =>
      not_isWithin_dropLast p name hp
  unfold Disk.canChange at hchange ⊢
  rwa [directoryPermits_of_entry hsame h.pruned.superuser,
    directoryPermits_of_entry hsame h.pruned.superuser] at hchange

theorem run_removeAt_ok (hfaults : d.faults = []) (hrun : (removeAt p).run d = (.ok (), d')) :
    p ≠ [] ∧ d.canChange p = true ∧ d' = d.drop p := by
  rw [run_removeAt hfaults] at hrun
  split at hrun
  · cases hrun
  · rename_i hne
    split at hrun
    · rename_i hchange
      exact ⟨hne, hchange, (Prod.mk.inj hrun).2.symm⟩
    · cases hrun

/-- By induction on the depth. -/
theorem mayClear_of_run_removeEntryAt {depth : Nat} (hfaults : d.faults = [])
    (hrun : (removeEntryAt depth p).run d = (.ok (), d')) : d.MayClear p ∧ d'.faults = [] := by
  induction depth generalizing d d' p with
  | zero =>
    by_cases hdir : ∃ mode, d.entryAt? p = some (.directory mode)
    · obtain ⟨mode, hdir⟩ := hdir
      rw [run_removeEntryAt_directory hdir] at hrun
      cases hrun
    · have hother : ∀ mode, d.entryAt? p ≠ some (.directory mode) :=
        fun mode hmode => hdir ⟨mode, hmode⟩
      rw [run_removeEntryAt_other hother] at hrun
      obtain ⟨hne, hchange, rfl⟩ := run_removeAt_ok hfaults hrun
      exact ⟨.of_other hother hne hchange, hfaults⟩
  | succ depth ih =>
    by_cases hdir : ∃ mode, d.entryAt? p = some (.directory mode)
    · obtain ⟨mode, hdir⟩ := hdir
      rw [run_removeEntryAt_directory hdir, removeTreeAt_succ, run_bind, run_get] at hrun
      dsimp only at hrun
      split at hrun
      · cases hrun
      · rename_i hread
        obtain ⟨_, now, hall, hrun⟩ := exists_of_run_bind hrun
        have hgone := goneThrough_removeAllIn (fun name now d' hnow => ih hnow) hfaults hall
        obtain ⟨hne, hchange, rfl⟩ := run_removeAt_ok hgone.faults hrun
        exact ⟨.of_children hne (by simpa using hread) (hgone.canChange hchange) hgone.mayClear,
          hgone.faults⟩
    · have hother : ∀ mode, d.entryAt? p ≠ some (.directory mode) :=
        fun mode hmode => hdir ⟨mode, hmode⟩
      rw [run_removeEntryAt_other hother] at hrun
      obtain ⟨hne, hchange, rfl⟩ := run_removeAt_ok hfaults hrun
      exact ⟨.of_other hother hne hchange, hfaults⟩

theorem removeEntryAt_eq_ok_iff {depth : Nat} (hfaults : d.faults = [])
    (hdepth : ∀ q, d.Reaches p q → q.length < p.length + depth) :
    ((removeEntryAt depth p).run d).1 = .ok () ↔ d.MayClear p := by
  constructor
  · intro hok
    exact (mayClear_of_run_removeEntryAt hfaults (Prod.ext hok rfl)).1
  · intro hclear
    obtain ⟨d', hrun, -⟩ := hclear.run_removeEntryAt hfaults hdepth
    rw [hrun]

theorem run_lookUp_of_faults (hfaults : d.faults = []) (follow : Bool) (path : Path) :
    (lookUp follow path).run d = (d.found follow path, d) := by
  unfold lookUp
  rw [run_step_of_faults _ hfaults, run_bind, run_get]
  dsimp only
  cases d.found follow path <;> rfl

theorem run_removeTree_of_error {path : Path} {cause : Cause} (hfaults : d.faults = [])
    (hf : d.found false path = .error cause) : (removeTree path).run d = (.error cause, d) := by
  unfold removeTree
  rw [run_bind, run_lookUp_of_faults hfaults, hf]

theorem run_removeTree_of_found {path : Path} {e : Entry} (hfaults : d.faults = [])
    (hf : d.found false path = .ok (q, e)) (he : ∀ n, e ≠ .file n) :
    (removeTree path).run d = (removeEntryAt (d.depth + 1) q).run d := by
  have hentry : d.entryAt? q = some e := (found_eq_ok_iff.1 hf).2
  unfold removeTree
  rw [run_bind, run_lookUp_of_faults hfaults, hf]
  cases e with
  | directory mode =>
    rw [run_removeEntryAt_directory hentry]
    rfl
  | file n => exact absurd rfl (he n)
  | link target =>
    rw [run_removeEntryAt_other (fun mode hmode => by cases hentry.symm.trans hmode)]

/-- A tree goes if and only if it may be taken away. -/
theorem removeTree_eq_ok_iff {path : Path} {e : Entry} (hfaults : d.faults = [])
    (hf : d.found false path = .ok (q, e)) (he : ∀ n, e ≠ .file n) :
    ((removeTree path).run d).1 = .ok () ↔ d.MayClear q := by
  rw [run_removeTree_of_found hfaults hf he]
  refine removeEntryAt_eq_ok_iff hfaults fun r hr => ?_
  rcases hr.length_le with hle | hle <;> omega

/-! ## Unlocked trees -/

/-- The places on the way to one that is reached are reached. -/
theorem Reaches.take (h : d.Reaches p q) {n : Nat} (hn : p.length ≤ n) :
    d.Reaches p (q.take n) := by
  induction h with
  | here =>
    rw [List.take_of_length_le hn]
    exact .here
  | @child r name mode h hdir hchild ih =>
    rcases Nat.lt_or_ge r.length n with hlt | hle
    · rw [List.take_of_length_le (by rw [List.length_append]; exact hlt)]
      exact .child h hdir hchild
    · rw [List.take_append_of_le_length hle]
      exact ih

theorem Reaches.isReachable (h : d.Reaches p q)
    (hread : ∀ r, d.Reaches p r → d.directoryPermits r .read = true) :
    d.isReachable p q = true :=
  List.all_eq_true.2 fun k _ => hread _ (h.take (Nat.le_add_right _ k))

theorem permits_or (d : Disk) (mode : Nat) (r : Right) : d.permits (mode ||| 0o700) r = true := by
  have htest : ∀ i, (0o700 : Nat).testBit i = true → (mode ||| 0o700) / 2 ^ i % 2 = 1 := by
    intro i hi
    have hor := Nat.testBit_or mode 0o700 i
    rw [hi, Bool.or_true, Nat.testBit_eq_decide_div_mod_eq] at hor
    exact of_decide_eq_true hor
  have hbit : (mode ||| 0o700) / r.bit % 2 = 1 := by
    cases r with
    | read => exact htest 8 rfl
    | write => exact htest 7 rfl
    | search => exact htest 6 rfl
  unfold permits
  rw [hbit]
  exact Bool.or_true _

/-- What may be done with a directory may be done once it is unlocked, and one that could be reached
lets the process do everything. -/
theorem directoryPermits_unlock {r : Right} (h : d.directoryPermits q r = true ∨
    isWithin p q = true ∧ d.isReachable p q = true) :
    (d.unlock p).directoryPermits q r = true := by
  unfold directoryPermits at h ⊢
  rw [entryAt?_unlock]
  cases hq : d.entryAt? q with
  | none => rfl
  | some e =>
    rw [Option.map_some]
    cases e with
    | directory mode =>
      rw [hq] at h
      dsimp only [unlocked]
      by_cases hreached : isWithin p q = true ∧ d.isReachable p q = true
      · rw [if_pos hreached]
        exact permits_or _ mode r
      · rw [if_neg hreached]
        exact h.resolve_right hreached
    | file n => rfl
    | link target => rfl

theorem covers_unlock (upper : Place) (d : Disk) : Covers d (d.unlock upper) where
  entries q e he := ⟨d.unlocked upper q e, by rw [entryAt?_unlock, he, Option.map_some],
    bare_unlocked d upper q e⟩
  search _ hq := directoryPermits_unlock (.inl hq)
  workdir := rfl

theorem reaches_of_unlock {upper : Place} (h : (d.unlock upper).Reaches p q) : d.Reaches p q := by
  induction h with
  | here => exact .here
  | @child r name mode _ hdir hchild ih =>
    rw [entryAt?_unlock] at hdir hchild
    obtain ⟨e, he, hunlocked⟩ := Option.map_eq_some_iff.1 hdir
    have hbare : e.bare = .directory 0 := by
      rw [← bare_unlocked d upper r e, hunlocked]
      rfl
    obtain ⟨mode', rfl⟩ := Entry.exists_of_bare_directory hbare
    exact .child ih he (mt Option.map_eq_none_iff.2 hchild)

/-- Once it is unlocked, a tree may be taken away if its directories could be read. -/
theorem mayClear_unlock (hne : p ≠ []) (hchange : d.canChange p = true)
    (hread : ∀ r, d.Reaches p r → d.directoryPermits r .read = true) : (d.unlock p).MayClear p := by
  have hall : ∀ q, d.Reaches p q → ∀ r, (d.unlock p).directoryPermits q r = true :=
    fun q hq _ => directoryPermits_unlock (.inr ⟨hq.isWithin, hq.isReachable hread⟩)
  refine ⟨hne, fun q hq => hall q (reaches_of_unlock hq) .read, fun q hq => ?_⟩
  unfold Disk.canChange at hchange ⊢
  rw [Bool.and_eq_true] at hchange ⊢
  cases reaches_of_unlock hq with
  | here =>
    exact ⟨directoryPermits_unlock (.inl hchange.1), directoryPermits_unlock (.inl hchange.2)⟩
  | child habove _ _ =>
    rw [List.dropLast_concat]
    exact ⟨hall _ habove .write, hall _ habove .search⟩

/-- A tree goes once it is unlocked, if its directories could be read. -/
theorem removeTree_unlockTree_eq_ok {path : Path} {mode : Nat} (hfaults : d.faults = [])
    (hf : ∀ follow, d.found follow path = .ok (q, .directory mode)) (hne : q ≠ [])
    (hchange : d.canChange q = true)
    (hread : ∀ r, d.Reaches q r → d.directoryPermits r .read = true) :
    ((removeTree path).run (d.unlockTree path)).1 = .ok () := by
  have hunlock : d.unlockTree path = d.unlock q := by
    unfold unlockTree
    rw [hf true]
  obtain ⟨e, hfound, -, hbare⟩ := (covers_unlock q d).found (hf false)
  obtain ⟨mode', rfl⟩ := Entry.exists_of_bare_directory hbare
  rw [hunlock]
  exact (removeTree_eq_ok_iff (d := d.unlock q) hfaults hfound nofun).2
    (mayClear_unlock hne hchange hread)

/-! ## What is left of the place itself -/

theorem LeadsTo.unique {path : Path} {r : Place} (hq : d.LeadsTo path q) (hr : d.LeadsTo path r) :
    r = q := by
  obtain ⟨e, he⟩ := hq
  obtain ⟨e', he'⟩ := hr
  exact (Prod.mk.inj (Except.ok.inj (he'.symm.trans he))).1

theorem LeadsTo.ne_none {path : Path} (hq : d.LeadsTo path q) : d.entryAt? q ≠ none := by
  obtain ⟨e, he⟩ := hq
  have hentry : d.entryAt? q = some e := (found_eq_ok_iff.1 he).2
  rw [hentry]
  exact Option.some_ne_none e

theorem entryAt?_of_removeAt {result : Except Cause Unit}
    (hrun : (removeAt p).run d = (result, d')) :
    d'.entryAt? p = if result.isOk then none else d.entryAt? p := by
  unfold removeAt at hrun
  rcases run_step (do
      let d ← get
      if p = [] then throw .busy
      else if d.canChange p then set (d.drop p)
      else throw .denied) d with hr | ⟨_, hr⟩
  · rw [hr, run_bind, run_get] at hrun
    dsimp only at hrun
    split at hrun
    · cases hrun
      rfl
    · split at hrun
      · cases hrun
        exact (entryAt?_drop _ p p).trans (if_pos rfl)
      · cases hrun
        rfl
  · rw [hr] at hrun
    cases hrun
    rfl

theorem Pruned.entryAt?_self (h : Pruned (Below p) d d') : d'.entryAt? p = d.entryAt? p :=
  (h.entries p).resolve_right fun hgone => hgone.1.2 rfl

/-- A directory is taken away last. -/
theorem entryAt?_of_removeTreeAt {depth : Nat} {result : Except Cause Unit}
    (hrun : (removeTreeAt depth p).run d = (result, d')) :
    d'.entryAt? p = if result.isOk then none else d.entryAt? p := by
  cases depth with
  | zero =>
    cases hrun
    rfl
  | succ depth =>
    rw [removeTreeAt_succ, run_bind, run_get] at hrun
    dsimp only at hrun
    split at hrun
    · cases hrun
      rfl
    · rw [run_bind] at hrun
      have hpruned := obeys_removeAllIn depth p (d.namesIn p) d
      rcases hall : (removeAllIn depth p (d.namesIn p)).run d with ⟨cause | u, now⟩
      · rw [hall] at hrun hpruned
        cases hrun
        exact hpruned.entryAt?_self
      · rw [hall] at hrun hpruned
        rw [entryAt?_of_removeAt hrun, hpruned.entryAt?_self]

/-- A removal that succeeds takes away the place that its path leads to, and one that fails leaves
it. -/
theorem entryAt?_of_removeTree {path : Path} {result : Except Cause Unit}
    (hrun : (removeTree path).run d = (result, d')) :
    (result.isOk = true → ∃ q, d.LeadsTo path q) ∧
      ∀ q, d.LeadsTo path q → d'.entryAt? q = if result.isOk then none else d.entryAt? q := by
  unfold removeTree at hrun
  rw [run_bind] at hrun
  have hlook := chained_unchanged.lookUp false path d
  rcases hr : (lookUp false path).run d with ⟨cause | ⟨q, e⟩, now⟩
  · rw [hr] at hrun hlook
    cases hrun
    exact ⟨nofun, fun q _ => congrArg (List.lookup q) hlook.entries⟩
  · rw [hr] at hrun
    obtain ⟨rfl, hf⟩ := run_lookUp hr
    have hq : d.LeadsTo path q := leadsTo_of_found (found_of_past hf)
    refine ⟨fun _ => ⟨q, hq⟩, fun r hleads => ?_⟩
    obtain rfl := hq.unique hleads
    cases e with
    | directory mode =>
      dsimp only at hrun
      rw [run_bind, run_get] at hrun
      exact entryAt?_of_removeTreeAt (d := d.past) hrun
    | file n =>
      cases hrun
      rfl
    | link target =>
      exact entryAt?_of_removeAt (d := d.past) hrun

end Formulary.Disk
