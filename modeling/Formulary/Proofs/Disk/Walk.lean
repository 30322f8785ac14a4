import Formulary.Proofs.Disk.Table

/-!
# Where paths lead on a fuller disk

A disk covers another when it holds all that the other holds, and lets the process search wherever
the other does (`Disk.Covers`). What a path leads to on the one disk it leads to on the other
(`Covers.found`) : a walk that comes to an entry has met only entries.
-/

namespace Formulary

/-- An entry, whatever its mode may be. -/
def Entry.bare : Entry → Entry
  | .directory _ => .directory 0
  | .file n => .file n
  | .link target => .link target

theorem Entry.eq_of_bare_file {e : Entry} {n : Nat} (h : e.bare = .file n) : e = .file n := by
  cases e <;> simp_all [Entry.bare]

theorem Entry.eq_of_bare_link {e : Entry} {target : String} (h : e.bare = .link target) :
    e = .link target := by
  cases e <;> simp_all [Entry.bare]

theorem Entry.exists_of_bare_directory {e : Entry} (h : e.bare = .directory 0) :
    ∃ mode, e = .directory mode := by
  cases e <;> simp_all [Entry.bare]

namespace Disk

/-! ## Walks -/

/-- The process may look up the name in the directory. -/
structure Opens (d : Disk) (dir : Place) (name : String) : Prop where
  search : d.directoryPermits dir .search = true
  ne_up : name ≠ ".."
  length : Text.byteLength name ≤ maxName

/-- How a walk comes to its end, with at most a number of links on its way. -/
inductive Walks (d : Disk) (follow : Bool) : Nat → Bool → Place → List String → Target → Prop
  | here {links : Nat} {needs : Bool} {dir : Place} : Walks d follow links needs dir [] ⟨dir, needs⟩
  | up {links : Nat} {needs : Bool} {dir : Place} {rest : List String} {t : Target} :
    d.directoryPermits dir .search = true → Walks d follow links needs dir.dropLast rest t →
      Walks d follow links needs dir (".." :: rest) t
  | into {links : Nat} {needs : Bool} {dir : Place} {s : String} {rest : List String} {t : Target}
    {mode : Nat} : d.Opens dir s → d.entryAt? (dir ++ [s]) = some (.directory mode) →
      Walks d follow links needs (dir ++ [s]) rest t → Walks d follow links needs dir (s :: rest) t
  | missing {links : Nat} {needs : Bool} {dir : Place} {s : String} :
    d.Opens dir s → d.entryAt? (dir ++ [s]) = none →
      Walks d follow links needs dir [s] ⟨dir ++ [s], needs⟩
  | file {links : Nat} {needs : Bool} {dir : Place} {s : String} {n : Nat} :
    d.Opens dir s → d.entryAt? (dir ++ [s]) = some (.file n) →
      Walks d follow links needs dir [s] ⟨dir ++ [s], needs⟩
  | stop {links : Nat} {dir : Place} {s target : String} :
    d.Opens dir s → d.entryAt? (dir ++ [s]) = some (.link target) → follow = false →
      Walks d follow links false dir [s] ⟨dir ++ [s], false⟩
  | link {links : Nat} {needs : Bool} {dir : Place} {s target : String} {rest : List String}
    {t : Target} : d.Opens dir s → d.entryAt? (dir ++ [s]) = some (.link target) →
      (rest = [] → follow = false → needs = true) → target ≠ "" →
      Walks d follow links (needs || (rest.isEmpty && endsInDirectory target))
        (if Text.startsWith target "/" then [] else dir) (segmentsOf target ++ rest) t →
      Walks d follow (links + 1) needs dir (s :: rest) t

variable {d : Disk} {follow : Bool}

/-- How a walk goes on behind a link. -/
def behind (d : Disk) (follow : Bool) : Nat → Bool → Place → List String → Except Cause Target
  | 0 => fun _ _ _ => .error .loop
  | links + 1 => walk d follow links

theorem walk_eq (d : Disk) (follow : Bool) (links : Nat) :
    d.walk follow links = d.walkWith follow (d.behind follow links) := by
  cases links <;> rfl

theorem Opens.walk_cons {dir : Place} {s : String} (h : d.Opens dir s) (links : Nat)
    (needs : Bool) (rest : List String) :
    d.walk follow links needs dir (s :: rest) = match d.entryAt? (dir ++ [s]) with
      | none => if rest = [] then .ok ⟨dir ++ [s], needs⟩ else .error .notFound
      | some (.directory _) => d.walk follow links needs (dir ++ [s]) rest
      | some (.file _) => if rest = [] then .ok ⟨dir ++ [s], needs⟩ else .error .notDirectory
      | some (.link target) =>
        if rest = [] ∧ !follow ∧ !needs then .ok ⟨dir ++ [s], needs⟩
        else if target = "" then .error .notFound
        else d.behind follow links (needs || (rest.isEmpty && endsInDirectory target))
          (if Text.startsWith target "/" then [] else dir) (segmentsOf target ++ rest) := by
  rw [walk_eq]
  rcases hentry : d.entryAt? (dir ++ [s]) with _ | _ | _ | _ <;>
    simp only [walkWith, hentry, h.search, Bool.not_true, Bool.false_eq_true, if_false,
      if_neg h.ne_up, if_neg (Nat.not_lt.2 h.length)]

theorem walk_cons_cases (follow : Bool) (links : Nat) (needs : Bool) (dir : Place) (s : String)
    (rest : List String) :
    (∃ cause, d.walk follow links needs dir (s :: rest) = .error cause) ∨
    (s = ".." ∧ d.directoryPermits dir .search = true ∧
      d.walk follow links needs dir (s :: rest) = d.walk follow links needs dir.dropLast rest) ∨
    d.Opens dir s := by
  rw [walk_eq]
  conv in d.walkWith follow _ needs dir (s :: rest) => unfold walkWith
  conv in d.walkWith follow _ needs dir (s :: rest) => unfold walkWith
  split
  · exact .inl ⟨_, rfl⟩
  · rename_i hsearch
    split
    · rename_i hup
      exact .inr (.inl ⟨hup, by simpa using hsearch, rfl⟩)
    · rename_i hup
      split
      · exact .inl ⟨_, rfl⟩
      · rename_i hlength
        exact .inr (.inr ⟨by simpa using hsearch, hup, by omega⟩)

/-- One leg, by induction on the segments, when those behind links are walks already. -/
theorem walks_of_walk_of_behind {links : Nat} {needs : Bool} {dir : Place}
    {segments : List String} {t : Target}
    (hbehind : ∀ needs dir segments, d.behind follow links needs dir segments = .ok t →
      ∃ links', links = links' + 1 ∧ Walks d follow links' needs dir segments t)
    (hw : d.walk follow links needs dir segments = .ok t) :
    Walks d follow links needs dir segments t := by
  induction segments generalizing dir with
  | nil =>
    rw [walk_eq] at hw
    obtain rfl := Except.ok.inj hw
    exact .here
  | cons s rest ih =>
    rcases walk_cons_cases follow links needs dir s rest with ⟨cause, hc⟩ | ⟨rfl, hs, hc⟩ | h
    · exact absurd (hw.symm.trans hc) (by simp)
    · exact .up hs (ih (hc ▸ hw))
    · rw [h.walk_cons] at hw
      split at hw
      · rename_i hnext
        split at hw
        · rename_i hlast
          subst hlast
          obtain rfl := Except.ok.inj hw
          exact .missing h hnext
        · exact absurd hw (by simp)
      · rename_i mode hnext
        exact .into h hnext (ih hw)
      · rename_i n hnext
        split at hw
        · rename_i hlast
          subst hlast
          obtain rfl := Except.ok.inj hw
          exact .file h hnext
        · exact absurd hw (by simp)
      · rename_i target hnext
        split at hw
        · rename_i hlast
          obtain rfl := Except.ok.inj hw
          obtain ⟨rfl, hfollow, hneeds⟩ := hlast
          simp only [Bool.not_eq_eq_eq_not, Bool.not_true] at hfollow hneeds
          exact hneeds ▸ .stop h hnext hfollow
        · rename_i hlast
          split at hw
          · exact absurd hw (by simp)
          · rename_i htarget
            obtain ⟨links', rfl, hwalks⟩ := hbehind _ _ _ hw
            exact .link h hnext (fun hrest hfollow => by simpa [hrest, hfollow] using hlast)
              htarget hwalks

/-- By induction on the links that may be met. -/
theorem walk_eq_ok_iff {links : Nat} {needs : Bool} {dir : Place} {segments : List String}
    {t : Target} : d.walk follow links needs dir segments = .ok t ↔
      Walks d follow links needs dir segments t := by
  constructor
  · intro hw
    induction links generalizing needs dir segments with
    | zero => exact walks_of_walk_of_behind (fun _ _ _ he => absurd he (by simp [behind])) hw
    | succ links ih =>
      exact walks_of_walk_of_behind (fun _ _ _ hw => ⟨links, rfl, ih hw⟩) hw
  · intro hw
    induction hw with
    | here => rw [walk_eq, walkWith]
    | up hs _ ih =>
      rw [walk_eq] at ih ⊢
      simpa [walkWith, hs] using ih
    | into h hnext _ ih => simpa only [h.walk_cons, hnext] using ih
    | missing h hnext => simp only [h.walk_cons, hnext, if_true]
    | file h hnext => simp only [h.walk_cons, hnext, if_true]
    | stop h hnext hfollow => simp [h.walk_cons, hnext, hfollow]
    | link h hnext hstop htarget _ ih =>
      simp only [h.walk_cons, hnext, if_neg htarget]
      rw [if_neg]
      · exact ih
      · rintro ⟨hrest, hfollow, hneeds⟩
        simp [hstop hrest (by simpa using hfollow)] at hneeds

/-! ## Fuller disks -/

/-- The second disk holds whatever the first holds, modes apart, and lets the process search
wherever the first does. -/
structure Covers (d d' : Disk) : Prop where
  entries : ∀ q e, d.entryAt? q = some e → ∃ e', d'.entryAt? q = some e' ∧ e'.bare = e.bare
  search : ∀ q, d.directoryPermits q .search = true → d'.directoryPermits q .search = true
  workdir : d'.workdir = d.workdir

variable {d' : Disk}

theorem Covers.of_entries (hentries : d'.entries = d.entries) (hworkdir : d'.workdir = d.workdir)
    (hsuperuser : d'.superuser = d.superuser) : Covers d d' := by
  have hentry : ∀ q, d'.entryAt? q = d.entryAt? q := fun q => congrArg (List.lookup q) hentries
  refine ⟨fun q e he => ⟨e, (hentry q).trans he, rfl⟩, fun q hq => ?_, hworkdir⟩
  unfold directoryPermits permits at hq ⊢
  rwa [hentry, hsuperuser]

theorem Covers.directory (h : Covers d d') {q : Place} {mode : Nat}
    (hq : d.entryAt? q = some (.directory mode)) :
    ∃ mode', d'.entryAt? q = some (.directory mode') := by
  obtain ⟨e', he', hbare⟩ := h.entries q _ hq
  obtain ⟨mode', rfl⟩ := Entry.exists_of_bare_directory hbare
  exact ⟨mode', he'⟩

theorem Covers.file (h : Covers d d') {q : Place} {n : Nat}
    (hq : d.entryAt? q = some (.file n)) : d'.entryAt? q = some (.file n) := by
  obtain ⟨e', he', hbare⟩ := h.entries q _ hq
  rwa [Entry.eq_of_bare_file hbare] at he'

theorem Covers.link (h : Covers d d') {q : Place} {target : String}
    (hq : d.entryAt? q = some (.link target)) : d'.entryAt? q = some (.link target) := by
  obtain ⟨e', he', hbare⟩ := h.entries q _ hq
  rwa [Entry.eq_of_bare_link hbare] at he'

/-- The place holds something, or on the second disk no link. -/
def Steady (d d' : Disk) (q : Place) : Prop :=
  (d.entryAt? q).isSome ∨ ∀ target, d'.entryAt? q ≠ some (.link target)

theorem Covers.opens (h : Covers d d') {dir : Place} {s : String} (hs : d.Opens dir s) :
    d'.Opens dir s :=
  ⟨h.search dir hs.search, hs.ne_up, hs.length⟩

/-- A walk is one on the fuller disk too, by induction on its course. -/
theorem Covers.walks (h : Covers d d') {links : Nat} {needs : Bool} {dir : Place}
    {segments : List String} {t : Target} (hw : Walks d follow links needs dir segments t)
    (ht : Steady d d' t.place) : Walks d' follow links needs dir segments t := by
  induction hw with
  | here => exact .here
  | up hs _ ih => exact .up (h.search _ hs) (ih ht)
  | into hs hnext _ ih =>
    obtain ⟨mode', hnext'⟩ := h.directory hnext
    exact .into (h.opens hs) hnext' (ih ht)
  | @missing links needs dir s hs hnext =>
    -- it ends where there is nothing yet
    rcases ht with ht | ht
    · simp [hnext] at ht
    · cases hnext' : d'.entryAt? (dir ++ [s]) with
      | none => exact .missing (h.opens hs) hnext'
      | some e =>
        cases e with
        | directory mode => exact .into (h.opens hs) hnext' .here
        | file n => exact .file (h.opens hs) hnext'
        | link target => exact absurd hnext' (ht target)
  | file hs hnext => exact .file (h.opens hs) (h.file hnext)
  | stop hs hnext hfollow => exact .stop (h.opens hs) (h.link hnext) hfollow
  | link hs hnext hstop htarget _ ih =>
    exact .link (h.opens hs) (h.link hnext) hstop htarget (ih ht)

/-! ## Whole paths -/

/-- The path can be given to the file system at all. -/
structure Usable (p : Path) : Prop where
  text_ne : p.text ≠ ""
  zero_not_mem : '\x00' ∉ p.text.toList
  length : Text.byteLength p.text < 4096

/-- The segments from the root to what a path names. -/
def segmentsTo (d : Disk) (p : Path) : List String := segmentsOf (d.workdir.join p.text).text

theorem target_eq_ok_iff {follow : Bool} {p : Path} {t : Target} :
    d.target follow p = .ok t ↔ Usable p ∧
      d.walk follow maxLinks (endsInDirectory p.text) [] (d.segmentsTo p) = .ok t ∧
      ∀ n, d.entryAt? t.place = some (.file n) → t.needsDirectory = false := by
  unfold Disk.target
  constructor
  · intro hw
    split at hw
    · exact absurd hw (by simp)
    · split at hw
      · exact absurd hw (by simp)
      · split at hw
        · exact absurd hw (by simp)
        · rename_i hempty hzero hlength
          refine ⟨⟨hempty, by simpa using hzero, by omega⟩, ?_⟩
          dsimp only at hw
          unfold segmentsTo
          cases hwalk : d.walk follow maxLinks (endsInDirectory p.text) []
              (segmentsOf (d.workdir.join p.text).text) with
          | error cause =>
            rw [hwalk] at hw
            exact absurd hw (by simp)
          | ok u =>
            rw [hwalk] at hw
            dsimp only at hw
            split at hw
            · rename_i n hn
              split at hw
              · exact absurd hw (by simp)
              · rename_i hneeds
                obtain rfl := Except.ok.inj hw
                exact ⟨rfl, fun _ _ => by simpa using hneeds⟩
            · rename_i hn
              obtain rfl := Except.ok.inj hw
              exact ⟨rfl, fun n hfile => absurd hfile (hn n)⟩
  · rintro ⟨husable, hwalk, hfile⟩
    unfold segmentsTo at hwalk
    rw [if_neg husable.text_ne, if_neg (by simpa using husable.zero_not_mem),
      if_neg (by have := husable.length; omega)]
    dsimp only
    rw [hwalk]
    dsimp only
    split
    · rename_i n hn
      rw [hfile n hn, if_neg (by decide)]
    · rfl

theorem Covers.target (h : Covers d d') {follow : Bool} {p : Path} {t : Target}
    (hw : d.target follow p = .ok t) (ht : Steady d d' t.place)
    (hfile : ∀ n, d'.entryAt? t.place = some (.file n) → t.needsDirectory = false) :
    d'.target follow p = .ok t := by
  obtain ⟨husable, hwalk, -⟩ := target_eq_ok_iff.1 hw
  refine target_eq_ok_iff.2 ⟨husable, ?_, hfile⟩
  unfold segmentsTo at hwalk ⊢
  rw [h.workdir]
  exact walk_eq_ok_iff.2 (h.walks (walk_eq_ok_iff.1 hwalk) ht)

theorem found_eq_ok_iff {follow : Bool} {p : Path} {q : Place} {e : Entry} :
    d.found follow p = .ok (q, e) ↔
      (∃ needs, d.target follow p = .ok ⟨q, needs⟩) ∧ d.entryAt? q = some e := by
  unfold Disk.found
  constructor
  · intro hf
    cases ht : d.target follow p with
    | error cause =>
      rw [ht] at hf
      exact absurd hf (by simp)
    | ok t =>
      simp only [ht] at hf
      cases he : d.entryAt? t.place with
      | none => simp [he] at hf
      | some e' =>
        simp only [he, Except.ok.injEq, Prod.mk.injEq] at hf
        obtain ⟨rfl, rfl⟩ := hf
        exact ⟨⟨t.needsDirectory, rfl⟩, he⟩
  · rintro ⟨⟨needs, ht⟩, he⟩
    simp only [ht, he]

/-- What a path leads to, it leads to on a disk that covers the first. -/
theorem Covers.found (h : Covers d d') {follow : Bool} {p : Path} {q : Place} {e : Entry}
    (hf : d.found follow p = .ok (q, e)) :
    ∃ e', d'.found follow p = .ok (q, e') ∧ d'.entryAt? q = some e' ∧ e'.bare = e.bare := by
  obtain ⟨⟨needs, ht⟩, he⟩ := found_eq_ok_iff.1 hf
  obtain ⟨e', he', hbare⟩ := h.entries q e he
  refine ⟨e', found_eq_ok_iff.2 ⟨⟨needs, h.target ht (.inl (by simp [he])) ?_⟩, he'⟩, he', hbare⟩
  intro n hn
  rw [he', Option.some.injEq] at hn
  subst hn
  exact (target_eq_ok_iff.1 ht).2.2 n (by rw [he, Entry.eq_of_bare_file hbare.symm])

/-- What a path leads to depends on neither files nor faults. -/
theorem found_of_entries (hentries : d'.entries = d.entries) (hworkdir : d'.workdir = d.workdir)
    (hsuperuser : d'.superuser = d.superuser) {follow : Bool} {p : Path} {q : Place} {e : Entry}
    (hf : d.found follow p = .ok (q, e)) : d'.found follow p = .ok (q, e) := by
  obtain ⟨e', hf', he', -⟩ := (Covers.of_entries hentries hworkdir hsuperuser).found hf
  have he : d'.entryAt? q = some e :=
    (congrArg (List.lookup q) hentries).trans (found_eq_ok_iff.1 hf).2
  obtain rfl := Option.some.inj (he'.symm.trans he)
  exact hf'

theorem Unchanged.found (h : Unchanged d d') {follow : Bool} {p : Path} {q : Place} {e : Entry}
    (hf : d.found follow p = .ok (q, e)) : d'.found follow p = .ok (q, e) :=
  found_of_entries h.entries h.workdir h.superuser hf

theorem found_setFile {p : Path} {q : Place} {e : Entry} (hf : d.found follow p = .ok (q, e))
    (n : Nat) (data : FileData) : (d.setFile n data).found follow p = .ok (q, e) := by
  have hentries : (d.setFile n data).entries = d.entries := rfl
  have hworkdir : (d.setFile n data).workdir = d.workdir := rfl
  have hsuperuser : (d.setFile n data).superuser = d.superuser := rfl
  exact found_of_entries hentries hworkdir hsuperuser hf

theorem target_of_past {p : Path} {t : Target} (ht : d.past.target follow p = .ok t) :
    d.target follow p = .ok t := by
  have hentry : d.past.entryAt? t.place = d.entryAt? t.place := rfl
  have hsteady : Steady d.past d t.place := by
    unfold Steady
    rw [hentry]
    cases d.entryAt? t.place with
    | none => exact .inr nofun
    | some e => exact .inl rfl
  have hcovers : Covers d.past d := .of_entries rfl rfl rfl
  exact hcovers.target ht hsteady (target_eq_ok_iff.1 ht).2.2

theorem found_of_past {p : Path} {q : Place} {e : Entry}
    (hf : d.past.found follow p = .ok (q, e)) : d.found follow p = .ok (q, e) :=
  (chained_unchanged.past d).symm.found hf

/-- A disk with one more entry covers the one without, unless that entry is a directory that may
not be searched. -/
theorem covers_of_added {q : Place} {e : Entry} (hnone : d.entryAt? q = none)
    (hentry : ∀ r, d'.entryAt? r = if r = q then some e else d.entryAt? r)
    (hsearch : d'.directoryPermits q .search = true) (hworkdir : d'.workdir = d.workdir)
    (hsuperuser : d'.superuser = d.superuser) : Covers d d' := by
  refine ⟨fun r held hr => ⟨held, ?_, rfl⟩, fun r hr => ?_, hworkdir⟩
  · rw [hentry, if_neg, hr]
    rintro rfl
    exact absurd (hnone.symm.trans hr) (by simp)
  · by_cases hrq : r = q
    · exact hrq ▸ hsearch
    · unfold directoryPermits permits at hr ⊢
      rwa [hentry, if_neg hrq, hsuperuser]

theorem covers_putFile {q : Place} (hnone : d.entryAt? q = none) (data : FileData) :
    Covers d (d.putFile q data) := by
  have hentry := fun r => entryAt?_putFile d q r data
  refine covers_of_added hnone hentry ?_ rfl rfl
  unfold directoryPermits
  rw [hentry, if_pos rfl]

/-- Likewise with one more directory. -/
theorem covers_put_directory {q : Place} (hnone : d.entryAt? q = none) {mode : Nat}
    (hmode : d.permits mode .search = true) : Covers d (d.put q (.directory mode)) := by
  have hentry := fun r => entryAt?_put d q r (.directory mode)
  refine covers_of_added hnone hentry ?_ rfl rfl
  unfold directoryPermits
  rw [hentry, if_pos rfl]
  exact hmode

end Disk

end Formulary
