import Formulary.Proofs.Cache.Retrieve
import Formulary.Proofs.Checksum

/-!
# Keeping a payload where nothing fails

In a directory that can be used, on a disk without faults (`Ready`), the entry of a checksum is the
place of its key (`Ready.target_entry`), and its draft is another one (`Ready.target_draft`). To
keep a payload there, where neither has an entry yet, adds the one entry with all bytes of the
payload and nothing else (`Ready.run_store`). A directory that is not there yet may be one that the
first payload makes (`Unmade`).
-/

namespace Formulary

namespace Checksum

/-! ## Keys as names -/

/-- The name under which a payload is written first. -/
def draftKey (c : Checksum) : String := c.cacheKey ++ "." ++ "tmp"

theorem byteLength_cacheKey (c : Checksum) : Text.byteLength c.cacheKey ≤ 135 := by
  rw [Text.byteLength_of_ascii fun d hd => (toNat_of_isKeyChar (c.isKeyChar_of_mem hd)).2]
  exact c.length_cacheKey

theorem byteLength_draftKey (c : Checksum) : Text.byteLength c.draftKey ≤ 139 := by
  have hkey := c.byteLength_cacheKey
  have hdot : Text.byteLength "." = 1 := Text.byteLength_of_ascii (by simp)
  have htmp : Text.byteLength "tmp" = 3 := Text.byteLength_of_ascii (by simp)
  unfold draftKey
  rw [Text.byteLength_append, Text.byteLength_append]
  omega

theorem not_mem_cacheKey (c : Checksum) {d : Char} (h : d.toNat < 48) : d ∉ c.cacheKey.toList := by
  intro hd
  have := toNat_of_isKeyChar (c.isKeyChar_of_mem hd)
  omega

theorem plain_cacheKey (c : Checksum) : Disk.Plain c.cacheKey := by
  have hne : c.digits ≠ [] := by
    rw [← List.length_pos_iff, c.length_digits]
    cases c.algorithm <;> decide
  refine ⟨c.not_mem_cacheKey (by decide), c.not_mem_cacheKey (by decide),
    ⟨c.algorithm.name.toList ++ '_' :: c.digits.dropLast, c.digits.getLast hne, ?_, ?_⟩, ?_⟩
  · rw [toList_cacheKey, List.append_assoc, List.cons_append, List.dropLast_concat_getLast]
  · intro hdot
    have := toNat_of_isLowerHex (c.isLowerHex_of_mem (List.getLast_mem hne))
    rw [hdot] at this
    exact absurd this (by decide)
  · exact c.byteLength_cacheKey.trans (by decide)

theorem plain_draftKey (c : Checksum) : Disk.Plain c.draftKey := by
  have hlist : c.draftKey.toList = c.cacheKey.toList ++ ['.', 't', 'm', 'p'] := by
    unfold draftKey
    rw [String.toList_append, String.toList_append, List.append_assoc]
    rfl
  refine ⟨?_, ?_, ⟨c.cacheKey.toList ++ ['.', 't', 'm'], 'p', ?_, by decide⟩, ?_⟩
  · rw [hlist]
    simpa using c.not_mem_cacheKey (d := '/') (by decide)
  · rw [hlist]
    simpa using c.not_mem_cacheKey (d := '\x00') (by decide)
  · rw [hlist, List.append_assoc]
    rfl
  · exact c.byteLength_draftKey.trans (by decide)

/-- No draft has the name of an entry. -/
theorem draftKey_ne_cacheKey (c c' : Checksum) : c.draftKey ≠ c'.cacheKey := by
  intro h
  have hdot : '.' ∈ c.draftKey.toList := by
    unfold draftKey
    rw [String.toList_append, String.toList_append]
    simp
  exact c'.not_mem_cacheKey (by decide) (h ▸ hdot)

end Checksum

namespace Cache

/-! ## A directory that can be used -/

/-- The path leads to a directory in which the process may look up, add and remove names, with
room for those of entries, and no fault is coming. -/
structure Ready (directory : Path) (q : Place) (mode : Nat) (d : Disk) : Prop where
  faults : d.faults = []
  leads : d.found true directory = .ok (q, .directory mode)
  search : d.permits mode .search = true
  write : d.permits mode .write = true
  room : Text.byteLength directory.text + 140 < 4096

variable {directory : Path} {q : Place} {mode : Nat} {d : Disk} {c : Checksum}

theorem Ready.entryAt? (h : Ready directory q mode d) : d.entryAt? q = some (.directory mode) :=
  (Disk.found_eq_ok_iff.1 h.leads).2

theorem Ready.text_ne (h : Ready directory q mode d) : directory.text ≠ "" := by
  obtain ⟨⟨_, ht⟩, _⟩ := Disk.found_eq_ok_iff.1 h.leads
  exact (Disk.target_eq_ok_iff.1 ht).1.text_ne

theorem Ready.directoryPermits (h : Ready directory q mode d) :
    d.directoryPermits q .search = true ∧ d.directoryPermits q .write = true := by
  unfold Disk.directoryPermits
  rw [h.entryAt?]
  exact ⟨h.search, h.write⟩

theorem Ready.canChange (h : Ready directory q mode d) (name : String) :
    d.canChange (q ++ [name]) = true := by
  unfold Disk.canChange
  rw [List.dropLast_concat, h.directoryPermits.1, h.directoryPermits.2]
  rfl

theorem Ready.before (h : Ready directory q mode d) : Ready directory.before q mode d where
  faults := h.faults
  leads := Disk.found_before h.leads
  search := h.search
  write := h.write
  room := by
    have := Disk.byteLength_before h.text_ne
    have := h.room
    omega

/-- A name in the directory leads to its place there, unless it is that of a link. -/
theorem Ready.target_join (h : Ready directory q mode d) {name : String} (hname : Disk.Plain name)
    (hlength : Text.byteLength name ≤ 139)
    (hlink : ∀ target, d.entryAt? (q ++ [name]) ≠ some (.link target)) (follow : Bool) :
    d.target follow (directory.join name) = .ok ⟨q ++ [name], false⟩ := by
  have hroom := h.room
  exact Disk.target_join h.leads h.directoryPermits.1 hname (by omega) hlink follow

theorem entry_eq {declared : String} (hparse : Checksum.parse declared = .ok c)
    (directory : Path) : entry directory declared = directory.join c.cacheKey := by
  unfold entry key
  rw [hparse]

theorem Ready.target_entry (h : Ready directory q mode d)
    (hlink : ∀ target, d.entryAt? (q ++ [c.cacheKey]) ≠ some (.link target)) (follow : Bool) :
    d.target follow (directory.join c.cacheKey) = .ok ⟨q ++ [c.cacheKey], false⟩ :=
  h.target_join c.plain_cacheKey (c.byteLength_cacheKey.trans (by decide)) hlink follow

theorem draft_join (h : directory.text ≠ "") (c : Checksum) :
    draft (directory.join c.cacheKey) = directory.before.join c.draftKey :=
  Path.withExtension_join h c.plain_cacheKey (c.not_mem_cacheKey (by decide)) "tmp"

theorem Ready.target_draft (h : Ready directory q mode d)
    (hlink : ∀ target, d.entryAt? (q ++ [c.draftKey]) ≠ some (.link target)) (follow : Bool) :
    d.target follow (draft (directory.join c.cacheKey)) = .ok ⟨q ++ [c.draftKey], false⟩ := by
  rw [draft_join h.text_ne]
  exact h.before.target_join c.plain_draftKey c.byteLength_draftKey hlink follow

theorem Ready.found_entry (h : Ready directory q mode d) {n : Nat}
    (he : d.entryAt? (q ++ [c.cacheKey]) = some (.file n)) (follow : Bool) :
    d.found follow (directory.join c.cacheKey) = .ok (q ++ [c.cacheKey], .file n) :=
  Disk.found_eq_ok_iff.2 ⟨⟨false, h.target_entry (by rw [he]; exact nofun) follow⟩, he⟩

/-- An entry that may be read is read. -/
theorem Ready.readEntry (h : Ready directory q mode d) {n : Nat} {data : FileData}
    (he : d.entryAt? (q ++ [c.cacheKey]) = some (.file n)) (hdata : d.fileData? n = some data)
    (hread : d.permits data.mode .read = true) :
    readEntry (directory.join c.cacheKey) d = (some data.bytes, d) := by
  have hfound := h.found_entry he true
  unfold Cache.readEntry
  rw [bind_apply, Disk.isThere_of_found h.faults hfound]
  simp only [Bool.not_true, Bool.false_eq_true, if_false]
  rw [bind_apply, Disk.run_read_of_found h.faults hfound hdata hread]
  rfl

/-- Where there is no entry the cache gives nothing, and nothing changes. -/
theorem consult_of_not_found {declared : String} (hfaults : d.faults = [])
    (hparse : Checksum.parse declared = .ok c)
    (hfound : ∀ found, d.found true (directory.join c.cacheKey) ≠ .ok found) :
    consult declared (some directory) d = (none, d) := by
  cases hf : d.found true (directory.join c.cacheKey) with
  | ok found => exact absurd hf (hfound found)
  | error cause =>
    show lookUp (entry directory declared) declared d = _
    unfold lookUp Cache.readEntry
    rw [entry_eq hparse, bind_apply, bind_apply, Disk.isThere_of_error hfaults hf]
    rfl

theorem Ready.consult_of_none (h : Ready directory q mode d) {declared : String}
    (hparse : Checksum.parse declared = .ok c)
    (hnone : d.entryAt? (q ++ [c.cacheKey]) = none) :
    consult declared (some directory) d = (none, d) := by
  refine consult_of_not_found h.faults hparse fun found hf => ?_
  obtain ⟨⟨_, ht⟩, he⟩ := Disk.found_eq_ok_iff.1 hf
  rw [h.target_entry (by rw [hnone]; exact nofun), Except.ok.injEq, Disk.Target.mk.injEq] at ht
  rw [← ht.1, hnone] at he
  exact absurd he nofun

/-! ## The steps of keeping a payload -/

/-- The directory is there already. -/
theorem Ready.run_makeRoom (h : Ready directory q mode d) (c : Checksum) :
    (makeRoom (directory.join c.cacheKey)).run d = (.ok (), d) := by
  obtain ⟨t, ht, hplace⟩ := Disk.target_before h.leads false
  have hthere : ∃ e, d.entryAt? t.place = some e := by
    rcases hplace with hq | ⟨-, target, hlink⟩
    · exact ⟨.directory mode, by rw [hq]; exact h.entryAt?⟩
    · exact ⟨.link target, hlink⟩
  obtain ⟨e, he⟩ := hthere
  unfold makeRoom
  rw [Path.parent?_join h.text_ne c.plain_cacheKey]
  exact Disk.run_makeDirectories_of_there h.faults ht he h.before.leads

/-- The disk with a new file at a place. -/
def withFile (d : Disk) (p : Place) (bytes : ByteArray) : Disk :=
  (d.putFile p ⟨.empty, Disk.fileMode⟩).setFile d.unused ⟨bytes, Disk.fileMode⟩

theorem entryAt?_withFile (d : Disk) (p r : Place) (bytes : ByteArray) :
    (withFile d p bytes).entryAt? r = if r = p then some (.file d.unused) else d.entryAt? r :=
  Disk.entryAt?_putFile d p r ⟨.empty, Disk.fileMode⟩

theorem fileData?_withFile (d : Disk) (p : Place) (n : Nat) (bytes : ByteArray) :
    (withFile d p bytes).fileData? n =
      if n = d.unused then some ⟨bytes, Disk.fileMode⟩ else d.fileData? n := by
  unfold withFile
  rw [Disk.fileData?_setFile, Disk.fileData?_putFile]
  split <;> rfl

/-- The draft is written as a new file. -/
theorem Ready.run_write (h : Ready directory q mode d) (bytes : ByteArray)
    (hnone : d.entryAt? (q ++ [c.draftKey]) = none) :
    (Disk.write (draft (directory.join c.cacheKey)) bytes).run d =
      (.ok (), withFile d (q ++ [c.draftKey]) bytes) := by
  have htarget := h.target_draft (c := c) (by rw [hnone]; exact nofun) true
  have hopened : (Disk.opened (draft (directory.join c.cacheKey)) Disk.fileMode).run d =
      (.ok d.unused, d.putFile (q ++ [c.draftKey]) ⟨.empty, Disk.fileMode⟩) := by
    unfold Disk.opened
    rw [run_bind, run_get]
    dsimp only
    rw [run_bind, htarget]
    dsimp only [Disk.orFail, run_pure]
    rw [hnone]
    dsimp only
    rw [h.canChange]
    rfl
  unfold Disk.write
  rw [Disk.run_pouring_of_faults _ h.faults]
  unfold Disk.refill
  rw [run_bind, hopened]
  dsimp only
  unfold Disk.fill
  rw [run_modify, Disk.fileData?_putFile, if_pos rfl]
  rfl

/-- What is added in the directory leaves it ready. -/
theorem Ready.of_covers {d' : Disk} (h : Ready directory q mode d) (hcovers : d.Covers d')
    (hfaults : d'.faults = d.faults) (hsuperuser : d'.superuser = d.superuser)
    (hentry : d'.entryAt? q = d.entryAt? q) : Ready directory q mode d' := by
  obtain ⟨e, hf, he, -⟩ := hcovers.found h.leads
  rw [hentry, h.entryAt?] at he
  obtain rfl := Option.some.inj he
  have hpermits : ∀ r, d'.permits mode r = d.permits mode r := fun r => by
    unfold Disk.permits
    rw [hsuperuser]
  exact ⟨hfaults.trans h.faults, hf, (hpermits _).trans h.search, (hpermits _).trans h.write,
    h.room⟩

theorem ne_append_singleton (q : Place) (name : String) : q ≠ q ++ [name] := by
  intro h
  have := congrArg List.length h
  simp at this

theorem Ready.add (h : Ready directory q mode d) {name : String}
    (hnone : d.entryAt? (q ++ [name]) = none) (bytes : ByteArray) :
    Ready directory q mode (withFile d (q ++ [name]) bytes) := by
  have hput := Disk.covers_putFile hnone ⟨.empty, Disk.fileMode⟩
  refine h.of_covers ⟨hput.entries, hput.search, hput.workdir⟩ rfl rfl ?_
  rw [entryAt?_withFile, if_neg (ne_append_singleton q name)]

/-! ## The whole -/

/-- The disk with a payload kept under the key of a checksum : its draft was moved there. -/
def stored (d : Disk) (q : Place) (c : Checksum) (bytes : ByteArray) : Disk :=
  (withFile d (q ++ [c.draftKey]) bytes).move (.file d.unused) (q ++ [c.draftKey])
    (q ++ [c.cacheKey])

theorem append_singleton_inj {q : Place} {name name' : String} (h : q ++ [name] = q ++ [name']) :
    name = name' :=
  (List.cons.inj (List.append_cancel_left h)).1

theorem entryAt?_stored (hdraft : d.entryAt? (q ++ [c.draftKey]) = none) (bytes : ByteArray)
    (r : Place) : (stored d q c bytes).entryAt? r =
      if r = q ++ [c.cacheKey] then some (.file d.unused) else d.entryAt? r := by
  have hne : q ++ [c.draftKey] ≠ q ++ [c.cacheKey] := fun h =>
    c.draftKey_ne_cacheKey c (append_singleton_inj h)
  have hkind : Disk.kindOf (.file d.unused) ≠ .directory :=
    show Disk.Kind.file ≠ .directory by decide
  unfold stored
  rw [Disk.entryAt?_move hkind hne, entryAt?_withFile, entryAt?_withFile, if_pos rfl]
  by_cases hr : r = q ++ [c.cacheKey]
  · rw [if_pos hr, if_pos hr]
  · rw [if_neg hr, if_neg hr]
    by_cases hr' : r = q ++ [c.draftKey]
    · rw [if_pos hr', hr', hdraft]
    · rw [if_neg hr', if_neg hr']

theorem fileData?_stored (d : Disk) (q : Place) (c : Checksum) (bytes : ByteArray) (n : Nat) :
    (stored d q c bytes).fileData? n =
      if n = d.unused then some ⟨bytes, Disk.fileMode⟩ else d.fileData? n :=
  fileData?_withFile d (q ++ [c.draftKey]) n bytes

/-- The draft is moved to the entry. -/
theorem Ready.run_rename (h : Ready directory q mode d) (bytes : ByteArray)
    (hentry : d.entryAt? (q ++ [c.cacheKey]) = none)
    (hdraft : d.entryAt? (q ++ [c.draftKey]) = none) :
    (Disk.rename (draft (directory.join c.cacheKey)) (directory.join c.cacheKey)).run
      (withFile d (q ++ [c.draftKey]) bytes) = (.ok (), stored d q c bytes) := by
  have hready := h.add hdraft bytes
  have hne : q ++ [c.draftKey] ≠ q ++ [c.cacheKey] := fun h =>
    c.draftKey_ne_cacheKey c (append_singleton_inj h)
  have hfile := entryAt?_withFile d (q ++ [c.draftKey]) (q ++ [c.draftKey]) bytes
  rw [if_pos rfl] at hfile
  have hnone := entryAt?_withFile d (q ++ [c.draftKey]) (q ++ [c.cacheKey]) bytes
  rw [if_neg (Ne.symm hne), hentry] at hnone
  have hsource := Disk.found_eq_ok_iff.2
    ⟨⟨false, hready.target_draft (by rw [hfile]; exact nofun) false⟩, hfile⟩
  have honto := hready.target_entry (c := c) (by rw [hnone]; exact nofun) false
  have hwithin : Disk.isWithin (q ++ [c.draftKey]) (q ++ [c.cacheKey]) = false := by
    rw [Bool.eq_false_iff]
    intro hprefix
    exact hne ((Disk.isWithin_iff.1 hprefix).eq_of_length (by simp))
  unfold Disk.rename
  rw [Disk.run_step_of_faults _ hready.faults, run_bind, run_get]
  dsimp only
  rw [run_bind, hsource]
  dsimp only [Disk.orFail, run_pure]
  rw [run_bind, honto]
  dsimp only [Disk.orFail, run_pure]
  have hallowed : (withFile d (q ++ [c.draftKey]) bytes).mayReplace (.file d.unused)
      ⟨q ++ [c.cacheKey], false⟩ = .ok () := by
    unfold Disk.mayReplace
    rw [hnone]
    rfl
  rw [if_neg hne, hwithin, if_neg (by decide), run_bind, hallowed]
  dsimp only [run_pure]
  rw [hready.canChange, hready.canChange, if_neg (by decide), if_neg (by rw [hnone]; simp)]
  rfl

/-- A payload is kept whole, and nothing else changes but that the directory may be made first. -/
theorem Ready.run_store_of_makeRoom {d₀ : Disk} (h : Ready directory q mode d) (bytes : ByteArray)
    (hroom : (makeRoom (directory.join c.cacheKey)).run d₀ = (.ok (), d))
    (hentry : d.entryAt? (q ++ [c.cacheKey]) = none)
    (hdraft : d.entryAt? (q ++ [c.draftKey]) = none) :
    (store (directory.join c.cacheKey) bytes).run d₀ = (.ok (), stored d q c bytes) := by
  unfold store
  rw [run_bind, hroom]
  dsimp only
  rw [run_bind, h.run_write bytes hdraft]
  exact h.run_rename bytes hentry hdraft

theorem Ready.run_store (h : Ready directory q mode d) (bytes : ByteArray)
    (hentry : d.entryAt? (q ++ [c.cacheKey]) = none)
    (hdraft : d.entryAt? (q ++ [c.draftKey]) = none) :
    (store (directory.join c.cacheKey) bytes).run d = (.ok (), stored d q c bytes) :=
  h.run_store_of_makeRoom bytes (h.run_makeRoom c) hentry hdraft

theorem Ready.keep (h : Ready directory q mode d)
    (hentry : d.entryAt? (q ++ [c.cacheKey]) = none)
    (hdraft : d.entryAt? (q ++ [c.draftKey]) = none) (bytes : ByteArray) :
    Ready directory q mode (stored d q c bytes) := by
  have hsame : ∀ r e, d.entryAt? r = some e → (stored d q c bytes).entryAt? r = some e := by
    intro r e he
    rw [entryAt?_stored hdraft, if_neg, he]
    rintro rfl
    exact absurd (hentry.symm.trans he) nofun
  refine h.of_covers ⟨fun r e he => ⟨e, hsame r e he, rfl⟩, fun r hr => ?_, rfl⟩ rfl rfl ?_
  · unfold Disk.directoryPermits at hr ⊢
    rw [entryAt?_stored hdraft]
    by_cases hrq : r = q ++ [c.cacheKey]
    · rw [if_pos hrq]
    · rw [if_neg hrq]
      exact hr
  · rw [h.entryAt?]
    exact hsame q _ h.entryAt?

/-! ## A directory that is not there -/

/-- What the disk holds lies in directories. -/
def Rooted (d : Disk) : Prop :=
  ∀ q name e, d.entryAt? (q ++ [name]) = some e → ∃ mode, d.entryAt? q = some (.directory mode)

/-- The path leads to nothing, and no fault is coming. To make the directory ends well, and it can
be used then and holds nothing. -/
structure Unmade (directory : Path) (q : Place) (mode : Nat) (d : Disk) : Prop where
  faults : d.faults = []
  rooted : Rooted d
  absent : ∀ found, d.found true directory ≠ .ok found
  made : ∃ d', (Disk.makeDirectories directory.before).run d = (.ok (), d') ∧
    Ready directory q mode d' ∧ ∀ name, d'.entryAt? (q ++ [name]) = none

/-- Where a directory is not there, nothing is found in it. -/
theorem Unmade.found_join (h : Unmade directory q mode d) {name : String} (hname : Disk.Plain name)
    (follow : Bool) (found : Place × Entry) : d.found follow (directory.join name) ≠ .ok found := by
  obtain ⟨place, held⟩ := found
  intro hf
  obtain ⟨⟨needs, ht⟩, he⟩ := Disk.found_eq_ok_iff.1 hf
  obtain ⟨-, hwalk, -⟩ := Disk.target_eq_ok_iff.1 ht
  have hw := Disk.walk_eq_ok_iff.1 hwalk
  unfold Disk.segmentsTo at hw
  rw [Path.segmentsOf_join hname, Path.endsInDirectory_join hname] at hw
  obtain ⟨r, links, hleads, hlast⟩ := hw.exists_between
  -- the name has an entry where the first part of the path leads, which is a directory
  have hentry : ∃ e, d.entryAt? (r ++ [name]) = some e := by
    cases hlast with
    | up => exact absurd rfl (hname.ne_of_dot ['.'] rfl)
    | into _ hnext => exact ⟨_, hnext⟩
    | missing => exact ⟨_, he⟩
    | file _ hnext => exact ⟨_, hnext⟩
    | stop _ hnext => exact ⟨_, hnext⟩
    | link _ hnext => exact ⟨_, hnext⟩
  obtain ⟨e, hentry⟩ := hentry
  obtain ⟨m, hdir⟩ := h.rooted r name e hentry
  obtain ⟨d', -, hready, -⟩ := h.made
  obtain ⟨⟨_, ht'⟩, -⟩ := Disk.found_eq_ok_iff.1 hready.leads
  have husable := (Disk.target_eq_ok_iff.1 ht').1
  obtain ⟨needs', hw'⟩ := hleads (Disk.endsInDirectory directory.text)
  have htarget : d.target true directory = .ok ⟨r, needs'⟩ :=
    Disk.target_eq_ok_iff.2 ⟨husable, Disk.walk_eq_ok_iff.2 hw', fun n hn =>
      absurd (hn.symm.trans hdir) nofun⟩
  exact h.absent _ (Disk.found_eq_ok_iff.2 ⟨⟨needs', htarget⟩, hdir⟩)

/-- No name in the directory is there yet. -/
theorem Unmade.entryAt?_none (h : Unmade directory q mode d) (name : String) :
    d.entryAt? (q ++ [name]) = none := by
  obtain ⟨d', hrun, -, hempty⟩ := h.made
  have hfurnished := Disk.furnished_makeDirectories directory.before d
  rw [hrun] at hfurnished
  rcases hfurnished.entries (q ++ [name]) with hsame | ⟨hnone, -⟩
  · exact hsame.symm.trans (hempty name)
  · exact hnone

/-- A name that is missing in a directory that can be used is that of one that can be made. -/
theorem Ready.unmade (h : Ready directory q mode d) (hrooted : Rooted d) {name : String}
    (hname : Disk.Plain name) (hnone : d.entryAt? (q ++ [name]) = none)
    (hroom : Text.byteLength directory.text + 1 + Text.byteLength name + 140 < 4096) :
    Unmade (directory.join name) (q ++ [name]) Disk.directoryMode d := by
  have htarget := Disk.target_join h.leads h.directoryPermits.1 hname (by omega)
    (by rw [hnone]; exact nofun)
  have hmake : (Disk.makeDirectory (directory.join name)).run d =
      (.ok (), d.put (q ++ [name]) (.directory Disk.directoryMode)) := by
    unfold Disk.makeDirectory Disk.putNew
    rw [Disk.run_step_of_faults _ h.faults, run_bind, run_get]
    dsimp only
    rw [run_bind, htarget]
    dsimp only [Disk.orFail, run_pure]
    rw [hnone]
    dsimp only
    rw [if_neg fun hneeds => hneeds.2 rfl, h.canChange]
    rfl
  have hbefore := Path.before_join h.text_ne hname
  refine ⟨h.faults, hrooted, fun found hf => ?_,
    d.put (q ++ [name]) (.directory Disk.directoryMode), ?_, ?_, fun below => ?_⟩
  · obtain ⟨⟨_, ht⟩, he⟩ := Disk.found_eq_ok_iff.1 hf
    rw [htarget, Except.ok.injEq, Disk.Target.mk.injEq] at ht
    rw [← ht.1, hnone] at he
    exact absurd he nofun
  · rw [hbefore]
    exact Disk.run_makeDirectories_of_made (hbefore ▸ Path.before_text_ne) hmake
  · have hmode := Disk.permits_directoryMode d
    have hcovers := Disk.covers_put_directory hnone (hmode .search)
    have hentry := Disk.entryAt?_put d (q ++ [name]) (q ++ [name]) (.directory Disk.directoryMode)
    rw [if_pos rfl] at hentry
    have hlength := Path.byteLength_join_le h.text_ne hname
    have hleads := hcovers.target (htarget true) (.inr (by rw [hentry]; exact nofun))
      (by rw [hentry]; exact nofun)
    exact ⟨h.faults, Disk.found_eq_ok_iff.2 ⟨⟨false, hleads⟩, hentry⟩, hmode .search, hmode .write,
      by omega⟩
  · rw [Disk.entryAt?_put, if_neg fun heq => ne_append_singleton _ _ heq.symm]
    cases he : d.entryAt? (q ++ [name] ++ [below]) with
    | none => rfl
    | some e =>
      obtain ⟨m, hdir⟩ := hrooted _ _ _ he
      exact absurd (hnone.symm.trans hdir) nofun

/-- The first payload that is kept makes the directory. -/
theorem Unmade.run_store (h : Unmade directory q mode d) (c : Checksum) (bytes : ByteArray) :
    ∃ d', Ready directory q mode d' ∧ (∀ name, d'.entryAt? (q ++ [name]) = none) ∧
      (store (directory.join c.cacheKey) bytes).run d = (.ok (), stored d' q c bytes) := by
  obtain ⟨d', hrun, hready, hempty⟩ := h.made
  have hroom : (makeRoom (directory.join c.cacheKey)).run d = (.ok (), d') := by
    unfold makeRoom
    rw [Path.parent?_join hready.text_ne c.plain_cacheKey]
    exact hrun
  exact ⟨d', hready, hempty,
    hready.run_store_of_makeRoom bytes hroom (hempty c.cacheKey) (hempty c.draftKey)⟩

end Cache

end Formulary
