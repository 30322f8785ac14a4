import Formulary.Proofs.Cache.Store
import Formulary.Proofs.Disk.Filling

/-!
# The entries of other digests

What gets a payload for one text leaves the cache entries of all other digests as they are
(`others_unharmed`), step by step : looking an entry up takes no other name away (`spares_consult`),
and keeping a payload writes under no other name (`spares_keep`). A file is spared along the way
when it keeps its name and its content (`Disk.Spares`).

There are two exceptions. The name of an entry is that of texts that are no checksums, too, and
exactly of those with an underscore or a slash for the colon (`key_eq_cacheKey_iff`) : such a text
takes the entry away (`Ready.disk_of_misspells`). And a draft that leads to the file of an entry, as
a link does, is written into that file (`Ready.fileData?_of_draftsInto`).
-/

namespace Formulary

namespace Disk

variable {d d' d'' : Disk} {r : Place} {n : Nat}

/-! ## A file that is spared -/

/-- What is a name of the file stays one, and the file is as before. -/
def Spares (r : Place) (n : Nat) (d d' : Disk) : Prop :=
  d.entryAt? r = some (.file n) →
    d'.entryAt? r = some (.file n) ∧ d'.fileData? n = d.fileData? n

theorem Spares.trans (h : Spares r n d d') (h' : Spares r n d' d'') : Spares r n d d'' := by
  intro hr
  obtain ⟨hr', hdata⟩ := h hr
  obtain ⟨hr'', hdata'⟩ := h' hr'
  exact ⟨hr'', hdata'.trans hdata⟩

theorem chained_spares : Chained (Spares r n) :=
  ⟨fun _ hr => ⟨hr, rfl⟩, fun _ _ _ h h' => h.trans h', fun _ hr => ⟨hr, rfl⟩⟩

theorem Thinned.spares {gone : Place → Prop} (h : Thinned gone d d') (hr : ¬gone r) :
    Spares r n d d' := by
  intro hentry
  have hbare := (h.entries r).resolve_right fun hgone => hr hgone.1
  rw [hentry, Option.map_some, Option.map_eq_some_iff] at hbare
  obtain ⟨e, he, hbare⟩ := hbare
  obtain rfl := Entry.eq_of_bare_file hbare
  exact ⟨he, congrArg (List.lookup n) h.files⟩

theorem Furnished.spares (h : Furnished d d') : Spares r n d d' := by
  intro hentry
  refine ⟨?_, h.fileData? n⟩
  rcases h.entries r with hsame | ⟨hnone, -⟩
  · exact hsame.trans hentry
  · exact absurd (hnone.symm.trans hentry) nofun

theorem spares_setFile {m : Nat} (hm : n ≠ m) (data : FileData) :
    Spares r n d (d.setFile m data) :=
  fun hentry => ⟨hentry, (fileData?_setFile ..).trans (if_neg hm)⟩

/-- A new file takes no name and no number of another. -/
theorem spares_putFile {q : Place} (hnone : d.entryAt? q = none) (data : FileData) :
    Spares r n d (d.putFile q data) := by
  intro hentry
  have hr : r ≠ q := by
    rintro rfl
    exact absurd (hnone.symm.trans hentry) nofun
  have hn : n ≠ d.unused := by
    rintro rfl
    exact entryAt?_ne_unused hentry
  exact ⟨((entryAt?_putFile ..).trans (if_neg hr)).trans hentry,
    (fileData?_putFile ..).trans (if_neg hn)⟩

/-- To write the file of one path spares those that it does not lead to. -/
theorem spares_refill {p : Path} (h : ¬d.LeadsToFile p n) (bytes : ByteArray) :
    Spares r n d ((refill p bytes).run d).2 := by
  have hopened := opened_spec p fileMode d
  unfold refill
  rw [run_bind]
  generalize (opened p fileMode).run d = result at hopened ⊢
  cases hopened with
  | refused cause => exact chained_spares.refl d
  | @emptied q m hf =>
    have hm : n ≠ m := by
      rintro rfl
      exact h ⟨q, hf⟩
    exact (spares_setFile hm _).trans (spares_setFile hm _)
  | made ht hnone =>
    intro hentry
    have hm : n ≠ d.unused := by
      rintro rfl
      exact entryAt?_ne_unused hentry
    exact (spares_putFile hnone _).trans (spares_setFile hm _) hentry

theorem spares_write {p : Path} (h : ¬d.LeadsToFile p n) (bytes : ByteArray) :
    Spares r n d ((write p bytes).run d).2 := by
  have hpast : Spares r n d d.past := chained_spares.past d
  have h' : ¬d.past.LeadsToFile p n := fun ⟨q, hq⟩ => h ⟨q, found_of_past hq⟩
  unfold write
  rcases run_pouring (fun cut => refill p (cut bytes)) d with hr | ⟨cause, hr⟩ | ⟨cause, m, hr⟩
  · rw [hr]
    exact hpast.trans (spares_refill h' bytes)
  · rw [hr]
    exact hpast
  · rw [hr]
    exact hpast.trans (spares_refill h' _)

/-- To rename what is no directory spares all but the two places. -/
theorem spares_rename {source onto : Path}
    (hsource : ∀ a e, d.found false source = .ok (a, e) → kindOf e ≠ .directory ∧ r ≠ a)
    (honto : ∀ t, d.target false onto = .ok t → r ≠ t.place) :
    Spares r n d ((rename source onto).run d).2 := by
  have hrenames := renames source onto d
  generalize (rename source onto).run d = result at hrenames ⊢
  have hpast : Spares r n d d.past := chained_spares.past d
  cases hrenames with
  | refused cause => exact hpast
  | idle => exact hpast
  | @moved a e t hfound htarget hne =>
    obtain ⟨hkind, ha⟩ := hsource a e (found_of_past hfound)
    have ht : r ≠ t.place := honto t (target_of_past htarget)
    intro hentry
    refine ⟨?_, rfl⟩
    rw [entryAt?_move hkind hne, if_neg ht, if_neg ha]
    exact hentry

end Disk

namespace Cache

variable {s : String} {c : Checksum}

/-! ## The texts that share a name -/

/-- The character that a name has for one of a text that is no checksum. -/
def inName (m : Char) : Char := if m == ':' || m == '/' then '_' else m

theorem inName_eq_iff {m : Char} : inName m = '_' ↔ m = ':' ∨ m = '/' ∨ m = '_' := by
  unfold inName
  split
  · rename_i h
    rw [Bool.or_eq_true, beq_iff_eq, beq_iff_eq] at h
    exact iff_of_true rfl (or_assoc.1 (.inl h))
  · rename_i h
    rw [Bool.or_eq_true, beq_iff_eq, beq_iff_eq, not_or] at h
    exact ⟨fun hm => .inr (.inr hm), fun hm => (hm.resolve_left h.1).resolve_left h.2⟩

theorem inName_of_ne {m : Char} (h : inName m ≠ '_') : inName m = m := by
  unfold inName at h ⊢
  split
  · rename_i hm
    rw [if_pos hm] at h
    exact absurd rfl h
  · rfl

/-- What has none of the three characters is the name of itself alone. -/
theorem map_inName_eq_iff {ms cs : List Char} (h : ∀ m ∈ cs, m ≠ ':' ∧ m ≠ '/' ∧ m ≠ '_') :
    ms.map inName = cs ↔ ms = cs := by
  constructor
  · rintro rfl
    have hsame : ms.map inName = ms.map id := List.map_congr_left fun m hm =>
      inName_of_ne fun hmark => (h _ (List.mem_map_of_mem hm)).2.2 hmark
    rw [hsame, List.map_id]
  · rintro rfl
    refine (List.map_congr_left fun m hm => inName_of_ne fun hmark => ?_).trans (List.map_id ms)
    have hm := h m hm
    rcases inName_eq_iff.1 hmark with hcolon | hslash | hline
    · exact hm.1 hcolon
    · exact hm.2.1 hslash
    · exact hm.2.2 hline

/-- The name of a checksum is that of the texts with one of the three characters between the
algorithm and the digits. -/
theorem map_inName_eq_cacheKey_iff {ms : List Char} (c : Checksum) :
    ms.map inName = c.cacheKey.toList ↔
      ∃ m, inName m = '_' ∧ ms = c.algorithm.name.toList ++ m :: c.digits := by
  have hname : ∀ d ∈ c.algorithm.name.toList, d ≠ ':' ∧ d ≠ '/' ∧ d ≠ '_' := fun d hd =>
    (Checksum.not_mark_of_mem_name _ hd).2
  have hdigits : ∀ d ∈ c.digits, d ≠ ':' ∧ d ≠ '/' ∧ d ≠ '_' := by
    intro d hd
    have hlower := c.isLowerHex_of_mem hd
    refine ⟨?_, ?_, ?_⟩ <;>
    · rintro rfl
      exact absurd hlower (by decide)
  rw [c.toList_cacheKey]
  constructor
  · intro h
    obtain ⟨head, tail, rfl, hhead, htail⟩ := List.map_eq_append_iff.1 h
    obtain ⟨m, rest, rfl, hm, hrest⟩ := List.map_eq_cons_iff.1 htail
    exact ⟨m, hm, by rw [(map_inName_eq_iff hname).1 hhead, (map_inName_eq_iff hdigits).1 hrest]⟩
  · rintro ⟨m, hm, rfl⟩
    rw [List.map_append, List.map_cons, hm, (map_inName_eq_iff hname).2 rfl,
      (map_inName_eq_iff hdigits).2 rfl]

/-- The text is that of the checksum but for the colon, in whose place another character stands
that the names of entries have an underscore for. -/
def Misspells (s : String) (c : Checksum) : Prop :=
  Text.trim s = c.algorithm.name ++ "_" ++ c.hex ∨ Text.trim s = c.algorithm.name ++ "/" ++ c.hex

theorem toList_spelt (c : Checksum) (m : Char) :
    (c.algorithm.name ++ String.singleton m ++ c.hex).toList =
      c.algorithm.name.toList ++ m :: c.digits := by
  rw [String.toList_append, String.toList_append, Checksum.toList_hex, String.toList_singleton,
    List.append_assoc]
  rfl

/-- A text is no checksum when it has another character than a hex digit and no colon. -/
theorem exists_parse_eq_error {m : Char} (hm : m ∈ (Text.trim s).toList)
    (hdigit : isHexDigit m = false) (hcolon : ':' ∉ (Text.trim s).toList) :
    ∃ defect, Checksum.parse s = .error defect := by
  cases hparse : Checksum.parse s with
  | error defect => exact ⟨defect, rfl⟩
  | ok c =>
    obtain ⟨a, digits, hspells⟩ := Checksum.exists_parse_iff.1 ⟨c, hparse⟩
    cases hspells with
    | bare hs hhex =>
      have hmem := hhex.hex m (hs ▸ hm)
      exact absurd (isHexDigit_iff.2 hmem) (by rw [hdigit]; decide)
    | named hs => exact absurd (by simp [hs]) hcolon

theorem Misspells.spelt (h : Misspells s c) : ∃ m, (m = '/' ∨ m = '_') ∧
    (Text.trim s).toList = c.algorithm.name.toList ++ m :: c.digits := by
  rcases h with h | h
  · exact ⟨'_', .inr rfl, (congrArg String.toList h).trans (toList_spelt c '_')⟩
  · exact ⟨'/', .inl rfl, (congrArg String.toList h).trans (toList_spelt c '/')⟩

/-- No checksum is misspelt. -/
theorem Misspells.exists_parse_eq_error (h : Misspells s c) :
    ∃ defect, Checksum.parse s = .error defect := by
  obtain ⟨m, hm, hlist⟩ := h.spelt
  refine Cache.exists_parse_eq_error (m := m) (by simp [hlist]) ?_ ?_
  · rcases hm with rfl | rfl <;> decide
  · rw [hlist]
    intro hcolon
    rcases List.mem_append.1 hcolon with hname | hrest
    · exact (Checksum.not_mark_of_mem_name _ hname).2.1 rfl
    · rcases List.mem_cons.1 hrest with rfl | hdigit
      · rcases hm with h | h <;> exact absurd h (by decide)
      · exact absurd (c.isLowerHex_of_mem hdigit) (by decide)

theorem not_misspells {a : Checksum} (hparse : Checksum.parse s = .ok a) : ¬Misspells s c := by
  intro h
  obtain ⟨_, herror⟩ := h.exists_parse_eq_error
  exact absurd (hparse.symm.trans herror) nofun

theorem toList_key_of_error {defect : Checksum.Defect} (h : Checksum.parse s = .error defect) :
    (key s).toList = (Text.trim s).toList.map inName := by
  unfold key
  rw [h]
  exact String.toList_ofList

/-- A text gives the name of a checksum exactly when it is one of the checksum, or misspells it. -/
theorem key_eq_cacheKey_iff :
    key s = c.cacheKey ↔ Checksum.parse s = .ok c ∨ Misspells s c := by
  cases hparse : Checksum.parse s with
  | ok a =>
    have hkey : key s = a.cacheKey := by
      unfold key
      rw [hparse]
    rw [hkey, or_iff_left (not_misspells hparse), Except.ok.injEq]
    exact ⟨Checksum.cacheKey_injective, congrArg Checksum.cacheKey⟩
  | error defect =>
    rw [← String.toList_inj, toList_key_of_error hparse, map_inName_eq_cacheKey_iff]
    constructor
    · rintro ⟨m, hm, hlist⟩
      rw [← toList_spelt, String.toList_inj] at hlist
      rcases inName_eq_iff.1 hm with rfl | rfl | rfl
      · -- with the colon it would have been read
        exact absurd (hparse.symm.trans (Checksum.parse_of_trim hlist)) nofun
      · exact .inr (.inr hlist)
      · exact .inr (.inl hlist)
    · rintro (h | h)
      · exact absurd h nofun
      · obtain ⟨m, hm, hlist⟩ := h.spelt
        exact ⟨m, inName_eq_iff.2 (.inr hm), hlist⟩

/-- A name of an entry has no slash. -/
theorem slash_not_mem_key (s : String) : '/' ∉ (key s).toList := by
  cases hparse : Checksum.parse s with
  | ok a =>
    unfold key
    rw [hparse]
    exact a.not_mem_cacheKey (by decide)
  | error defect =>
    rw [toList_key_of_error hparse]
    intro hslash
    obtain ⟨m, -, hm⟩ := List.mem_map.1 hslash
    have hline : inName m ≠ '_' := by
      rw [hm]
      decide
    rw [inName_of_ne hline] at hm
    subst hm
    exact hline rfl

/-! ## What each step spares -/

section Steps

variable {directory p : Path} {q r : Place} {mode n : Nat} {d : Disk}

/-- To look an entry up spares those of other names. -/
theorem spares_consult (hleads : d.found true directory = .ok (q, .directory mode))
    (hkey : key s ≠ c.cacheKey) :
    Disk.Spares (q ++ [c.cacheKey]) n d (consult s (some directory) d).2 := by
  intro hentry
  refine (thinned_consult s (some directory) d).spares ?_ hentry
  rintro ⟨_, hdirectory, e, hf⟩
  obtain rfl := Option.some.inj hdirectory
  obtain rfl : e = .file n :=
    Option.some.inj ((Disk.found_eq_ok_iff.1 hf).2.symm.trans hentry)
  obtain ⟨e, hleads', -, hbare⟩ := (Disk.covers_freed d).found hleads
  obtain ⟨mode', rfl⟩ := Entry.exists_of_bare_directory hbare
  rcases Disk.place_of_found_join hleads' (slash_not_mem_key s) hf with hplace | hplace
  · exact hkey (append_singleton_inj hplace).symm
  · have := congrArg List.length hplace
    simp at this
    omega

/-- The name of the draft leads to the file, when the payload of the entry comes to be written. -/
def DraftsInto (p : Path) (n : Nat) (d : Disk) : Prop :=
  ((makeRoom p).run d).2.LeadsToFile (draft p) n

/-- To put a payload into an entry spares what has neither its name nor that of its draft, unless
the draft is written into it. -/
theorem spares_store (h : ¬DraftsInto p n d)
    (hdraft : ∀ d' t, Disk.target d' false (draft p) = .ok t → r ≠ t.place)
    (hentry : ∀ d' t, Disk.target d' false p = .ok t → r ≠ t.place) (bytes : ByteArray) :
    Disk.Spares r n d ((store p bytes).run d).2 := by
  have hroom : Disk.Spares r n d ((makeRoom p).run d).2 := (furnished_makeRoom p d).spares
  unfold DraftsInto at h
  unfold store
  rw [run_bind]
  generalize (makeRoom p).run d = made at h hroom ⊢
  obtain ⟨cause | u, d₁⟩ := made
  · exact hroom
  · dsimp only at h hroom ⊢
    have hwrite : Disk.Spares r n d ((Disk.write (draft p) bytes).run d₁).2 :=
      hroom.trans (Disk.spares_write h bytes)
    have hwrites := Disk.writes (draft p) bytes d₁
    rw [run_bind]
    generalize (Disk.write (draft p) bytes).run d₁ = written at hwrite hwrites ⊢
    cases hwrites with
    | refused cause => exact hwrite
    | cut cause hwrote => exact hwrite
    | whole hwrote _ _ =>
      obtain ⟨place, hfile⟩ := hwrote.found
      refine hwrite.trans (Disk.spares_rename (fun a e hf => ⟨?_, ?_⟩) (hentry _))
      · -- what is moved is the file that was written, or a link
        rcases Disk.found_flags hfile hf with ⟨-, rfl⟩ | ⟨target, rfl⟩ <;> exact nofun
      · obtain ⟨⟨_, ht⟩, -⟩ := Disk.found_eq_ok_iff.1 hf
        exact hdraft _ _ ht

theorem ne_of_getLast? {name : String} (h : r.getLast? = some name) (hname : name ≠ c.cacheKey) :
    q ++ [c.cacheKey] ≠ r := by
  rintro rfl
  rw [List.getLast?_concat] at h
  exact hname (Option.some.inj h).symm

/-- To keep a payload spares the entries of other digests, unless its draft is written into the
file of one. -/
theorem spares_keep {a : Verified} (hdirectory : directory.text ≠ "")
    (hparse : Checksum.parse s = .ok a.digest) (hne : a.digest ≠ c)
    (hdraft : ¬DraftsInto (entry directory s) n d) :
    Disk.Spares (q ++ [c.cacheKey]) n d (keep s a (some directory) d).2 := by
  have hentry := entry_eq hparse directory
  rw [disk_keep]
  refine spares_store hdraft (fun d' t ht => ?_) (fun d' t ht => ?_) a.bytes
  · rw [hentry, draft_join hdirectory] at ht
    have hlast := Disk.getLast?_of_target_join a.digest.plain_draftKey ht (.inl rfl)
    exact ne_of_getLast? hlast (a.digest.draftKey_ne_cacheKey c)
  · rw [hentry] at ht
    have hlast := Disk.getLast?_of_target_join a.digest.plain_cacheKey ht (.inl rfl)
    exact ne_of_getLast? hlast fun h => hne (Checksum.cacheKey_injective h)

theorem filled_makeRoom (p : Path) (d : Disk) : Disk.Filled [p] d ((makeRoom p).run d).2 := by
  have hchained := Disk.chained_filled [p]
  unfold makeRoom
  split
  · rename_i above hparent
    exact hchained.makeDirectories (fun upper hupper =>
      Disk.obeys_filled_makeDirectory (List.mem_singleton_self p) hparent hupper) d
  · exact hchained.refl d

/-- A draft that has neither a link nor the file under its name is not written into the file. -/
theorem not_draftsInto {a : Checksum} (hparse : Checksum.parse s = .ok a)
    (hleads : d.found true directory = .ok (q, .directory mode))
    (hlink : ∀ target, d.entryAt? (q ++ [a.draftKey]) ≠ some (.link target))
    (hfile : d.entryAt? (q ++ [a.draftKey]) ≠ some (.file n)) :
    ¬DraftsInto (entry directory s) n d := by
  rintro ⟨place, hf⟩
  obtain ⟨⟨_, htarget⟩, -⟩ := Disk.found_eq_ok_iff.1 hleads
  have hdirectory := (Disk.target_eq_ok_iff.1 htarget).1.text_ne
  have hroom := furnished_makeRoom (entry directory s) d
  have hleads' := (filled_makeRoom (entry directory s) d).found hleads
  obtain ⟨⟨_, ht⟩, he⟩ := Disk.found_eq_ok_iff.1 hf
  rw [entry_eq hparse, draft_join hdirectory, ← entry_eq hparse] at ht
  have hlink' : ∀ target, ((makeRoom (entry directory s)).run d).2.entryAt? (q ++ [a.draftKey]) ≠
      some (.link target) := by
    intro target hheld
    rcases hroom.entries (q ++ [a.draftKey]) with hsame | ⟨-, made, hmade⟩
    · exact hlink target (hsame.symm.trans hheld)
    · exact absurd (hmade.symm.trans hheld) nofun
  obtain rfl : place = q ++ [a.draftKey] :=
    Disk.place_of_target_join (Disk.found_before hleads') a.plain_draftKey ht (.inr hlink')
  exact hfile (hroom.file he)

end Steps

/-! ## The whole -/

/-- The entry of a checksum stays as it is when a payload is got for any other text, well-formed or
not, from whatever the cache holds, and whether it can be got or not. The text must not misspell
that checksum, and the name of its draft not lead to the file of the entry; and the fetcher, which
may do what it likes elsewhere, must spare it. -/
theorem others_unharmed {fetcher : Fetcher} {url s : String} {directory : Path} {c : Checksum}
    {q : Place} {mode n : Nat} {w : World}
    (hleads : w.disk.found true directory = .ok (q, .directory mode))
    (hentry : w.disk.entryAt? (q ++ [c.cacheKey]) = some (.file n))
    (hother : Checksum.parse s ≠ .ok c) (hspelt : ¬Misspells s c)
    (hfetcher : Disk.Spares (q ++ [c.cacheKey]) n (consult s (some directory) w.disk).2
      (fetcher url (consult s (some directory) w.disk).2).2)
    (hdraft : ∀ a, Checksum.parse s = .ok a →
      ¬DraftsInto (entry directory s) n (fetcher url (consult s (some directory) w.disk).2).2) :
    (retrieve fetcher url s (some directory) w).2.disk.entryAt? (q ++ [c.cacheKey]) =
        some (.file n) ∧
      (retrieve fetcher url s (some directory) w).2.disk.fileData? n = w.disk.fileData? n := by
  have hconsulted : Disk.Spares (q ++ [c.cacheKey]) n w.disk
      (consult s (some directory) w.disk).2 :=
    spares_consult hleads fun h => (key_eq_cacheKey_iff.1 h).elim hother hspelt
  have hr := retrieves fetcher url s (some directory) w
  suffices hspares : Disk.Spares (q ++ [c.cacheKey]) n w.disk
      (retrieve fetcher url s (some directory) w).2.disk from hspares hentry
  generalize retrieve fetcher url s (some directory) w = result at hr ⊢
  cases hr with
  | hit hconsult =>
    rw [hconsult] at hconsulted
    exact hconsulted
  | missed hconsult hfetches =>
    rw [hconsult] at hconsulted hfetcher hdraft
    cases hfetches with
    | refused hfetch =>
      rw [hfetch] at hfetcher
      exact hconsulted.trans hfetcher
    | unfit hfetch _ =>
      rw [hfetch] at hfetcher
      exact hconsulted.trans hfetcher
    | @fetched d' archive hfetch hparse =>
      rw [hfetch] at hfetcher hdraft
      obtain ⟨⟨_, htarget⟩, -⟩ := Disk.found_eq_ok_iff.1 hleads
      have hdirectory := (Disk.target_eq_ok_iff.1 htarget).1.text_ne
      have hne : archive.digest ≠ c := fun h => hother (h ▸ hparse)
      dsimp only at hconsulted hfetcher hdraft ⊢
      exact (hconsulted.trans hfetcher).trans
        (spares_keep hdirectory hparse hne (hdraft _ hparse))

/-- The digest of the byte 1. -/
def one : Checksum where
  algorithm := .sha256
  digits := "4bf5122f344554c53bde2ebb8cd2b7e3d1600ad631c385a5d7cce23c7785459a".toList
  length_digits := by decide +kernel
  isLowerHex_digits := by decide +kernel

/-- The digest of the byte 2. -/
def two : Checksum where
  algorithm := .sha256
  digits := "dbc1b4c900ffe48d575b5da5c638040125f65db0fe3e24494b76ea986457d986".toList
  length_digits := by decide +kernel
  isLowerHex_digits := by decide +kernel

/-- A cache with the one payload in it, and more names. -/
def shelf (more : List (Place × Entry)) : World where
  disk := {
    entries := ([], .directory 0o755) :: (["c"], .directory 0o755) ::
      (["c", one.cacheKey], .file 0) :: more
    files := [(0, ⟨⟨#[1]⟩, Disk.fileMode⟩)] }
  journal := []

/-- A fetcher that gives the other payload and does nothing else. -/
def giveTwo : Fetcher := fun _ d => (.ok ⟨#[2]⟩, d)

theorem giveTwo_eq (url : String) (d : Disk) : giveTwo url d = (.ok ⟨#[2]⟩, d) := rfl

theorem ready_shelf : Ready ⟨"/c"⟩ ["c"] 0o755 (shelf []).disk :=
  ⟨rfl, rfl, rfl, rfl, by decide +kernel⟩

theorem entryAt?_shelf (more : List (Place × Entry)) (name : String) :
    (shelf more).disk.entryAt? (["c"] ++ [name]) =
      if one.cacheKey = name then some (.file 0) else more.lookup (["c"] ++ [name]) := by
  refine (Disk.lookup_of_cons ..).trans ?_
  rw [if_neg (by simp), Disk.lookup_of_cons, if_neg (by simp), Disk.lookup_of_cons]
  refine if_congr ⟨fun h => (append_singleton_inj (q := ["c"]) h).symm, ?_⟩ rfl rfl
  rintro rfl
  rfl

theorem one_ne_two : one ≠ two := by decide +kernel

/-- The other payload is put beside the one that is there. -/
theorem others_unharmed_beside :
    let w := (retrieve giveTwo "u" two.display (some ⟨"/c"⟩) (shelf [])).2
    w.disk.entryAt? (["c"] ++ [one.cacheKey]) = some (.file 0) ∧
      w.disk.fileData? 0 = (shelf []).disk.fileData? 0 := by
  have hparse : Checksum.parse two.display = .ok two := Checksum.parse_display two
  have hother : Checksum.parse two.display ≠ .ok one :=
    fun h => one_ne_two (Except.ok.inj (h.symm.trans hparse))
  have hentry := (entryAt?_shelf [] one.cacheKey).trans (if_pos rfl)
  have hnone := (entryAt?_shelf [] two.cacheKey).trans
    (if_neg fun h => one_ne_two (Checksum.cacheKey_injective h))
  have hdraft := (entryAt?_shelf [] two.draftKey).trans
    (if_neg fun h => two.draftKey_ne_cacheKey one h.symm)
  have hconsult := ready_shelf.consult_of_none hparse hnone
  refine others_unharmed ready_shelf.leads hentry hother (not_misspells hparse) ?_ fun _ _ => ?_
  · rw [hconsult, giveTwo_eq]
    exact Disk.chained_spares.refl _
  · rw [hconsult, giveTwo_eq]
    exact not_draftsInto hparse ready_shelf.leads (by rw [hdraft]; exact nofun)
      (by rw [hdraft]; exact nofun)

/-! ## What the conditions keep out -/

section Harm

variable {directory : Path} {q : Place} {mode n : Nat} {w : World} {data : FileData}
  {fetcher : Fetcher} {url : String}

/-- A text that misspells a checksum has the entry taken away that others have for it, before the
fetcher is asked. -/
theorem Ready.disk_of_misspells (h : Ready directory q mode w.disk) (hs : Misspells s c)
    (he : w.disk.entryAt? (q ++ [c.cacheKey]) = some (.file n))
    (hdata : w.disk.fileData? n = some data) (hread : w.disk.permits data.mode .read = true) :
    (retrieve fetcher url s (some directory) w).2.disk =
      (fetcher url (w.disk.drop (q ++ [c.cacheKey]))).2 := by
  have hentry : entry directory s = directory.join c.cacheKey :=
    congrArg directory.join (key_eq_cacheKey_iff.2 (.inr hs))
  obtain ⟨defect, hparse⟩ := hs.exists_parse_eq_error
  have hconsult : consult s (some directory) w.disk = (none, w.disk.drop (q ++ [c.cacheKey])) := by
    show lookUp (entry directory s) s w.disk = _
    unfold lookUp Verified.check
    rw [hentry, hparse, bind_apply, h.readEntry he hdata hread]
    dsimp only
    rw [bind_apply, Disk.run_removeFile_of_found h.faults (h.found_entry he false) (h.canChange _)]
    rfl
  have hfetches := fetches fetcher url hconsult
  generalize retrieve fetcher url s (some directory) w = result at hfetches ⊢
  cases hfetches with
  | refused hfetch => rw [hfetch]
  | unfit hfetch _ => rw [hfetch]
  | fetched _ hread => exact absurd (hparse.symm.trans hread) nofun

/-- A file that the draft is written into holds the payload that was got. -/
theorem Ready.fileData?_of_draftsInto (h : Ready directory q mode w.disk) {a : Verified}
    (hparse : Checksum.parse s = .ok a.digest)
    (hnone : w.disk.entryAt? (q ++ [a.digest.cacheKey]) = none)
    (hfetch : fetcher url w.disk = (.ok a.bytes, w.disk))
    (hinto : DraftsInto (entry directory s) n w.disk) (hdata : w.disk.fileData? n = some data)
    (hwrite : w.disk.permits data.mode .write = true) :
    (retrieve fetcher url s (some directory) w).2.disk.fileData? n =
      some { data with bytes := a.bytes } := by
  unfold DraftsInto at hinto
  rw [entry_eq hparse, h.run_makeRoom] at hinto
  obtain ⟨r, hf⟩ := hinto
  rw [retrieve_of_fetched (h.consult_of_none hparse hnone) hfetch hparse]
  dsimp only
  rw [disk_keep, entry_eq hparse]
  unfold store
  rw [run_bind, h.run_makeRoom]
  dsimp only
  rw [run_bind, Disk.run_write_of_found h.faults hf hdata hwrite]
  dsimp only
  rw [Disk.fileData?_rename, Disk.fileData?_setFile, if_pos rfl]

end Harm

/-- The draft of the other payload is a link to the entry of the one. -/
def linked : List (Place × Entry) := [(["c", two.draftKey], .link one.cacheKey)]

theorem ready_linked : Ready ⟨"/c"⟩ ["c"] 0o755 (shelf linked).disk :=
  ⟨rfl, rfl, rfl, rfl, by decide +kernel⟩

/-- A text that misspells a checksum takes its entry away. And where the draft of one payload is a
link to the entry of another, that entry gets the payload. -/
theorem others_harmed :
    (Checksum.parse ("sha256_" ++ one.hex) ≠ .ok one ∧
      (shelf []).disk.entryAt? (["c"] ++ [one.cacheKey]) = some (.file 0) ∧
      (retrieve giveTwo "u" ("sha256_" ++ one.hex) (some ⟨"/c"⟩) (shelf [])).2.disk.entryAt?
        (["c"] ++ [one.cacheKey]) = none) ∧
    (Checksum.parse two.display ≠ .ok one ∧
      (shelf linked).disk.entryAt? (["c"] ++ [one.cacheKey]) = some (.file 0) ∧
      one.Matches ⟨#[1]⟩ ∧ (shelf linked).disk.fileData? 0 = some ⟨⟨#[1]⟩, Disk.fileMode⟩ ∧
      (retrieve giveTwo "u" two.display (some ⟨"/c"⟩) (shelf linked)).2.disk.fileData? 0 =
        some ⟨⟨#[2]⟩, Disk.fileMode⟩) := by
  have hspelt : Misspells ("sha256_" ++ one.hex) one := .inl (by decide +kernel)
  have hentry : ∀ more, (shelf more).disk.entryAt? (["c"] ++ [one.cacheKey]) = some (.file 0) :=
    fun more => (entryAt?_shelf more one.cacheKey).trans (if_pos rfl)
  have hdata : ∀ more, (shelf more).disk.fileData? 0 = some ⟨⟨#[1]⟩, Disk.fileMode⟩ := fun _ => rfl
  refine ⟨⟨?_, hentry [], ?_⟩, ?_, hentry linked, by decide +kernel, hdata linked, ?_⟩
  · obtain ⟨defect, hparse⟩ := hspelt.exists_parse_eq_error
    rw [hparse]
    exact nofun
  · rw [ready_shelf.disk_of_misspells hspelt (hentry []) (hdata []) rfl, giveTwo_eq]
    exact (Disk.entryAt?_drop ..).trans (if_pos rfl)
  · exact fun h => one_ne_two (Except.ok.inj (h.symm.trans (Checksum.parse_display two)))
  · have hparse := Checksum.parse_display two
    have hnone : (shelf linked).disk.entryAt? (["c"] ++ [two.cacheKey]) = none := by decide +kernel
    have hinto : DraftsInto (entry ⟨"/c"⟩ two.display) 0 (shelf linked).disk := by
      unfold DraftsInto
      rw [entry_eq hparse, ready_linked.run_makeRoom, draft_join ready_linked.text_ne]
      exact ⟨["c", one.cacheKey], by decide +kernel⟩
    have hmatches : two.Matches ⟨#[2]⟩ := by decide +kernel
    exact ready_linked.fileData?_of_draftsInto (a := ⟨⟨#[2]⟩, two, hmatches⟩) hparse hnone
      (giveTwo_eq ..) hinto (hdata linked) rfl

end Cache

end Formulary
