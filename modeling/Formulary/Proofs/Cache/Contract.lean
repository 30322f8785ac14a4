import Formulary.Proofs.Cache.Store
import Formulary.Proofs.Disk.Copying

/-!
# The contract of a retrieval

What a retrieval promises is a `Contract`, and it keeps it on every disk, with every fetcher and
whatever faults the disk meets (`contract_retrieve`).

A payload is written under another name first, which no entry has. So nothing but the file of that
name ever holds a part of one, which is what `Intact` says place by place. The name of an entry
leads to that file only by a link, or when the file has both names. Where there is neither before a
retrieval (`Disk.Separates`), there is neither behind it, and the entry holds what it held or the
whole payload.
-/

namespace Formulary

/-! ## Two names apart -/

namespace Disk

/-- No link has one of the names, wherever it may be, and no file has both. -/
structure Separates (d : Disk) (name other : String) : Prop where
  link : ∀ q target, d.entryAt? q = some (.link target) →
    q.getLast? ≠ some name ∧ q.getLast? ≠ some other
  file : ∀ q r n, q.getLast? = some name → r.getLast? = some other →
    d.entryAt? q = some (.file n) → d.entryAt? r ≠ some (.file n)

variable {d d' : Disk} {name other : String}

/-- Where no link is new, nor a file gets another name, two names stay apart. -/
theorem Separates.keep (h : d.Separates name other) (hne : name ≠ other)
    (hlinks : ∀ q target, d'.entryAt? q = some (.link target) → d.entryAt? q = some (.link target))
    (hfiles : KeepsApart d d') : d'.Separates name other := by
  refine ⟨fun q target hq => h.link q target (hlinks q target hq),
    fun q r n hq hr hfile hfile' => ?_⟩
  rcases hfiles q r (.inr ⟨n, hfile, hfile'⟩) with rfl | ⟨m, hm, hm'⟩
  · exact hne (Option.some.inj (hq.symm.trans hr))
  · exact h.file q r m hq hr hm hm'

theorem Separates.thinned (h : d.Separates name other) {gone : Place → Prop}
    (hthinned : Thinned gone d d') : d'.Separates name other := by
  have hback : ∀ {q e}, d'.entryAt? q = some e → (d.entryAt? q).map Entry.bare = some e.bare := by
    intro q e hq
    rcases hthinned.entries q with hsame | ⟨-, hnone⟩
    · rw [← hsame, hq]
      rfl
    · exact absurd (hq.symm.trans hnone) nofun
  have hlink : ∀ {q target}, d'.entryAt? q = some (.link target) →
      d.entryAt? q = some (.link target) := by
    intro q target hq
    obtain ⟨e, he, hbare⟩ := Option.map_eq_some_iff.1 (hback hq)
    rw [he, Entry.eq_of_bare_link hbare]
  have hfile : ∀ {q n}, d'.entryAt? q = some (.file n) → d.entryAt? q = some (.file n) := by
    intro q n hq
    obtain ⟨e, he, hbare⟩ := Option.map_eq_some_iff.1 (hback hq)
    rw [he, Entry.eq_of_bare_file hbare]
  exact ⟨fun q target hq => h.link q target (hlink hq),
    fun q r n hq hr hn hn' => h.file q r n hq hr (hfile hn) (hfile hn')⟩

theorem Separates.furnished (h : d.Separates name other) (hfurnished : Furnished d d') :
    d'.Separates name other := by
  refine ⟨fun q target hq => h.link q target ?_,
    fun q r n hq hr hn hn' => h.file q r n hq hr (hfurnished.file hn) (hfurnished.file hn')⟩
  rcases hfurnished.entries q with hsame | ⟨-, mode, hmade⟩
  · exact hsame ▸ hq
  · exact absurd (hq.symm.trans hmade) nofun

/-- To open a file makes no link. -/
theorem Opened.link {p : Path} {mode : Nat} {result : Except Cause Nat}
    (h : Opened p mode d (result, d')) {q : Place} {target : String}
    (hq : d'.entryAt? q = some (.link target)) : d.entryAt? q = some (.link target) := by
  cases h with
  | refused => exact hq
  | emptied => exact hq
  | made =>
    rw [entryAt?_putFile] at hq
    split at hq
    · exact absurd hq nofun
    · exact hq

/-- However much of a write gets through, two names stay apart. -/
theorem Separates.write (h : d.Separates name other) (hne : name ≠ other) (p : Path)
    (bytes : ByteArray) : ((Disk.write p bytes).run d).2.Separates name other := by
  have hchained : Chained fun d d' => d.Separates name other → d'.Separates name other :=
    ⟨fun _ h => h, fun _ _ _ h h' hd => h' (h hd), fun _ hd => ⟨hd.link, hd.file⟩⟩
  refine hchained.pouring (fun cut => hchained.bind (fun d hd => ?_) fun number d hd => ?_) d h
  · have hopened := opened_spec p fileMode d
    exact hd.keep hne (fun _ _ => hopened.link) hopened.keepsApart
  · exact ⟨hd.link, hd.file⟩

end Disk

namespace Cache

/-- The paths do not lead to one and the same file. -/
def Apart (d : Disk) (p p' : Path) : Prop :=
  ∀ q q' n, d.found true p = .ok (q, .file n) → d.found true p' ≠ .ok (q', .file n)

/-- The draft of an entry is a path of the name for drafts. -/
theorem exists_draft_join (directory : Path) (c : Checksum) :
    ∃ above : Path, draft (directory.join c.cacheKey) = above.join c.draftKey := by
  have hdot := c.not_mem_cacheKey (d := '.') (by decide)
  by_cases hdirectory : directory.text = ""
  · rw [Path.join_of_empty hdirectory (Path.isAbsolute_of_not_mem c.plain_cacheKey.slash_not_mem)]
    exact ⟨⟨""⟩, Path.withExtension_name c.plain_cacheKey hdot "tmp"⟩
  · exact ⟨directory.before, draft_join hdirectory c⟩

/-- Where the names of entry and draft are apart, so are their paths. -/
theorem apart_of_separates {d : Disk} {c : Checksum} (h : d.Separates c.cacheKey c.draftKey)
    (directory : Path) :
    Apart d (directory.join c.cacheKey) (draft (directory.join c.cacheKey)) := by
  obtain ⟨above, hdraft⟩ := exists_draft_join directory c
  intro q r n hq hr
  rw [hdraft] at hr
  obtain ⟨⟨_, ht⟩, hn⟩ := Disk.found_eq_ok_iff.1 hq
  obtain ⟨⟨_, ht'⟩, hn'⟩ := Disk.found_eq_ok_iff.1 hr
  have hlast := Disk.getLast?_of_target_join c.plain_cacheKey ht
    (.inr fun q target he => (h.link q target he).1)
  have hlast' := Disk.getLast?_of_target_join c.plain_draftKey ht'
    (.inr fun q target he => (h.link q target he).2)
  exact h.file q r n hlast hlast' hn hn'

/-! ## Keeping a payload -/

/-- Every file that has a name holds what it held under that name before, or the whole payload,
unless it is the one that the draft's name leads to. -/
def Intact (draft : Path) (bytes : ByteArray) (d d' : Disk) : Prop :=
  ∀ q n, d'.entryAt? q = some (.file n) →
    (d.entryAt? q = some (.file n) ∧ d'.fileData? n = d.fileData? n) ∨
    (∃ data, d'.fileData? n = some data ∧ data.bytes = bytes) ∨
    ∃ r, d'.found true draft = .ok (r, .file n)

/-- The draft's file, too, holds what it held or the whole payload. -/
def Whole (bytes : ByteArray) (d d' : Disk) : Prop :=
  ∀ q n, d'.entryAt? q = some (.file n) →
    (d.entryAt? q = some (.file n) ∧ d'.fileData? n = d.fileData? n) ∨
    ∃ data, d'.fileData? n = some data ∧ data.bytes = bytes

theorem Whole.intact {bytes : ByteArray} {d d' : Disk} (h : Whole bytes d d') (draft : Path) :
    Intact draft bytes d d' := fun q n hn => (h q n hn).imp_right .inl

/-- When the file of a path was written, every other is what it was. -/
theorem eq_or_of_wroteTo {p : Path} {d d₁ d₂ : Disk} {n : Nat} (hroom : Disk.Furnished d d₁)
    (hwrote : Disk.WroteTo p n d₁ d₂) {q : Place} {m : Nat} (hm : d₂.entryAt? q = some (.file m)) :
    m = n ∨ d.entryAt? q = some (.file m) ∧ d₂.fileData? m = d.fileData? m :=
  (hwrote.others q m hm).imp_right fun h =>
    ⟨hroom.file h.1, h.2.trans (hroom.fileData? m)⟩

/-- Where a file that is whole is renamed, or a link to it, all stay whole. -/
theorem Whole.rename {bytes : ByteArray} {d d' : Disk} (h : Whole bytes d d') {p p' : Path}
    {r : Place} {n : Nat} {data : FileData} (hr : d'.found true p = .ok (r, .file n))
    (hdata : d'.fileData? n = some data) (hbytes : data.bytes = bytes) :
    Whole bytes d ((Disk.rename p p').run d').2 := by
  have hrenames := Disk.renames p p' d'
  generalize (Disk.rename p p').run d' = result at hrenames ⊢
  cases hrenames with
  | refused cause => exact h
  | idle => exact h
  | @moved a e t hfound htarget hne =>
    -- what is moved is the file itself, or a link that leads to it
    have hfound' := Disk.found_of_past hfound
    have ha : d'.past.entryAt? a = some e := (Disk.found_eq_ok_iff.1 hfound').2
    have hflags := Disk.found_flags hr hfound'
    have hkind : Disk.kindOf e ≠ .directory := by
      rcases hflags with ⟨-, rfl⟩ | ⟨target, rfl⟩ <;> exact nofun
    intro q m hm
    rw [Disk.entryAt?_move hkind hne] at hm
    split at hm
    · rw [ha, Option.some.injEq] at hm
      rcases hflags with ⟨-, rfl⟩ | ⟨target, rfl⟩
      · obtain rfl := Entry.file.inj hm
        exact .inr ⟨data, hdata, hbytes⟩
      · exact absurd hm nofun
    · split at hm
      · exact absurd hm nofun
      · exact h q m hm

/-- How a payload is put into an entry, and with what result. -/
inductive Stores (p : Path) (bytes : ByteArray) (d : Disk) : Except Cause Unit × Disk → Prop
  /-- There is no room for it, or its draft is not opened. -/
  | refused {cause : Cause} {d' : Disk} : Disk.Furnished d d' → Stores p bytes d (.error cause, d')
  /-- Its draft is cut short. -/
  | cut {cause : Cause} {n : Nat} {d₁ : Disk} : Disk.Furnished d d₁ →
    Disk.WroteTo (draft p) n d₁ ((Disk.write (draft p) bytes).run d₁).2 →
      Stores p bytes d (.error cause, ((Disk.write (draft p) bytes).run d₁).2)
  /-- Its draft is whole, and is renamed if that succeeds. -/
  | drafted {n : Nat} {d₁ d₂ : Disk} {data : FileData} : Disk.Furnished d d₁ →
    Disk.WroteTo (draft p) n d₁ d₂ → d₂.fileData? n = some data → data.bytes = bytes →
      Stores p bytes d ((Disk.rename (draft p) p).run d₂)

theorem stores (p : Path) (bytes : ByteArray) (d : Disk) :
    Stores p bytes d ((store p bytes).run d) := by
  unfold store
  rw [run_bind]
  have hroom := furnished_makeRoom p d
  rcases hmade : (makeRoom p).run d with ⟨cause | u, d₁⟩
  · rw [hmade] at hroom
    exact .refused hroom
  · rw [hmade] at hroom
    dsimp only
    rw [run_bind]
    have hwrites := Disk.writes (draft p) bytes d₁
    rcases hwrite : (Disk.write (draft p) bytes).run d₁ with ⟨cause | u, d₂⟩
    · rw [hwrite] at hwrites
      cases hwrites with
      | refused => exact .refused (hroom.trans (.of_past d₁))
      | cut _ hwrote =>
        have hcut : ((Disk.write (draft p) bytes).run d₁).2 = d₂ := congrArg Prod.snd hwrite
        exact hcut ▸ .cut hroom (hcut.symm ▸ hwrote)
    · rw [hwrite] at hwrites
      cases hwrites with
      | whole hwrote hdata hbytes => exact .drafted hroom hwrote hdata hbytes

/-- A draft that was written whole leaves all files whole when it is renamed. -/
theorem whole_of_drafted {p : Path} {bytes : ByteArray} {d d₁ d₂ : Disk} {n : Nat} {data : FileData}
    (hroom : Disk.Furnished d d₁) (hwrote : Disk.WroteTo (draft p) n d₁ d₂)
    (hdata : d₂.fileData? n = some data) (hbytes : data.bytes = bytes) :
    Whole bytes d ((Disk.rename (draft p) p).run d₂).2 := by
  have hwhole : Whole bytes d d₂ := by
    intro q m hm
    rcases eq_or_of_wroteTo hroom hwrote hm with rfl | hsame
    · exact .inr ⟨data, hdata, hbytes⟩
    · exact .inl hsame
  obtain ⟨r, hr⟩ := hwrote.found
  exact hwhole.rename hr hdata hbytes

theorem intact_store (p : Path) (bytes : ByteArray) (d : Disk) :
    Intact (draft p) bytes d ((store p bytes).run d).2 := by
  have h := stores p bytes d
  generalize (store p bytes).run d = result at h ⊢
  cases h with
  | refused hroom => exact fun q n hn => .inl ⟨hroom.file hn, hroom.fileData? n⟩
  | cut hroom hwrote =>
    intro q m hm
    rcases eq_or_of_wroteTo hroom hwrote hm with rfl | hsame
    · exact .inr (.inr hwrote.found)
    · exact .inl hsame
  | drafted hroom hwrote hdata hbytes =>
    exact (whole_of_drafted hroom hwrote hdata hbytes).intact (draft p)

/-- Where the names of an entry and its draft are apart, they stay so until the whole payload is
written. -/
theorem whole_or_separates_store {c : Checksum} {d : Disk} (h : d.Separates c.cacheKey c.draftKey)
    (p : Path) (bytes : ByteArray) :
    Whole bytes d ((store p bytes).run d).2 ∨
      ((store p bytes).run d).2.Separates c.cacheKey c.draftKey := by
  have hstores := stores p bytes d
  generalize (store p bytes).run d = result at hstores ⊢
  cases hstores with
  | refused hroom => exact .inr (h.furnished hroom)
  | cut hroom => exact .inr ((h.furnished hroom).write (c.draftKey_ne_cacheKey c).symm _ bytes)
  | drafted hroom hwrote hdata hbytes =>
    exact .inl (whole_of_drafted hroom hwrote hdata hbytes)

/-! ## What a retrieval promises -/

/-- There is a cache, and its entry can be read and verifies. -/
def Serves (declared : String) (cache : Option Path) (d : Disk) : Prop :=
  ∃ directory bytes archive, cache = some directory ∧
    (readEntry (entry directory declared) d).1 = some bytes ∧
    Verified.check bytes declared = .ok archive

/-- What a retrieval promises of its result and of the world that it leaves. -/
structure Contract (fetcher : Fetcher) (url declared : String) (cache : Option Path) (w : World)
    (result : Except Error Verified) (w' : World) : Prop where
  /-- A payload has the digest that was declared. -/
  verified : ∀ a, result = .ok a → Checksum.parse declared = .ok a.digest ∧
    Checksum.of a.digest.algorithm a.bytes = a.digest
  /-- It is what the entry holds, or what the fetcher gives. -/
  origin : ∀ a, result = .ok a →
    (∃ directory, cache = some directory ∧
      bytesAt? w.disk (entry directory declared) = some a.bytes) ∨
    (fetcher url (consult declared cache w.disk).2).1 = .ok a.bytes
  /-- The fetcher is asked at most once. -/
  asked : w'.journal = w.journal ∨ ∃ good, w'.journal = ⟨.fetch url, good⟩ :: w.journal
  /-- It is not asked exactly when the cache serves. -/
  unasked_iff : w'.journal = w.journal ↔ Serves declared cache w.disk
  /-- When the cache serves, what the entry holds is the payload, the same with any fetcher, and
  the disk stays. -/
  served : Serves declared cache w.disk → (∃ a directory, result = .ok a ∧ cache = some directory ∧
      bytesAt? w.disk (entry directory declared) = some a.bytes) ∧ w.disk.Unchanged w'.disk ∧
    ∀ fetcher' url', retrieve fetcher' url' declared cache w = (result, w')
  /-- When it does not, only what the fetcher gives decides, and not how it can be kept. -/
  unserved : ¬Serves declared cache w.disk → result =
    (fetcher url (consult declared cache w.disk).2).1.bind (Verified.check · declared)
  /-- Before the fetcher is asked, an entry that can be read but does not verify is removed. -/
  discarded : ∀ directory bytes e, cache = some directory →
    (readEntry (entry directory declared) w.disk).1 = some bytes →
    Verified.check bytes declared = .error e →
    (consult declared cache w.disk).2 =
      ((Disk.removeFile (entry directory declared)).run
        (readEntry (entry directory declared) w.disk).2).2
  /-- And only the name of the entry can have gone until then. -/
  consulted : Disk.Thinned
    (fun q => ∃ directory, cache = some directory ∧ w.disk.LeadsTo (entry directory declared) q)
    w.disk (consult declared cache w.disk).2
  /-- When there is no payload, nothing more is done to the disk. -/
  refused : ∀ e, result = .error e →
    w'.disk = (fetcher url (consult declared cache w.disk).2).2
  /-- A payload that was fetched is kept without a part of it getting a name, except the draft's. -/
  kept : ¬Serves declared cache w.disk → ∀ a directory, result = .ok a → cache = some directory →
    Intact (draft (entry directory declared)) a.bytes
      (fetcher url (consult declared cache w.disk).2).2 w'.disk
  /-- So the entry holds no part of it, whatever fails, when its name and the draft's are apart at
  first, and the fetcher leaves them so. -/
  entry_whole : ¬Serves declared cache w.disk → ∀ a directory, result = .ok a →
    cache = some directory → w.disk.Separates a.digest.cacheKey a.digest.draftKey →
    (∀ d : Disk, d.Separates a.digest.cacheKey a.digest.draftKey →
      (fetcher url d).2.Separates a.digest.cacheKey a.digest.draftKey) →
    ∀ q n, w'.disk.found true (entry directory declared) = .ok (q, .file n) →
      ((fetcher url (consult declared cache w.disk).2).2.entryAt? q = some (.file n) ∧
        w'.disk.fileData? n = (fetcher url (consult declared cache w.disk).2).2.fileData? n) ∨
      bytesAt? w'.disk (entry directory declared) = some a.bytes

/-- The cache serves what it gives. -/
theorem serves_iff (declared : String) (cache : Option Path) (d : Disk) :
    Serves declared cache d ↔ ∃ a, (consult declared cache d).1 = some a := by
  cases cache with
  | none => exact ⟨fun ⟨_, _, _, hcache, _⟩ => absurd hcache nofun, fun ⟨_, ha⟩ => absurd ha nofun⟩
  | some directory =>
    show _ ↔ ∃ a, (lookUp (entry directory declared) declared d).1 = some a
    unfold lookUp
    rw [bind_apply]
    constructor
    · rintro ⟨_, bytes, archive, hcache, hread, hcheck⟩
      obtain rfl := Option.some.inj hcache
      refine ⟨archive, ?_⟩
      rw [hread]
      dsimp only
      rw [hcheck]
      rfl
    · rintro ⟨archive, h⟩
      cases hread : (readEntry (entry directory declared) d).1 with
      | none =>
        rw [hread] at h
        exact absurd h nofun
      | some bytes =>
        rw [hread] at h
        dsimp only at h
        cases hcheck : Verified.check bytes declared with
        | ok archive => exact ⟨directory, bytes, archive, rfl, hread, hcheck⟩
        | error e =>
          rw [hcheck] at h
          exact absurd h nofun

theorem not_serves {declared : String} {cache : Option Path} {d d' : Disk}
    (h : consult declared cache d = (none, d')) : ¬Serves declared cache d := by
  intro hserves
  obtain ⟨a, ha⟩ := (serves_iff ..).1 hserves
  rw [h] at ha
  exact absurd ha nofun

/-- What the cache gives is what the entry holds, and the disk stays. -/
theorem consult_eq_some {declared : String} {cache : Option Path} {d d' : Disk} {a : Verified}
    (h : consult declared cache d = (some a, d')) :
    d.Unchanged d' ∧ ∃ directory, cache = some directory ∧
      bytesAt? d (entry directory declared) = some a.bytes := by
  cases cache with
  | none => exact absurd (congrArg Prod.fst h) nofun
  | some directory =>
    have hl := looksUp (entry directory declared) declared d
    rw [show lookUp (entry directory declared) declared d = (some a, d') from h] at hl
    obtain ⟨hunchanged, hbytes⟩ := unchanged_readEntry (entry directory declared) d
    cases hl with
    | verified hr hparse =>
      rw [hr] at hunchanged hbytes
      exact ⟨hunchanged, directory, rfl, hbytes _ rfl⟩

/-- An entry that can be read but does not verify is removed. -/
theorem consult_of_check_error {declared : String} {cache : Option Path} {d : Disk}
    (directory : Path) (bytes : ByteArray) (e : Error) (hcache : cache = some directory)
    (hread : (readEntry (entry directory declared) d).1 = some bytes)
    (hcheck : Verified.check bytes declared = .error e) :
    (consult declared cache d).2 =
      ((Disk.removeFile (entry directory declared)).run
        (readEntry (entry directory declared) d).2).2 := by
  subst hcache
  show (lookUp (entry directory declared) declared d).2 = _
  unfold lookUp
  rw [bind_apply, hread]
  dsimp only
  rw [hcheck]
  rfl

theorem contract_of_served {declared : String} {cache : Option Path} {w : World} {d : Disk}
    {a : Verified} (hconsult : consult declared cache w.disk = (some a, d)) (fetcher : Fetcher)
    (url : String) :
    Contract fetcher url declared cache w (.ok a) { w with disk := d } := by
  have hserves : Serves declared cache w.disk := (serves_iff ..).2 ⟨a, by rw [hconsult]⟩
  obtain ⟨hunchanged, directory, hcache, hbytes⟩ := consult_eq_some hconsult
  exact {
    verified := fun b hb => by
      obtain rfl := Except.ok.inj hb
      exact ⟨digest_of_consult hconsult, a.matches_digest⟩
    origin := fun b hb => by
      obtain rfl := Except.ok.inj hb
      exact .inl ⟨directory, hcache, hbytes⟩
    asked := .inl rfl
    unasked_iff := iff_of_true rfl hserves
    served := fun _ => ⟨⟨a, directory, rfl, hcache, hbytes⟩, hunchanged,
      retrieve_of_consult hconsult⟩
    unserved := fun h => absurd hserves h
    discarded := consult_of_check_error
    consulted := thinned_consult declared cache w.disk
    refused := fun e he => absurd he nofun
    kept := fun h => absurd hserves h
    entry_whole := fun h => absurd hserves h }

theorem bytesAt?_of_found {p : Path} {d : Disk} {q : Place} {n : Nat} {data : FileData}
    (hf : d.found true p = .ok (q, .file n)) (hdata : d.fileData? n = some data) :
    bytesAt? d p = some data.bytes := by
  have hq : d.entryAt? q = some (.file n) := (Disk.found_eq_ok_iff.1 hf).2
  unfold bytesAt? Disk.fileAt?
  simp only [hf, hq, hdata, Option.map_some]

/-- Where the names of an entry and its draft are apart, the entry holds no part of the payload. -/
theorem entry_of_store {c : Checksum} {d d' : Disk} {directory p : Path} {bytes : ByteArray}
    (h : d.Separates c.cacheKey c.draftKey) (hp : p = directory.join c.cacheKey)
    (hstore : ((store p bytes).run d).2 = d') {q : Place} {n : Nat}
    (hf : d'.found true p = .ok (q, .file n)) :
    (d.entryAt? q = some (.file n) ∧ d'.fileData? n = d.fileData? n) ∨
      bytesAt? d' p = some bytes := by
  have hq : d'.entryAt? q = some (.file n) := (Disk.found_eq_ok_iff.1 hf).2
  have hintact := intact_store p bytes d
  have hcases := whole_or_separates_store h p bytes
  rw [hstore] at hintact hcases
  rcases hcases with hwhole | hseparates
  · rcases hwhole q n hq with hsame | ⟨data, hdata, rfl⟩
    · exact .inl hsame
    · exact .inr (bytesAt?_of_found hf hdata)
  · rcases hintact q n hq with hsame | ⟨data, hdata, rfl⟩ | ⟨r, hr⟩
    · exact .inl hsame
    · exact .inr (bytesAt?_of_found hf hdata)
    · subst hp
      exact absurd hr (apart_of_separates hseparates directory q r n hf)

/-- The condition is needed : where both are names of one file, a write that is cut short cuts the
entry. -/
example :
    let d : Disk :=
      { entries := [([], .directory 0o755), (["k"], .file 0), (["k.tmp"], .file 0)]
        files := [(0, ⟨⟨#[1, 2, 3]⟩, 0o644⟩)]
        faults := [none, none, some ⟨.noSpace, some 1⟩] }
    bytesAt? ((store ⟨"/k"⟩ ⟨#[1, 2, 3]⟩).run d).2 ⟨"/k"⟩ = some ⟨#[1]⟩ := by
  rfl

theorem contract_of_error {fetcher : Fetcher} {url declared : String} {cache : Option Path}
    {w : World} {d d' : Disk} {answer : Except Error ByteArray} {e : Error}
    (hconsult : consult declared cache w.disk = (none, d)) (hfetch : fetcher url d = (answer, d'))
    (he : answer.bind (Verified.check · declared) = .error e) (good : Bool) :
    Contract fetcher url declared cache w (.error e) ⟨d', ⟨.fetch url, good⟩ :: w.journal⟩ := by
  have hunserved := not_serves hconsult
  exact {
    verified := nofun
    origin := nofun
    asked := .inr ⟨good, rfl⟩
    unasked_iff := iff_of_false (List.cons_ne_self _ _) hunserved
    served := fun h => absurd h hunserved
    unserved := fun _ => by
      rw [hconsult, hfetch]
      dsimp only
      rw [he]
    discarded := consult_of_check_error
    consulted := thinned_consult declared cache w.disk
    refused := fun _ _ => by rw [hconsult, hfetch]
    kept := nofun
    entry_whole := nofun }

theorem contract_of_fetched {fetcher : Fetcher} {url declared : String} {cache : Option Path}
    {w : World} {d d' : Disk} {a : Verified}
    (hconsult : consult declared cache w.disk = (none, d))
    (hfetch : fetcher url d = (.ok a.bytes, d')) (hparse : Checksum.parse declared = .ok a.digest) :
    Contract fetcher url declared cache w (.ok a)
      ⟨(keep declared a cache d').2, ⟨.fetch url, true⟩ :: w.journal⟩ := by
  have hunserved := not_serves hconsult
  have hkept : ∀ directory, cache = some directory →
      Intact (draft (entry directory declared)) a.bytes d' (keep declared a cache d').2 := by
    rintro directory rfl
    rw [disk_keep]
    exact intact_store (entry directory declared) a.bytes d'
  have hentry : ∀ directory, cache = some directory →
      d'.Separates a.digest.cacheKey a.digest.draftKey → ∀ q n,
      (keep declared a cache d').2.found true (entry directory declared) = .ok (q, .file n) →
      (d'.entryAt? q = some (.file n) ∧
        (keep declared a cache d').2.fileData? n = d'.fileData? n) ∨
      bytesAt? (keep declared a cache d').2 (entry directory declared) = some a.bytes := by
    rintro directory rfl hd' q n hf
    have hkeep := (disk_keep declared a directory d').symm
    exact entry_of_store hd' (entry_eq hparse directory) hkeep hf
  exact {
    verified := fun b hb => by
      obtain rfl := Except.ok.inj hb
      exact ⟨hparse, a.matches_digest⟩
    origin := fun b hb => by
      obtain rfl := Except.ok.inj hb
      rw [hconsult, hfetch]
      exact .inr rfl
    asked := .inr ⟨true, rfl⟩
    unasked_iff := iff_of_false (List.cons_ne_self _ _) hunserved
    served := fun h => absurd h hunserved
    unserved := fun _ => by
      rw [hconsult, hfetch]
      dsimp only [Except.bind]
      rw [Verified.check_of_parse a hparse]
    discarded := consult_of_check_error
    consulted := thinned_consult declared cache w.disk
    refused := nofun
    kept := fun _ b directory hb hcache => by
      obtain rfl := Except.ok.inj hb
      rw [hconsult, hfetch]
      exact hkept directory hcache
    entry_whole := fun _ b directory hb hcache hseparates hfetcher q n hf => by
      obtain rfl := Except.ok.inj hb
      have hd : d.Separates a.digest.cacheKey a.digest.draftKey := by
        have hthinned := thinned_consult declared cache w.disk
        rw [hconsult] at hthinned
        exact hseparates.thinned hthinned
      have hd' := hfetcher d hd
      rw [hfetch] at hd'
      rw [hconsult, hfetch]
      exact hentry directory hcache hd' q n hf }

/-- A retrieval keeps its promises, on any disk with any faults, with or without a cache, and
whatever the fetcher does and answers. -/
theorem contract_retrieve (fetcher : Fetcher) (url declared : String) (cache : Option Path)
    (w : World) :
    Contract fetcher url declared cache w (retrieve fetcher url declared cache w).1
      (retrieve fetcher url declared cache w).2 := by
  have hr := retrieves fetcher url declared cache w
  generalize retrieve fetcher url declared cache w = result at hr ⊢
  cases hr with
  | hit hconsult => exact contract_of_served hconsult fetcher url
  | missed hconsult hfetches =>
    cases hfetches with
    | @refused _ e hfetch =>
      have he : (Except.error e).bind (Verified.check · declared) = .error e := rfl
      exact contract_of_error hconsult hfetch he false
    | @unfit _ bytes e hfetch hcheck =>
      have he : (Except.ok bytes).bind (Verified.check · declared) = .error e := by
        dsimp only [Except.bind]
        exact hcheck
      exact contract_of_error hconsult hfetch he true
    | fetched hfetch hparse => exact contract_of_fetched hconsult hfetch hparse

end Formulary.Cache
