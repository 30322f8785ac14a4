import Formulary.Kitchen
import Formulary.Proofs.Cache.Store

/-!
# A cache of one's own

Retrievals share a cache directory that holds nothing or is not there at first, and that nobody else
touches (`Run`). On every run the names in the directory are the keys of digests that the contents
have (`Kept`), and what was got once is given again without the fetcher (`shared_cache`).

One retrieval finds an entry, which then verifies and leaves all as it is, or adds one under a key
that no name has, to the directory that is there or that it makes. `Run.kept` and `Run.begun` carry
these facts over whole runs.
-/

namespace Formulary.Cache

variable {directory : Path} {q : Place} {mode : Nat} {d d' : Disk} {c : Checksum}

/-! ## What others leave alone -/

/-- The directory of the cache, the names in it and their files are as before, and no fault is
coming that was not. A directory that is not there can be made as before. -/
structure Leaves (directory : Path) (d d' : Disk) : Prop where
  faults : d'.faults = d.faults
  superuser : d'.superuser = d.superuser
  leads : ∀ q e, d.found true directory = .ok (q, e) → d'.found true directory = .ok (q, e)
  entries : ∀ q e, d.found true directory = .ok (q, e) →
    ∀ name, d'.entryAt? (q ++ [name]) = d.entryAt? (q ++ [name])
  files : ∀ q e, d.found true directory = .ok (q, e) →
    ∀ name n, d.entryAt? (q ++ [name]) = some (.file n) → d'.fileData? n = d.fileData? n
  unmade : ∀ q mode, Unmade directory q mode d → Unmade directory q mode d'

/-- The fetcher does nothing to the cache as it finds it. -/
def LeavesAlone (fetcher : Fetcher) (url : String) (directory : Path) (d : Disk) : Prop :=
  Leaves directory d (fetcher url d).2

theorem Leaves.refl (directory : Path) (d : Disk) : Leaves directory d d :=
  ⟨rfl, rfl, fun _ _ h => h, fun _ _ _ _ => rfl, fun _ _ _ _ _ _ => rfl, fun _ _ h => h⟩

/-! ## What the cache holds -/

/-- The directory can be used, and each name in it is the key of a digest that its content has. -/
structure Kept (directory : Path) (q : Place) (mode : Nat) (d : Disk) : Prop where
  ready : Ready directory q mode d
  entries : ∀ name e, d.entryAt? (q ++ [name]) = some e → ∃ n data c, e = .file n ∧
    d.fileData? n = some data ∧ data.mode = Disk.fileMode ∧ name = Checksum.cacheKey c ∧
    c.Matches data.bytes

/-- The entry of the checksum holds the bytes. -/
def Gives (d : Disk) (q : Place) (c : Checksum) (bytes : ByteArray) : Prop :=
  ∃ n data, d.entryAt? (q ++ [c.cacheKey]) = some (.file n) ∧ d.fileData? n = some data ∧
    data.bytes = bytes

/-- An entry has the content that its name says. -/
theorem Kept.content (h : Kept directory q mode d) {e : Entry}
    (he : d.entryAt? (q ++ [c.cacheKey]) = some e) : ∃ n data, e = .file n ∧
      d.fileData? n = some data ∧ data.mode = Disk.fileMode ∧ c.Matches data.bytes := by
  obtain ⟨n, data, c', rfl, hdata, hmode, hkey, hmatches⟩ := h.entries _ e he
  obtain rfl := Checksum.cacheKey_injective hkey
  exact ⟨n, data, rfl, hdata, hmode, hmatches⟩

theorem Kept.gives_or (h : Kept directory q mode d) (c : Checksum) :
    d.entryAt? (q ++ [c.cacheKey]) = none ∨ ∃ bytes, Gives d q c bytes := by
  cases he : d.entryAt? (q ++ [c.cacheKey]) with
  | none => exact .inl rfl
  | some e =>
    obtain ⟨n, data, rfl, hdata, -, -⟩ := h.content he
    exact .inr ⟨data.bytes, n, data, he, hdata, rfl⟩

/-- No draft is left over. -/
theorem Kept.draft_none (h : Kept directory q mode d) (c : Checksum) :
    d.entryAt? (q ++ [c.draftKey]) = none := by
  cases he : d.entryAt? (q ++ [c.draftKey]) with
  | none => rfl
  | some e =>
    obtain ⟨_, _, c', _, _, _, hkey, _⟩ := h.entries _ e he
    exact absurd hkey (c.draftKey_ne_cacheKey c')

/-! ## What a cache gives -/

theorem permits_fileMode (d : Disk) : d.permits Disk.fileMode .read = true := by
  unfold Disk.permits
  rw [show (Disk.fileMode / Disk.Right.read.bit % 2 == 1) = true by decide, Bool.or_true]

theorem Kept.readEntry (h : Kept directory q mode d) {bytes : ByteArray}
    (hgives : Gives d q c bytes) :
    readEntry (directory.join c.cacheKey) d = (some bytes, d) := by
  obtain ⟨n, data, he, hdata, rfl⟩ := hgives
  obtain ⟨n', data', hn, hdata', hmode, -⟩ := h.content he
  obtain rfl := Entry.file.inj hn
  obtain rfl := Option.some.inj (hdata.symm.trans hdata')
  exact h.ready.readEntry he hdata (by rw [hmode]; exact permits_fileMode d)

/-- What an entry gives verifies. -/
theorem Kept.matches (h : Kept directory q mode d) {bytes : ByteArray}
    (hgives : Gives d q c bytes) : c.Matches bytes := by
  obtain ⟨n, data, he, hdata, rfl⟩ := hgives
  obtain ⟨n', data', hn, hdata', -, hmatches⟩ := h.content he
  obtain rfl := Entry.file.inj hn
  obtain rfl := Option.some.inj (hdata.symm.trans hdata')
  exact hmatches

variable {declared : String}

/-- An entry that is there is given, with any fetcher, and nothing changes. -/
theorem Kept.retrieve_of_gives {w : World} (h : Kept directory q mode w.disk)
    (hparse : Checksum.parse declared = .ok c) {bytes : ByteArray}
    (hgives : Gives w.disk q c bytes) :
    ∃ a : Verified, a.bytes = bytes ∧ a.digest = c ∧
      ∀ fetcher url, retrieve fetcher url declared (some directory) w = (.ok a, w) := by
  have hmatches := h.matches hgives
  have hconsult : consult declared (some directory) w.disk =
      (some ⟨bytes, c, hmatches⟩, w.disk) := by
    show lookUp (entry directory declared) declared w.disk = _
    unfold lookUp
    rw [entry_eq hparse, bind_apply, h.readEntry hgives]
    dsimp only
    rw [Verified.check_of_parse ⟨bytes, c, hmatches⟩ hparse]
    rfl
  exact ⟨⟨bytes, c, hmatches⟩, rfl, rfl, fun fetcher url =>
    retrieve_of_consult hconsult fetcher url⟩

/-- Whoever asks is told that the entry is there. -/
theorem Kept.holds (h : Kept directory q mode d) (hparse : Checksum.parse declared = .ok c)
    {bytes : ByteArray} (hgives : Gives d q c bytes) :
    holds declared (some directory) d = (true, d) := by
  obtain ⟨n, data, he, -, -⟩ := hgives
  show Disk.isFile (entry directory declared) d = _
  rw [entry_eq hparse]
  exact Disk.isKind_of_found h.ready.faults (h.ready.found_entry he true) .file

/-! ## What one step preserves -/

/-- What the cache gave it gives still. -/
def StillGives (q : Place) (d d' : Disk) : Prop :=
  ∀ c bytes, Gives d q c bytes → Gives d' q c bytes

theorem Kept.leaves (h : Kept directory q mode d) (hleaves : Leaves directory d d') :
    Kept directory q mode d' ∧ StillGives q d d' := by
  have hentry := hleaves.entries q _ h.ready.leads
  have hfile := hleaves.files q _ h.ready.leads
  have hpermits : ∀ r, d'.permits mode r = d.permits mode r := fun r => by
    unfold Disk.permits
    rw [hleaves.superuser]
  refine ⟨⟨⟨hleaves.faults.trans h.ready.faults, hleaves.leads q _ h.ready.leads,
    (hpermits _).trans h.ready.search, (hpermits _).trans h.ready.write, h.ready.room⟩,
    fun name e he => ?_⟩, fun c bytes hgives => ?_⟩
  · rw [hentry] at he
    obtain ⟨n, data, c, rfl, hdata, hrest⟩ := h.entries name e he
    exact ⟨n, data, c, rfl, (hfile name n he).trans hdata, hrest⟩
  · obtain ⟨n, data, he, hdata, hbytes⟩ := hgives
    exact ⟨n, data, (hentry _).trans he, (hfile _ n he).trans hdata, hbytes⟩

/-- A payload that is kept under a key without an entry is one more entry. -/
theorem Kept.stored (h : Kept directory q mode d) (hnone : d.entryAt? (q ++ [c.cacheKey]) = none)
    {bytes : ByteArray} (hmatches : c.Matches bytes) :
    Kept directory q mode (stored d q c bytes) ∧ StillGives q d (stored d q c bytes) ∧
      Gives (stored d q c bytes) q c bytes := by
  have hdraft := h.draft_none c
  have hentry := entryAt?_stored hdraft bytes
  have hfile := fileData?_stored d q c bytes
  have hnew : (Cache.stored d q c bytes).entryAt? (q ++ [c.cacheKey]) = some (.file d.unused) :=
    (hentry _).trans (if_pos rfl)
  have hdata : (Cache.stored d q c bytes).fileData? d.unused = some ⟨bytes, Disk.fileMode⟩ :=
    (hfile _).trans (if_pos rfl)
  -- a file that had a name is none with the unused number
  have hold : ∀ {r n}, d.entryAt? r = some (.file n) → n ≠ d.unused := by
    rintro r n he rfl
    exact Disk.entryAt?_ne_unused he
  refine ⟨⟨h.ready.keep hnone hdraft bytes, fun name e he => ?_⟩, fun c' given hgives => ?_,
    ⟨_, _, hnew, hdata, rfl⟩⟩
  · by_cases hname : name = c.cacheKey
    · subst hname
      rw [hnew, Option.some.injEq] at he
      exact ⟨_, _, c, he.symm, hdata, rfl, rfl, hmatches⟩
    · rw [hentry, if_neg fun heq => hname (append_singleton_inj heq)] at he
      obtain ⟨n, data, c', rfl, hn, hrest⟩ := h.entries name e he
      exact ⟨n, data, c', rfl, by rw [hfile, if_neg (hold he), hn], hrest⟩
  · obtain ⟨n, data, he, hn, hbytes⟩ := hgives
    refine ⟨n, data, ?_, by rw [hfile, if_neg (hold he), hn], hbytes⟩
    rw [hentry, if_neg, he]
    intro heq
    rw [heq, hnone] at he
    exact absurd he nofun

/-- A retrieval keeps the cache, and what it got the cache gives from then on. -/
theorem Kept.retrieve {w : World} (h : Kept directory q mode w.disk) {fetcher : Fetcher}
    {url : String} (hfetcher : LeavesAlone fetcher url directory w.disk)
    (hparse : Checksum.parse declared = .ok c) :
    let r := retrieve fetcher url declared (some directory) w
    Kept directory q mode r.2.disk ∧ StillGives q w.disk r.2.disk ∧
      ∀ a, r.1 = .ok a → a.digest = c ∧ Gives r.2.disk q c a.bytes := by
  rcases h.gives_or c with hnone | ⟨bytes, hgives⟩
  · have hconsult := h.ready.consult_of_none hparse hnone
    obtain ⟨hkept, hstill⟩ := h.leaves hfetcher
    have hnone' := (hfetcher.entries q _ h.ready.leads c.cacheKey).trans hnone
    intro r
    have hr : Fetches fetcher url declared (some directory) w.disk w.journal r :=
      fetches fetcher url hconsult
    generalize r = result at hr ⊢
    cases hr with
    | refused hfetch =>
      rw [hfetch] at hkept hstill
      exact ⟨hkept, hstill, nofun⟩
    | unfit hfetch _ =>
      rw [hfetch] at hkept hstill
      exact ⟨hkept, hstill, nofun⟩
    | @fetched d' a hfetch hdigest =>
      rw [hfetch] at hkept hstill hnone'
      obtain rfl := Except.ok.inj (hparse.symm.trans hdigest)
      obtain ⟨hkept', hstill', hnew⟩ := hkept.stored hnone' a.matches_digest
      have hstore := hkept.ready.run_store a.bytes hnone' (hkept.draft_none a.digest)
      dsimp only
      rw [disk_keep, entry_eq hparse, hstore]
      refine ⟨hkept', fun c bytes hc => hstill' c bytes (hstill c bytes hc), fun b hb => ?_⟩
      obtain rfl := Except.ok.inj hb
      exact ⟨rfl, hnew⟩
  · obtain ⟨a, rfl, rfl, hretrieve⟩ := h.retrieve_of_gives hparse hgives
    intro r
    have hr : r = (.ok a, w) := hretrieve fetcher url
    rw [hr]
    refine ⟨h, fun _ _ hc => hc, fun b hb => ?_⟩
    obtain rfl := Except.ok.inj hb
    exact ⟨rfl, hgives⟩

/-- The cache is kept, or its directory is still to be made. -/
def Begun (directory : Path) (q : Place) (mode : Nat) (d : Disk) : Prop :=
  Kept directory q mode d ∨ Unmade directory q mode d

theorem Ready.kept (h : Ready directory q mode d)
    (hempty : ∀ name, d.entryAt? (q ++ [name]) = none) :
    Kept directory q mode d :=
  ⟨h, fun name _ he => absurd ((hempty name).symm.trans he) nofun⟩

/-- Where the directory is not there, a retrieval that gets a payload makes it. -/
theorem Unmade.retrieve {w : World} (h : Unmade directory q mode w.disk) {fetcher : Fetcher}
    {url : String} (hfetcher : LeavesAlone fetcher url directory w.disk)
    (hparse : Checksum.parse declared = .ok c) :
    let r := retrieve fetcher url declared (some directory) w
    Begun directory q mode r.2.disk ∧
      ∀ a, r.1 = .ok a → a.digest = c ∧ Kept directory q mode r.2.disk ∧
        Gives r.2.disk q c a.bytes := by
  have hconsult := consult_of_not_found h.faults hparse (h.found_join c.plain_cacheKey true)
  have hunmade := hfetcher.unmade q mode h
  intro r
  have hr : Fetches fetcher url declared (some directory) w.disk w.journal r :=
    fetches fetcher url hconsult
  generalize r = result at hr ⊢
  cases hr with
  | refused hfetch =>
    rw [hfetch] at hunmade
    exact ⟨.inr hunmade, nofun⟩
  | unfit hfetch _ =>
    rw [hfetch] at hunmade
    exact ⟨.inr hunmade, nofun⟩
  | @fetched d' a hfetch hdigest =>
    rw [hfetch] at hunmade
    obtain rfl := Except.ok.inj (hparse.symm.trans hdigest)
    obtain ⟨made, hready, hempty, hstore⟩ := hunmade.run_store a.digest a.bytes
    obtain ⟨hkept, -, hgives⟩ := (hready.kept hempty).stored (hempty _) a.matches_digest
    dsimp only
    rw [disk_keep, entry_eq hparse, hstore]
    refine ⟨.inl hkept, fun b hb => ?_⟩
    obtain rfl := Except.ok.inj hb
    exact ⟨rfl, hkept, hgives⟩

/-! ## Runs -/

/-- Retrievals for well-formed checksums share the cache directory, in any number and order, and
whatever else happens between them happens elsewhere. -/
inductive Run (directory : Path) : World → World → Prop
  | refl (w : World) : Run directory w w
  /-- A payload is asked for. -/
  | retrieval {w w' : World} {fetcher : Fetcher} {url declared : String} {c : Checksum} :
    Run directory w w' → LeavesAlone fetcher url directory w'.disk →
      Checksum.parse declared = .ok c →
      Run directory w (retrieve fetcher url declared (some directory) w').2
  /-- Something else is done. -/
  | elsewhere {w w' w'' : World} :
    Run directory w w' → Leaves directory w'.disk w''.disk → Run directory w w''

/-- By induction on the run. -/
theorem Run.kept {w w' : World} (hrun : Run directory w w') (h : Kept directory q mode w.disk) :
    Kept directory q mode w'.disk ∧ StillGives q w.disk w'.disk := by
  induction hrun with
  | refl => exact ⟨h, fun _ _ hc => hc⟩
  | @retrieval w' fetcher url declared c _ hfetcher hparse ih =>
    obtain ⟨hkept, hstill, -⟩ := ih.1.retrieve hfetcher hparse
    exact ⟨hkept, fun c bytes hc => hstill c bytes (ih.2 c bytes hc)⟩
  | elsewhere _ hleaves ih =>
    obtain ⟨hkept, hstill⟩ := ih.1.leaves hleaves
    exact ⟨hkept, fun c bytes hc => hstill c bytes (ih.2 c bytes hc)⟩

/-- By induction on the run. -/
theorem Run.begun {w w' : World} (hrun : Run directory w w') (h : Begun directory q mode w.disk) :
    Begun directory q mode w'.disk := by
  induction hrun with
  | refl => exact h
  | @retrieval w' fetcher url declared c _ hfetcher hparse ih =>
    rcases ih with hkept | hunmade
    · exact .inl (hkept.retrieve hfetcher hparse).1
    · exact (hunmade.retrieve hfetcher hparse).1
  | elsewhere _ hleaves ih =>
    rcases ih with hkept | hunmade
    · exact .inl (hkept.leaves hleaves).1
    · exact .inr (hleaves.unmade q mode hunmade)

/-- What was got is kept, and the cache gives it. -/
theorem Begun.retrieve {w : World} (h : Begun directory q mode w.disk) {fetcher : Fetcher}
    {url : String} (hfetcher : LeavesAlone fetcher url directory w.disk)
    (hparse : Checksum.parse declared = .ok c) {a : Verified}
    (ha : (retrieve fetcher url declared (some directory) w).1 = .ok a) :
    Kept directory q mode (retrieve fetcher url declared (some directory) w).2.disk ∧
      Gives (retrieve fetcher url declared (some directory) w).2.disk q c a.bytes := by
  rcases h with hkept | hunmade
  · obtain ⟨hkept', -, hgot⟩ := hkept.retrieve hfetcher hparse
    exact ⟨hkept', (hgot a ha).2⟩
  · exact ((hunmade.retrieve hfetcher hparse).2 a ha).2

/-- Two texts share an entry exactly when they are texts of one checksum. -/
theorem entry_eq_iff (h : directory.text ≠ "") {s t : String} {c c' : Checksum}
    (hs : Checksum.parse s = .ok c) (ht : Checksum.parse t = .ok c') :
    entry directory s = entry directory t ↔ c = c' := by
  rw [entry_eq hs, entry_eq ht]
  constructor
  · intro heq
    have hlist := congrArg (fun p => p.text.toList) heq
    rw [Path.toList_join h c.plain_cacheKey, Path.toList_join h c'.plain_cacheKey] at hlist
    exact Checksum.cacheKey_injective
      (String.toList_inj.1 (List.cons.inj (List.append_cancel_left hlist)).2)
  · rintro rfl
    rfl

/-- A cache directory that holds nothing at first, or that is not there and can be made, where file
operations succeed and that nobody else touches. At every point of every run, whatever the URLs and
the answers of the fetchers : each name in it is the key of a digest that its content has. While it
is there, which it stays, the entry of a checksum text is the name that its digest gives, the same
for two texts exactly when they denote one algorithm and digest. Once a payload was got, the
directory is there and every text of its digest gets its bytes from then on, whatever the URL and
the fetcher, which is not asked, and the source counts as cached. -/
theorem shared_cache {directory : Path} {q : Place} {mode : Nat} {w : World}
    (hstart : Ready directory q mode w.disk ∧ (∀ name, w.disk.entryAt? (q ++ [name]) = none) ∨
      Unmade directory q mode w.disk) :
    (∀ w', Run directory w w' →
      (∀ name e, w'.disk.entryAt? (q ++ [name]) = some e → ∃ n data c, e = .file n ∧
        w'.disk.fileData? n = some data ∧ name = Checksum.cacheKey c ∧
        Checksum.of c.algorithm data.bytes = c) ∧
      (Ready directory q mode w.disk → Ready directory q mode w'.disk) ∧
      (Ready directory q mode w'.disk → ∀ s c, Checksum.parse s = .ok c →
        w'.disk.target true (entry directory s) = .ok ⟨q ++ [c.cacheKey], false⟩)) ∧
    (∀ s t c c', Checksum.parse s = .ok c → Checksum.parse t = .ok c' →
      (entry directory s = entry directory t ↔ c = c')) ∧
    ∀ w₁ fetcher url s a w₂, Run directory w w₁ → LeavesAlone fetcher url directory w₁.disk →
      retrieve fetcher url s (some directory) w₁ = (.ok a, w₂) →
      ∀ w₃, Run directory w₂ w₃ → Ready directory q mode w₃.disk ∧
        ∀ t, Checksum.parse t = .ok a.digest →
          (∃ a' : Verified, a'.bytes = a.bytes ∧ ∀ fetcher' url',
            retrieve fetcher' url' t (some directory) w₃ = (.ok a', w₃)) ∧
          ∀ (k : Kitchen) (f : Formula), k.config.sourceCache = some directory →
            f.source.checksum = t → (k.isCached f w₃.disk).1 = true := by
  have hbegun : Begun directory q mode w.disk :=
    hstart.imp_left fun ⟨hready, hempty⟩ => hready.kept hempty
  have htext : directory.text ≠ "" := by
    rcases hbegun with hkept | hunmade
    · exact hkept.ready.text_ne
    · obtain ⟨_, -, hready, -⟩ := hunmade.made
      exact hready.text_ne
  have hnever : ∀ {d}, Ready directory q mode d → ¬Unmade directory q mode d :=
    fun hready hunmade => hunmade.absent _ hready.leads
  refine ⟨fun w' hrun => ⟨fun name e he => ?_, fun hready => ?_, fun hready s c hs => ?_⟩,
    fun s t c c' => entry_eq_iff htext, fun w₁ fetcher url s a w₂ hrun hfetcher hgot => ?_⟩
  · rcases hrun.begun hbegun with hkept | hunmade
    · obtain ⟨n, data, c, he, hdata, -, hname, hmatches⟩ := hkept.entries name e he
      exact ⟨n, data, c, he, hdata, hname, hmatches⟩
    · exact absurd ((hunmade.entryAt?_none name).symm.trans he) nofun
  · have hkept := hbegun.resolve_right (hnever hready)
    exact (hrun.kept hkept).1.ready
  · have hkept := (hrun.begun hbegun).resolve_right (hnever hready)
    rw [entry_eq hs]
    refine hready.target_entry (fun target hlink => ?_) true
    obtain ⟨n, -, hfile, -⟩ := hkept.content hlink
    exact absurd hfile nofun
  · have hs := digest_of_retrieve hgot
    obtain ⟨hkept₂, hgives⟩ := (hrun.begun hbegun).retrieve hfetcher hs (by rw [hgot])
    rw [hgot] at hkept₂ hgives
    intro w₃ hrun'
    obtain ⟨hkept₃, hstill⟩ := hrun'.kept hkept₂
    have hgives₃ := hstill _ _ hgives
    refine ⟨hkept₃.ready, fun t ht => ⟨?_, fun k f hcache hf => ?_⟩⟩
    · obtain ⟨a', hbytes, -, hretrieve⟩ := hkept₃.retrieve_of_gives ht hgives₃
      exact ⟨a', hbytes, hretrieve⟩
    · unfold Kitchen.isCached
      rw [hcache, hf, hkept₃.holds ht hgives₃]

/-- A disk that holds nothing. -/
def bare : Disk := {}

theorem unmade_bare : Unmade ((⟨"/"⟩ : Path).join "c") ["c"] Disk.directoryMode bare := by
  have hentry : ∀ q, bare.entryAt? q = if q = [] then some (.directory 0o755) else none := by
    intro q
    refine (Disk.lookup_of_cons _ _ _ _).trans ?_
    rw [List.lookup_nil]
  have hready : Ready ⟨"/"⟩ [] 0o755 bare := ⟨rfl, rfl, rfl, rfl, by decide +kernel⟩
  have hplain : Disk.Plain "c" := ⟨by decide, by decide, ⟨[], 'c', rfl, by decide⟩, by decide⟩
  refine hready.unmade (fun q name e he => ?_) hplain ((hentry _).trans (if_neg (by simp)))
    (by decide +kernel)
  rw [hentry, if_neg (by simp)] at he
  exact absurd he nofun

/-- A second fetcher is not asked for what a first one gave, be it for another URL, where the cache
was not there before. -/
theorem shared_cache_second :
    let directory := (⟨"/"⟩ : Path).join "c"
    let bytes : ByteArray := ⟨#[1, 2, 3]⟩
    let declared := (Checksum.of .sha256 bytes).display
    let got := retrieve (fun _ d => (.ok bytes, d)) "u" declared (some directory) ⟨bare, []⟩
    ∃ a : Verified, a.bytes = bytes ∧
      retrieve (fun _ d => (.error (.fetch "gone"), d)) "v" declared (some directory) got.2 =
        (.ok a, got.2) := by
  -- the bytes do not matter
  generalize (⟨#[1, 2, 3]⟩ : ByteArray) = bytes
  intro directory bytes declared got
  have hparse : Checksum.parse declared = .ok (.of .sha256 bytes) := Checksum.parse_display _
  have hgot : got = (.ok ⟨bytes, .of .sha256 bytes, Checksum.matches_of ..⟩, got.2) := by
    have hconsult := consult_of_not_found unmade_bare.faults hparse
      (unmade_bare.found_join (Checksum.plain_cacheKey _) true)
    have hfetched : got = (.ok ⟨bytes, .of .sha256 bytes, Checksum.matches_of ..⟩, _) :=
      retrieve_of_fetched hconsult rfl hparse
    exact hfetched.trans (by rw [hfetched])
  have halone : LeavesAlone (fun _ d => (.ok bytes, d)) "u" directory bare := .refl directory bare
  have hshared := (shared_cache (w := ⟨bare, []⟩) (.inr unmade_bare)).2.2 _ _ _ _ _ _ (.refl _)
    halone hgot _ (.refl _)
  obtain ⟨a, hbytes, hretrieve⟩ := (hshared.2 declared hparse).1
  exact ⟨a, hbytes, hretrieve _ _⟩

end Formulary.Cache
