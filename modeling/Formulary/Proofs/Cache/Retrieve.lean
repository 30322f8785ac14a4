import Formulary.Cache
import Formulary.Proofs.Disk.Removal
import Formulary.Proofs.Disk.Writing
import Formulary.Proofs.Payload

/-!
# Getting a verified payload

`retrieve` is followed through its branches by an inductive type for each step : how an entry is
read and looked up (`looksUp`), how a payload is fetched and got (`fetches`, `retrieves`). To read
an entry changes nothing (`unchanged_readEntry`), and to look one up takes away at most its name
(`thinned_consult`).
-/

namespace Formulary.Cache

/-! ## The steps of a retrieval -/

/-- How an entry is looked up, and with what result. -/
inductive LooksUp (p : Path) (declared : String) (d : Disk) : Option Verified × Disk → Prop
  /-- It cannot be read. -/
  | unread {d' : Disk} : readEntry p d = (none, d') → LooksUp p declared d (none, d')
  /-- What was read does not verify, and the entry is removed. -/
  | discarded {bytes : ByteArray} {e : Error} {d' : Disk} :
    readEntry p d = (some bytes, d') → Verified.check bytes declared = .error e →
      LooksUp p declared d (none, ((Disk.removeFile p).run d').2)
  /-- What was read verifies. -/
  | verified {archive : Verified} {d' : Disk} :
    readEntry p d = (some archive.bytes, d') → Checksum.parse declared = .ok archive.digest →
      LooksUp p declared d (some archive, d')

theorem looksUp (p : Path) (declared : String) (d : Disk) :
    LooksUp p declared d (lookUp p declared d) := by
  unfold lookUp
  rw [bind_apply]
  rcases hread : readEntry p d with ⟨_ | bytes, d'⟩
  · exact .unread hread
  · dsimp only
    cases hcheck : Verified.check bytes declared with
    | error e => exact .discarded hread hcheck
    | ok archive =>
      obtain ⟨rfl, hparse⟩ := Verified.eq_of_check hcheck
      exact .verified hread hparse

/-- What the cache gives was verified against the declared digest. -/
theorem digest_of_consult {declared : String} {cache : Option Path} {d d' : Disk}
    {archive : Verified} (h : consult declared cache d = (some archive, d')) :
    Checksum.parse declared = .ok archive.digest := by
  cases cache with
  | none => exact absurd (congrArg Prod.fst h) nofun
  | some directory =>
    have hl := looksUp (entry directory declared) declared d
    rw [show lookUp (entry directory declared) declared d = (some archive, d') from h] at hl
    cases hl with
    | verified _ hparse => exact hparse

/-- How a payload is fetched from a disk on, and with what result. -/
inductive Fetches (fetcher : Fetcher) (url declared : String) (cache : Option Path) (d : Disk)
    (journal : List Event) : Except Error Verified × World → Prop
  /-- The fetcher does not give it. -/
  | refused {d' : Disk} {e : Error} : fetcher url d = (.error e, d') →
      Fetches fetcher url declared cache d journal (.error e, ⟨d', ⟨.fetch url, false⟩ :: journal⟩)
  /-- The fetcher gives bytes that do not verify. -/
  | unfit {d' : Disk} {bytes : ByteArray} {e : Error} :
    fetcher url d = (.ok bytes, d') → Verified.check bytes declared = .error e →
      Fetches fetcher url declared cache d journal (.error e, ⟨d', ⟨.fetch url, true⟩ :: journal⟩)
  /-- The fetcher gives it, and it is kept. -/
  | fetched {d' : Disk} {archive : Verified} :
    fetcher url d = (.ok archive.bytes, d') → Checksum.parse declared = .ok archive.digest →
      Fetches fetcher url declared cache d journal
        (.ok archive, ⟨(keep declared archive cache d').2, ⟨.fetch url, true⟩ :: journal⟩)

/-- How a payload is got, and with what result. -/
inductive Retrieves (fetcher : Fetcher) (url declared : String) (cache : Option Path) (w : World) :
    Except Error Verified × World → Prop
  /-- The cache gives it. -/
  | hit {archive : Verified} {d : Disk} :
    consult declared cache w.disk = (some archive, d) →
      Retrieves fetcher url declared cache w (.ok archive, { w with disk := d })
  /-- The cache does not, and it is fetched. -/
  | missed {d : Disk} {result : Except Error Verified × World} :
    consult declared cache w.disk = (none, d) →
      Fetches fetcher url declared cache d w.journal result →
      Retrieves fetcher url declared cache w result

section

variable {fetcher : Fetcher} {url declared : String} {cache : Option Path} {w : World} {d d' : Disk}
  {a : Verified}

/-- What the cache gives is what a retrieval gives, with any fetcher. -/
theorem retrieve_of_consult (hconsult : consult declared cache w.disk = (some a, d))
    (fetcher : Fetcher) (url : String) :
    retrieve fetcher url declared cache w = (.ok a, { w with disk := d }) := by
  unfold retrieve
  rw [bind_apply]
  unfold World.onDisk
  rw [hconsult]
  rfl

theorem fetches (fetcher : Fetcher) (url : String)
    (hconsult : consult declared cache w.disk = (none, d)) :
    Fetches fetcher url declared cache d w.journal (retrieve fetcher url declared cache w) := by
  unfold retrieve
  rw [bind_apply]
  unfold World.onDisk
  rw [hconsult]
  dsimp only
  rw [bind_apply]
  unfold fetch
  rw [bind_apply]
  unfold World.call
  dsimp only
  rcases hfetch : fetcher url d with ⟨e | bytes, d'⟩
  · exact .refused hfetch
  · dsimp only
    cases hcheck : Verified.check bytes declared with
    | error e => exact .unfit hfetch hcheck
    | ok archive =>
      obtain ⟨rfl, hparse⟩ := Verified.eq_of_check hcheck
      exact .fetched hfetch hparse

theorem retrieves (fetcher : Fetcher) (url declared : String) (cache : Option Path) (w : World) :
    Retrieves fetcher url declared cache w (retrieve fetcher url declared cache w) := by
  rcases hconsult : consult declared cache w.disk with ⟨_ | archive, d⟩
  · exact .missed hconsult (fetches fetcher url hconsult)
  · rw [retrieve_of_consult hconsult]
    exact .hit hconsult

/-- What the fetcher gives and verifies is got, when the cache gives nothing. -/
theorem retrieve_of_fetched (hconsult : consult declared cache w.disk = (none, d))
    (hfetch : fetcher url d = (.ok a.bytes, d')) (hparse : Checksum.parse declared = .ok a.digest) :
    retrieve fetcher url declared cache w =
      (.ok a, ⟨(keep declared a cache d').2, ⟨.fetch url, true⟩ :: w.journal⟩) := by
  unfold retrieve
  rw [bind_apply]
  unfold World.onDisk
  rw [hconsult]
  dsimp only
  rw [bind_apply]
  unfold fetch
  rw [bind_apply]
  unfold World.call
  dsimp only
  rw [hfetch]
  dsimp only
  rw [Verified.check_of_parse a hparse]
  rfl

end

/-- A payload is not got only when the cache does not give it, and the fetcher does not or gives
bytes that do not verify. -/
theorem missed_of_retrieve {fetcher : Fetcher} {url declared : String} {cache : Option Path}
    {w w' : World} {e : Error} (h : retrieve fetcher url declared cache w = (.error e, w')) :
    ∃ d, consult declared cache w.disk = (none, d) ∧ ((fetcher url d).1 = .error e ∨
      ∃ bytes, Verified.check bytes declared = .error e) := by
  have hr := retrieves fetcher url declared cache w
  rw [h] at hr
  cases hr with
  | @missed d _ hconsult hfetches =>
    refine ⟨d, hconsult, ?_⟩
    cases hfetches with
    | refused hrefused => exact .inl (by rw [hrefused])
    | unfit _ hcheck => exact .inr ⟨_, hcheck⟩

/-- A payload has the declared digest. -/
theorem digest_of_retrieve {fetcher : Fetcher} {url declared : String} {cache : Option Path}
    {w w' : World} {a : Verified} (h : retrieve fetcher url declared cache w = (.ok a, w')) :
    Checksum.parse declared = .ok a.digest := by
  have hr := retrieves fetcher url declared cache w
  rw [h] at hr
  cases hr with
  | hit hconsult => exact digest_of_consult hconsult
  | missed _ hfetches =>
    cases hfetches with
    | fetched _ hparse => exact hparse

/-! ## Reading an entry -/

/-- The bytes of the file that a path leads to. -/
def bytesAt? (d : Disk) (p : Path) : Option ByteArray :=
  match d.found true p with
  | .ok (q, _) => (d.fileAt? q).map FileData.bytes
  | .error _ => none

theorem bytesAt?_of_unchanged {d d' : Disk} (h : d.Unchanged d') {p : Path} {bytes : ByteArray}
    (hbytes : bytesAt? d p = some bytes) : bytesAt? d' p = some bytes := by
  unfold bytesAt? at hbytes ⊢
  cases hf : d.found true p with
  | error cause =>
    rw [hf] at hbytes
    exact absurd hbytes nofun
  | ok found =>
    rw [hf] at hbytes
    rw [h.found hf]
    unfold Disk.fileAt? Disk.entryAt? Disk.fileData? at hbytes ⊢
    rw [h.entries, h.files]
    exact hbytes

/-- What is read is what the path leads to. -/
theorem bytesAt?_of_read {p : Path} {d d' : Disk} {bytes : ByteArray}
    (h : (Disk.read p).run d = (.ok bytes, d')) : bytesAt? d p = some bytes := by
  unfold Disk.read at h
  rcases Disk.run_step _ d with hr | ⟨cause, hr⟩
  · rw [hr, run_bind, run_get] at h
    dsimp only at h
    rw [run_bind] at h
    cases hf : d.past.found true p with
    | error cause =>
      rw [hf] at h
      cases h
    | ok found =>
      obtain ⟨q, e⟩ := found
      rw [hf] at h
      dsimp only [Disk.orFail, run_pure] at h
      cases e with
      | directory mode => cases h
      | link target => cases h
      | file n =>
        dsimp only at h
        rw [Disk.fileData?_past] at h
        have hf' := Disk.found_of_past hf
        cases hdata : d.fileData? n with
        | none =>
          rw [hdata] at h
          cases h
        | some data =>
          rw [hdata] at h
          dsimp only at h
          split at h
          · have hentry : d.entryAt? q = some (.file n) := (Disk.found_eq_ok_iff.1 hf').2
            unfold bytesAt? Disk.fileAt?
            simp only [hf', hentry, hdata]
            cases h
            rfl
          · cases h
  · rw [hr] at h
    cases h

/-- To read changes nothing but faults. -/
theorem obeys_read (p : Path) : Obeys Disk.Unchanged (Disk.read p) := by
  have h := Disk.chained_unchanged
  refine h.step (h.bind h.get fun d => h.bind (h.orFail _) fun found => ?_)
  split
  · split
    · split
      · exact h.pure _
      · exact h.throw _
    · exact h.throw _
  · exact h.throw _

/-- What an entry is read as is what its path leads to, and only faults have changed. -/
theorem unchanged_readEntry (p : Path) (d : Disk) :
    d.Unchanged (readEntry p d).2 ∧
      ∀ bytes, (readEntry p d).1 = some bytes → bytesAt? d p = some bytes := by
  have hthere := Disk.chained_unchanged.isThere p d
  unfold readEntry
  rw [bind_apply]
  rcases hrun : Disk.isThere p d with ⟨_ | _, d₁⟩
  · rw [hrun] at hthere
    exact ⟨hthere, nofun⟩
  · rw [hrun] at hthere
    simp only [Bool.not_true, Bool.false_eq_true, if_false]
    rw [bind_apply]
    have hread := obeys_read p d₁
    rcases hrun : (Disk.read p).run d₁ with ⟨cause | bytes, d₂⟩
    · rw [hrun] at hread
      exact ⟨Disk.chained_unchanged.trans _ _ _ hthere hread, nofun⟩
    · rw [hrun] at hread
      refine ⟨Disk.chained_unchanged.trans _ _ _ hthere hread, fun given hgiven => ?_⟩
      obtain rfl := Option.some.inj hgiven
      exact bytesAt?_of_unchanged hthere.symm (bytesAt?_of_read hrun)

/-- What an entry that is looked up leaves of the disk. -/
theorem thinned_consult (declared : String) (cache : Option Path) (d : Disk) :
    Disk.Thinned
      (fun q => ∃ directory, cache = some directory ∧ d.LeadsTo (entry directory declared) q)
      d (consult declared cache d).2 := by
  cases cache with
  | none => exact .refl d
  | some directory =>
    have hread := (unchanged_readEntry (entry directory declared) d).1
    have hthinned : ∀ {gone : Place → Prop} {d' : Disk}, d.Unchanged d' → Disk.Thinned gone d d' :=
      fun h => ⟨h.files, h.workdir, fun q => .inl (congrArg (Option.map Entry.bare)
        (congrArg (List.lookup q) h.entries))⟩
    show Disk.Thinned _ d (lookUp (entry directory declared) declared d).2
    have hl := looksUp (entry directory declared) declared d
    generalize lookUp (entry directory declared) declared d = result at hl ⊢
    cases hl with
    | unread hr =>
      rw [hr] at hread
      exact hthinned hread
    | discarded hr _ =>
      rw [hr] at hread
      refine (hthinned hread).trans
        ((Disk.thinned_removeFile (entry directory declared) _).mono fun q hq => ?_)
      have hsame : Disk.Thinned (fun _ => False) d _ := hthinned hread
      exact ⟨directory, rfl, hsame.leadsTo hq⟩
    | verified hr _ =>
      rw [hr] at hread
      exact hthinned hread

/-! ## Keeping a payload -/

theorem furnished_makeRoom (p : Path) (d : Disk) : Disk.Furnished d ((makeRoom p).run d).2 := by
  unfold makeRoom
  split
  · exact Disk.furnished_makeDirectories _ d
  · exact .refl d

theorem disk_keep (declared : String) (a : Verified) (directory : Path) (d : Disk) :
    (keep declared a (some directory) d).2 =
      ((store (entry directory declared) a.bytes).run d).2 := by
  unfold keep
  dsimp only
  rw [bind_apply]
  rcases (store (entry directory declared) a.bytes).run d with ⟨made, d'⟩
  rfl

end Formulary.Cache
