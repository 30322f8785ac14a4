import Formulary.Proofs.Installation.Prefix
import Formulary.Proofs.Installation.Remains

/-!
# What an installation comes to

Artifacts are looked at in order, and an installation fails for the first that does not pass, before
anything is done. When it succeeds, each destination has what was last to go to its file, and
outside the prefix all is as before (`Installation.refuses_or_delivers`). Two destinations that are
names of one file beforehand have one content (`Installation.not_own_content`).
-/

namespace Formulary

theorem exists_of_forall₂_mem {α β : Type} {r : α → β → Prop} {as : List α} {bs : List β}
    (h : List.Forall₂ r as bs) {a : α} (ha : a ∈ as) : ∃ b ∈ bs, r a b := by
  obtain ⟨before, behind, rfl⟩ := List.append_of_mem ha
  obtain ⟨left, b, right, rfl, -, hab, -⟩ := exists_of_forall₂_append h.flip
  exact ⟨b, List.mem_append_right left List.mem_cons_self, hab⟩

/-- What holds of some item holds of a last one. -/
theorem exists_last_of_mem {α : Type} {p : α → Prop} {l : List α} (h : ∃ a ∈ l, p a) :
    ∃ before c behind, l = before ++ c :: behind ∧ p c ∧ ∀ b ∈ behind, ¬p b := by
  induction l with
  | nil => simp at h
  | cons a l ih =>
    by_cases hl : ∃ b ∈ l, p b
    · obtain ⟨before, c, behind, rfl, hc, hbehind⟩ := ih hl
      exact ⟨a :: before, c, behind, rfl, hc, hbehind⟩
    · obtain ⟨b, hb, hpb⟩ := h
      rcases List.mem_cons.1 hb with rfl | hb
      · exact ⟨[], b, l, rfl, hpb, fun c hc hpc => hl ⟨c, hc, hpc⟩⟩
      · exact absurd ⟨b, hb, hpb⟩ hl

namespace Installation

open Disk (Below Filled KeepsApart LeadsToFile Unchanged)

variable {workdir base : Path} {artifacts : List Artifact} {d d' : Disk}

/-! ## What is looked at first -/

/-- The source of the artifact is a file. -/
def IsProduced (workdir : Path) (d : Disk) (a : Artifact) : Prop :=
  ∃ q n, d.found true (workdir.join a.path) = .ok (q, .file n)

/-- The artifact has somewhere to go, and its source is a file. -/
structure Passes (workdir : Path) (d : Disk) (a : Artifact) : Prop where
  destination : ∃ dest, Destination.check a.dest = .ok dest
  produced : IsProduced workdir d a

/-- Why an artifact does not pass, when a number of others did. -/
inductive Blames (workdir : Path) (d : Disk) (i : Nat) (a : Artifact) : Failure → Prop
  | destination {refusal : Destination.Refusal} : Destination.check a.dest = .error refusal →
    Blames workdir d i a (.destination refusal)
  | source {dest : Destination} : Destination.check a.dest = .ok dest → ¬IsProduced workdir d a →
    Blames workdir d i a (.notProduced (workdir.join a.path))
  /-- The disk fails to tell what the source is. -/
  | fault {dest : Destination} {f : Fault} : Destination.check a.dest = .ok dest →
    d.faults[i]? = some (some f) → Blames workdir d i a (.notProduced (workdir.join a.path))

theorem isProduced_past {a : Artifact} : IsProduced workdir d.past a ↔ IsProduced workdir d a :=
  ⟨fun ⟨q, n, h⟩ => ⟨q, n, Disk.found_of_past h⟩,
    fun ⟨q, n, h⟩ => ⟨q, n, (Disk.chained_unchanged.past d).found h⟩⟩

theorem Passes.of_past {a : Artifact} (h : Passes workdir d.past a) : Passes workdir d a :=
  ⟨h.destination, isProduced_past.1 h.produced⟩

theorem Blames.of_past {a : Artifact} {i : Nat} {failure : Failure}
    (h : Blames workdir d.past i a failure) : Blames workdir d (i + 1) a failure := by
  cases h with
  | destination hdest => exact .destination hdest
  | source hdest hsource => exact .source hdest (mt isProduced_past.2 hsource)
  | fault hdest hfault => exact .fault hdest (List.getElem?_tail.symm.trans hfault)

/-- An artifact passes and its copy is planned, or it is to blame. -/
theorem check_cases (workdir base : Path) (a : Artifact) (d : Disk) :
    (∃ s, (check workdir base a).run d = (.ok s, d.past) ∧ Plans workdir base a s ∧
      Passes workdir d a) ∨
    ∃ failure d', (check workdir base a).run d = (.error failure, d') ∧
      Blames workdir d 0 a failure := by
  unfold check
  cases hdest : Destination.check a.dest with
  | error refusal => exact .inr ⟨_, d, rfl, .destination hdest⟩
  | ok dest =>
    dsimp only
    rw [run_bind, run_liftM]
    rcases Disk.isFile_cases (workdir.join a.path) d with ⟨hr, hfile⟩ | ⟨hr, hnot⟩
    · rw [hr]
      exact .inl ⟨_, rfl, ⟨dest, hdest, rfl⟩, ⟨dest, hdest⟩, hfile⟩
    · rw [hr]
      refine .inr ⟨_, _, rfl, ?_⟩
      rcases hnot with hnot | ⟨f, hf⟩
      · exact .source hdest hnot
      · exact .fault hdest hf

/-- All artifacts pass, or the first that does not is to blame. By induction on them. -/
theorem checks_cases (workdir base : Path) (artifacts : List Artifact) (d : Disk) :
    (∃ steps d', (artifacts.mapM (check workdir base)).run d = (.ok steps, d') ∧
      List.Forall₂ (Plans workdir base) artifacts steps ∧ ∀ a ∈ artifacts, Passes workdir d a) ∨
    ∃ before a behind failure d', artifacts = before ++ a :: behind ∧
      (artifacts.mapM (check workdir base)).run d = (.error failure, d') ∧
      (∀ b ∈ before, Passes workdir d b) ∧ Blames workdir d before.length a failure := by
  induction artifacts generalizing d with
  | nil => exact .inl ⟨[], d, rfl, .nil, nofun⟩
  | cons a artifacts ih =>
    rw [List.mapM_cons, run_bind]
    rcases check_cases workdir base a d with ⟨s, hr, hplans, hpasses⟩ | ⟨failure, d', hr, hblames⟩
    · rw [hr]
      dsimp only
      rw [run_bind]
      rcases ih d.past with ⟨steps, d', hrest, hall, hpass⟩ |
        ⟨before, b, behind, failure, d', rfl, hrest, hpass, hblames⟩
      · rw [hrest]
        refine .inl ⟨s :: steps, d', rfl, .cons hplans hall, fun b hb => ?_⟩
        rcases List.mem_cons.1 hb with rfl | hb
        · exact hpasses
        · exact (hpass b hb).of_past
      · rw [hrest]
        refine .inr ⟨a :: before, b, behind, failure, d', rfl, rfl, fun c hc => ?_, hblames.of_past⟩
        rcases List.mem_cons.1 hc with rfl | hc
        · exact hpasses
        · exact (hpass c hc).of_past
    · rw [hr]
      exact .inr ⟨[], a, artifacts, failure, d', rfl, rfl, nofun, hblames⟩

/-- When some artifact does not pass, an installation fails for the first one, and does nothing. -/
theorem exists_of_not_passes (base : Path) (h : ∃ a ∈ artifacts, ¬Passes workdir d a) :
    ∃ before a behind failure d', artifacts = before ++ a :: behind ∧
      (run workdir base artifacts).run d = (.error failure, d') ∧ Unchanged d d' ∧
      (∀ b ∈ before, Passes workdir d b) ∧ Blames workdir d before.length a failure := by
  have hunchanged := obeys_checks workdir base artifacts d
  unfold run
  rw [run_bind]
  rcases checks_cases workdir base artifacts d with ⟨_, _, -, -, hpass⟩ |
    ⟨before, a, behind, failure, d', hsplit, hr, hpass, hblames⟩
  · obtain ⟨a, ha, hnot⟩ := h
    exact absurd (hpass a ha) hnot
  · rw [hr] at hunchanged ⊢
    exact ⟨before, a, behind, failure, d', hsplit, rfl, hunchanged, hpass, hblames⟩

/-! ## What is copied then -/

/-- A named step that succeeds is the step. -/
theorem run_of_run_named {α : Type} {act : DiskM α} {f : Cause → Failure} {a : α}
    (h : (named act f).run d = (.ok a, d')) : act.run d = (.ok a, d') := by
  unfold named at h
  rw [run_bind, run_liftM] at h
  dsimp only at h
  rcases hr : act.run d with ⟨cause | b, d₁⟩
  · rw [hr] at h
    cases h
  · rw [hr] at h
    cases h
    rfl

/-- The directories for a target leave files and paths as they are. -/
theorem kept_of_run_makeRoom {s : Step} {u : Unit}
    (h : (makeRoom s.target).run d = (.ok u, d')) :
    Filled [s.target] d d' ∧ ∀ n, d'.fileData? n = d.fileData? n := by
  have hfilled := meets_makeRoom (s := s) List.mem_cons_self d d
    ((Disk.chained_filled [s.target]).refl d)
  rw [h] at hfilled
  refine ⟨hfilled, ?_⟩
  unfold makeRoom at h
  split at h
  · rename_i above _
    have hfurnished := Disk.furnished_makeDirectories above d
    rw [run_of_run_named h] at hfurnished
    exact hfurnished.fileData?
  · cases h
    exact fun _ => rfl

/-- A copy that is carried out puts the bytes of its source into the file that its target leads to,
with its mode, unless that is the source itself. -/
theorem exists_of_run_carryOut {s : Step} {file : InstalledFile} {q : Place} {m : Nat}
    (h : (carryOut s).run d = (.ok file, d')) (hf : d.found true s.source = .ok (q, .file m)) :
    ∃ data n, d.fileData? m = some data ∧ d'.LeadsToFile s.target n ∧
      (n ≠ m → d'.fileData? n = some ⟨data.bytes, s.mode.bits⟩) := by
  unfold carryOut at h
  obtain ⟨_, d₁, hmade, h⟩ := exists_of_run_bind h
  obtain ⟨⟨⟩, d₂, hcopied, h⟩ := exists_of_run_bind h
  obtain ⟨⟨⟩, d₃, hset, h⟩ := exists_of_run_bind h
  cases h
  obtain ⟨hfilled, hdata⟩ := kept_of_run_makeRoom hmade
  obtain ⟨data, n, hm, hleads, hn⟩ :=
    Disk.exists_of_run_copy (run_of_run_named hcopied) (hfilled.found hf)
  obtain rfl := Disk.run_setMode_of_leadsToFile (run_of_run_named hset) hleads
  obtain ⟨r, hr⟩ := hleads
  refine ⟨data, n, (hdata m).symm.trans hm, ⟨r, ?_⟩, fun hne => ?_⟩
  · exact Disk.found_setFile ((Disk.chained_unchanged.past d₂).found hr) n _
  · rw [Disk.fileData?_setFile, if_pos rfl, hn hne]
    rfl

/-- Of copies that are made, one puts the bytes of its source into the file of its target. They stay
there if no later target leads to this file, and came there if no target leads to the source. -/
theorem exists_of_run_copies {left right : List Step} {s : Step} {files : List InstalledFile}
    {q : Place} {m n : Nat} (h : ((left ++ s :: right).mapM carryOut).run d = (.ok files, d'))
    (hf : d.found true s.source = .ok (q, .file m)) (hleads : d'.LeadsToFile s.target n)
    (hlater : ∀ c ∈ right, ¬d'.LeadsToFile c.target n)
    (hsource : ∀ c ∈ left ++ [s], ¬d'.LeadsToFile c.target m) :
    ∃ data, d.fileData? m = some data ∧ d'.fileData? n = some ⟨data.bytes, s.mode.bits⟩ := by
  obtain ⟨_, _, d₁, hleft, hrest⟩ := exists_of_run_mapM_append h
  rw [List.mapM_cons] at hrest
  obtain ⟨_, d₂, hcarried, hrest⟩ := exists_of_run_bind hrest
  obtain ⟨_, d₃, hright, hrest⟩ := exists_of_run_bind hrest
  cases hrest
  have htargets : ∀ c ∈ left ++ [s], c.target ∈ (left ++ [s]).map Step.target :=
    fun c hc => List.mem_map_of_mem hc
  obtain ⟨hfilled₁, -⟩ := filled_of_copies (fun c hc => htargets c (by simp [hc])) hleft
  obtain ⟨hfilled₃, -⟩ := filled_of_copies (fun c hc => List.mem_map_of_mem hc) hright
  have hfilled₂ := meets_carryOut_filled (htargets s (by simp)) d₁ d₁
    ((Disk.chained_filled _).refl d₁)
  rw [hcarried] at hfilled₂
  obtain ⟨data, k, hdata, hk, hfile⟩ := exists_of_run_carryOut hcarried (hfilled₁.found hf)
  obtain rfl : k = n := (hfilled₃.leadsToFile hk).number_eq hleads
  refine ⟨data, ?_, ?_⟩
  · rcases hfilled₁.files m with hsame | ⟨t, ht, hm⟩
    · exact hsame.symm.trans hdata
    · obtain ⟨c, hc, rfl⟩ := List.mem_map.1 ht
      exact absurd (hfilled₃.leadsToFile (hfilled₂.1.leadsToFile hm)) (hsource c hc)
  · rcases hfilled₃.files k with hsame | ⟨t, ht, hn⟩
    · have hne : k ≠ m := fun h => hsource s (by simp) (h ▸ hleads)
      exact hsame.trans (hfile hne)
    · obtain ⟨c, hc, rfl⟩ := List.mem_map.1 ht
      exact absurd hn (hlater c hc)

theorem obeys_named {r : Disk → Disk → Prop} {α : Type} {act : DiskM α} (hact : Obeys r act)
    (f : Cause → Failure) : Obeys r (named act f) := by
  intro d
  have h := hact d
  unfold named
  rw [run_bind, run_liftM]
  rcases hr : act.run d with ⟨_ | _, _⟩ <;> rw [hr] at h <;> exact h

/-- No copy gives a file another name. -/
theorem obeys_keepsApart_carryOut (s : Step) : Obeys KeepsApart (carryOut s) := by
  have hchained := Disk.chained_keepsApart
  have hroom : Obeys KeepsApart (makeRoom s.target) := by
    unfold makeRoom
    split
    · exact obeys_named
        (hchained.makeDirectories fun p _ => Disk.obeys_keepsApart_makeDirectory p) _
    · exact hchained.refl
  exact hroom.bind hchained.trans fun _ =>
    (obeys_named (Disk.obeys_keepsApart_copy s.source s.target) _).bind hchained.trans fun _ =>
      (obeys_named (Disk.obeys_keepsApart_setMode s.target s.mode.bits) _).bind hchained.trans
        fun _ => hchained.refl

/-! ## What is delivered -/

/-- Below the place nothing is a link or a file with a name elsewhere, and no source of an artifact
is there. -/
structure Apart (workdir : Path) (artifacts : List Artifact) (upper : Place) (d : Disk) :
    Prop where
  links : d.NoLinksBelow upper
  files : d.OwnsFiles upper
  sources : ∀ a ∈ artifacts, ∀ q n, d.found true (workdir.join a.path) = .ok (q, .file n) →
    ¬Below upper q

/-- The artifact is to go to the file of the destination, as the disk is. -/
def GoesTo (upper : Place) (d : Disk) (dest : Destination) (c : Artifact) : Prop :=
  ∃ own, Destination.check c.dest = .ok own ∧
    d.SameFile (upper ++ own.names) (upper ++ dest.names)

/-- The artifact is the last one that is to go there. -/
def IsLast (artifacts : List Artifact) (upper : Place) (d : Disk) (dest : Destination)
    (c : Artifact) : Prop :=
  ∃ before behind, artifacts = before ++ c :: behind ∧ GoesTo upper d dest c ∧
    ∀ b ∈ behind, ¬GoesTo upper d dest b

/-- An artifact goes to its own destination, so some artifact is the last to go there. -/
theorem exists_isLast {a : Artifact} (ha : a ∈ artifacts) {dest : Destination}
    (hdest : Destination.check a.dest = .ok dest) (upper : Place) (d : Disk) :
    ∃ c, IsLast artifacts upper d dest c := by
  obtain ⟨before, c, behind, hsplit, hc, hbehind⟩ :=
    exists_last_of_mem (p := GoesTo upper d dest) ⟨a, ha, dest, hdest, .inl rfl⟩
  exact ⟨c, before, behind, hsplit, hc, hbehind⟩

/-- At the place the second disk has the bytes that the source of the artifact had on the first one,
with the mode of the artifact. -/
def Delivered (workdir : Path) (d : Disk) (c : Artifact) (d' : Disk) (q : Place) : Prop :=
  ∃ r m data, d.found true (workdir.join c.path) = .ok (r, .file m) ∧
    d.fileData? m = some data ∧ d'.fileAt? q = some ⟨data.bytes, c.mode.bits⟩

/-- Every destination has what is last delivered to it, and all is as before outside. -/
structure Delivers (workdir base : Path) (artifacts : List Artifact) (d : Disk) (upper : Place)
    (d' : Disk) : Prop where
  contents : ∀ a ∈ artifacts, ∀ dest, Destination.check a.dest = .ok dest →
    (∃ n, d'.found true (dest.under base) = .ok (upper ++ dest.names, .file n)) ∧
    (∃ c, IsLast artifacts upper d dest c) ∧
    ∀ c, IsLast artifacts upper d dest c → Delivered workdir d c d' (upper ++ dest.names)
  outside : d.KeepsOutside upper base d'

/-- The steps were planned for the artifacts and made one after the other. -/
structure Made (workdir base : Path) (artifacts : List Artifact) (d : Disk) (steps : List Step)
    (d' : Disk) : Prop where
  plans : List.Forall₂ (Plans workdir base) artifacts steps
  passes : ∀ a ∈ artifacts, Passes workdir d a
  copies : ∃ d₁ files, Unchanged d d₁ ∧ (steps.mapM carryOut).run d₁ = (.ok files, d')
  filled : Filled (steps.map Step.target) d d'
  apart : KeepsApart d d'
  leads : ∀ s ∈ steps, ∃ n, d'.LeadsToFile s.target n

theorem exists_made_of_run {i : Installed}
    (h : (run workdir base artifacts).run d = (.ok i, d')) :
    ∃ steps, Made workdir base artifacts d steps d' := by
  unfold run at h
  obtain ⟨steps, d₁, hsteps, h⟩ := exists_of_run_bind h
  obtain ⟨files, d₂, hfiles, h⟩ := exists_of_run_bind h
  cases h
  have hunchanged := obeys_checks workdir base artifacts d
  rw [hsteps] at hunchanged
  have hapart := Obeys.mapM Disk.chained_keepsApart.refl Disk.chained_keepsApart.trans
    obeys_keepsApart_carryOut steps d₁
  rw [hfiles] at hapart
  obtain ⟨hfilled, hleads⟩ := filled_of_copies (fun s hs => List.mem_map_of_mem hs) hfiles
  rcases checks_cases workdir base artifacts d with ⟨_, _, hr, hplans, hpass⟩ |
    ⟨_, _, _, _, _, -, hr, -⟩
  · obtain rfl := Except.ok.inj (Prod.mk.inj (hsteps.symm.trans hr)).1
    have hentries : KeepsApart d d₁ := Disk.keepsApart_of_entries fun q n hq =>
      (congrArg (List.lookup q) hunchanged.entries).symm.trans hq
    exact ⟨steps, {
      plans := hplans
      passes := hpass
      copies := ⟨d₁, files, hunchanged, hfiles⟩
      filled := (Filled.of_unchanged _ hunchanged).trans hfilled
      apart := Disk.chained_keepsApart.trans _ _ _ hentries hapart
      leads := hleads }⟩
  · exact absurd (hsteps.symm.trans hr) nofun

namespace Made

variable {steps : List Step} {upper : Place}

theorem target_of_mem (h : Made workdir base artifacts d steps d') {s : Step} (hs : s ∈ steps) :
    ∃ dest : Destination, s.target = dest.under base := by
  obtain ⟨a, -, dest, -, rfl⟩ := exists_of_forall₂_mem h.plans.flip hs
  exact ⟨dest, rfl⟩

theorem leads_of_mem (h : Made workdir base artifacts d steps d') {a : Artifact}
    (ha : a ∈ artifacts) {dest : Destination} (hdest : Destination.check a.dest = .ok dest) :
    ∃ q n, d'.found true (dest.under base) = .ok (q, .file n) := by
  obtain ⟨s, hs, dest', hdest', rfl⟩ := exists_of_forall₂_mem h.plans ha
  obtain rfl := Except.ok.inj (hdest.symm.trans hdest')
  obtain ⟨n, q, hq⟩ := h.leads _ hs
  exact ⟨q, n, hq⟩

/-- The prefix stands somewhere when anything was installed. -/
theorem exists_standsAt (h : Made workdir base artifacts d steps d') (hne : artifacts ≠ []) :
    ∃ upper, d'.StandsAt base upper := by
  obtain ⟨a, rest, rfl⟩ := List.exists_cons_of_ne_nil hne
  obtain ⟨dest, hdest⟩ := (h.passes a List.mem_cons_self).destination
  obtain ⟨q, n, hq⟩ := h.leads_of_mem List.mem_cons_self hdest
  exact Disk.exists_standsAt_of_under hq

/-- No target leads to the file of a source. -/
theorem not_leads_to_source (h : Made workdir base artifacts d steps d')
    (hbase : d'.StandsAt base upper) (hapart : Apart workdir artifacts upper d) {c : Artifact}
    (hc : c ∈ artifacts) {q : Place} {m : Nat}
    (hq : d.found true (workdir.join c.path) = .ok (q, .file m)) {s : Step} (hs : s ∈ steps) :
    ¬d'.LeadsToFile s.target m := by
  rintro ⟨r, hr⟩
  obtain ⟨dest, hdest⟩ := h.target_of_mem hs
  rw [hdest] at hr
  have hbelow := Disk.below_of_under hbase (h.filled.noLinksBelow hapart.links) hr
  have hq' := h.filled.entryAt? (Disk.found_eq_ok_iff.1 hq).2
  have houtside := hapart.sources c hc q m hq
  rcases h.apart r q (.inr ⟨m, (Disk.found_eq_ok_iff.1 hr).2, hq'⟩) with rfl | ⟨n, hrn, hqn⟩
  · exact houtside hbelow
  · exact houtside (hapart.files r q n hbelow hrn hqn)

theorem delivered (h : Made workdir base artifacts d steps d') (hbase : d'.StandsAt base upper)
    (hapart : Apart workdir artifacts upper d) {dest : Destination} {n : Nat}
    (hn : d'.entryAt? (upper ++ dest.names) = some (.file n)) {c : Artifact}
    (hc : IsLast artifacts upper d dest c) :
    Delivered workdir d c d' (upper ++ dest.names) := by
  obtain ⟨before, behind, rfl, ⟨last, hlast, hsame⟩, hlater⟩ := hc
  obtain ⟨left, s, right, rfl, -, ⟨last', hlast', rfl⟩, hright⟩ :=
    exists_of_forall₂_append h.plans.flip
  obtain rfl := Except.ok.inj (hlast.symm.trans hlast')
  have hmem : c ∈ before ++ c :: behind := by simp
  have hlinks := h.filled.noLinksBelow hapart.links
  obtain ⟨q, m, hq⟩ := (h.passes c hmem).produced
  obtain ⟨p, k, hp⟩ := h.leads_of_mem hmem hlast
  obtain rfl := Disk.place_of_under hbase hlinks hp
  obtain rfl := hsame.number_eq h.filled (Disk.found_eq_ok_iff.1 hp).2 hn
  obtain ⟨d₁, files, hunchanged, hcopies⟩ := h.copies
  have hothers : ∀ s ∈ right, ¬d'.LeadsToFile s.target k := by
    rintro s hs ⟨r, hr⟩
    obtain ⟨b, hb, later, hcheck, rfl⟩ := exists_of_forall₂_mem hright hs
    obtain rfl := Disk.place_of_under hbase hlinks hr
    have hsame' := h.apart _ _ (.inr ⟨k, (Disk.found_eq_ok_iff.1 hr).2, hn⟩)
    exact hlater b hb ⟨later, hcheck, hsame'⟩
  have hsource : ∀ s ∈ left ++ [⟨workdir.join c.path, last.under base, c.mode⟩],
      ¬d'.LeadsToFile s.target m := by
    intro s hs
    refine h.not_leads_to_source hbase hapart hmem hq ?_
    rcases List.mem_append.1 hs with hs | hs
    · exact List.mem_append_left _ hs
    · obtain rfl := List.mem_singleton.1 hs
      exact List.mem_append_right left List.mem_cons_self
  obtain ⟨data, hdata, hfile⟩ :=
    exists_of_run_copies hcopies (hunchanged.found hq) ⟨_, hp⟩ hothers hsource
  refine ⟨q, m, data, hq, (congrArg (List.lookup m) hunchanged.files).symm.trans hdata, ?_⟩
  unfold Disk.fileAt?
  rw [hn]
  exact hfile

theorem delivers (h : Made workdir base artifacts d steps d') (hbase : d'.StandsAt base upper)
    (hapart : Apart workdir artifacts upper d) :
    Delivers workdir base artifacts d upper d' where
  contents a ha dest hdest := by
    obtain ⟨q, n, hq⟩ := h.leads_of_mem ha hdest
    obtain rfl := Disk.place_of_under hbase (h.filled.noLinksBelow hapart.links) hq
    exact ⟨⟨n, hq⟩, exists_isLast ha hdest upper d,
      fun c => h.delivered hbase hapart (Disk.found_eq_ok_iff.1 hq).2⟩
  outside := by
    refine h.filled.keepsOutside h.apart hbase hapart.links hapart.files fun t ht => ?_
    obtain ⟨s, hs, rfl⟩ := List.mem_map.1 ht
    exact h.target_of_mem hs

theorem unchanged (h : Made workdir base [] d steps d') : Unchanged d d' := by
  obtain rfl := List.forall₂_nil_left_iff.1 h.plans
  obtain ⟨d₁, files, hunchanged, hcopies⟩ := h.copies
  cases hcopies
  exact hunchanged

end Made

/-- An installation fails for the first artifact that does not pass, before anything is done. When
it succeeds, each artifact has its file, in order. Below the prefix each destination has what was
last to go to its file, and outside the prefix all is as before but for the directories on the way
there, if no link and no file that has names elsewhere was below it, nor a source. -/
theorem refuses_or_delivers (workdir base : Path) (artifacts : List Artifact) (d : Disk) :
    ((∃ a ∈ artifacts, ¬Passes workdir d a) →
      ∃ before a behind failure d', artifacts = before ++ a :: behind ∧
        (run workdir base artifacts).run d = (.error failure, d') ∧
        failure.toError.kind = .install ∧ Unchanged d d' ∧ (∀ b ∈ before, Passes workdir d b) ∧
        Blames workdir d before.length a failure) ∧
    ∀ i d', (run workdir base artifacts).run d = (.ok i, d') →
      i.base = base ∧ List.Forall₂ (Places base) artifacts i.files ∧
        (artifacts = [] ∧ Unchanged d d' ∨ ∃ upper, d'.StandsAt base upper ∧
          (Apart workdir artifacts upper d → Delivers workdir base artifacts d upper d')) := by
  refine ⟨fun h => ?_, fun i d' h => ?_⟩
  · obtain ⟨before, a, behind, failure, d', hsplit, hrun, hunchanged, hpass, hblames⟩ :=
      exists_of_not_passes base h
    exact ⟨before, a, behind, failure, d', hsplit, hrun, rfl, hunchanged, hpass, hblames⟩
  · obtain ⟨hinto, hplaces⟩ := places_of_run h
    refine ⟨hinto, hplaces, ?_⟩
    obtain ⟨steps, hmade⟩ := exists_made_of_run h
    by_cases hnone : artifacts = []
    · subst hnone
      exact .inl ⟨rfl, hmade.unchanged⟩
    · obtain ⟨upper, hbase⟩ := hmade.exists_standsAt hnone
      exact .inr ⟨upper, hbase, hmade.delivers hbase⟩

/-! ## Two names of one file -/

namespace Shared

/-! What follows is a prefix with two names of one file, which two artifacts are to go to. -/

def disk : Disk where
  entries := [([], .directory 0o755), (["work"], .directory 0o755), (["work", "a"], .file 0),
    (["work", "b"], .file 1), (["prefix"], .directory 0o755), (["prefix", "a"], .file 2),
    (["prefix", "b"], .file 2)]
  files := [(0, ⟨⟨#[97]⟩, 0o600⟩), (1, ⟨⟨#[98]⟩, 0o600⟩), (2, ⟨.empty, 0o644⟩)]

def first : Artifact := ⟨"a", "a", .executable⟩

def second : Artifact := ⟨"b", "b", .readable⟩

/-- The installation. -/
def outcome : Except Failure Installed × Disk :=
  (run ⟨"/work"⟩ ⟨"/prefix"⟩ [first, second]).run disk

def installed : Installed where
  base := ⟨"/prefix"⟩
  files := [⟨⟨"/prefix/a"⟩, .executable⟩, ⟨⟨"/prefix/b"⟩, .readable⟩]

theorem outcome_eq : outcome = (.ok installed, outcome.2) := by
  have hdone : outcome.1 = .ok installed := by decide +kernel
  rw [← hdone]

theorem standsAt : outcome.2.StandsAt ⟨"/prefix"⟩ ["prefix"] := by
  have hwalk : outcome.2.walk true Disk.maxLinks false [] (outcome.2.segmentsTo ⟨"/prefix"⟩) =
      .ok ⟨["prefix"], false⟩ := by decide +kernel
  exact Disk.standsAt_of_walk hwalk

theorem found_first : disk.found true ⟨"/work/a"⟩ = .ok (["work", "a"], .file 0) := by
  decide +kernel

theorem found_second : disk.found true ⟨"/work/b"⟩ = .ok (["work", "b"], .file 1) := by
  decide +kernel

/-- What the disk holds is in its table. -/
theorem mem_entries {q : Place} {e : Entry} (h : disk.entryAt? q = some e) :
    (q, e) ∈ disk.entries := by
  obtain ⟨before, later, hentries, -⟩ := List.lookup_eq_some_iff.1 h
  rw [hentries]
  simp

theorem apart : Apart ⟨"/work"⟩ [first, second] ["prefix"] disk where
  links q _ target hlink := by
    have hkinds : ∀ x ∈ disk.entries, Disk.kindOf x.2 ≠ .link := by decide
    exact hkinds _ (mem_entries hlink) rfl
  files q r n hbelow hq hr := by
    have hnames : ∀ x ∈ disk.entries, ∀ y ∈ disk.entries, x.2 = y.2 → Disk.kindOf x.2 = .file →
        Below ["prefix"] x.1 → Below ["prefix"] y.1 := by decide
    exact hnames _ (mem_entries hq) _ (mem_entries hr) rfl rfl hbelow
  sources a ha q n hq := by
    simp only [List.mem_cons, List.not_mem_nil, or_false] at ha
    rcases ha with rfl | rfl
    · obtain ⟨rfl, -⟩ := Prod.mk.inj (Except.ok.inj (found_first.symm.trans hq))
      decide
    · obtain ⟨rfl, -⟩ := Prod.mk.inj (Except.ok.inj (found_second.symm.trans hq))
      decide

def destination : Destination where
  names := ["a"]
  names_ne_nil := nofun
  isName_of_mem := by decide

theorem check_first : Destination.check first.dest = .ok destination := by decide

/-- The second artifact is the last one that is to go to the file of both names. -/
theorem isLast_second : IsLast [first, second] ["prefix"] disk destination second :=
  ⟨[first], [], rfl, ⟨⟨["b"], nofun, by decide⟩, by decide, .inr ⟨2, rfl, rfl⟩⟩, nofun⟩

end Shared

/-- The destination of the first artifact has what the second one brings. -/
theorem delivers_second :
    Shared.outcome = (.ok Shared.installed, Shared.outcome.2) ∧
      Delivered ⟨"/work"⟩ Shared.disk Shared.second Shared.outcome.2 ["prefix", "a"] := by
  refine ⟨Shared.outcome_eq, ?_⟩
  obtain ⟨-, hall⟩ :=
    refuses_or_delivers ⟨"/work"⟩ ⟨"/prefix"⟩ [Shared.first, Shared.second] Shared.disk
  obtain ⟨-, -, ⟨hnone, -⟩ | ⟨upper, hbase, hdelivers⟩⟩ := hall _ _ Shared.outcome_eq
  · exact absurd hnone nofun
  · obtain rfl := hbase.eq Shared.standsAt
    have hcontents := (hdelivers Shared.apart).contents Shared.first List.mem_cons_self
    exact (hcontents _ Shared.check_first).2.2 _ Shared.isLast_second

/-- Each destination has what is last delivered to it, whatever goes to others. -/
def OwnContent (workdir : Path) (artifacts : List Artifact) (d : Disk) (upper : Place)
    (d' : Disk) : Prop :=
  ∀ before c behind dest, artifacts = before ++ c :: behind →
    Destination.check c.dest = .ok dest →
    (∀ b ∈ behind, Destination.check b.dest ≠ .ok dest) →
    Delivered workdir d c d' (upper ++ dest.names)

/-- When two destinations are names of one file, what is delivered to the first is not there in the
end, although nothing below the prefix has a name outside of it. -/
theorem not_own_content :
    (run ⟨"/work"⟩ ⟨"/prefix"⟩ [Shared.first, Shared.second]).run Shared.disk =
        (.ok Shared.installed, Shared.outcome.2) ∧
      Shared.outcome.2.StandsAt ⟨"/prefix"⟩ ["prefix"] ∧
      Apart ⟨"/work"⟩ [Shared.first, Shared.second] ["prefix"] Shared.disk ∧
      ¬OwnContent ⟨"/work"⟩ [Shared.first, Shared.second] Shared.disk ["prefix"]
        Shared.outcome.2 := by
  refine ⟨Shared.outcome_eq, Shared.standsAt, Shared.apart, fun hown => ?_⟩
  have hother : ∀ b ∈ [Shared.second],
      Destination.check b.dest ≠ .ok Shared.destination := by decide
  obtain ⟨r, m, data, hfound, hdata, hfile⟩ :=
    hown [] Shared.first [Shared.second] _ rfl Shared.check_first hother
  obtain ⟨-, hm⟩ := Prod.mk.inj (Except.ok.inj (Shared.found_first.symm.trans hfound))
  obtain rfl := Entry.file.inj hm
  obtain rfl := Option.some.inj (hdata : Shared.disk.fileData? 0 = some data)
  have hbytes : (Shared.outcome.2.fileAt? ["prefix", "a"]).map FileData.bytes = some ⟨#[98]⟩ := by
    decide +kernel
  have hfile' := (congrArg (Option.map FileData.bytes) hfile).symm.trans hbytes
  exact absurd (Option.some.inj hfile') (by decide)

end Installation

end Formulary
