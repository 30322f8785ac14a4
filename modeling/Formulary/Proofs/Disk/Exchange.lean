import Formulary.Disk.Trees
import Formulary.Proofs.Disk.Walk
import Formulary.Proofs.Path.Exchange

/-!
# Names exchanged on a disk

Two disks may differ in names alone (`Disk.Exchanged`) : every place on the one is a place on the
other, with names exchanged, and no link on either tells any of these names. A path on the one
disk then leads where the path with the names exchanged leads on the other
(`Exchanged.target`, `Exchanged.found`), and steps that are told such paths go side by side, with
the same failures (`Mirrored`).
-/

namespace Formulary

variable {σ : String → String}

/-! ## Entries and places -/

/-- No name in a link is exchanged. -/
def Entry.Suits (σ : String → String) (e : Entry) : Prop :=
  ∀ target, e = .link target → Path.Exchanged σ ⟨target⟩ ⟨target⟩

theorem Entry.suits_directory (mode : Nat) : (Entry.directory mode).Suits σ := nofun

theorem Entry.suits_file (n : Nat) : (Entry.file n).Suits σ := nofun

namespace Disk

/-- The names of a place are exchanged as names, not in parts. -/
def Spelt (σ : String → String) (p : Place) : Prop := ∀ s ∈ p, Path.Exchanged σ ⟨s⟩ ⟨σ s⟩

variable {d d' : Disk} {p q : Place} {e : Entry}

theorem spelt_nil : Spelt σ [] := nofun

theorem Spelt.concat (h : Spelt σ p) {s : String} (hs : '/' ∉ s.toList) : Spelt σ (p ++ [s]) := by
  intro t ht
  rcases List.mem_append.1 ht with ht | ht
  · exact h t ht
  · obtain rfl := List.mem_singleton.1 ht
    exact Path.exchanged_name hs

theorem Spelt.dropLast (h : Spelt σ p) : Spelt σ p.dropLast :=
  fun s hs => h s (List.dropLast_subset p hs)

/-- The disk with the names in its places exchanged. -/
def exchange (σ : String → String) (d : Disk) : Disk :=
  { d with entries := d.entries.map (Prod.map (List.map σ) id) }

section

variable (hσ : Exchange σ)

include hσ

theorem map_eq_map_iff : p.map σ = q.map σ ↔ p = q :=
  (List.map_injective_iff.2 hσ.injective).eq_iff

theorem isWithin_map : isWithin (p.map σ) (q.map σ) = isWithin p q := by
  rw [Bool.eq_iff_iff, isWithin_iff, isWithin_iff]
  exact List.prefix_map_iff_of_injective hσ.injective

theorem entryAt?_exchange : (d.exchange σ).entryAt? (p.map σ) = d.entryAt? p := by
  show (d.entries.map (Prod.map (List.map σ) id)).lookup (p.map σ) = d.entries.lookup p
  induction d.entries with
  | nil => rfl
  | cons x l ih =>
    simp only [List.map_cons, Prod.map, lookup_of_cons, map_eq_map_iff hσ, ih, id]
    exact (lookup_of_cons x.1 p x.2 l).symm

theorem exchange_drop : (d.drop p).exchange σ = (d.exchange σ).drop (p.map σ) := by
  have hsays : (fun x : Place × Entry => x.1 != p.map σ) ∘ Prod.map (List.map σ) id =
      fun x => x.1 != p := by
    funext x
    simp [bne, map_eq_map_iff hσ]
  unfold exchange drop
  simp only [List.filter_map, hsays]

theorem exchange_put : (d.put p e).exchange σ = (d.exchange σ).put (p.map σ) e := by
  have hdrop : (d.drop p).exchange σ = (d.exchange σ).drop (p.map σ) := exchange_drop hσ
  show Disk.mk _ _ _ _ _ = Disk.mk _ _ _ _ _
  congr 1
  exact congrArg (fun rest : Disk => (p.map σ, e) :: rest.entries) hdrop

omit hσ in
theorem unused_exchange : (d.exchange σ).unused = d.unused := by
  have hnumbers : (d.exchange σ).numbersNamed = d.numbersNamed := by
    show List.filterMap _ (d.entries.map _) = _
    rw [List.filterMap_map]
    refine congrArg (List.filterMap · d.entries) (funext ?_)
    rintro ⟨q, _ | _ | _⟩ <;> rfl
  unfold unused
  rw [hnumbers]
  rfl

theorem exchange_putFile (data : FileData) :
    (d.putFile p data).exchange σ = (d.exchange σ).putFile (p.map σ) data := by
  unfold putFile
  rw [unused_exchange, ← exchange_put hσ]
  rfl

theorem directoryPermits_exchange (r : Right) :
    (d.exchange σ).directoryPermits (p.map σ) r = d.directoryPermits p r := by
  unfold directoryPermits
  rw [entryAt?_exchange hσ]
  rfl

theorem canChange_exchange : (d.exchange σ).canChange (p.map σ) = d.canChange p := by
  unfold canChange
  rw [← List.map_dropLast, directoryPermits_exchange hσ, directoryPermits_exchange hσ]

theorem namesIn_exchange : (d.exchange σ).namesIn (p.map σ) = (d.namesIn p).map σ := by
  have hchild : ∀ q : Place, childOf? (p.map σ) (q.map σ) = (childOf? p q).map σ := fun q => by
    unfold childOf?
    rw [List.getLast?_map, ← List.map_dropLast]
    cases q.getLast? with
    | none => rfl
    | some name =>
      simp only [Option.map_some, map_eq_map_iff hσ, apply_ite (Option.map σ), Option.map_none]
  unfold namesIn
  rw [List.map_filterMap]
  show List.filterMap _ (d.entries.map _) = _
  rw [List.filterMap_map]
  exact congrArg (List.filterMap · d.entries) (funext fun x => hchild x.1)

end

/-! ## Disks -/

/-- The names that are exchanged are whole names of places, and in no link. -/
structure Suits (σ : String → String) (d : Disk) : Prop where
  places : ∀ x ∈ d.entries, Spelt σ x.1
  links : ∀ x ∈ d.entries, x.2.Suits σ
  workdir : Path.Exchanged σ d.workdir d.workdir

/-- The second disk has names of the first one exchanged. -/
structure Exchanged (σ : String → String) (d d' : Disk) : Prop where
  suits : d.Suits σ
  eq : d' = d.exchange σ

section

variable (hσ : Exchange σ)

theorem Exchanged.past (hd : Exchanged σ d d') : Exchanged σ d.past d'.past := by
  obtain ⟨⟨hplaces, hlinks, hworkdir⟩, rfl⟩ := hd
  exact ⟨⟨hplaces, hlinks, hworkdir⟩, rfl⟩

theorem Exchanged.setFile (hd : Exchanged σ d d') (n : Nat) (data : FileData) :
    Exchanged σ (d.setFile n data) (d'.setFile n data) := by
  obtain ⟨⟨hplaces, hlinks, hworkdir⟩, rfl⟩ := hd
  exact ⟨⟨hplaces, hlinks, hworkdir⟩, rfl⟩

include hσ

theorem Exchanged.drop (hd : Exchanged σ d d') : Exchanged σ (d.drop p) (d'.drop (p.map σ)) := by
  obtain ⟨⟨hplaces, hlinks, hworkdir⟩, rfl⟩ := hd
  have hmem : ∀ x ∈ (d.drop p).entries, x ∈ d.entries := fun x => List.mem_of_mem_filter
  exact ⟨⟨fun x hx => hplaces x (hmem x hx), fun x hx => hlinks x (hmem x hx), hworkdir⟩,
    (exchange_drop hσ).symm⟩

theorem Exchanged.put (hd : Exchanged σ d d') (hp : Spelt σ p) (he : e.Suits σ) :
    Exchanged σ (d.put p e) (d'.put (p.map σ) e) := by
  have hdrop := (hd.drop hσ (p := p)).suits
  refine ⟨⟨?_, ?_, hdrop.workdir⟩, hd.eq ▸ (exchange_put hσ).symm⟩
  · exact List.forall_mem_cons.2 ⟨hp, hdrop.places⟩
  · exact List.forall_mem_cons.2 ⟨he, hdrop.links⟩

theorem Exchanged.putFile (hd : Exchanged σ d d') (hp : Spelt σ p) (data : FileData) :
    Exchanged σ (d.putFile p data) (d'.putFile (p.map σ) data) := by
  refine ⟨((hd.put hσ hp (Entry.suits_file d.unused)).setFile d.unused data).suits, ?_⟩
  rw [hd.eq, exchange_putFile hσ]

theorem Exchanged.entryAt? (hd : Exchanged σ d d') : d'.entryAt? (p.map σ) = d.entryAt? p := by
  rw [hd.eq, entryAt?_exchange hσ]

theorem Exchanged.canChange (hd : Exchanged σ d d') : d'.canChange (p.map σ) = d.canChange p := by
  rw [hd.eq, canChange_exchange hσ]

omit hσ in
theorem Exchanged.fileData? (hd : Exchanged σ d d') (n : Nat) :
    d'.fileData? n = d.fileData? n := by
  rw [hd.eq]
  rfl

omit hσ in
theorem Exchanged.permits (hd : Exchanged σ d d') (mode : Nat) (r : Right) :
    d'.permits mode r = d.permits mode r := by
  rw [hd.eq]
  rfl

omit hσ in
theorem Exchanged.unused (hd : Exchanged σ d d') : d'.unused = d.unused := by
  rw [hd.eq, unused_exchange]

/-- The names in a directory are names in places. -/
theorem Exchanged.namesIn (hd : Exchanged σ d d') :
    d'.namesIn (p.map σ) = (d.namesIn p).map σ ∧ Spelt σ (d.namesIn p) := by
  refine ⟨by rw [hd.eq, namesIn_exchange hσ], fun s hs => ?_⟩
  obtain ⟨x, hx, hname⟩ := List.mem_filterMap.1 hs
  refine hd.suits.places x hx s ?_
  unfold childOf? at hname
  split at hname
  · rename_i name hlast
    split at hname
    · obtain rfl := Option.some.inj hname
      exact List.mem_of_getLast? hlast
    · exact absurd hname nofun
  · exact absurd hname nofun

omit hσ in
theorem Exchanged.suits_of_entryAt? (hd : Exchanged σ d d') (h : d.entryAt? p = some e) :
    e.Suits σ := by
  obtain ⟨l, l', hl, -⟩ := List.lookup_eq_some_iff.1 h
  exact hd.suits.links (p, e) (by rw [hl]; simp)

end

/-! ## Walks -/

theorem slash_not_mem_of_mem_segmentsOf {s text : String} (h : s ∈ segmentsOf text) :
    '/' ∉ s.toList := by
  obtain ⟨piece, hpiece, rfl⟩ := List.mem_map.1 (List.mem_of_mem_filter h)
  rw [String.toList_ofList]
  exact fun hslash => absurd (Text.not_mem_of_mem_split hpiece hslash) (by decide)

/-- The second target has names of the first one exchanged. -/
structure Target.Exchanged (σ : String → String) (t t' : Target) : Prop where
  place : t'.place = t.place.map σ
  needsDirectory : t'.needsDirectory = t.needsDirectory
  spelt : Spelt σ t.place

section

variable (hσ : Exchange σ)

include hσ

/-- One leg, by induction on the segments, when those behind links are walked side by side. -/
theorem Exchanged.walkWith (hd : Exchanged σ d d') (follow : Bool)
    {again again' : Bool → Place → List String → Except Cause Target} (needs : Bool)
    (hagain : ∀ needs dir segments, Spelt σ dir → (∀ s ∈ segments, '/' ∉ s.toList) →
      Outcomes Eq (Target.Exchanged σ) (again needs dir segments)
        (again' needs (dir.map σ) (segments.map σ)))
    {dir : Place} {segments : List String} (hdir : Spelt σ dir)
    (hsegments : ∀ s ∈ segments, '/' ∉ s.toList) :
    Outcomes Eq (Target.Exchanged σ) (d.walkWith follow again needs dir segments)
      (d'.walkWith follow again' needs (dir.map σ) (segments.map σ)) := by
  induction segments generalizing dir with
  | nil => exact .ok ⟨rfl, rfl, hdir⟩
  | cons s rest ih =>
    obtain ⟨hs, hrest⟩ := List.forall_mem_cons.1 hsegments
    have hnext : Spelt σ (dir ++ [s]) := hdir.concat hs
    have hmap : dir.map σ ++ [σ s] = (dir ++ [s]).map σ := by simp
    have hsearch : d'.directoryPermits (dir.map σ) .search = d.directoryPermits dir .search := by
      rw [hd.eq, directoryPermits_exchange hσ]
    simp only [List.map_cons, Disk.walkWith, hsearch, hσ.eq_iff hσ.up, hσ.byteLength, hmap,
      hd.entryAt? hσ, List.map_eq_nil_iff, List.isEmpty_map]
    split
    · exact .error rfl
    · split
      · rw [← List.map_dropLast]
        exact ih hdir.dropLast hrest
      · split
        · exact .error rfl
        · split
          · split
            · exact .ok ⟨rfl, rfl, hnext⟩
            · exact .error rfl
          · exact ih hnext hrest
          · split
            · exact .ok ⟨rfl, rfl, hnext⟩
            · exact .error rfl
          · rename_i target htarget
            have hlink := hd.suits_of_entryAt? htarget target rfl
            split
            · exact .ok ⟨rfl, rfl, hnext⟩
            · split
              · exact .error rfl
              · have hsegments' : segmentsOf target ++ rest.map σ =
                    (segmentsOf target ++ rest).map σ := by
                  rw [List.map_append, ← hlink.segmentsOf hσ]
                rw [hsegments', ← List.map_nil (f := σ), ← apply_ite (List.map σ)]
                refine hagain _ _ _ ?_ ?_
                · split
                  · exact spelt_nil
                  · exact hdir
                · intro t ht
                  rcases List.mem_append.1 ht with ht | ht
                  · exact slash_not_mem_of_mem_segmentsOf ht
                  · exact hrest t ht

/-- By induction on the links that may be met. -/
theorem Exchanged.walk (hd : Exchanged σ d d') (follow : Bool) (links : Nat) (needs : Bool)
    {dir : Place} {segments : List String} (hdir : Spelt σ dir)
    (hsegments : ∀ s ∈ segments, '/' ∉ s.toList) :
    Outcomes Eq (Target.Exchanged σ) (d.walk follow links needs dir segments)
      (d'.walk follow links needs (dir.map σ) (segments.map σ)) := by
  induction links generalizing needs dir segments with
  | zero => exact hd.walkWith hσ follow needs (fun _ _ _ _ _ => .error rfl) hdir hsegments
  | succ links ih =>
    exact hd.walkWith hσ follow needs (fun needs _ _ => ih needs) hdir hsegments

/-- Paths with names exchanged lead to places with names exchanged. -/
theorem Exchanged.target (hd : Exchanged σ d d') (follow : Bool) {p p' : Path}
    (hp : Path.Exchanged σ p p') :
    Outcomes Eq (Target.Exchanged σ) (d.target follow p) (d'.target follow p') := by
  have hfull : Path.Exchanged σ (d.workdir.join p.text) (d'.workdir.join p'.text) := by
    rw [hd.eq]
    exact hd.suits.workdir.join hσ hp
  have hslash : ∀ s ∈ segmentsOf (d.workdir.join p.text).text, '/' ∉ s.toList :=
    fun _ => slash_not_mem_of_mem_segmentsOf
  have hwalk := hd.walk hσ follow maxLinks (endsInDirectory p.text) spelt_nil hslash
  rw [List.map_nil, ← hfull.segmentsOf hσ] at hwalk
  have hzero : p'.text.toList.contains '\x00' = p.text.toList.contains '\x00' := by
    rw [Bool.eq_iff_iff, List.contains_iff_mem, List.contains_iff_mem, hp.zero_mem_iff hσ]
  unfold Disk.target
  simp only [hp.text_eq_empty_iff hσ, hzero, hp.byteLength hσ, hp.endsInDirectory hσ]
  split
  · exact .error rfl
  · split
    · exact .error rfl
    · split
      · exact .error rfl
      · generalize d.walk follow maxLinks _ _ _ = reached at hwalk ⊢
        generalize d'.walk follow maxLinks _ _ _ = reached' at hwalk ⊢
        cases hwalk with
        | error hcause => exact .error hcause
        | @ok t t' ht =>
          dsimp only
          rw [ht.place, ht.needsDirectory, hd.entryAt? hσ]
          split
          · split
            · exact .error rfl
            · exact .ok ht
          · exact .ok ht

/-- What is found on the one disk is found on the other. -/
theorem Exchanged.found (hd : Exchanged σ d d') (follow : Bool) {p p' : Path}
    (hp : Path.Exchanged σ p p') :
    Outcomes Eq (fun x x' => x' = (x.1.map σ, x.2) ∧ Spelt σ x.1 ∧ x.2.Suits σ)
      (d.found follow p) (d'.found follow p') := by
  have htarget := hd.target hσ follow hp
  unfold Disk.found
  generalize d.target follow p = reached at htarget ⊢
  generalize d'.target follow p' = reached' at htarget ⊢
  cases htarget with
  | error hcause => exact .error hcause
  | @ok t t' ht =>
    dsimp only
    rw [ht.place, hd.entryAt? hσ]
    split
    · exact .error rfl
    · rename_i e he
      exact .ok ⟨rfl, ht.spelt, hd.suits_of_entryAt? he⟩

end

end Disk

end Formulary
