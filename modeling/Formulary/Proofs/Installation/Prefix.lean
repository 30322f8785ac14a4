import Formulary.Proofs.Destination
import Formulary.Proofs.Disk.Copying

/-!
# Below a prefix and outside of it

A prefix stands at a place, even if there is nothing yet (`Disk.StandsAt`). When no link is below
that place, a destination is at the place of its names below it (`Disk.place_of_under`), and
directories that are made for destinations are below it or on the way to the prefix
(`Disk.Needed.below_or_onTheWay`). So filling destinations changes nothing outside except that the
prefix and directories above it are made (`Disk.Filled.keepsOutside`).
-/

namespace Formulary.Disk

variable {d d' : Disk} {base : Path} {upper q r : Place}

/-! ## Places of paths -/

/-- The path leads to the place, whether there is anything or not. It may be empty and then leads to
the working directory. -/
def StandsAt (d : Disk) (p : Path) (q : Place) : Prop := d.LeadsBy maxLinks [] (d.segmentsTo p) q

/-- The first segments of the path lead to the place. -/
def OnTheWay (d : Disk) (p : Path) (q : Place) : Prop :=
  ∃ first, first <+: d.segmentsTo p ∧ d.LeadsBy maxLinks [] first q

theorem standsAt_of_walk {p : Path} {needs : Bool}
    (h : d.walk true maxLinks false [] (d.segmentsTo p) = .ok ⟨q, needs⟩) : d.StandsAt p q :=
  (walk_eq_ok_iff.1 h).leadsBy

theorem segmentsTo_under (d : Disk) (dest : Destination) (base : Path) :
    d.segmentsTo (dest.under base) = d.segmentsTo base ++ dest.names :=
  dest.segmentsOf_under d.workdir base

theorem segmentsTo_prefix_of_liesIn {p above : Path} (h : LiesIn p above) :
    d.segmentsTo above <+: d.segmentsTo p := by
  induction h with
  | self => exact List.prefix_refl _
  | above _ hparent ih => exact (Path.segmentsOf_parent? hparent d.workdir).trans ih

/-- Nothing below the place is a link. -/
def NoLinksBelow (d : Disk) (upper : Place) : Prop :=
  ∀ q, Below upper q → ∀ target, d.entryAt? q ≠ some (.link target)

/-- What is behind a prefix is at the place of its names below it. -/
theorem place_of_names (hbase : d.StandsAt base upper) (hlinks : d.NoLinksBelow upper)
    {follow needs : Bool} {names : List String} {t : Target} (hnames : ".." ∉ names)
    (hw : Walks d follow maxLinks needs [] (d.segmentsTo base ++ names) t) (hne : names ≠ []) :
    t.place = upper ++ names := by
  obtain ⟨name, rest, rfl⟩ := List.exists_cons_of_ne_nil hne
  obtain ⟨q, links, hfirst, hrest⟩ := hw.exists_between
  obtain rfl := hbase.eq hfirst
  exact hrest.place_of_names hnames fun below hbelow => hlinks _ (below_append hbelow)

theorem walks_of_found {follow : Bool} {p : Path} {e : Entry}
    (hf : d.found follow p = .ok (q, e)) :
    ∃ needs, Walks d follow maxLinks (endsInDirectory p.text) [] (d.segmentsTo p) ⟨q, needs⟩ := by
  obtain ⟨⟨needs, ht⟩, -⟩ := found_eq_ok_iff.1 hf
  exact ⟨needs, walk_eq_ok_iff.1 (target_eq_ok_iff.1 ht).2.1⟩

/-- A prefix stands somewhere when a destination below it leads to something. -/
theorem exists_standsAt_of_under {dest : Destination} {e : Entry}
    (hf : d.found true (dest.under base) = .ok (q, e)) : ∃ upper, d.StandsAt base upper := by
  obtain ⟨needs, hw⟩ := walks_of_found hf
  obtain ⟨name, rest, hnames⟩ := List.exists_cons_of_ne_nil dest.names_ne_nil
  rw [segmentsTo_under, hnames] at hw
  obtain ⟨upper, -, hfirst, -⟩ := hw.exists_between
  exact ⟨upper, hfirst⟩

/-- What a destination below a prefix leads to is at the place of its names. -/
theorem place_of_under (hbase : d.StandsAt base upper) (hlinks : d.NoLinksBelow upper)
    {dest : Destination} {e : Entry} (hf : d.found true (dest.under base) = .ok (q, e)) :
    q = upper ++ dest.names := by
  obtain ⟨needs, hw⟩ := walks_of_found hf
  rw [segmentsTo_under] at hw
  exact place_of_names hbase hlinks dest.up_not_mem hw dest.names_ne_nil

theorem below_of_under (hbase : d.StandsAt base upper) (hlinks : d.NoLinksBelow upper)
    {dest : Destination} {e : Entry} (hf : d.found true (dest.under base) = .ok (q, e)) :
    Below upper q :=
  below_iff.2 ⟨dest.names, dest.names_ne_nil, place_of_under hbase hlinks hf⟩

/-! ## What is filled -/

variable {targets : List Path}

/-- What is needed for destinations below a prefix is below it, or a directory on the way there. -/
theorem Needed.below_or_onTheWay (hbase : d.StandsAt base upper) (hlinks : d.NoLinksBelow upper)
    (htargets : ∀ t ∈ targets, ∃ dest : Destination, t = dest.under base)
    (h : Needed targets d q) :
    Below upper q ∨ d.entryAt? q = some (.directory directoryMode) ∧ d.OnTheWay base q := by
  cases h with
  | @directory t dir above ht hparent habove hf =>
    obtain ⟨dest, rfl⟩ := htargets t ht
    have hentry := (found_eq_ok_iff.1 hf).2
    obtain ⟨needs, hw⟩ := walks_of_found hf
    have hfollowed := hw.followed fun target hlink => absurd (hentry.symm.trans hlink) nofun
    have hsegments : d.segmentsTo above <+: d.segmentsTo base ++ dest.names := by
      rw [← segmentsTo_under]
      exact (segmentsTo_prefix_of_liesIn habove).trans (Path.segmentsOf_parent? hparent d.workdir)
    rcases List.prefix_or_prefix_of_prefix hsegments (List.prefix_append _ _) with
      hfirst | ⟨names, hnames⟩
    · exact .inr ⟨hentry, _, hfirst, hfollowed.leadsBy⟩
    · by_cases hne : names = []
      · rw [hne, List.append_nil] at hnames
        exact .inr ⟨hentry, _, hnames ▸ List.prefix_refl _, hfollowed.leadsBy⟩
      · rw [← hnames] at hfollowed hsegments
        have hdest : names <+: dest.names := (List.prefix_append_right_inj _).1 hsegments
        have hup : ".." ∉ names := fun h => dest.up_not_mem (hdest.subset h)
        have hplace : q = upper ++ names := place_of_names hbase hlinks hup hfollowed hne
        exact .inl (below_iff.2 ⟨names, hne, hplace⟩)
  | @file t n ht hf =>
    obtain ⟨dest, rfl⟩ := htargets t ht
    exact .inl (below_of_under hbase hlinks hf)

theorem Filled.noLinksBelow (h : Filled targets d d') (hlinks : d.NoLinksBelow upper) :
    d'.NoLinksBelow upper := by
  intro q hq target hlink
  rcases h.entries q with hsame | ⟨-, hneeded⟩
  · exact hlinks q hq target (hsame ▸ hlink)
  · rcases hneeded.entry with hdir | ⟨n, hfile⟩
    · exact absurd (hdir.symm.trans hlink) nofun
    · exact absurd (hfile.symm.trans hlink) nofun

/-- A file below the place has no name that is not. -/
def OwnsFiles (d : Disk) (upper : Place) : Prop :=
  ∀ q r n, Below upper q → d.entryAt? q = some (.file n) → d.entryAt? r = some (.file n) →
    Below upper r

/-- Outside a place everything is as before, but for directories on the way to a path that were not
there. -/
def KeepsOutside (upper : Place) (p : Path) (d d' : Disk) : Prop :=
  ∀ q, ¬Below upper q →
    d'.entryAt? q = d.entryAt? q ∧ d'.fileAt? q = d.fileAt? q ∨
    d.entryAt? q = none ∧ d'.entryAt? q = some (.directory directoryMode) ∧ d'.OnTheWay p q

/-- Files outside a place do not change when those are filled that are below it. -/
theorem fileData?_of_outside (h : Filled targets d d') (hapart : KeepsApart d d')
    (hbase : d'.StandsAt base upper) (hlinks : d'.NoLinksBelow upper) (howns : d.OwnsFiles upper)
    (htargets : ∀ t ∈ targets, ∃ dest : Destination, t = dest.under base) {n : Nat}
    (hq : ¬Below upper q) (hn : d.entryAt? q = some (.file n)) :
    d'.fileData? n = d.fileData? n := by
  rcases h.files n with hsame | ⟨t, ht, r, hr⟩
  · exact hsame
  · obtain ⟨dest, rfl⟩ := htargets t ht
    have hbelow := below_of_under hbase hlinks hr
    rcases hapart r q (.inr ⟨n, (found_eq_ok_iff.1 hr).2, h.entryAt? hn⟩) with rfl | ⟨m, hr', hq'⟩
    · exact absurd hbelow hq
    · exact absurd (howns r q m hbelow hr' hq') hq

theorem Filled.keepsOutside (h : Filled targets d d') (hapart : KeepsApart d d')
    (hbase : d'.StandsAt base upper) (hlinks : d.NoLinksBelow upper) (howns : d.OwnsFiles upper)
    (htargets : ∀ t ∈ targets, ∃ dest : Destination, t = dest.under base) :
    KeepsOutside upper base d d' := by
  intro q hq
  have hlinks' := h.noLinksBelow hlinks
  rcases h.entries q with hsame | ⟨hnone, hneeded⟩
  · refine .inl ⟨hsame, ?_⟩
    unfold fileAt?
    rw [hsame]
    cases hentry : d.entryAt? q with
    | none => rfl
    | some e =>
      cases e with
      | directory => rfl
      | link => rfl
      | file n => exact fileData?_of_outside h hapart hbase hlinks' howns htargets hq hentry
  · rcases hneeded.below_or_onTheWay hbase hlinks' htargets with hbelow | hway
    · exact absurd hbelow hq
    · exact .inr ⟨hnone, hway⟩

end Formulary.Disk
