import Formulary.Proofs.Disk.Walk
import Formulary.Proofs.Path

/-!
# Paths into a directory

A walk that follows a link at its end comes to the same place however it is asked to, unless it
stops at a link (`Walks.endsAt`). A walk of two parts comes by a place between them
(`Walks.exists_between`), and names without links below a place lead on from there one by one
(`Walks.place_of_names`). When a path leads to a directory that may be searched, one more
name leads to the place of that name in it (`Walks.append`, `target_join`) and to no other
(`Walks.of_append`, `place_of_target_join`), and the path before a name leads to the directory too
(`found_before`).
-/

namespace Formulary.Disk

variable {d : Disk} {links : Nat} {needs : Bool} {dir : Place} {segments : List String} {t : Target}

/-- A walk to the place, or one that was not to follow a link at its end and stops at one. -/
def EndsAt (d : Disk) (follow : Bool) (links : Nat) (needs : Bool) (dir : Place)
    (segments : List String) (q : Place) : Prop :=
  ∃ t, Walks d follow links needs dir segments t ∧
    (t.place = q ∨ follow = false ∧ ∃ target, d.entryAt? t.place = some (.link target))

/-- By induction on the course of the walk. -/
theorem Walks.endsAt (hw : Walks d true links needs dir segments t) (follow needs' : Bool) :
    EndsAt d follow links needs' dir segments t.place := by
  induction hw generalizing needs' with
  | here => exact ⟨_, .here, .inl rfl⟩
  | up hs _ ih =>
    obtain ⟨t', hw', ht'⟩ := ih needs'
    exact ⟨t', .up hs hw', ht'⟩
  | into hs hnext _ ih =>
    obtain ⟨t', hw', ht'⟩ := ih needs'
    exact ⟨t', .into hs hnext hw', ht'⟩
  | missing hs hnext => exact ⟨_, .missing hs hnext, .inl rfl⟩
  | file hs hnext => exact ⟨_, .file hs hnext, .inl rfl⟩
  | stop _ _ hfollow => exact absurd hfollow (by decide)
  | @link _ _ _ _ target rest _ hs hnext _ htarget _ ih =>
    by_cases hstop : rest = [] ∧ follow = false ∧ needs' = false
    · obtain ⟨rfl, rfl, rfl⟩ := hstop
      exact ⟨_, .stop hs hnext rfl, .inr ⟨rfl, target, hnext⟩⟩
    · obtain ⟨t', hw', ht'⟩ := ih (needs' || (rest.isEmpty && endsInDirectory target))
      refine ⟨t', .link hs hnext (fun hrest hfollow => ?_) htarget hw', ht'⟩
      rw [← Bool.not_eq_false]
      exact fun hneeds => hstop ⟨hrest, hfollow, hneeds⟩

/-- A directory takes one more name, unless that of a link. By induction on the course of the
walk, which cannot end before the directory. -/
theorem Walks.append (hw : Walks d true links needs dir segments t) {mode : Nat}
    (ht : d.entryAt? t.place = some (.directory mode)) {name : String}
    (hname : d.Opens t.place name)
    (hlink : ∀ target, d.entryAt? (t.place ++ [name]) ≠ some (.link target))
    (follow needs' : Bool) :
    Walks d follow links needs' dir (segments ++ [name]) ⟨t.place ++ [name], needs'⟩ := by
  induction hw generalizing needs' with
  | @here links needs dir =>
    cases hnext : d.entryAt? (dir ++ [name]) with
    | none => exact .missing hname hnext
    | some e =>
      cases e with
      | directory mode => exact .into hname hnext .here
      | file n => exact .file hname hnext
      | link target => exact absurd hnext (hlink target)
  | up hs _ ih => exact .up hs (ih ht hname hlink needs')
  | into hs hnext _ ih => exact .into hs hnext (ih ht hname hlink needs')
  | missing _ hnext => exact absurd (hnext.symm.trans ht) (by simp)
  | file _ hnext => exact absurd (hnext.symm.trans ht) (by simp)
  | stop _ _ hfollow => exact absurd hfollow (by decide)
  | @link _ _ _ _ target rest _ hs hnext _ htarget _ ih =>
    rw [List.cons_append]
    refine .link hs hnext (fun hrest => absurd hrest (by simp)) htarget ?_
    have hneeds : (needs' || ((rest ++ [name]).isEmpty && endsInDirectory target)) = needs' := by
      cases rest <;> simp
    rw [hneeds, ← List.append_assoc]
    exact ih ht hname hlink needs'

/-- The first segments lead to the place, whatever the path may end in. -/
def LeadsBy (d : Disk) (links : Nat) (dir : Place) (first : List String) (q : Place) : Prop :=
  ∀ needs, ∃ needs', Walks d true links needs dir first ⟨q, needs'⟩

theorem leadsBy_nil (links : Nat) (dir : Place) : d.LeadsBy links dir [] dir :=
  fun needs => ⟨needs, .here⟩

/-- A walk comes by the place that it starts from. -/
theorem Walks.starts {follow : Bool} {name : String} {rest : List String}
    (hw : Walks d follow links needs dir segments t) (h : [] ++ name :: rest = segments) :
    ∃ q links', d.LeadsBy links dir [] q ∧ Walks d follow links' needs q (name :: rest) t := by
  subst h
  exact ⟨dir, links, leadsBy_nil links dir, hw⟩

/-- A walk of two parts comes by a place between them, to which the first part leads on its own.
By induction on the course of the walk. -/
theorem Walks.exists_between {follow : Bool} {first : List String} {name : String}
    {rest : List String} (hw : Walks d follow links needs dir (first ++ name :: rest) t) :
    ∃ q links', d.LeadsBy links dir first q ∧ Walks d follow links' needs q (name :: rest) t := by
  generalize hall : first ++ name :: rest = all at hw
  have hlong : ∀ {s s' : String} {first : List String}, s :: first ++ name :: rest ≠ [s'] :=
    fun h => absurd (List.cons.inj h).2 (by simp)
  induction hw generalizing first with
  | here => exact absurd hall (by simp)
  | up hs hw ih =>
    cases first with
    | nil => exact (Walks.up hs hw).starts hall
    | cons s first =>
      obtain ⟨rfl, htail⟩ := List.cons.inj hall
      obtain ⟨q, links', hfirst, hrest⟩ := ih htail
      exact ⟨q, links', fun needs => (hfirst needs).imp fun _ => .up hs, hrest⟩
  | into hs hnext hw ih =>
    cases first with
    | nil => exact (Walks.into hs hnext hw).starts hall
    | cons s first =>
      obtain ⟨rfl, htail⟩ := List.cons.inj hall
      obtain ⟨q, links', hfirst, hrest⟩ := ih htail
      exact ⟨q, links', fun needs => (hfirst needs).imp fun _ => .into hs hnext, hrest⟩
  | missing hs hnext =>
    cases first with
    | nil => exact (Walks.missing hs hnext).starts hall
    | cons => exact absurd hall hlong
  | file hs hnext =>
    cases first with
    | nil => exact (Walks.file hs hnext).starts hall
    | cons => exact absurd hall hlong
  | stop hs hnext hfollow =>
    cases first with
    | nil => exact (Walks.stop hs hnext hfollow).starts hall
    | cons => exact absurd hall hlong
  | @link _ needs _ _ target _ _ hs hnext hstop htarget hw ih =>
    cases first with
    | nil => exact (Walks.link hs hnext hstop htarget hw).starts hall
    | cons s first =>
      obtain ⟨rfl, rfl⟩ := List.cons.inj hall
      have hneeds : (needs || ((first ++ name :: rest).isEmpty && endsInDirectory target)) =
          needs := by
        cases first <;> simp
      obtain ⟨q, links', hfirst, hrest⟩ := ih (List.append_assoc _ first _)
      exact ⟨q, links', fun needs => (hfirst _).imp fun _ =>
        .link hs hnext (fun _ h => absurd h nofun) htarget, hneeds ▸ hrest⟩

theorem LeadsBy.eq {q q' : Place} (h : d.LeadsBy links dir segments q)
    (h' : d.LeadsBy links dir segments q') : q = q' := by
  obtain ⟨_, hw⟩ := h false
  obtain ⟨_, hw'⟩ := h' false
  exact congrArg Target.place
    (Except.ok.inj ((walk_eq_ok_iff.2 hw).symm.trans (walk_eq_ok_iff.2 hw')))

/-- A walk that follows a link at its end leads to where it ends. -/
theorem Walks.leadsBy (hw : Walks d true links needs dir segments t) :
    d.LeadsBy links dir segments t.place := by
  intro needs'
  obtain ⟨u, hu, hplace | ⟨h, -⟩⟩ := hw.endsAt true needs'
  · exact ⟨u.needsDirectory, hplace ▸ hu⟩
  · exact absurd h nofun

/-- A walk that ends at no link has followed all on its way. -/
theorem Walks.followed {follow : Bool} (hw : Walks d follow links needs dir segments t)
    (ht : ∀ target, d.entryAt? t.place ≠ some (.link target)) :
    Walks d true links needs dir segments t := by
  induction hw with
  | here => exact .here
  | up hs _ ih => exact .up hs (ih ht)
  | into hs hnext _ ih => exact .into hs hnext (ih ht)
  | missing hs hnext => exact .missing hs hnext
  | file hs hnext => exact .file hs hnext
  | stop _ hnext => exact absurd hnext (ht _)
  | link hs hnext _ htarget _ ih =>
    exact .link hs hnext (fun _ h => absurd h nofun) htarget (ih ht)

/-- Names without links below a place lead on from there one by one. -/
theorem Walks.place_of_names {follow : Bool} {names : List String}
    (hw : Walks d follow links needs dir names t) (hnames : ".." ∉ names)
    (hlinks : ∀ below, below ≠ [] → ∀ target, d.entryAt? (dir ++ below) ≠ some (.link target)) :
    t.place = dir ++ names := by
  induction hw with
  | here => exact (List.append_nil _).symm
  | up => exact absurd List.mem_cons_self hnames
  | @into _ _ dir s rest _ _ _ _ _ ih =>
    rw [ih (fun h => hnames (List.mem_cons_of_mem s h)) fun below hbelow => ?_, List.append_assoc,
      List.singleton_append]
    rw [List.append_assoc]
    exact hlinks ([s] ++ below) (by simp)
  | missing => rfl
  | file => rfl
  | stop => rfl
  | @link _ _ _ s _ _ _ _ hnext => exact absurd hnext (hlinks [s] (by simp) _)

/-- A walk to a place and one name further goes through the place. -/
theorem Walks.of_append (hw : Walks d true links needs dir segments t) {name : String}
    {follow needs' : Bool} {u : Target}
    (hu : Walks d follow links needs' dir (segments ++ [name]) u) :
    ∃ links', Walks d follow links' needs' t.place [name] u := by
  obtain ⟨q, links', hfirst, hrest⟩ := hu.exists_between
  exact ⟨links', hw.leadsBy.eq hfirst ▸ hrest⟩

theorem Walks.needsDirectory {follow : Bool} (hw : Walks d follow links needs dir segments t)
    (h : needs = true) : t.needsDirectory = true := by
  induction hw with
  | here => exact h
  | up _ _ ih => exact ih h
  | into _ _ _ ih => exact ih h
  | missing => exact h
  | file => exact h
  | stop => cases h
  | link _ _ _ _ _ ih => exact ih (by rw [h, Bool.true_or])

/-- A walk that follows no link of the last name at its end ends at a place of this name. By
induction on its course. -/
theorem Walks.getLast?_place {follow : Bool} (hw : Walks d follow links needs dir segments t)
    {name : String} (hname : name ≠ "..")
    (hlink : follow = false ∧ needs = false ∨
      ∀ q target, d.entryAt? q = some (.link target) → q.getLast? ≠ some name)
    (hlast : segments.getLast? = some name) : t.place.getLast? = some name := by
  induction hw with
  | here => exact absurd hlast nofun
  | @up _ _ _ rest _ _ _ ih =>
    cases rest with
    | nil => exact absurd (Option.some.inj hlast).symm hname
    | cons s rest => exact ih hlink hlast
  | @into _ _ _ s rest _ _ _ _ hrest ih =>
    cases rest with
    | nil =>
      cases hrest
      rw [List.getLast?_concat, ← hlast]
      rfl
    | cons s' rest => exact ih hlink hlast
  | missing => rw [List.getLast?_concat, ← hlast]; rfl
  | file => rw [List.getLast?_concat, ← hlast]; rfl
  | stop => rw [List.getLast?_concat, ← hlast]; rfl
  | @link _ _ _ _ target rest _ _ hnext hstop _ _ ih =>
    cases rest with
    | nil =>
      rcases hlink with ⟨hfollow, hneeds⟩ | hlink
      · exact absurd ((hstop rfl hfollow).symm.trans hneeds) nofun
      · exact absurd (List.getLast?_concat.trans hlast) (hlink _ _ hnext)
    | cons s' rest =>
      refine ih (hlink.imp_left fun h => ⟨h.1, by rw [h.2]; rfl⟩) ?_
      rw [List.getLast?_append, show (s' :: rest).getLast? = some name from hlast]
      rfl

/-- One name leads to its place, unless that holds a link which is followed. -/
theorem Walks.place_of_singleton {follow : Bool} {name : String}
    (hw : Walks d follow links needs dir [name] t) (hne : name ≠ "..")
    (hlink : follow = false ∧ needs = false ∨
      ∀ target, d.entryAt? (dir ++ [name]) ≠ some (.link target)) : t.place = dir ++ [name] := by
  cases hw with
  | up => exact absurd rfl hne
  | into _ _ hrest =>
    cases hrest
    rfl
  | missing => rfl
  | file => rfl
  | stop => rfl
  | link _ hnext hstop =>
    rcases hlink with ⟨hfollow, hneeds⟩ | hlink
    · exact absurd ((hstop rfl hfollow).symm.trans hneeds) nofun
    · exact absurd hnext (hlink _)

theorem Walks.place_of_up {follow : Bool} (hw : Walks d follow links needs dir [".."] t) :
    t.place = dir.dropLast := by
  cases hw with
  | up _ hrest =>
    cases hrest
    rfl
  | into hs => exact absurd rfl hs.ne_up
  | missing hs => exact absurd rfl hs.ne_up
  | file hs => exact absurd rfl hs.ne_up
  | stop hs => exact absurd rfl hs.ne_up
  | link hs => exact absurd rfl hs.ne_up

/-! ## What a path leads to, with its end followed or not -/

theorem target_flags {follow : Bool} {p : Path} {t t' : Target} (ht : d.target true p = .ok t)
    (ht' : d.target follow p = .ok t') :
    t'.place = t.place ∨ follow = false ∧ ∃ target, d.entryAt? t'.place = some (.link target) := by
  have hw := walk_eq_ok_iff.1 (target_eq_ok_iff.1 ht).2.1
  have hw' := (target_eq_ok_iff.1 ht').2.1
  obtain ⟨u, hu, hplace⟩ := hw.endsAt follow (endsInDirectory p.text)
  obtain rfl := Except.ok.inj ((walk_eq_ok_iff.2 hu).symm.trans hw')
  exact hplace

/-- What a path leads to is a link when it is not the same with its end followed. -/
theorem found_flags {follow : Bool} {p : Path} {q q' : Place} {e e' : Entry}
    (hf : d.found true p = .ok (q, e)) (hf' : d.found follow p = .ok (q', e')) :
    (q' = q ∧ e' = e) ∨ ∃ target, e' = .link target := by
  obtain ⟨⟨_, ht⟩, he⟩ := found_eq_ok_iff.1 hf
  obtain ⟨⟨_, ht'⟩, he'⟩ := found_eq_ok_iff.1 hf'
  rcases target_flags ht ht' with hq | ⟨-, target, hlink⟩
  · obtain rfl : q' = q := hq
    exact .inl ⟨rfl, Option.some.inj (he'.symm.trans he)⟩
  · exact .inr ⟨target, Option.some.inj (he'.symm.trans hlink)⟩

/-! ## Names in a directory -/

theorem Usable.join {p : Path} {name : String} (hp : Usable p) (hname : Plain name)
    (hlength : Text.byteLength p.text + 1 + Text.byteLength name < 4096) :
    Usable (p.join name) := by
  have hjoin := Path.toList_join hp.text_ne hname
  have hle := Path.byteLength_join_le hp.text_ne hname
  refine ⟨fun hempty => ?_, ?_, by omega⟩
  · rw [hempty] at hjoin
    exact absurd hjoin (by simp)
  · have hzero : '\x00' ∉ p.stalk := by
      have hp' := hp.zero_not_mem
      rcases Path.stalk_spec p with h | h <;> rw [h] at hp'
      · exact fun hmem => hp' (List.mem_append_left _ hmem)
      · exact hp'
    have hslash : '\x00' ≠ '/' := by decide
    rw [hjoin]
    simp [hzero, hname.zero_not_mem, hslash]

variable {p : Path} {q : Place} {mode : Nat} {name : String}

/-- A name behind the path of a directory leads to the place of that name in it. -/
theorem target_join (hdir : d.found true p = .ok (q, .directory mode))
    (hsearch : d.directoryPermits q .search = true) (hname : Plain name)
    (hlength : Text.byteLength p.text + 1 + Text.byteLength name < 4096)
    (hlink : ∀ target, d.entryAt? (q ++ [name]) ≠ some (.link target)) (follow : Bool) :
    d.target follow (p.join name) = .ok ⟨q ++ [name], false⟩ := by
  obtain ⟨⟨needs, ht⟩, hq⟩ := found_eq_ok_iff.1 hdir
  obtain ⟨husable, hwalk, -⟩ := target_eq_ok_iff.1 ht
  have hopens : d.Opens q name := ⟨hsearch, hname.ne_of_dot ['.'] rfl, hname.length⟩
  refine target_eq_ok_iff.2 ⟨husable.join hname hlength, walk_eq_ok_iff.2 ?_, fun _ _ => rfl⟩
  unfold segmentsTo
  rw [Path.endsInDirectory_join hname, Path.segmentsOf_join hname]
  exact (walk_eq_ok_iff.1 hwalk).append hq hopens hlink follow false

/-- What a name behind the path of a directory leads to is met in the directory. -/
theorem exists_walks_of_target_join (hdir : d.found true p = .ok (q, .directory mode))
    (hslash : '/' ∉ name.toList) (hname : name ≠ "" ∧ name ≠ ".") {follow : Bool}
    (ht : d.target follow (p.join name) = .ok t) :
    ∃ links, Walks d follow links (endsInDirectory (p.join name).text) q [name] t := by
  obtain ⟨⟨needs, htarget⟩, -⟩ := found_eq_ok_iff.1 hdir
  obtain ⟨-, hwalk, -⟩ := target_eq_ok_iff.1 htarget
  have hw := walk_eq_ok_iff.1 (target_eq_ok_iff.1 ht).2.1
  unfold segmentsTo at hw
  rw [Path.segmentsOf_join_of_not_mem hslash, segmentsOfChars_of_not_mem hslash,
    if_neg (not_or.2 hname)] at hw
  exact (walk_eq_ok_iff.1 hwalk).of_append hw

/-- It is the place of that name, unless this holds a link which is followed. -/
theorem place_of_target_join (hdir : d.found true p = .ok (q, .directory mode))
    (hname : Plain name) {follow : Bool} (ht : d.target follow (p.join name) = .ok t)
    (hlink : follow = false ∨ ∀ target, d.entryAt? (q ++ [name]) ≠ some (.link target)) :
    t.place = q ++ [name] := by
  obtain ⟨links, hw⟩ := exists_walks_of_target_join hdir hname.slash_not_mem
    ⟨hname.ne_empty, hname.ne_of_dot [] rfl⟩ ht
  rw [Path.endsInDirectory_join hname] at hw
  exact hw.place_of_singleton (hname.ne_of_dot ['.'] rfl) (hlink.imp_left fun h => ⟨h, rfl⟩)

/-- Wherever the path before it may lead, a name leads to a place of that name, unless a link of
this name is followed. -/
theorem getLast?_of_target_join (hname : Plain name) {follow : Bool}
    (ht : d.target follow (p.join name) = .ok t)
    (hlink : follow = false ∨
      ∀ q target, d.entryAt? q = some (.link target) → q.getLast? ≠ some name) :
    t.place.getLast? = some name := by
  have hw := walk_eq_ok_iff.1 (target_eq_ok_iff.1 ht).2.1
  unfold segmentsTo at hw
  rw [Path.segmentsOf_join hname, Path.endsInDirectory_join hname] at hw
  exact hw.getLast?_place (hname.ne_of_dot ['.'] rfl) (hlink.imp_left fun h => ⟨h, rfl⟩)
    List.getLast?_concat

/-- A file that any text without a slash leads to behind the path of a directory has that name in
it, or lies in the directory above. -/
theorem place_of_found_join (hdir : d.found true p = .ok (q, .directory mode))
    (hslash : '/' ∉ name.toList) {r : Place} {n : Nat}
    (hf : d.found false (p.join name) = .ok (r, .file n)) :
    r = q ++ [name] ∨ r = q.dropLast := by
  obtain ⟨⟨needs, ht⟩, hr⟩ := found_eq_ok_iff.1 hf
  obtain ⟨⟨needs', htarget⟩, hq⟩ := found_eq_ok_iff.1 hdir
  obtain ⟨husable, hwalk, -⟩ := target_eq_ok_iff.1 htarget
  obtain ⟨-, hwalk', hneeds⟩ := target_eq_ok_iff.1 ht
  by_cases hnone : name = "" ∨ name = "."
  · -- the path leads where the directory's own does, to a directory or a link
    unfold segmentsTo at hwalk hwalk'
    rw [Path.segmentsOf_join_of_not_mem hslash, segmentsOfChars_of_not_mem hslash,
      if_pos hnone, List.append_nil] at hwalk'
    obtain ⟨t', hw, hplace⟩ :=
      (walk_eq_ok_iff.1 hwalk).endsAt false (endsInDirectory (p.join name).text)
    obtain rfl := Except.ok.inj ((walk_eq_ok_iff.2 hw).symm.trans hwalk')
    rcases hplace with rfl | ⟨-, target, hlink⟩
    · exact absurd (hr.symm.trans hq) nofun
    · exact absurd (hr.symm.trans hlink) nofun
  · obtain ⟨links, hw⟩ := exists_walks_of_target_join hdir hslash (not_or.1 hnone) ht
    have hends : endsInDirectory (p.join name).text = false :=
      Bool.eq_false_iff.2 fun h => absurd ((hw.needsDirectory h).symm.trans (hneeds n hr)) nofun
    by_cases hup : name = ".."
    · exact .inr (Walks.place_of_up (hup ▸ hw))
    · exact .inl (hw.place_of_singleton hup (.inl ⟨rfl, hends⟩))

theorem usable_before (hp : Usable p) : Usable p.before := by
  obtain ⟨ds, hds⟩ := Path.before_prefix hp.text_ne
  have hzero := hp.zero_not_mem
  have hlength := hp.length
  rw [← hds] at hzero
  rw [Text.byteLength_eq_sum, ← hds, List.map_append, List.sum_append,
    ← Text.byteLength_eq_sum] at hlength
  exact ⟨Path.before_text_ne, fun h => hzero (List.mem_append_left _ h), by omega⟩

theorem byteLength_before (hp : p.text ≠ "") :
    Text.byteLength p.before.text ≤ Text.byteLength p.text := by
  obtain ⟨ds, hds⟩ := Path.before_prefix hp
  rw [Text.byteLength_eq_sum p.text, ← hds, List.map_append, List.sum_append,
    ← Text.byteLength_eq_sum]
  omega

/-- What is before a name leads to the directory, or with its end not followed to a link. -/
theorem target_before (hdir : d.found true p = .ok (q, .directory mode)) (follow : Bool) :
    ∃ t, d.target follow p.before = .ok t ∧
      (t.place = q ∨ follow = false ∧ ∃ target, d.entryAt? t.place = some (.link target)) := by
  obtain ⟨⟨needs, ht⟩, hq⟩ := found_eq_ok_iff.1 hdir
  obtain ⟨husable, hwalk, -⟩ := target_eq_ok_iff.1 ht
  obtain ⟨t, hw, hplace⟩ :=
    (walk_eq_ok_iff.1 hwalk).endsAt follow (endsInDirectory p.before.text)
  refine ⟨t, target_eq_ok_iff.2 ⟨usable_before husable, walk_eq_ok_iff.2 ?_, fun n hn => ?_⟩,
    hplace⟩
  · unfold segmentsTo at hw ⊢
    rwa [Path.segmentsOf_before husable.text_ne]
  · rcases hplace with h | ⟨-, target, h⟩
    · rw [h, hq] at hn
      exact absurd hn nofun
    · exact absurd (hn.symm.trans h) nofun

theorem found_before (hdir : d.found true p = .ok (q, .directory mode)) :
    d.found true p.before = .ok (q, .directory mode) := by
  obtain ⟨⟨place, needs⟩, ht, rfl | ⟨hfollow, -⟩⟩ := target_before hdir true
  · exact found_eq_ok_iff.2 ⟨⟨needs, ht⟩, (found_eq_ok_iff.1 hdir).2⟩
  · exact absurd hfollow (by decide)

end Formulary.Disk
