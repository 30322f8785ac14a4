import Formulary.Archive.Extraction
import Formulary.Destination
import Formulary.Proofs.Disk.Mirrored

/-!
# Extraction into directories of another name

An archive that tells nothing of the names that are exchanged is unpacked into the one directory as
it is into the other (`Extraction.abreast_run`) : the same members are put into the same places
below, or both runs fail, with messages that differ in these names alone.
-/

namespace Formulary

variable {σ : String → String} {p p' q q' upper upper' : Path}

/-- No name of the member, or of what it links to, is exchanged. -/
structure Tar.Member.Suits (σ : String → String) (m : Tar.Member) : Prop where
  name : Path.Exchanged σ ⟨m.name⟩ ⟨m.name⟩
  linkName : Path.Exchanged σ ⟨m.linkName.getD ""⟩ ⟨m.linkName.getD ""⟩

/-- The second tree has names in its paths exchanged. -/
structure SourceTree.Exchanged (σ : String → String) (t t' : SourceTree) : Prop where
  directory : Path.Exchanged σ t.directory t'.directory
  root : Path.Exchanged σ t.root t'.root
  entries : t'.entries = t.entries

namespace Extraction

/-! ## Failures -/

/-- The failures have the same cause, and their messages differ in names alone. -/
structure Stray.Exchanged (σ : String → String) (s s' : Stray) : Prop where
  message : Path.Retold σ s.message s'.message
  cause : s'.cause = s.cause

theorem Stray.exchanged_unresolved (hp : Path.Exchanged σ p p') (cause : Cause) :
    (unresolved p cause).Exchanged σ (unresolved p' cause) :=
  ⟨(Path.Retold.display hp).after _, rfl⟩

theorem Stray.exchanged_outside (hp : Path.Exchanged σ p p') :
    (outside p).Exchanged σ (outside p') := ⟨(Path.Retold.display hp).after _, rfl⟩

section

variable (hσ : Exchange σ)

include hσ

/-! ## Placing members -/

theorem abreast_locate (hupper : Path.Exchanged σ upper upper') (hp : Path.Exchanged σ p p') :
    Abreast (Disk.Exchanged σ) (Outcomes (Stray.Exchanged σ) Eq) (locate upper p)
      (locate upper' p') := by
  refine Abreast.bind (Disk.mirrored_canonical hσ hp) fun inner inner' hinner => ?_
  cases hinner with
  | error hcause =>
    subst hcause
    exact Abreast.pure (.error (Stray.exchanged_unresolved hp _))
  | ok hinner =>
    refine Abreast.bind (Disk.mirrored_canonical hσ hupper) fun outer outer' houter => ?_
    cases houter with
    | error hcause =>
      subst hcause
      exact Abreast.pure (.error (Stray.exchanged_unresolved hupper _))
    | @ok outer outer' houter =>
      dsimp only
      rw [hinner.segmentsOf hσ, houter.segmentsOf hσ, Disk.isWithin_map hσ]
      split
      · exact Abreast.pure (.ok rfl)
      · exact Abreast.pure (.error (Stray.exchanged_outside houter))

theorem mirrored_mustBeWithin (hupper : Path.Exchanged σ upper upper')
    (hp : Path.Exchanged σ p p') :
    Disk.Mirrored σ Eq (mustBeWithin upper p) (mustBeWithin upper' p') := by
  refine (Disk.mirrored_liftM (abreast_locate hσ hupper hp)).bind fun located located' h => ?_
  cases h with
  | ok _ => exact Disk.mirrored_pure rfl
  | error hstray =>
    dsimp only
    rw [hstray.cause]
    exact Disk.mirrored_throw _

theorem mirrored_makeWithin (fuel : Nat) (hupper : Path.Exchanged σ upper upper')
    (hp : Path.Exchanged σ p p') :
    Disk.Mirrored σ Eq (makeWithin upper fuel p) (makeWithin upper' fuel p') := by
  induction fuel generalizing p p' with
  | zero => exact Disk.mirrored_throw _
  | succ fuel ih =>
    refine (Disk.mirrored_kind hσ false hp).attempt.bind_eq fun found => ?_
    cases found with
    | ok _ => exact Disk.mirrored_pure rfl
    | error _ =>
      dsimp only
      have hparent := hp.parent? hσ
      generalize p.parent? = above at hparent ⊢
      generalize p'.parent? = above' at hparent ⊢
      cases hparent with
      | none => exact Disk.mirrored_makeDirectories hσ hp
      | some habove =>
        exact (ih habove).bind_eq fun _ => (mirrored_mustBeWithin hσ hupper habove).bind_eq fun _ =>
          Disk.mirrored_makeDirectories hσ hp

theorem mirrored_setTold (mode : Option Nat) (hp : Path.Exchanged σ p p') :
    Disk.Mirrored σ Eq (setTold p mode) (setTold p' mode) := by
  cases mode with
  | none => exact Disk.mirrored_pure rfl
  | some m => exact Disk.mirrored_setMode hσ _ hp

theorem mirrored_replacing {make make' : DiskM Unit} (hmake : Disk.Mirrored σ Eq make make')
    (hp : Path.Exchanged σ p p') :
    Disk.Mirrored σ Eq (replacing p make) (replacing p' make') := by
  refine hmake.attempt.bind_eq fun made => ?_
  split
  · exact Disk.mirrored_pure rfl
  · exact (Disk.mirrored_removeFile hσ hp).bind_eq fun _ => hmake
  · exact Disk.mirrored_throw _

theorem mirrored_place {m : Tar.Member} (hm : m.Suits σ)
    (hupper : Path.Exchanged σ upper upper') (hp : Path.Exchanged σ p p') :
    Disk.Mirrored σ Eq (place upper m p) (place upper' m p') := by
  unfold place
  cases m.kind with
  | note => exact Disk.mirrored_pure rfl
  | directory =>
    have htold : Disk.Mirrored σ Eq (setTold p m.mode) (setTold p' m.mode) :=
      mirrored_setTold hσ m.mode hp
    refine (Disk.mirrored_makeDirectory hσ _ hp).attempt.bind_eq fun made => ?_
    dsimp only
    split
    · exact htold
    · refine (Disk.mirrored_kind hσ false hp).attempt.bind_eq fun found => ?_
      split
      · exact htold
      · exact (Disk.mirrored_throw _).bind_eq fun _ => htold
    · exact (Disk.mirrored_throw _).bind_eq fun _ => htold
  | symbolicLink => exact mirrored_replacing hσ (Disk.mirrored_makeLink hσ hm.linkName hp) hp
  | hardLink =>
    dsimp only
    split
    · exact Disk.mirrored_throw _
    · refine (Disk.mirrored_canonical hσ hupper).bind fun outer outer' houter => ?_
      have hfile := houter.join hσ hm.linkName
      exact (mirrored_mustBeWithin hσ hupper hfile).bind_eq fun _ =>
        Disk.mirrored_addName hσ hfile hp
  | file =>
    refine (mirrored_replacing hσ (Disk.mirrored_createNew hσ _ _ hp) hp).bind_eq fun _ => ?_
    dsimp only
    split
    · exact (Disk.mirrored_throw _).bind_eq fun _ => mirrored_setTold hσ m.mode hp
    · exact (Disk.mirrored_write hσ _ hp).bind_eq fun _ => mirrored_setTold hσ m.mode hp

theorem abreast_settle {m : Tar.Member} (hm : m.Suits σ) (depth : Nat)
    (hupper : Path.Exchanged σ upper upper') (hq : Path.Exchanged σ q q')
    (hp : Path.Exchanged σ p p') :
    Abreast (Disk.Exchanged σ)
      (Outcomes (fun why why' => Path.Retold σ why.message why'.message) Eq)
      (settle upper m depth q p) (settle upper' m depth q' p') := by
  refine Abreast.bind (mirrored_makeWithin hσ depth hupper hq) fun made made' hmade => ?_
  cases hmade with
  | error _ => exact Abreast.pure (.error (((Path.Retold.display hq).after _).before _))
  | ok _ =>
    refine Abreast.bind (abreast_locate hσ hupper hq) fun located located' hlocated => ?_
    cases hlocated with
    | error hstray => exact Abreast.pure (.error hstray.message)
    | ok _ =>
      refine Abreast.bind (mirrored_place hσ hm hupper hp) fun placed placed' hplaced => ?_
      cases hplaced with
      | error _ => exact Abreast.pure (.error (((Path.Retold.display hp).after _).before _))
      | ok _ => exact Abreast.pure (.ok rfl)

omit hσ in
/-- The names of a member are those that its path consists of. -/
theorem mem_components_of_namesOf? {name s : String} {names : List String}
    (h : namesOf? name = some names) (hs : s ∈ names) : .name s ∈ (Path.mk name).components := by
  unfold namesOf? at h
  generalize (Path.mk name).components = components at h ⊢
  induction components generalizing names with
  | nil =>
    obtain rfl := Option.some.inj h
    exact absurd hs List.not_mem_nil
  | cons c rest ih =>
    rw [List.foldr_cons] at h
    split at h
    · obtain ⟨names, hnames, rfl⟩ := Option.map_eq_some_iff.1 h
      rcases List.mem_cons.1 hs with rfl | hs
      · exact List.mem_cons_self
      · exact List.mem_cons_of_mem _ (ih hs hnames)
    · exact absurd h nofun
    · exact List.mem_cons_of_mem _ (ih hs h)

theorem exchanged_of_mem_components {s : String} (h : Path.Exchanged σ p p)
    (hs : .name s ∈ p.components) : Path.Exchanged σ ⟨s⟩ ⟨s⟩ := by
  have hfixed := List.map_inj_left.1
    ((h.components hσ).symm.trans (List.map_id p.components).symm) _ hs
  have hself := Path.exchanged_name (σ := σ) (Destination.isName_of_mem_components hs).2.2.2
  rwa [show σ s = s from Component.name.inj hfixed] at hself

theorem exchanged_foldl_join {names : List String} (hp : Path.Exchanged σ p p')
    (h : ∀ s ∈ names, Path.Exchanged σ ⟨s⟩ ⟨s⟩) :
    Path.Exchanged σ (names.foldl Path.join p) (names.foldl Path.join p') := by
  induction names generalizing p p' with
  | nil => exact hp
  | cons s rest ih =>
    obtain ⟨hs, hrest⟩ := List.forall_mem_cons.1 h
    exact ih (hp.join hσ hs) hrest

/-- The failures have messages that differ in names alone. -/
def Failure.Exchanged (σ : String → String) (f f' : Failure) : Prop :=
  Path.Retold σ f.message f'.message

theorem abreast_unpack {m : Tar.Member} (hm : m.Suits σ)
    (hupper : Path.Exchanged σ upper upper') :
    Abreast (Disk.Exchanged σ) (Outcomes (Failure.Exchanged σ) Eq) (unpack upper m)
      (unpack upper' m) := by
  unfold unpack
  split
  · exact Abreast.pure (.error (Path.Retold.same _))
  · exact Abreast.pure (.ok rfl)
  · rename_i names _ hnames
    have hself : ∀ s ∈ names, Path.Exchanged σ ⟨s⟩ ⟨s⟩ := fun s hs =>
      exchanged_of_mem_components hσ hm.name (mem_components_of_namesOf? hnames hs)
    have habove := exchanged_foldl_join hσ hupper fun s hs => hself s (List.dropLast_subset _ hs)
    refine Abreast.bind (abreast_settle hσ hm _ hupper habove
      (exchanged_foldl_join hσ hupper hself)) fun settled settled' hsettled => ?_
    cases hsettled with
    | error hwhy => exact Abreast.pure (.error (hwhy.after _))
    | ok _ => exact Abreast.pure (.ok rfl)

/-! ## Extraction -/

theorem abreast_unpackAll {members : List Tar.Member} (hmembers : ∀ m ∈ members, m.Suits σ)
    (hupper : Path.Exchanged σ upper upper') :
    Abreast (Disk.Exchanged σ) (Outcomes (Failure.Exchanged σ) Eq) (unpackAll upper members).run
      (unpackAll upper' members).run := by
  induction members with
  | nil => exact Abreast.run_pure rfl
  | cons m rest ih =>
    obtain ⟨hm, hrest⟩ := List.forall_mem_cons.1 hmembers
    exact Abreast.run_bind (abreast_unpack hσ hm hupper) fun _ _ _ => ih hrest

theorem abreast_sourceRoot (hp : Path.Exchanged σ p p') :
    Abreast (Disk.Exchanged σ) (Outcomes (Failure.Exchanged σ) (Path.Exchanged σ))
      (sourceRoot p).run (sourceRoot p').run := by
  refine Abreast.run_bind (Abreast.run_liftM (Disk.mirrored_list hσ hp)) fun listed listed' h => ?_
  cases h with
  | error hcause =>
    subst hcause
    exact Abreast.run_throw (((Path.Retold.display hp).after _).before _ |>.before _)
  | @ok names _ hnames =>
    obtain ⟨rfl, hspelt⟩ := hnames
    rcases names with _ | ⟨name, _ | ⟨other, rest⟩⟩
    · exact Abreast.run_pure hp
    · have honly := hp.join hσ (hspelt name List.mem_cons_self)
      refine Abreast.run_bind (Abreast.run_liftM (Disk.mirrored_kind hσ false honly))
        fun kind kind' h => ?_
      rw [← h.eq]
      split
      · exact Abreast.run_pure honly
      · exact Abreast.run_pure hp
    · exact Abreast.run_pure hp

theorem abreast_unpackContents {contents : Tar.Contents}
    (hmembers : ∀ m ∈ contents.members, m.Suits σ) (hp : Path.Exchanged σ p p') :
    Abreast (Disk.Exchanged σ) (Outcomes (Failure.Exchanged σ) (SourceTree.Exchanged σ))
      (unpackContents contents p).run (unpackContents contents p').run := by
  refine Abreast.run_bind (Abreast.run_liftM (Disk.mirrored_makeDirectories hσ hp))
    fun made made' hmade => ?_
  cases hmade with
  | error hcause =>
    subst hcause
    exact Abreast.run_throw (((Path.Retold.display hp).after _).before _ |>.before _)
  | ok _ =>
    refine Abreast.run_bind (abreast_unpackAll hσ hmembers hp) fun _ _ _ => ?_
    cases contents.sound with
    | false => exact Abreast.run_throw (Path.Retold.same _)
    | true =>
      cases contents.members.isEmpty with
      | true => exact Abreast.run_throw (Path.Retold.same _)
      | false =>
        exact Abreast.run_bind (abreast_sourceRoot hσ hp) fun _ _ hroot =>
          Abreast.run_pure ⟨hp, hroot, rfl⟩

theorem abreast_run {archive : Verified}
    (hmembers : ∀ m ∈ (Tar.read (Codec.unwrap archive.bytes)).members, m.Suits σ)
    (hp : Path.Exchanged σ p p') :
    Abreast (Disk.Exchanged σ) (Outcomes (Failure.Exchanged σ) (SourceTree.Exchanged σ))
      (run archive p).run (run archive p').run := abreast_unpackContents hσ hmembers hp

end

end Extraction

end Formulary
