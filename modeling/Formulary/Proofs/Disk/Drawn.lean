import Formulary.Disk.Temporary
import Formulary.Proofs.Disk.Mirrored
import Formulary.Proofs.Disk.Writing
import Mathlib.Logic.Equiv.Basic

/-!
# Drawn names

The names of temporary directories are drawn, so two runs give them other names. Any two of these
names can be exchanged (`exchange_drawn`). A disk that tells neither of them stays as it is
(`Ignores.exchanged`), and so the two runs lead from it to disks that differ in the names alone, or
fail with messages that do (`exists_makeTemporary`).
-/

namespace Formulary

/-! ## Names that can be exchanged -/

theorem exchange_swap {a b : String} (ha : Disk.Plain a) (hb : Disk.Plain b)
    (h : Text.byteLength a = Text.byteLength b) : Exchange (Equiv.swap a b) where
  back s := by rw [← Equiv.trans_apply, Equiv.swap_swap, Equiv.refl_apply]
  plain s hs := by
    rcases Equiv.swap_apply_ne_self_iff.1 hs with ⟨-, rfl | rfl⟩
    · exact ha
    · exact hb
  byteLength s := by
    rw [Equiv.swap_apply_def]
    split
    · rename_i hs
      rw [hs, h]
    · split
      · rename_i hs
        rw [hs, h]
      · rfl

namespace Token

variable (t : Token)

theorem ascii_of_mem {c : Char} (hc : c ∈ t.text.toList) : c.toNat < 128 := by
  -- an upper case letter, a lower case letter, or a digit
  have h : (decide (c.val ≥ 65 ∧ c.val ≤ 90) || (decide (c.val ≥ 97) && decide (c.val ≤ 122)) ||
      (decide (c.val ≥ 48) && decide (c.val ≤ 57))) = true := t.isAlphanum_of_mem c hc
  simp only [Bool.or_eq_true, Bool.and_eq_true, decide_eq_true_eq, UInt32.le_iff_toNat_le,
    ge_iff_le] at h
  change ((65 ≤ c.toNat ∧ c.toNat ≤ 90) ∨ 97 ≤ c.toNat ∧ c.toNat ≤ 122) ∨
    48 ≤ c.toNat ∧ c.toNat ≤ 57 at h
  omega

theorem byteLength_text : Text.byteLength t.text = 6 :=
  (Text.byteLength_of_ascii fun _ => t.ascii_of_mem).trans t.length_toList

theorem plain_append {stem : String} (hslash : '/' ∉ stem.toList) (hzero : '\x00' ∉ stem.toList)
    (hlength : Text.byteLength stem + 6 ≤ Disk.maxName) : Disk.Plain (stem ++ t.text) where
  slash_not_mem h := by
    rw [String.toList_append, List.mem_append] at h
    exact h.elim hslash fun h => absurd (t.isAlphanum_of_mem _ h) (by decide)
  zero_not_mem h := by
    rw [String.toList_append, List.mem_append] at h
    exact h.elim hzero fun h => absurd (t.isAlphanum_of_mem _ h) (by decide)
  last := by
    have hne : t.text.toList ≠ [] := fun h => absurd t.length_toList (by simp [h])
    obtain ⟨cs, c, hc⟩ := List.eq_nil_or_concat t.text.toList |>.resolve_left hne
    refine ⟨stem.toList ++ cs, c, by simp [hc], ?_⟩
    rintro rfl
    exact absurd (t.isAlphanum_of_mem '.' (by simp [hc])) (by decide)
  length := by rwa [Text.byteLength_append, t.byteLength_text]

end Token

/-- The name is one of the segments of the text. -/
def Text.Tells (text name : String) : Prop := name ∈ pieces '/' text

instance (text name : String) : Decidable (Text.Tells text name) :=
  inferInstanceAs (Decidable (_ ∈ _))

theorem Text.tells_self {name : String} (h : Disk.Plain name) : Tells name name := by
  unfold Tells pieces
  rw [split_of_not_mem h.slash_not_mem]
  simp

theorem Path.exchanged_of_not_tells {p : Path} {a b : String} (ha : ¬Text.Tells p.text a)
    (hb : ¬Text.Tells p.text b) : Exchanged (Equiv.swap a b) p p := by
  refine exchanged_self fun s hs => Equiv.swap_apply_of_ne_of_ne ?_ ?_
  · rintro rfl
    exact ha hs
  · rintro rfl
    exact hb hs

namespace Disk

/-- The name is told nowhere on the disk. -/
structure Ignores (d : Disk) (name : String) : Prop where
  places : ∀ x ∈ d.entries, ∀ s ∈ x.1, ¬Text.Tells s name
  links : ∀ x ∈ d.entries, ∀ target, x.2 = .link target → ¬Text.Tells target name
  workdir : ¬Text.Tells d.workdir.text name

variable {d d' : Disk} {a b : String}

/-- A disk that tells neither of two names stays as it is when they are exchanged. -/
theorem Ignores.exchanged (hplaina : Plain a) (hplainb : Plain b) (ha : d.Ignores a)
    (hb : d.Ignores b) : Exchanged (Equiv.swap a b) d d := by
  have hfixed : ∀ x ∈ d.entries, ∀ s ∈ x.1, Equiv.swap a b s = s := by
    intro x hx s hs
    refine Equiv.swap_apply_of_ne_of_ne ?_ ?_
    · rintro rfl
      exact ha.places x hx s hs (Text.tells_self hplaina)
    · rintro rfl
      exact hb.places x hx s hs (Text.tells_self hplainb)
  refine ⟨⟨fun x hx s hs => ?_, fun x hx target htarget => ?_, ?_⟩, ?_⟩
  · rw [hfixed x hx s hs]
    exact Path.exchanged_of_not_tells (ha.places x hx s hs) (hb.places x hx s hs)
  · exact Path.exchanged_of_not_tells (ha.links x hx target htarget) (hb.links x hx target htarget)
  · exact Path.exchanged_of_not_tells ha.workdir hb.workdir
  · have hentries : d.entries.map (Prod.map (List.map (Equiv.swap a b)) id) = d.entries := by
      refine (List.map_congr_left fun x hx => ?_).trans (List.map_id _)
      exact Prod.ext ((List.map_congr_left (hfixed x hx)).trans (List.map_id _)) rfl
    unfold exchange
    rw [hentries]

/-! ## Temporary directories -/

/-- The names that two runs draw at the same time, exchanged. -/
def drawn (stem : String) (draw draw' : Nat → Token) (i : Nat) : String → String :=
  Equiv.swap (stem ++ (draw i).text) (stem ++ (draw' i).text)

/-- The path of the second run is that of the first, with the names that they drew exchanged. -/
theorem exchanged_drawn {parent : Path} {stem : String} {draw draw' : Nat → Token} {i : Nat}
    (hslash : '/' ∉ stem.toList)
    (hparent : Path.Exchanged (drawn stem draw draw' i) parent parent)
    (hσ : Exchange (drawn stem draw draw' i)) :
    Path.Exchanged (drawn stem draw draw' i) (parent.join (stem ++ (draw i).text))
      (parent.join (stem ++ (draw' i).text)) := by
  have hname : '/' ∉ (stem ++ (draw i).text).toList := by
    rw [String.toList_append, List.mem_append]
    exact fun h => h.elim hslash fun h => absurd ((draw i).isAlphanum_of_mem _ h) (by decide)
  have hexchanged := Path.exchanged_name (σ := drawn stem draw draw' i) hname
  rw [show drawn stem draw draw' i (stem ++ (draw i).text) = stem ++ (draw' i).text from
    Equiv.swap_apply_left _ _] at hexchanged
  exact hparent.join hσ hexchanged

/-- The failures have messages that differ in names alone. -/
def TemporaryFailure.Exchanged (σ : String → String) (f f' : TemporaryFailure) : Prop :=
  Path.Retold σ f.message f'.message

/-- The two runs made directories with names exchanged, or failed with such messages. -/
def MadeAlike (σ : String → String) (x y : Except TemporaryFailure Path × Disk) : Prop :=
  Alongside (Exchanged σ) (Outcomes (TemporaryFailure.Exchanged σ) (Path.Exchanged σ)) x y

variable {stem : String} {draw draw' : Nat → Token} {parent : Path}

/-- By induction on the names that may still be tried : what is there already keeps its name to
itself, and the disk is as before. -/
theorem exists_makeDrawn (hslash : '/' ∉ stem.toList)
    (hσ : ∀ i, Exchange (drawn stem draw draw' i))
    (hparent : ∀ i, Path.Exchanged (drawn stem draw draw' i) parent parent) (tries i : Nat)
    (hd : ∀ i, Exchanged (drawn stem draw draw' i) d d) :
    ∃ i', MadeAlike (drawn stem draw draw' i') (makeDrawn parent stem draw tries i d)
      (makeDrawn parent stem draw' tries i d) := by
  induction tries generalizing i d with
  | zero => exact ⟨i, .error (Path.Retold.same _), hd i⟩
  | succ tries ih =>
    have hp := exchanged_drawn hslash (hparent i) (hσ i)
    have hmade := mirrored_makeDirectory (hσ i) directoryMode hp d d (hd i)
    unfold makeDrawn
    simp only [bind_apply]
    rcases hr : (makeDirectory (parent.join (stem ++ (draw i).text))).run d with ⟨result, d₁⟩
    rcases hr' : (makeDirectory (parent.join (stem ++ (draw' i).text))).run d with ⟨result', d₁'⟩
    rw [hr, hr'] at hmade
    obtain rfl : result = result' := hmade.result.eq
    dsimp only
    split
    · exact ⟨i, .ok hp, hmade.state⟩
    · obtain rfl := eq_past_of_run_makeDirectory hr
      obtain rfl := eq_past_of_run_makeDirectory hr'
      exact ih (i + 1) fun i => (hd i).past
    · exact ⟨i, .error ((Path.Retold.quoted hp).after _), hmade.state⟩

theorem exists_makeTemporary (hslash : '/' ∉ stem.toList)
    (hσ : ∀ i, Exchange (drawn stem draw draw' i))
    (hparent : ∀ i, Path.Exchanged (drawn stem draw draw' i) parent parent)
    (hd : ∀ i, Exchanged (drawn stem draw draw' i) d d) :
    ∃ i, MadeAlike (drawn stem draw draw' i) (makeTemporary parent stem draw d)
      (makeTemporary parent stem draw' d) :=
  exists_makeDrawn hslash hσ (fun i => (hd i).suits.workdir.join (hσ i) (hparent i)) maxDraws 0 hd

end Disk

end Formulary
