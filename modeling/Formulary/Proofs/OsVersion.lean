import Formulary.OsVersion
import Formulary.Proofs.Text
import Mathlib.Data.List.Lex

/-!
# The order of versions

Two versions compare as the lists of the three numbers that count (`OsVersion.numbers`), so to be
new enough is a preorder (`OsVersion.satisfies_trans`). A version is read from the trimmed text, or
from the number that the text is a release name for; either starts with a digit
(`OsVersion.parse_eq_ok_iff`). No release name does, so the number that was read is read again as it
is (`OsVersion.parse_display`).
-/

namespace Formulary

/-- An ASCII character becomes lower case on its own. -/
theorem Text.lowerFrom_of_ascii {d : Char} (h : d.toNat < 128) (passed ds : List Char) :
    lowerFrom passed (d :: ds) = d.toLower :: lowerFrom (d :: passed) ds := by
  have hall : ∀ n < 128, (Char.ofNat n == 'Σ') = false ∧
      lowerChar (Char.ofNat n) = [(Char.ofNat n).toLower] := by decide
  obtain ⟨hsigma, hlower⟩ := hall d.toNat h
  rw [Char.ofNat_toNat] at hsigma hlower
  simp [lowerFrom, hsigma, hlower]

namespace OsVersion

variable {a b c : OsVersion}

/-! ## Order -/

/-- The three numbers that count, the one with the most weight first. -/
def numbers (v : OsVersion) : List Nat := [v.components.1, v.components.2.1, v.components.2.2]

theorem compare_eq_lt_iff : a.compare b = .lt ↔ a.numbers < b.numbers := by
  unfold compare numbers
  simp [Ordering.then_eq_lt, Nat.compare_eq_lt, List.cons_lt_cons_iff]

theorem compare_eq_gt_iff : a.compare b = .gt ↔ b.numbers < a.numbers := by
  unfold compare numbers
  simp [Ordering.then_eq_gt, Nat.compare_eq_gt, List.cons_lt_cons_iff, @eq_comm Nat]

theorem same_iff : a.same b = true ↔ a.numbers = b.numbers := by
  unfold same compare numbers
  simp [Ordering.then_eq_eq]

theorem satisfies_iff : a.satisfies b = true ↔ b.numbers ≤ a.numbers := by
  unfold satisfies
  rw [bne_iff_ne, Ne, compare_eq_lt_iff, not_lt]

theorem satisfies_trans (hab : a.satisfies b = true) (hbc : b.satisfies c = true) :
    a.satisfies c = true :=
  satisfies_iff.2 ((satisfies_iff.1 hbc).trans (satisfies_iff.1 hab))

/-! ## Release names -/

/-- The text starts with a digit. -/
def IsNumeric (s : String) : Prop := s.toList.head?.any Text.isDigit = true

instance (s : String) : Decidable (IsNumeric s) := inferInstanceAs (Decidable (_ = true))

theorem isNumeric_iff {s : String} :
    IsNumeric s ↔ ∃ d ds, s.toList = d :: ds ∧ Text.isDigit d = true := by
  unfold IsNumeric
  cases s.toList <;> simp

theorem isNumeric_releaseKey {s : String} (h : IsNumeric (Text.trim s)) :
    IsNumeric (releaseKey s) := by
  obtain ⟨d, ds, hs, hd⟩ := isNumeric_iff.1 h
  have hascii : d.toNat < 128 := by
    have := (Text.toNat_of_isDigit hd).2
    omega
  have hall : ∀ n < 128, Text.isDigit (Char.ofNat n) = true →
      (Char.ofNat n).toLower = Char.ofNat n ∧ Char.ofNat n ≠ ' ' ∧ Char.ofNat n ≠ '-' := by decide
  rw [← Char.ofNat_toNat d] at hd
  obtain ⟨hlower, hspace, hdash⟩ := hall d.toNat hascii hd
  rw [Char.ofNat_toNat] at hlower hspace hdash hd
  unfold IsNumeric releaseKey Text.lower
  simp [hs, Text.lowerFrom_of_ascii hascii, hlower, hspace, hdash, hd]

/-- No release name starts with a digit. -/
theorem macosRelease?_of_isNumeric {s : String} (h : IsNumeric (Text.trim s)) :
    macosRelease? s = none := by
  have hall : ∀ release ∈ macosReleases, ¬IsNumeric release.1 := by decide
  unfold macosRelease?
  rw [List.lookup_eq_none_iff]
  intro release hmem
  rw [bne_iff_ne]
  intro hkey
  exact hall release hmem (hkey ▸ isNumeric_releaseKey h)

theorem mem_macosReleases_of_macosRelease? {s number : String}
    (h : macosRelease? s = some number) : (releaseKey s, number) ∈ macosReleases := by
  obtain ⟨before, behind, hreleases, -⟩ := List.lookup_eq_some_iff.1 h
  rw [hreleases]
  exact List.mem_append_right before List.mem_cons_self

/-! ## Reading -/

/-- What is read is the trimmed text, or the number that it is a release name for. -/
theorem parse_eq_ok_iff {text : String} {v : OsVersion} : parse text = .ok v ↔
    v.raw = (macosRelease? (Text.trim text)).getD (Text.trim text) ∧ IsNumeric v.raw := by
  obtain ⟨read⟩ := v
  unfold parse
  dsimp only
  split
  · rename_i hempty
    have hnone : macosRelease? "" = none := by decide
    rw [hempty, hnone, Option.getD_none]
    refine iff_of_false nofun ?_
    rintro ⟨rfl, hnumeric⟩
    exact absurd hnumeric (by decide)
  · generalize (macosRelease? (Text.trim text)).getD (Text.trim text) = raw
    cases hraw : raw.toList with
    | nil =>
      refine iff_of_false nofun ?_
      rintro ⟨rfl, hnumeric⟩
      simp [IsNumeric, hraw] at hnumeric
    | cons d ds =>
      have hnumeric : IsNumeric raw ↔ Text.isDigit d = true := by simp [IsNumeric, hraw]
      dsimp only
      split
      · rename_i hd
        rw [Except.ok.injEq, mk.injEq, eq_comm]
        exact ⟨fun h => ⟨h, h ▸ hnumeric.2 hd⟩, And.left⟩
      · rename_i hd
        refine iff_of_false nofun ?_
        rintro ⟨rfl, h⟩
        exact hd (hnumeric.1 h)

/-- A number is read as it is, without the blanks around it. -/
theorem parse_of_isNumeric {text : String} (h : IsNumeric (Text.trim text)) :
    parse text = .ok ⟨Text.trim text⟩ := by
  rw [parse_eq_ok_iff, macosRelease?_of_isNumeric (by rwa [Text.trim_trim])]
  exact ⟨rfl, h⟩

theorem trim_raw {text : String} {v : OsVersion} (h : parse text = .ok v) :
    Text.trim v.raw = v.raw := by
  obtain ⟨hraw, -⟩ := parse_eq_ok_iff.1 h
  cases hrelease : macosRelease? (Text.trim text) with
  | none =>
    rw [hraw, hrelease, Option.getD_none, Text.trim_trim]
  | some number =>
    have hall : ∀ release ∈ macosReleases, Text.trim release.2 = release.2 := by decide
    rw [hraw, hrelease, Option.getD_some]
    exact hall (_, number) (mem_macosReleases_of_macosRelease? hrelease)

/-- The version that is displayed is read. -/
theorem parse_display {text : String} {v : OsVersion} (h : parse text = .ok v) :
    parse v.display = .ok v := by
  have htrim : Text.trim v.display = v.raw := trim_raw h
  rw [parse_of_isNumeric (htrim ▸ (parse_eq_ok_iff.1 h).2), htrim]

end OsVersion

end Formulary
