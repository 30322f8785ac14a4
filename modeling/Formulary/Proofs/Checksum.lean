import Formulary.Checksum
import Formulary.Proofs.Text

/-!
# The normal form of a checksum

What is displayed of a checksum has no blanks (`Checksum.trim_display`). Two checksums have the same
cache key only when they are the same (`Checksum.cacheKey_injective`), and a key is made of letters,
digits and one underscore (`Checksum.isKeyChar_of_mem`), so it is a plain name wherever a path may
hold one.
-/

namespace Formulary

/-! ## Digits -/

theorem toNat_of_isLowerHex {c : Char} (h : isLowerHex c = true) :
    48 ≤ c.toNat ∧ c.toNat ≤ 57 ∨ 97 ≤ c.toNat ∧ c.toNat ≤ 102 := by
  simp only [isLowerHex, Bool.or_eq_true, Bool.and_eq_true, decide_eq_true_eq] at h
  exact h

theorem isHexDigit_of_isLowerHex {c : Char} (h : isLowerHex c = true) : isHexDigit c = true := by
  unfold isHexDigit
  unfold isLowerHex at h
  rw [h, Bool.true_or]

theorem lowerAscii_of_isLowerHex {c : Char} (h : isLowerHex c = true) :
    Algorithm.lowerAscii c = c := by
  have hc := toNat_of_isLowerHex h
  unfold Algorithm.lowerAscii
  rw [if_neg]
  simp only [Bool.and_eq_true, decide_eq_true_eq]
  rintro ⟨hA, hZ⟩
  have hA' : 65 ≤ c.toNat := hA
  have hZ' : c.toNat ≤ 90 := hZ
  omega

theorem isBlank_of_isLowerHex {c : Char} (h : isLowerHex c = true) : Text.isBlank c = false := by
  have hc := toNat_of_isLowerHex h
  rw [Bool.eq_false_iff]
  intro hblank
  simp only [Text.isBlank, Bool.or_eq_true, Bool.and_eq_true, decide_eq_true_eq,
    beq_iff_eq] at hblank
  omega

namespace Checksum

theorem isLowerHex_of_mem (c : Checksum) {d : Char} (hd : d ∈ c.digits) : isLowerHex d = true :=
  List.all_eq_true.1 c.isLowerHex_digits d hd

@[simp]
theorem toList_hex (c : Checksum) : c.hex.toList = c.digits := String.toList_ofList

theorem eq_of_digits {c c' : Checksum} (halgorithm : c.algorithm = c'.algorithm)
    (hdigits : c.digits = c'.digits) : c = c' := by
  obtain ⟨algorithm, digits, _, _⟩ := c
  obtain ⟨algorithm', digits', _, _⟩ := c'
  dsimp only at halgorithm hdigits
  subst halgorithm hdigits
  rfl

theorem matches_of (a : Algorithm) (data : ByteArray) : (of a data).Matches data := rfl

/-! ## What is displayed -/

theorem toList_display (c : Checksum) :
    c.display.toList = c.algorithm.name.toList ++ ':' :: c.digits := by
  unfold display
  rw [String.toList_append, String.toList_append, toList_hex, List.append_assoc]
  rfl

theorem not_mark_of_mem_name (a : Algorithm) {d : Char} (hd : d ∈ a.name.toList) :
    Text.isBlank d = false ∧ d ≠ ':' ∧ d ≠ '/' ∧ d ≠ '_' := by
  have hall : ∀ a : Algorithm, ∀ d ∈ a.name.toList,
      Text.isBlank d = false ∧ d ≠ ':' ∧ d ≠ '/' ∧ d ≠ '_' := by
    intro a
    cases a <;> simp [Algorithm.name] <;> decide
  exact hall a d hd

theorem trim_display (c : Checksum) : Text.trim c.display = c.display := by
  unfold Text.trim
  rw [Text.trimChars_of_forall, String.ofList_toList]
  intro d hd
  rw [toList_display] at hd
  rcases List.mem_append.1 hd with hd | hd
  · exact (not_mark_of_mem_name _ hd).1
  · rcases List.mem_cons.1 hd with rfl | hd
    · decide
    · exact isBlank_of_isLowerHex (c.isLowerHex_of_mem hd)

/-! ## Cache keys -/

/-- A character that a cache key may have. -/
def isKeyChar (d : Char) : Bool := isLowerHex d || d == 's' || d == 'h' || d == '_'

theorem toList_cacheKey (c : Checksum) :
    c.cacheKey.toList = c.algorithm.name.toList ++ '_' :: c.digits := by
  unfold cacheKey
  rw [String.toList_append, String.toList_append, toList_hex, List.append_assoc]
  rfl

theorem isKeyChar_of_mem (c : Checksum) {d : Char} (hd : d ∈ c.cacheKey.toList) :
    isKeyChar d = true := by
  rw [toList_cacheKey] at hd
  rcases List.mem_append.1 hd with hname | hrest
  · have hall : ∀ a : Algorithm, a.name.toList.all isKeyChar = true := by
      intro a
      cases a <;> decide
    exact List.all_eq_true.1 (hall c.algorithm) d hname
  · rcases List.mem_cons.1 hrest with rfl | hdigits
    · decide
    · unfold isKeyChar
      rw [c.isLowerHex_of_mem hdigits]
      rfl

theorem toNat_of_isKeyChar {d : Char} (h : isKeyChar d = true) : 48 ≤ d.toNat ∧ d.toNat < 128 := by
  simp only [isKeyChar, Bool.or_eq_true, beq_iff_eq] at h
  rcases h with ((h | rfl) | rfl) | rfl
  · have := toNat_of_isLowerHex h
    omega
  · decide
  · decide
  · decide

theorem length_cacheKey (c : Checksum) : c.cacheKey.toList.length ≤ 135 := by
  rw [toList_cacheKey, List.length_append, List.length_cons, c.length_digits]
  cases c.algorithm <;> decide

/-- Different checksums have different keys. -/
theorem cacheKey_injective {c c' : Checksum} (h : c.cacheKey = c'.cacheKey) : c = c' := by
  have hlist := congrArg String.toList h
  rw [toList_cacheKey, toList_cacheKey] at hlist
  have hlength : ∀ a : Algorithm, a.name.toList.length = 6 := by
    intro a
    cases a <;> rfl
  obtain ⟨hname, hrest⟩ := List.append_inj hlist ((hlength _).trans (hlength _).symm)
  have hinjective : ∀ a b : Algorithm, a.name.toList = b.name.toList → a = b := by
    intro a b hab
    cases a <;> cases b <;> first | rfl | exact absurd hab (by decide)
  exact eq_of_digits (hinjective _ _ hname) (List.cons.inj hrest).2

end Checksum

end Formulary
