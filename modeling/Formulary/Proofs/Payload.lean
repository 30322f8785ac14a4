import Formulary.Payload
import Formulary.Proofs.Checksum.Spelling

/-!
# What is verified

Bytes pass under a text exactly when it can be read as a checksum and they have the digest
(`Verified.exists_check_iff`). Otherwise they are refused with an integrity failure, which names two
different digests of one algorithm when the text can be read (`Verified.integrity_of_check`).
`Verified.reads_and_compares` puts this together with what can be read.
-/

namespace Formulary.Verified

variable {bytes : ByteArray} {declared : String}

/-- What passes are the bytes themselves, under the checksum that was read. -/
theorem eq_of_check {archive : Verified} (h : check bytes declared = .ok archive) :
    archive.bytes = bytes ∧ Checksum.parse declared = .ok archive.digest := by
  unfold check at h
  cases hparse : Checksum.parse declared with
  | error defect =>
    rw [hparse] at h
    exact absurd h (by simp)
  | ok digest =>
    rw [hparse] at h
    dsimp only at h
    split at h
    · obtain rfl := Except.ok.inj h
      exact ⟨rfl, rfl⟩
    · exact absurd h (by simp)

theorem check_of_parse (a : Verified) (h : Checksum.parse declared = .ok a.digest) :
    check a.bytes declared = .ok a := by
  unfold check
  rw [h]
  dsimp only
  rw [dif_pos a.matches_digest]

/-- Bytes pass when they have the digest of a checksum that can be read. -/
theorem exists_check_iff : (∃ archive, check bytes declared = .ok archive) ↔
    ∃ c, Checksum.parse declared = .ok c ∧ Checksum.of c.algorithm bytes = c := by
  constructor
  · rintro ⟨archive, h⟩
    obtain ⟨rfl, hparse⟩ := eq_of_check h
    exact ⟨_, hparse, archive.matches_digest⟩
  · rintro ⟨c, hparse, hmatches⟩
    exact ⟨_, check_of_parse ⟨bytes, c, hmatches⟩ hparse⟩

/-! ## Refusals -/

/-- Bytes are refused under a checksum that can be read only for another digest. -/
theorem integrity_of_check {expected : Checksum} {e : Error}
    (hparse : Checksum.parse declared = .ok expected) (h : check bytes declared = .error e) :
    e = .integrity expected.display (Checksum.of expected.algorithm bytes).display ∧
      expected.display ≠ (Checksum.of expected.algorithm bytes).display := by
  unfold check at h
  rw [hparse] at h
  dsimp only at h
  split at h
  · cases h
  · rename_i hmatches
    exact ⟨(Except.error.inj h).symm, fun hsame =>
      hmatches (Checksum.display_injective hsame).symm⟩

/-- Whatever the text is, bytes are refused with an integrity failure. -/
theorem exists_integrity_of_check {e : Error} (h : check bytes declared = .error e) :
    ∃ expected actual, e = .integrity expected actual := by
  cases hparse : Checksum.parse declared with
  | ok c => exact ⟨_, _, (integrity_of_check hparse h).1⟩
  | error defect =>
    unfold check at h
    rw [hparse] at h
    exact ⟨_, _, (Except.error.inj h).symm⟩

/-! ## From the text to the verdict -/

open Checksum (Spells)

/-- A text can be read exactly when it is spelled as a checksum, blanks around it apart. What is
read is of the algorithm that is named and has the digits in lower case, so spellings of one digest
are read as equal and those of two are not, and what is displayed of a checksum is one of its
spellings. Bytes pass exactly when the text can be read and they have its digest. All others are
refused with an integrity failure, and if the text can be read, this shows its digest and another of
the same algorithm, which is that of the bytes. -/
theorem reads_and_compares (declared : String) :
    ((∃ c, Checksum.parse declared = .ok c) ↔ ∃ a digits, Spells (Text.trim declared) a digits) ∧
    (∀ a digits, Spells (Text.trim declared) a digits → ∀ c, Checksum.parse declared = .ok c →
      c.algorithm = a ∧ c.hex = String.ofList (digits.map Char.toLower)) ∧
    (∀ other a a' digits digits', Spells (Text.trim declared) a digits →
      Spells (Text.trim other) a' digits' →
      (Checksum.parse declared = Checksum.parse other ↔
        a = a' ∧ digits.map Char.toLower = digits'.map Char.toLower)) ∧
    (∀ c : Checksum, Checksum.parse c.display = .ok c) ∧
    ∀ bytes,
      ((∃ archive, check bytes declared = .ok archive) ↔
        ∃ c, Checksum.parse declared = .ok c ∧ Checksum.of c.algorithm bytes = c) ∧
      (∀ archive, check bytes declared = .ok archive →
        archive.bytes = bytes ∧ Checksum.parse declared = .ok archive.digest) ∧
      ∀ e, check bytes declared = .error e → ∃ expected actual, e = .integrity expected actual ∧
        ∀ c, Checksum.parse declared = .ok c → expected = c.display ∧
          actual = (Checksum.of c.algorithm bytes).display ∧ expected ≠ actual := by
  refine ⟨Checksum.exists_parse_iff, fun a digits hspells c hparse => ?_,
    fun other a a' digits digits' h h' => h.parse_eq_iff h', Checksum.parse_display,
    fun bytes => ⟨exists_check_iff, fun archive => eq_of_check, fun e he => ?_⟩⟩
  · obtain ⟨c', hparse', halgorithm, hdigits⟩ := hspells.exists_parse
    obtain rfl := Except.ok.inj (hparse.symm.trans hparse')
    exact ⟨halgorithm, congrArg String.ofList hdigits⟩
  · obtain ⟨expected, actual, rfl⟩ := exists_integrity_of_check he
    refine ⟨expected, actual, rfl, fun c hparse => ?_⟩
    obtain ⟨hshown, hne⟩ := integrity_of_check hparse he
    obtain ⟨rfl, rfl⟩ := Error.integrity.inj hshown
    exact ⟨rfl, rfl, hne⟩

/-- Capitals and blanks around the text make no difference. -/
example : Checksum.parse (" SHA256:" ++ String.ofList (List.replicate 64 'A') ++ "\n") =
    Checksum.parse (String.ofList (List.replicate 64 'a')) := by decide +kernel

end Formulary.Verified
