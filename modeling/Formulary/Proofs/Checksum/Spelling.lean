import Formulary.Proofs.Checksum

/-!
# How checksums are spelled

`Spells` tells how a checksum may be written, apart from the function that reads it : the digits
alone, or behind the name of their algorithm. What is read is exactly what is spelled so, with the
digits in lower case (`parse_eq_ok_iff`), so two spellings are read as the same checksum when they
differ in case alone (`Spells.parse_eq_iff`). What is displayed of a checksum is one of its
spellings (`parse_display`).
-/

namespace Formulary

/-! ## Characters -/

/-- The hex digits of either case. -/
def hexDigits : List Char := "0123456789abcdefABCDEF".toList

theorem isHexDigit_iff {c : Char} : isHexDigit c = true ↔ c ∈ hexDigits := by
  constructor
  · intro h
    have hlt : c.toNat < 128 := by
      simp only [isHexDigit, Bool.or_eq_true, Bool.and_eq_true, decide_eq_true_eq] at h
      obtain (⟨-, h⟩ | ⟨-, h⟩) | ⟨-, h⟩ := h <;> exact Nat.lt_of_le_of_lt h (by decide)
    have hall : ∀ n < 128, isHexDigit (Char.ofNat n) = true → Char.ofNat n ∈ hexDigits := by
      decide
    have hc := hall c.toNat hlt
    rw [Char.ofNat_toNat] at hc
    exact hc h
  · have hall : hexDigits.all isHexDigit = true := by decide
    exact List.all_eq_true.1 hall c

theorem Algorithm.lowerAscii_eq_toLower (c : Char) : lowerAscii c = c.toLower := by
  by_cases hlt : c.toNat < 128
  · have hall : ∀ n < 128, lowerAscii (Char.ofNat n) = (Char.ofNat n).toLower := by decide
    have hc := hall c.toNat hlt
    rwa [Char.ofNat_toNat] at hc
  · have hnot : ¬c ≤ 'Z' := fun h => hlt (Nat.lt_of_le_of_lt h (by decide))
    have hsame : lowerAscii c = c := if_neg (by simp [hnot])
    have hlower : c.toLower = c := dif_neg fun h => hnot h.2
    rw [hsame, hlower]

namespace Checksum

/-! ## Spellings -/

/-- The characters are hex digits, and as many as the digest has. -/
structure IsHexOf (a : Algorithm) (digits : List Char) : Prop where
  length : digits.length = a.hexLength
  hex : ∀ d ∈ digits, d ∈ hexDigits

/-- The text is a spelling of the digest with the digits. -/
inductive Spells (s : String) : Algorithm → List Char → Prop
  /-- Digits alone are those of SHA-256. -/
  | bare {digits : List Char} : s.toList = digits → IsHexOf .sha256 digits →
    Spells s .sha256 digits
  /-- The name of the algorithm, in letters of any case, and the digits. -/
  | named {a : Algorithm} {name digits : List Char} : s.toList = name ++ ':' :: digits →
    name.map Char.toLower = a.name.toList → IsHexOf a digits → Spells s a digits

theorem IsHexOf.not_mem {a : Algorithm} {digits : List Char} (h : IsHexOf a digits) {c : Char}
    (hc : c ∉ hexDigits) : c ∉ digits := fun hmem => hc (h.hex c hmem)

theorem IsHexOf.utf8ByteSize {a : Algorithm} {s : String} (h : IsHexOf a s.toList) :
    s.utf8ByteSize = a.hexLength := by
  have hascii : hexDigits.all (·.toNat < 128) = true := by decide
  have hall : ∀ d ∈ s.toList, d.toNat < 128 := fun d hd =>
    of_decide_eq_true (List.all_eq_true.1 hascii d (h.hex d hd))
  rw [Text.utf8ByteSize_of_ascii hall, h.length]

theorem ofHex_eq_ok_iff {a : Algorithm} {s : String} {c : Checksum} :
    ofHex a s = .ok c ↔
      IsHexOf a s.toList ∧ c.algorithm = a ∧ c.digits = s.toList.map Char.toLower := by
  have hlower : s.toList.map Algorithm.lowerAscii = s.toList.map Char.toLower :=
    List.map_congr_left fun d _ => Algorithm.lowerAscii_eq_toLower d
  have hhex : (s.toList.all isHexDigit = true ∧ s.toList.length = a.hexLength) ↔
      IsHexOf a s.toList := by
    simp only [List.all_eq_true, isHexDigit_iff]
    exact ⟨fun h => ⟨h.2, h.1⟩, fun h => ⟨h.hex, h.length⟩⟩
  unfold ofHex
  constructor
  · intro h
    split at h
    · cases h
    · split at h
      · rename_i hdigits
        obtain rfl := Except.ok.inj h
        exact ⟨hhex.1 hdigits, rfl, hlower⟩
      · cases h
  · rintro ⟨h, halgorithm, hdigits⟩
    rw [if_neg (not_not_intro h.utf8ByteSize), dif_pos (hhex.2 h)]
    exact congrArg Except.ok (eq_of_digits halgorithm.symm (hlower.trans hdigits.symm))

theorem ofName?_eq_some_iff {name : String} {a : Algorithm} :
    Algorithm.ofName? name = some a ↔ name.toList.map Char.toLower = a.name.toList := by
  have hlower : name.toList.map Algorithm.lowerAscii = name.toList.map Char.toLower :=
    List.map_congr_left fun d _ => Algorithm.lowerAscii_eq_toLower d
  have hne : Algorithm.sha256.name.toList ≠ Algorithm.sha512.name.toList := by decide
  unfold Algorithm.ofName?
  dsimp only
  rw [hlower]
  generalize name.toList.map Char.toLower = key
  cases a with
  | sha256 => by_cases h : key = Algorithm.sha256.name.toList <;> simp [h]
  | sha512 =>
    by_cases h : key = Algorithm.sha256.name.toList
    · simp [h, hne]
    · simp [h]

/-- What is read is what is spelled, in lower case. -/
theorem parse_eq_ok_iff {s : String} {c : Checksum} : parse s = .ok c ↔
    ∃ digits, Spells (Text.trim s) c.algorithm digits ∧ c.digits = digits.map Char.toLower := by
  have hcolon : ':' ∉ hexDigits := by decide
  unfold parse
  dsimp only
  generalize Text.trim s = t
  constructor
  · intro h
    cases hsplit : Text.splitOnce ':' t with
    | none =>
      rw [hsplit] at h
      obtain ⟨hhex, halgorithm, hdigits⟩ := ofHex_eq_ok_iff.1 h
      exact ⟨t.toList, halgorithm ▸ .bare rfl hhex, hdigits⟩
    | some parts =>
      obtain ⟨name, digits⟩ := parts
      rw [hsplit] at h
      dsimp only at h
      cases hname : Algorithm.ofName? name with
      | none =>
        rw [hname] at h
        cases h
      | some a =>
        rw [hname] at h
        obtain ⟨hhex, rfl, hdigits⟩ := ofHex_eq_ok_iff.1 h
        exact ⟨digits.toList, .named (Text.splitOnce_eq_some_iff.1 hsplit).1
          (ofName?_eq_some_iff.1 hname) hhex, hdigits⟩
  · rintro ⟨digits, hspells, hdigits⟩
    generalize halgorithm : c.algorithm = a at hspells
    cases hspells with
    | bare ht hhex =>
      subst ht
      rw [Text.splitOnce_of_not_mem (hhex.not_mem hcolon)]
      exact ofHex_eq_ok_iff.2 ⟨hhex, halgorithm, hdigits⟩
    | @named _ name _ ht hname hhex =>
      have hnot : ':' ∉ name := fun hmem =>
        (not_mark_of_mem_name a (hname ▸ List.mem_map_of_mem hmem)).2.1 rfl
      have hread : Algorithm.ofName? (String.ofList name) = some a :=
        ofName?_eq_some_iff.2 (by rw [String.toList_ofList, hname])
      rw [Text.splitOnce_of_append ht hnot]
      dsimp only
      rw [hread]
      exact ofHex_eq_ok_iff.2 (by rw [String.toList_ofList]; exact ⟨hhex, halgorithm, hdigits⟩)

theorem Spells.exists_parse {s : String} {a : Algorithm} {digits : List Char}
    (h : Spells (Text.trim s) a digits) :
    ∃ c, parse s = .ok c ∧ c.algorithm = a ∧ c.digits = digits.map Char.toLower := by
  have hhex : IsHexOf a digits := by
    cases h with
    | bare _ hhex => exact hhex
    | named _ _ hhex => exact hhex
  have hlower : (digits.map Char.toLower).all isLowerHex = true := by
    rw [List.all_map, List.all_eq_true]
    intro d hd
    rw [Function.comp_apply, ← Algorithm.lowerAscii_eq_toLower]
    exact isLowerHex_lowerAscii (isHexDigit_iff.2 (hhex.hex d hd))
  have hlength : (digits.map Char.toLower).length = a.hexLength :=
    (List.length_map ..).trans hhex.length
  exact ⟨⟨a, _, hlength, hlower⟩, parse_eq_ok_iff.2 ⟨digits, h, rfl⟩, rfl, rfl⟩

theorem exists_parse_iff {s : String} :
    (∃ c, parse s = .ok c) ↔ ∃ a digits, Spells (Text.trim s) a digits := by
  constructor
  · rintro ⟨c, hc⟩
    obtain ⟨digits, hspells, -⟩ := parse_eq_ok_iff.1 hc
    exact ⟨_, digits, hspells⟩
  · rintro ⟨a, digits, hspells⟩
    obtain ⟨c, hc, -⟩ := hspells.exists_parse
    exact ⟨c, hc⟩

/-- Spellings are read as the same checksum when they are of one algorithm and differ at most in the
case of their digits. -/
theorem Spells.parse_eq_iff {s s' : String} {a a' : Algorithm} {digits digits' : List Char}
    (h : Spells (Text.trim s) a digits) (h' : Spells (Text.trim s') a' digits') :
    parse s = parse s' ↔ a = a' ∧ digits.map Char.toLower = digits'.map Char.toLower := by
  obtain ⟨c, hc, rfl, hdigits⟩ := h.exists_parse
  obtain ⟨c', hc', rfl, hdigits'⟩ := h'.exists_parse
  rw [hc, hc', ← hdigits, ← hdigits', Except.ok.injEq]
  exact ⟨fun heq => ⟨congrArg algorithm heq, congrArg Checksum.digits heq⟩,
    fun ⟨halgorithm, hsame⟩ => eq_of_digits halgorithm hsame⟩

/-! ## Reading what is displayed -/

theorem spells_display (c : Checksum) : Spells c.display c.algorithm c.digits := by
  have hname : ∀ a : Algorithm, a.name.toList.map Char.toLower = a.name.toList := by
    intro a
    cases a <;> decide
  exact .named c.toList_display (hname c.algorithm) ⟨c.length_digits, fun d hd =>
    isHexDigit_iff.1 (isHexDigit_of_isLowerHex (c.isLowerHex_of_mem hd))⟩

/-- A text is read as the checksum that is displayed so, whatever blanks stand around it. -/
theorem parse_of_trim {s : String} {c : Checksum} (h : Text.trim s = c.display) :
    parse s = .ok c := by
  have hlower : c.digits.map Char.toLower = c.digits := by
    refine (List.map_congr_left fun d hd => ?_).trans (List.map_id c.digits)
    rw [← Algorithm.lowerAscii_eq_toLower]
    exact lowerAscii_of_isLowerHex (c.isLowerHex_of_mem hd)
  exact parse_eq_ok_iff.2 ⟨c.digits, h ▸ c.spells_display, hlower.symm⟩

/-- The checksum that is displayed is read. -/
theorem parse_display (c : Checksum) : parse c.display = .ok c := parse_of_trim c.trim_display

theorem display_injective {c c' : Checksum} (h : c.display = c'.display) : c = c' :=
  Except.ok.inj ((parse_display c).symm.trans ((congrArg parse h).trans (parse_display c')))

end Checksum

end Formulary
