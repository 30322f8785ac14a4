import Formulary.Digest.Sha256
import Formulary.Digest.Sha512
import Formulary.Text.Casing
import Formulary.Text.Utf8

/-!
# Checksums

A source archive is pinned by `algorithm:hex`, or by hex alone for SHA-256. A `Checksum` is
such a text in its one normal form : the digits are lower case and as many as the algorithm
gives, and both facts are part of the type.
-/

namespace Formulary

/-! ## Algorithms -/

/-- The digests that a checksum may use. -/
inductive Algorithm where
  | sha256 | sha512
deriving DecidableEq, Inhabited

namespace Algorithm

/-- The name written before the colon. -/
def name : Algorithm → String
  | sha256 => "sha256"
  | sha512 => "sha512"

/-- How many hex digits a digest has. -/
def hexLength : Algorithm → Nat
  | sha256 => 64
  | sha512 => 128

/-- An ASCII letter in lower case, any other character as it is. -/
def lowerAscii (c : Char) : Char :=
  if 'A' ≤ c && c ≤ 'Z' then Char.ofNat (c.toNat + 32) else c

/-- The algorithm of that name, in any ASCII case. -/
def ofName? (name : String) : Option Algorithm :=
  let key := name.toList.map lowerAscii
  if key = sha256.name.toList then some sha256
  else if key = sha512.name.toList then some sha512
  else none

/-- The digest of some data. -/
def digest : Algorithm → ByteArray → List UInt8
  | sha256 => Sha256.digest
  | sha512 => Sha512.digest

theorem length_digest (a : Algorithm) (data : ByteArray) :
    2 * (a.digest data).length = a.hexLength := by
  cases a
  · simp [digest, hexLength, Sha256.length_digest]
  · simp [digest, hexLength, Sha512.length_digest]

end Algorithm

/-! ## Hex digits -/

/-- A hex digit of either case. -/
def isHexDigit (c : Char) : Bool :=
  ('0' ≤ c && c ≤ '9') || ('a' ≤ c && c ≤ 'f') || ('A' ≤ c && c ≤ 'F')

/-- A hex digit that is no capital letter. -/
def isLowerHex (c : Char) : Bool := ('0' ≤ c && c ≤ '9') || ('a' ≤ c && c ≤ 'f')

theorem isLowerHex_lowerAscii {c : Char} (h : isHexDigit c = true) :
    isLowerHex (Algorithm.lowerAscii c) = true := by
  simp only [isHexDigit, isLowerHex, Algorithm.lowerAscii, Bool.or_eq_true, Bool.and_eq_true,
    decide_eq_true_eq] at h ⊢
  split
  · rename_i hc
    have h1 : 'A' ≤ c := hc.1
    have h2 : c ≤ 'F' := by
      rcases h with (⟨_, h⟩ | ⟨h, _⟩) | ⟨_, h⟩
      · exact absurd (Char.le_trans h1 h) (by decide)
      · exact absurd (Char.le_trans h hc.2) (by decide)
      · exact h
    have h1' : 65 ≤ c.toNat := h1
    have h2' : c.toNat ≤ 70 := h2
    have hall : ∀ n, n < 6 →
        ('0' ≤ Char.ofNat (65 + n + 32) ∧ Char.ofNat (65 + n + 32) ≤ '9') ∨
        ('a' ≤ Char.ofNat (65 + n + 32) ∧ Char.ofNat (65 + n + 32) ≤ 'f') := by decide
    have := hall (c.toNat - 65) (by omega)
    rwa [show 65 + (c.toNat - 65) + 32 = c.toNat + 32 by omega] at this
  · rename_i hc
    rcases h with h | ⟨h1, h2⟩
    · exact h
    · exact absurd ⟨h1, Char.le_trans h2 (by decide)⟩ hc

theorem isLowerHex_digitChar {n : Nat} (h : n < 16) : isLowerHex (Nat.digitChar n) = true := by
  have hall : ∀ n, n < 16 → isLowerHex (Nat.digitChar n) = true := by decide
  exact hall n h

theorem all_isLowerHex_hex (bytes : List UInt8) : (Text.hex bytes).all isLowerHex = true := by
  induction bytes with
  | nil => rfl
  | cons b bs ih =>
    have h : Text.hex (b :: bs) = Text.hexByte b ++ Text.hex bs := rfl
    have hb : b.toNat < 256 := b.toNat_lt
    rw [h, List.all_append, ih]
    simp only [Text.hexByte, List.all_cons, List.all_nil, Bool.and_true]
    rw [isLowerHex_digitChar (by omega), isLowerHex_digitChar (by omega)]
    rfl

/-! ## Checksums -/

/-- A digest in its normal form. -/
structure Checksum where
  algorithm : Algorithm
  digits : List Char
  length_digits : digits.length = algorithm.hexLength
  isLowerHex_digits : digits.all isLowerHex = true
deriving DecidableEq

namespace Checksum

/-- Why a text is no checksum. -/
inductive Defect where
  | unknownAlgorithm (name : String)
  | length (algorithm : Algorithm) (found : Nat)
  | notHex (digits : String)
deriving DecidableEq

/-- The text printed for a defect. -/
def Defect.message : Defect → String
  | unknownAlgorithm name => s!"unknown digest algorithm '{name}'"
  | length algorithm found =>
    algorithm.name ++ " digest must be " ++ Text.decimal algorithm.hexLength ++
      " hex digits, got " ++ Text.decimal found
  | notHex digits => "digest contains non-hex characters: " ++ digits

/-- The hex digits as text. -/
def hex (c : Checksum) : String := String.ofList c.digits

/-- The normal form `algorithm:hex`. -/
def display (c : Checksum) : String := c.algorithm.name ++ ":" ++ c.hex

/-- A file name for the digest. -/
def cacheKey (c : Checksum) : String := c.algorithm.name ++ "_" ++ c.hex

/-- The checksum of some data. -/
def of (algorithm : Algorithm) (data : ByteArray) : Checksum where
  algorithm := algorithm
  digits := Text.hex (algorithm.digest data)
  length_digits := by rw [Text.length_hex, Algorithm.length_digest]
  isLowerHex_digits := all_isLowerHex_hex _

/-- A checksum from an algorithm and hex digits of either case. Lengths count the bytes of
the text, so a digit string of the right length is ASCII before its digits are looked at. -/
def ofHex (algorithm : Algorithm) (text : String) : Except Defect Checksum :=
  if text.utf8ByteSize ≠ algorithm.hexLength then
    .error (.length algorithm text.utf8ByteSize)
  else if h : text.toList.all isHexDigit = true ∧ text.toList.length = algorithm.hexLength then
    .ok {
      algorithm
      digits := text.toList.map Algorithm.lowerAscii
      length_digits := by rw [List.length_map]; exact h.2
      isLowerHex_digits := by
        rw [List.all_map, List.all_eq_true]
        exact fun c hc => isLowerHex_lowerAscii (List.all_eq_true.1 h.1 c hc) }
  else .error (.notHex text)

/-- Read a checksum. -/
def parse (text : String) : Except Defect Checksum :=
  let s := Text.trim text
  match Text.splitOnce ':' s with
  | none => ofHex .sha256 s
  | some (name, digits) =>
    match Algorithm.ofName? name with
    | none => .error (.unknownAlgorithm name)
    | some algorithm => ofHex algorithm digits

/-- The data has the digest of the checksum. -/
def Matches (c : Checksum) (data : ByteArray) : Prop := Checksum.of c.algorithm data = c

instance (c : Checksum) (data : ByteArray) : Decidable (c.Matches data) :=
  inferInstanceAs (Decidable (_ = _))

/-- The text printed when data has the digest `actual` in place of the expected one. -/
def mismatch (expected actual : Checksum) : String :=
  expected.display ++ " does not match payload digest " ++ actual.display

end Checksum

end Formulary
