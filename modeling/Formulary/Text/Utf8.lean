import Formulary.Text

/-!
# Bytes and text

File names and program output are bytes. `ofBytes` keeps every byte: one that is no part
of a UTF-8 sequence becomes a character of the last private plane, so that `toBytes` gives
the bytes back. `shown` is how such text is printed, with the replacement character for
each broken sequence.
-/

namespace Formulary.Text

/-! ## Decoding -/

/-- A piece of decoded bytes : a character, or the bytes of a broken sequence. -/
inductive Piece where
  | char (c : Char)
  | broken (bytes : List UInt8)

/-- The byte may continue a sequence. -/
def isContinuation (b : UInt8) : Bool := 0x80 ≤ b && b ≤ 0xBF

/-- The length of the sequence that the byte opens, with the range of its second byte. -/
def sequenceShape (b : UInt8) : Option (Nat × UInt8 × UInt8) :=
  if b < 0x80 then some (1, 0, 0)
  else if 0xC2 ≤ b && b ≤ 0xDF then some (2, 0x80, 0xBF)
  else if b == 0xE0 then some (3, 0xA0, 0xBF)
  else if b == 0xED then some (3, 0x80, 0x9F)
  else if 0xE1 ≤ b && b ≤ 0xEF then some (3, 0x80, 0xBF)
  else if b == 0xF0 then some (4, 0x90, 0xBF)
  else if 0xF1 ≤ b && b ≤ 0xF3 then some (4, 0x80, 0xBF)
  else if b == 0xF4 then some (4, 0x80, 0x8F)
  else none

/-- How many of the bytes behind the first belong to its sequence. -/
def sequenceTail (length : Nat) (low high : UInt8) (rest : List UInt8) : Nat :=
  match length, rest with
  | 0, _ | 1, _ | _, [] => 0
  | n + 2, b :: bs =>
    if low ≤ b && b ≤ high then 1 + ((bs.take n).takeWhile isContinuation).length else 0

/-- The number written by the payload bits of a whole sequence. -/
def sequenceValue (b : UInt8) (tail : List UInt8) : Nat :=
  let lead := match tail.length with
    | 0 => b.toNat
    | 1 => b.toNat % 32
    | 2 => b.toNat % 16
    | _ => b.toNat % 8
  tail.foldl (fun n c => n * 64 + c.toNat % 64) lead

/-- The bytes as characters and broken sequences. A broken sequence is as long as it could
still have been the start of a character, and has at least one byte. -/
def decode : List UInt8 → List Piece
  | [] => []
  | b :: rest =>
    match sequenceShape b with
    | none => .broken [b] :: decode rest
    | some (length, low, high) =>
      let found := sequenceTail length low high rest
      let tail := rest.take found
      let piece :=
        if found + 1 = length then Piece.char (Char.ofNat (sequenceValue b tail))
        else .broken (b :: tail)
      piece :: decode (rest.drop found)
termination_by bytes => bytes.length
decreasing_by all_goals (simp only [List.length_cons, List.length_drop]; omega)

/-! ## Text that keeps every byte -/

/-- The character that stands for a byte outside any sequence. -/
def byteChar (b : UInt8) : Char := Char.ofNat (0x10FF00 + b.toNat)

/-- The byte that a character of the last private plane stands for. -/
def charByte? (c : Char) : Option UInt8 :=
  if 0x10FF80 ≤ c.toNat then some (UInt8.ofNat (c.toNat % 256)) else none

/-- The UTF-8 bytes of a character. -/
def charBytes (c : Char) : List UInt8 := String.utf8EncodeChar c

/-- The characters of a piece. A character that already stands for a byte is kept as the
bytes of its sequence. -/
def Piece.chars : Piece → List Char
  | .char c => if (charByte? c).isSome then (charBytes c).map byteChar else [c]
  | .broken bytes => bytes.map byteChar

/-- The text of the bytes, every byte kept. -/
def ofBytes (bytes : ByteArray) : String :=
  match String.fromUTF8? bytes with
  | some s =>
    if s.toList.any fun c => (charByte? c).isSome then
      String.ofList ((decode bytes.toList).flatMap Piece.chars)
    else s
  | none => String.ofList ((decode bytes.toList).flatMap Piece.chars)

/-- The bytes of a text. -/
def toBytes (s : String) : ByteArray :=
  if s.toList.any fun c => (charByte? c).isSome then
    ⟨(s.toList.flatMap fun c =>
      match charByte? c with
      | some b => [b]
      | none => charBytes c).toArray⟩
  else s.toUTF8

/-- How many bytes a text has. -/
def byteLength (s : String) : Nat := (toBytes s).size

/-- The bytes as text, each broken sequence as one replacement character. -/
def lossy (bytes : ByteArray) : String :=
  match String.fromUTF8? bytes with
  | some s => s
  | none => String.ofList ((decode bytes.toList).map fun
    | .char c => c
    | .broken _ => '\uFFFD')

/-- A text as it is printed. -/
def shown (s : String) : String := lossy (toBytes s)

/-! ## Hexadecimal -/

/-- The two lower-case hex digits of a byte. -/
def hexByte (b : UInt8) : List Char :=
  [Nat.digitChar (b.toNat / 16), Nat.digitChar (b.toNat % 16)]

/-- The bytes in lower-case hex. -/
def hex (bytes : List UInt8) : List Char := bytes.flatMap hexByte

theorem length_hex (bytes : List UInt8) : (hex bytes).length = 2 * bytes.length := by
  induction bytes with
  | nil => rfl
  | cons b bs ih =>
    have h : hex (b :: bs) = hexByte b ++ hex bs := rfl
    rw [h, List.length_append, ih]
    simp [hexByte]
    omega

end Formulary.Text
