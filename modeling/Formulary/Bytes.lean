/-!
# Bytes

Reading numbers and parts out of a byte array. Beyond its end every byte is zero.
-/

namespace Formulary.Bytes

/-- The byte at a position, zero beyond the end. -/
@[inline] def byte (data : ByteArray) (i : Nat) : UInt8 :=
  if h : i < data.size then data[i] else 0

/-- The bytes from a position on, at most `length`. -/
def slice (data : ByteArray) (off length : Nat) : ByteArray := data.extract off (off + length)

/-- The data starts with the given bytes. -/
def startsWith (data : ByteArray) (magic : List UInt8) : Bool :=
  magic.length ≤ data.size && (data.extract 0 magic.length).toList == magic

/-- The number written by `length` bytes, the lowest first. -/
def little (data : ByteArray) (off length : Nat) : Nat :=
  (List.range length).foldr (fun k n => n * 256 + (byte data (off + k)).toNat) 0

/-- The number written by `length` bytes, the highest first. -/
def big (data : ByteArray) (off length : Nat) : Nat :=
  (List.range length).foldl (fun n k => n * 256 + (byte data (off + k)).toNat) 0

/-- The bytes of a list. -/
def ofList (bytes : List UInt8) : ByteArray := ⟨bytes.toArray⟩

end Formulary.Bytes
