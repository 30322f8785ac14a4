import Formulary.Bytes

/-!
# Cyclic redundancy checks

Checks over bytes whose bits are taken from the lowest on, by a table of the remainders of
single bytes.
-/

namespace Formulary.Codec

/-- The remainder of one byte under a polynomial. -/
def remainder (polynomial : UInt64) (b : Nat) : UInt64 :=
  (List.range 8).foldl (fun r _ =>
    if r &&& 1 == 1 then (r >>> 1) ^^^ polynomial else r >>> 1) (UInt64.ofNat b)

/-- The remainders of all bytes. -/
def remainderTable (polynomial : UInt64) : Array UInt64 :=
  (Array.range 256).map (remainder polynomial)

/-- One more byte. -/
@[inline] def crcStep (table : Array UInt64) (r : UInt64) (b : UInt8) : UInt64 :=
  table.getD ((r ^^^ b.toUInt64) &&& 0xFF).toNat 0 ^^^ (r >>> 8)

/-- Remainders of the thirty-two bit check. -/
def table32 : Array UInt64 := remainderTable 0xEDB88320

/-- Remainders of the sixty-four bit check. -/
def table64 : Array UInt64 := remainderTable 0xC96C5795D7870F42

/-- The thirty-two bit check of some bytes. -/
def crc32 (data : ByteArray) : UInt32 :=
  ((data.foldl (crcStep table32) 0xFFFFFFFF) ^^^ 0xFFFFFFFF).toUInt32

/-- The sixty-four bit check of some bytes. -/
def crc64 (data : ByteArray) : UInt64 :=
  (data.foldl (crcStep table64) 0xFFFFFFFFFFFFFFFF) ^^^ 0xFFFFFFFFFFFFFFFF

end Formulary.Codec
