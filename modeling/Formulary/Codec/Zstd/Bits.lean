import Formulary.Bytes

/-!
# Bits read from either end

Tables of codes are written forward, the lowest bit of a byte first. Coded symbols are written
so that they are read backward, from a mark bit in the last byte on; a reader that goes beyond
the first bit reads zeros, and its position turns negative.
-/

namespace Formulary.Codec.Zstd

/-- Bits `low` up to `low + n` of the data from byte `off` on, as a number. -/
def bitsAt (data : ByteArray) (off low n : Nat) : Nat :=
  let whole := Bytes.little data (off + low / 8) ((low % 8 + n + 7) / 8)
  (whole >>> (low % 8)) % (1 <<< n)

/-- How many bits a positive number has, less one. -/
def log2 (n : Nat) : Nat := Nat.log2 n

/-- A backward reader : the bytes from `off` on, and the count of bits that are left, which is
negative when more bits were read than there are. -/
structure Backward where
  data : ByteArray
  off : Nat
  left : Int

namespace Backward

/-- Read backward from the mark bit in the last of `size` bytes. -/
def ofBytes? (data : ByteArray) (off size : Nat) : Option Backward :=
  let last := (Bytes.byte data (off + size - 1)).toNat
  if size = 0 ∨ last = 0 then none
  else some ⟨data, off, (8 * (size - 1) + log2 last : Nat)⟩

/-- The next `n` bits, which are not taken. -/
def peek (b : Backward) (n : Nat) : Nat :=
  let rest := b.left.toNat
  if n ≤ rest then bitsAt b.data b.off (rest - n) n
  else bitsAt b.data b.off 0 rest <<< (n - rest)

/-- Leave `n` bits behind. -/
def skip (b : Backward) (n : Nat) : Backward := { b with left := b.left - n }

/-- The next `n` bits. -/
def take (b : Backward) (n : Nat) : Nat × Backward := (b.peek n, b.skip n)

/-- Every bit is taken, and none beyond. -/
def isSpent (b : Backward) : Bool := b.left == 0

/-- Bits beyond the first one were read. -/
def overrun (b : Backward) : Bool := b.left < 0

end Backward

end Formulary.Codec.Zstd
