import Formulary.Bytes

/-!
# XXH64

The sixty-four bit hash that checks the content of zstd frames.
-/

namespace Formulary.XxHash

def prime1 : UInt64 := 0x9E3779B185EBCA87
def prime2 : UInt64 := 0xC2B2AE3D27D4EB4F
def prime3 : UInt64 := 0x165667B19E3779F9
def prime4 : UInt64 := 0x85EBCA77C2B2AE63
def prime5 : UInt64 := 0x27D4EB2F165667C5

/-- Rotate to the left, by less than sixty-four bits. -/
def rotate (x n : UInt64) : UInt64 := (x <<< n) ||| (x >>> (64 - n))

/-- The word of `n` bytes at a position. -/
def word (data : ByteArray) (off n : Nat) : UInt64 := UInt64.ofNat (Bytes.little data off n)

/-- Mix a word into a lane. -/
def mix (lane input : UInt64) : UInt64 := rotate (lane + input * prime2) 31 * prime1

/-- The four lanes. -/
structure Lanes where
  a : UInt64
  b : UInt64
  c : UInt64
  d : UInt64

/-- The lanes behind `n` stripes of thirty-two bytes. -/
def stripes (data : ByteArray) (n : Nat) : Lanes :=
  (List.range n).foldl (fun l i =>
    ⟨mix l.a (word data (32 * i) 8), mix l.b (word data (32 * i + 8) 8),
      mix l.c (word data (32 * i + 16) 8), mix l.d (word data (32 * i + 24) 8)⟩)
    ⟨prime1 + prime2, prime2, 0, 0 - prime1⟩

/-- Merge a lane into the hash. -/
def merge (h lane : UInt64) : UInt64 := (h ^^^ mix 0 lane) * prime1 + prime4

/-- The hash of the whole stripes. -/
def body (data : ByteArray) (n : Nat) : UInt64 :=
  if n = 0 then prime5
  else
    let l := stripes data n
    let h := rotate l.a 1 + rotate l.b 7 + rotate l.c 12 + rotate l.d 18
    merge (merge (merge (merge h l.a) l.b) l.c) l.d

/-- Take in what is left : words of eight bytes, one of four, single bytes. -/
def tail (data : ByteArray) : Nat → Nat → UInt64 → UInt64
  | 0, _, h => h
  | fuel + 1, off, h =>
    if off + 8 ≤ data.size then
      tail data fuel (off + 8) (rotate (h ^^^ mix 0 (word data off 8)) 27 * prime1 + prime4)
    else if off + 4 ≤ data.size then
      tail data fuel (off + 4) (rotate (h ^^^ (word data off 4 * prime1)) 23 * prime2 + prime3)
    else if off < data.size then
      tail data fuel (off + 1) (rotate (h ^^^ (word data off 1 * prime5)) 11 * prime1)
    else h

/-- The last stirring. -/
def avalanche (h : UInt64) : UInt64 :=
  let h := (h ^^^ (h >>> 33)) * prime2
  let h := (h ^^^ (h >>> 29)) * prime3
  h ^^^ (h >>> 32)

/-- The hash of some bytes, with seed zero. -/
def hash (data : ByteArray) : UInt64 :=
  let n := data.size / 32
  avalanche (tail data 32 (32 * n) (body data n + UInt64.ofNat data.size))

end Formulary.XxHash
