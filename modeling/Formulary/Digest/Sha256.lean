import Formulary.Bytes

/-!
# SHA-256

The digest with 32-bit words. The main fact is `length_digest` : a digest has
32 bytes, whatever the data.
-/

namespace Formulary.Sha256

/-- The eight working words. -/
structure State where
  a : UInt32
  b : UInt32
  c : UInt32
  d : UInt32
  e : UInt32
  f : UInt32
  g : UInt32
  h : UInt32

/-- The first 32 bits of the fractions of the square roots of the first eight primes. -/
def initial : State :=
  ⟨0x6a09e667, 0xbb67ae85, 0x3c6ef372, 0xa54ff53a, 0x510e527f, 0x9b05688c, 0x1f83d9ab, 0x5be0cd19⟩

/-- The first 32 bits of the fractions of the cube roots of the first 64 primes. -/
def constants : List UInt32 := [
  0x428a2f98, 0x71374491, 0xb5c0fbcf, 0xe9b5dba5, 0x3956c25b, 0x59f111f1,
  0x923f82a4, 0xab1c5ed5, 0xd807aa98, 0x12835b01, 0x243185be, 0x550c7dc3,
  0x72be5d74, 0x80deb1fe, 0x9bdc06a7, 0xc19bf174, 0xe49b69c1, 0xefbe4786,
  0x0fc19dc6, 0x240ca1cc, 0x2de92c6f, 0x4a7484aa, 0x5cb0a9dc, 0x76f988da,
  0x983e5152, 0xa831c66d, 0xb00327c8, 0xbf597fc7, 0xc6e00bf3, 0xd5a79147,
  0x06ca6351, 0x14292967, 0x27b70a85, 0x2e1b2138, 0x4d2c6dfc, 0x53380d13,
  0x650a7354, 0x766a0abb, 0x81c2c92e, 0x92722c85, 0xa2bfe8a1, 0xa81a664b,
  0xc24b8b70, 0xc76c51a3, 0xd192e819, 0xd6990624, 0xf40e3585, 0x106aa070,
  0x19a4c116, 0x1e376c08, 0x2748774c, 0x34b0bcb5, 0x391c0cb3, 0x4ed8aa4a,
  0x5b9cca4f, 0x682e6ff3, 0x748f82ee, 0x78a5636f, 0x84c87814, 0x8cc70208,
  0x90befffa, 0xa4506ceb, 0xbef9a3f7, 0xc67178f2]

/-- The word turned right by `n` bits. -/
@[inline] def rotate (x n : UInt32) : UInt32 := (x >>> n) ||| (x <<< (32 - n))

/-- The `i`-th word of the block that starts at `off`. -/
def wordAt (data : ByteArray) (off i : Nat) : UInt32 :=
  (List.range 4).foldl (fun w k => (w <<< 8) ||| (Bytes.byte data (off + i * 4 + k)).toUInt32) 0

/-- One more word of the message schedule. -/
def nextWord (w : Array UInt32) (t : Nat) : UInt32 :=
  let x := w.getD (t - 15) 0
  let y := w.getD (t - 2) 0
  let s0 := rotate x 7 ^^^ rotate x 18 ^^^ (x >>> 3)
  let s1 := rotate y 17 ^^^ rotate y 19 ^^^ (y >>> 10)
  w.getD (t - 16) 0 + s0 + w.getD (t - 7) 0 + s1

/-- The message schedule of a block. -/
def schedule (data : ByteArray) (off : Nat) : Array UInt32 :=
  let first := (Array.range 16).map (wordAt data off)
  (List.range 48).foldl (fun w t => w.push (nextWord w (t + 16))) first

/-- One round. -/
def round (s : State) (k w : UInt32) : State :=
  let s1 := rotate s.e 6 ^^^ rotate s.e 11 ^^^ rotate s.e 25
  let choice := (s.e &&& s.f) ^^^ (~~~s.e &&& s.g)
  let t1 := s.h + s1 + choice + k + w
  let s0 := rotate s.a 2 ^^^ rotate s.a 13 ^^^ rotate s.a 22
  let majority := (s.a &&& s.b) ^^^ (s.a &&& s.c) ^^^ (s.b &&& s.c)
  ⟨t1 + (s0 + majority), s.a, s.b, s.c, s.d + t1, s.e, s.f, s.g⟩

/-- The state after a block. -/
def compress (data : ByteArray) (s : State) (off : Nat) : State :=
  let w := schedule data off
  let r := (constants.zip w.toList).foldl (fun st kw => round st kw.1 kw.2) s
  ⟨s.a + r.a, s.b + r.b, s.c + r.c, s.d + r.d, s.e + r.e, s.f + r.f, s.g + r.g, s.h + r.h⟩

/-- The data with the closing bit, zeros and its length in bits, in whole blocks. -/
def padded (data : ByteArray) : ByteArray :=
  let zeros := (128 - 9 - data.size % 64) % 64
  let length := data.size * 8
  let tail := (List.range 8).map fun i => UInt8.ofNat (length >>> (8 * (7 - i)))
  data ++ ⟨(0x80 :: (List.replicate zeros 0 ++ tail)).toArray⟩

/-- The bytes of a word, the highest first. -/
def wordBytes (w : UInt32) : List UInt8 :=
  (List.range 4).map fun i => (w >>> UInt32.ofNat (8 * (3 - i))).toUInt8

/-- The digest of the data. -/
def digest (data : ByteArray) : List UInt8 :=
  let input := padded data
  let s := (List.range (input.size / 64)).foldl (fun s i => compress input s (i * 64)) initial
  wordBytes s.a ++ wordBytes s.b ++ wordBytes s.c ++ wordBytes s.d ++
    wordBytes s.e ++ wordBytes s.f ++ wordBytes s.g ++ wordBytes s.h

theorem length_wordBytes (w : UInt32) : (wordBytes w).length = 4 := by
  simp [wordBytes]

theorem length_digest (data : ByteArray) : (digest data).length = 32 := by
  simp [digest, length_wordBytes]

end Formulary.Sha256
