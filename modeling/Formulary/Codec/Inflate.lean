import Formulary.Bytes

/-!
# Deflate

The compressed format inside gzip members. Symbols are read bit by bit along canonical prefix
codes; each symbol takes at least one bit, so the bits that are left bound every loop.

A match may reach back before the first byte, up to the size of the window : the window is
taken to be filled with zeros.
-/

namespace Formulary.Codec.Inflate

/-! ## Bits -/

/-- A position in the bits of some data, the lowest bit of a byte first. -/
structure Bits where
  data : ByteArray
  pos : Nat

/-- How many bits are left. -/
def Bits.left (b : Bits) : Nat := 8 * b.data.size - b.pos

/-- The next bit. -/
def Bits.bit? (b : Bits) : Option (Nat × Bits) :=
  if b.pos < 8 * b.data.size then
    let byte := Bytes.byte b.data (b.pos / 8)
    some ((byte.toNat >>> (b.pos % 8)) % 2, { b with pos := b.pos + 1 })
  else none

/-- The next `n` bits as a number, the first bit the lowest. -/
def Bits.take? : Nat → Bits → Option (Nat × Bits)
  | 0, b => some (0, b)
  | n + 1, b => do
    let (low, b) ← b.bit?
    let (high, b) ← Bits.take? n b
    pure (low + 2 * high, b)

/-- The position at the start of the next whole byte. -/
def Bits.align (b : Bits) : Bits := { b with pos := (b.pos + 7) / 8 * 8 }

/-! ## Prefix codes -/

/-- A canonical prefix code : how many codes there are of each length from one on, and the
symbols in the order of their codes. -/
structure PrefixCode where
  counts : List Nat
  symbols : Array Nat

/-- The longest code. -/
def maxLength : Nat := 15

/-- The symbols with the given code length. -/
def symbolsOf (lengths : List Nat) (n : Nat) : List Nat :=
  (lengths.zipIdx.filter (·.1 == n)).map Prod.snd

/-- How many codes of the greatest length a code of each length stands for. -/
def halves : List Nat :=
  [16384, 8192, 4096, 2048, 1024, 512, 256, 128, 64, 32, 16, 8, 4, 2, 1]

/-- The code with the given lengths, zero for symbols without a code. A code must be complete,
unless it has at most one symbol. -/
def PrefixCode.ofLengths? (lengths : List Nat) : Option PrefixCode :=
  let groups := (List.range maxLength).map fun k => symbolsOf lengths (k + 1)
  let counts := groups.map List.length
  let symbols := groups.flatten
  let space := (counts.zip halves).foldl (fun n e => n + e.1 * e.2) 0
  if symbols.length ≤ 1 || space == 32768 then some ⟨counts, symbols.toArray⟩ else none

/-- The next symbol of a code, given the part of it read so far. -/
def PrefixCode.next? (symbols : Array Nat) : List Nat → (code first index : Nat) → Bits →
    Option (Nat × Bits)
  | [], _, _, _, _ => none
  | count :: rest, code, first, index, b => do
    let (bit, b) ← b.bit?
    let code := 2 * code + bit
    let first := 2 * first
    if code < first + count then
      (symbols[index + (code - first)]?).map (·, b)
    else PrefixCode.next? symbols rest code (first + count) (index + count) b

/-- The next symbol. -/
def PrefixCode.symbol? (c : PrefixCode) (b : Bits) : Option (Nat × Bits) :=
  PrefixCode.next? c.symbols c.counts 0 0 0 b

/-! ## Lengths and distances -/

/-- The least length of each length symbol from 257 on, with its count of further bits. -/
def lengthTable : Array (Nat × Nat) := #[
  (3, 0), (4, 0), (5, 0), (6, 0), (7, 0), (8, 0), (9, 0), (10, 0), (11, 1), (13, 1), (15, 1),
  (17, 1), (19, 2), (23, 2), (27, 2), (31, 2), (35, 3), (43, 3), (51, 3), (59, 3), (67, 4),
  (83, 4), (99, 4), (115, 4), (131, 5), (163, 5), (195, 5), (227, 5), (258, 0)]

/-- The least distance of each distance symbol, with its count of further bits. -/
def distanceTable : Array (Nat × Nat) := #[
  (1, 0), (2, 0), (3, 0), (4, 0), (5, 1), (7, 1), (9, 2), (13, 2), (17, 3), (25, 3), (33, 4),
  (49, 4), (65, 5), (97, 5), (129, 6), (193, 6), (257, 7), (385, 7), (513, 8), (769, 8),
  (1025, 9), (1537, 9), (2049, 10), (3073, 10), (4097, 11), (6145, 11), (8193, 12),
  (12289, 12), (16385, 13), (24577, 13)]

/-- The size of the window. -/
def windowSize : Nat := 32768

/-- Repeat `length` bytes from `distance` back. -/
def copyBack : (length distance : Nat) → ByteArray → ByteArray
  | 0, _, out => out
  | n + 1, distance, out =>
    let b := if distance ≤ out.size then Bytes.byte out (out.size - distance) else 0
    copyBack n distance (out.push b)

/-! ## Blocks -/

/-- Why decoding stopped. -/
inductive Stop where
  /-- The last block is complete. -/
  | finished
  /-- The data ends inside a block. -/
  | truncated
  /-- The data cannot be right. -/
  | invalid
deriving DecidableEq

/-- Decoded bytes, with the position and the reason of the stop. -/
structure Result where
  out : ByteArray
  bits : Bits
  stop : Stop

/-- The reason when a read failed : the data ends if fewer bits are left than any code may
take. -/
def failed (out : ByteArray) (b : Bits) (need : Nat) : Result :=
  ⟨out, b, if b.left < need then .truncated else .invalid⟩

/-- The symbols of a block, up to its end. -/
def symbols (literals distances : PrefixCode) : Nat → Bits → ByteArray → Result
  | 0, b, out => ⟨out, b, .truncated⟩
  | fuel + 1, b, out =>
    match literals.symbol? b with
    | none => failed out b (maxLength + 1)
    | some (s, b1) =>
      if s < 256 then symbols literals distances fuel b1 (out.push (UInt8.ofNat s))
      else if s = 256 then ⟨out, b1, .finished⟩
      else
        match lengthTable[s - 257]? with
        | none => ⟨out, b, .invalid⟩
        | some (base, extra) =>
          match b1.take? extra with
          | none => ⟨out, b, .truncated⟩
          | some (more, b2) =>
            match distances.symbol? b2 with
            | none => failed out b2 (maxLength + 1)
            | some (d, b3) =>
              match distanceTable[d]? with
              | none => ⟨out, b, .invalid⟩
              | some (dbase, dextra) =>
                match b3.take? dextra with
                | none => ⟨out, b, .truncated⟩
                | some (dmore, b4) =>
                  symbols literals distances fuel b4
                    (copyBack (base + more) (dbase + dmore) out)

/-- The fixed code of literals and lengths. -/
def fixedLengths : List Nat :=
  List.replicate 144 8 ++ List.replicate 112 9 ++ List.replicate 24 7 ++ List.replicate 8 8

/-- The order in which the lengths of the code of lengths are written. -/
def lengthOrder : List Nat := [16, 17, 18, 0, 8, 7, 9, 6, 10, 5, 11, 4, 12, 3, 13, 2, 14, 1, 15]

/-- Three bits for each of `n` lengths. -/
def codeLengthLengths : Nat → Bits → Option (List Nat × Bits)
  | 0, b => some ([], b)
  | n + 1, b => do
    let (l, b) ← b.take? 3
    let (ls, b) ← codeLengthLengths n b
    pure (l :: ls, b)

/-- Code lengths up to a total, those found so far in reverse. -/
def codeLengths (code : PrefixCode) (total : Nat) : Nat → List Nat → Bits →
    Except Bool (List Nat × Bits)
  | 0, _, _ => .error true
  | fuel + 1, acc, b =>
    if acc.length = total then .ok (acc.reverse, b)
    else if acc.length > total then .error false
    else match code.symbol? b with
      | none => .error (b.left < maxLength + 1)
      | some (s, b) =>
        if s < 16 then codeLengths code total fuel (s :: acc) b
        else
          let (bits, base) := if s = 16 then (2, 3) else if s = 17 then (3, 3) else (7, 11)
          match b.take? bits with
          | none => .error true
          | some (more, b) =>
            match s, acc with
            | 16, [] => .error false
            | 16, last :: _ =>
              codeLengths code total fuel (List.replicate (base + more) last ++ acc) b
            | _, _ => codeLengths code total fuel (List.replicate (base + more) 0 ++ acc) b

/-- The two codes that a block brings along. A fault tells whether the data just ended. -/
def dynamicCodes (b : Bits) : Except Bool ((PrefixCode × PrefixCode) × Bits) :=
  match (do
    let (hlit, b) ← b.take? 5
    let (hdist, b) ← b.take? 5
    let (hclen, b) ← b.take? 4
    let (ls, b) ← codeLengthLengths (hclen + 4) b
    pure (hlit + 257, hdist + 1, ls, b)) with
  | none => .error true
  | some (hlit, hdist, ls, b) => do
    let written := lengthOrder.zip ls
    let lengths := (List.range 19).map fun s => (written.lookup s).getD 0
    let code ← match PrefixCode.ofLengths? lengths with
      | some c => pure c
      | none => throw false
    let (all, b) ← codeLengths code (hlit + hdist) (hlit + hdist + 1) [] b
    match PrefixCode.ofLengths? (all.take hlit), PrefixCode.ofLengths? (all.drop hlit) with
    | some l, some d => pure ((l, d), b)
    | _, _ => throw false

/-- A block that is not compressed. -/
def stored (b : Bits) (out : ByteArray) : Result :=
  let b := b.align
  let off := b.pos / 8
  if b.data.size < off + 4 then ⟨out, b, .truncated⟩
  else
    let length := Bytes.little b.data off 2
    if length + Bytes.little b.data (off + 2) 2 ≠ 0xFFFF then ⟨out, b, .invalid⟩
    else
      let body := Bytes.slice b.data (off + 4) length
      let b := { b with pos := 8 * (off + 4 + body.size) }
      ⟨out ++ body, b, if body.size < length then .truncated else .finished⟩

/-- One block behind its first three bits. -/
def block (kind : Nat) (b : Bits) (out : ByteArray) : Result :=
  match kind with
  | 0 => stored b out
  | 1 =>
    match PrefixCode.ofLengths? fixedLengths, PrefixCode.ofLengths? (List.replicate 32 5) with
    | some l, some d => symbols l d (b.left + 1) b out
    | _, _ => ⟨out, b, .invalid⟩
  | 2 =>
    match dynamicCodes b with
    | .ok ((l, d), b) => symbols l d (b.left + 1) b out
    | .error ended => ⟨out, b, if ended then .truncated else .invalid⟩
  | _ => ⟨out, b, .invalid⟩

/-- Every block. -/
def blocks : Nat → Bits → ByteArray → Result
  | 0, b, out => ⟨out, b, .truncated⟩
  | fuel + 1, b, out =>
    match b.take? 3 with
    | none => ⟨out, b, .truncated⟩
    | some (head, b1) =>
      let r := block (head / 2) b1 out
      if r.stop = .finished ∧ head % 2 = 0 then blocks fuel r.bits r.out else r

/-- The data from a byte position on. -/
def decode (data : ByteArray) (off : Nat) : Result :=
  blocks (8 * data.size + 1) ⟨data, 8 * off⟩ .empty

end Formulary.Codec.Inflate
