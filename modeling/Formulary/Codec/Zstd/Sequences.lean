import Formulary.Codec.Zstd.Literals

/-!
# Sequences

The commands of a block : each takes some literals over and repeats bytes from further back. A
command is coded by three states, for the count of literals, the offset and the length of the
match.
-/

namespace Formulary.Codec.Zstd

/-- The tables of the three parts of a command. -/
structure CommandTables where
  literals : StateTable
  offsets : StateTable
  lengths : StateTable

/-- Least values of the literal count codes, with their count of further bits. -/
def literalCounts : Array (Nat × Nat) :=
  ((List.range 16).map (·, 0)).toArray ++ #[
    (16, 1), (18, 1), (20, 1), (22, 1), (24, 2), (28, 2), (32, 3), (40, 3), (48, 4), (64, 6),
    (128, 7), (256, 8), (512, 9), (1024, 10), (2048, 11), (4096, 12), (8192, 13), (16384, 14),
    (32768, 15), (65536, 16)]

/-- Least values of the match length codes, with their count of further bits. -/
def matchLengths : Array (Nat × Nat) :=
  ((List.range 32).map fun n => (n + 3, 0)).toArray ++ #[
    (35, 1), (37, 1), (39, 1), (41, 1), (43, 2), (47, 2), (51, 3), (59, 3), (67, 4), (83, 4),
    (99, 5), (131, 7), (259, 8), (515, 9), (1027, 10), (2051, 11), (4099, 12), (8195, 13),
    (16387, 14), (32771, 15), (65539, 16)]

/-- The shares of literal count codes when none are written. -/
def literalShares : List Int := [
  4, 3, 2, 2, 2, 2, 2, 2, 2, 2, 2, 2, 2, 1, 1, 1, 2, 2, 2, 2, 2, 2, 2, 2, 2, 3, 2, 1, 1, 1, 1, 1,
  -1, -1, -1, -1]

/-- The shares of match length codes when none are written. -/
def lengthShares : List Int := [
  1, 4, 3, 2, 2, 2, 2, 2, 2, 1, 1, 1, 1, 1, 1, 1, 1, 1, 1, 1, 1, 1, 1, 1, 1, 1, 1, 1, 1, 1, 1, 1,
  1, 1, 1, 1, 1, 1, 1, 1, 1, 1, 1, 1, 1, 1, -1, -1, -1, -1, -1, -1, -1]

/-- The shares of offset codes when none are written. -/
def offsetShares : List Int := [
  1, 1, 1, 1, 1, 1, 2, 2, 2, 1, 1, 1, 1, 1, 1, 1, 1, 1, 1, 1, 1, 1, 1, 1, -1, -1, -1, -1, -1]

/-- One of the three tables : the usual one, a single symbol, a written one, or the one before.
Also the position behind its description. -/
def commandTable? (data : ByteArray) (off stop mode top maxLog : Nat) (usual : StateTable)
    (before : Option StateTable) : Option (StateTable × Nat) :=
  match mode with
  | 0 => some (usual, off)
  | 1 =>
    let symbol := (Bytes.byte data off).toNat
    if stop ≤ off ∨ top < symbol then none else some (.single symbol, off + 1)
  | 2 => do
    let (t, used) ← StateTable.read? data off (stop - off) top maxLog
    if stop < off + used then none else pure (t, off + used)
  | _ => before.map (·, off)

/-- The three latest offsets. -/
structure Offsets where
  first : Nat := 1
  second : Nat := 4
  third : Nat := 8

/-- The offset that a value stands for, and the latest offsets after it : small values stand for
one of the latest, counted from the second if no literals go before. -/
def Offsets.use (o : Offsets) (value literals : Nat) : Nat × Offsets :=
  if value > 3 then (value - 3, ⟨value - 3, o.first, o.second⟩)
  else
    match (if literals = 0 then value + 1 else value) with
    | 1 => (o.first, o)
    | 2 => (o.second, ⟨o.second, o.first, o.third⟩)
    | 3 => (o.third, ⟨o.third, o.first, o.second⟩)
    | _ => (o.first - 1, ⟨o.first - 1, o.first, o.second⟩)

/-- Repeat bytes from an offset. -/
def repeatBytes : (length offset : Nat) → ByteArray → ByteArray
  | 0, _, out => out
  | n + 1, offset, out => repeatBytes n offset (out.push (Bytes.byte out (out.size - offset)))

/-- What the commands of a block work on. -/
structure Work where
  bits : Backward
  literalState : Nat
  offsetState : Nat
  lengthState : Nat
  offsets : Offsets
  /-- The position in the literals. -/
  used : Nat
  out : ByteArray

/-- Carry out `n` commands on output that starts at `start`. -/
def commands (t : CommandTables) (literals : ByteArray) (start : Nat) : Nat → Work → Option Work
  | 0, w => some w
  | n + 1, w => do
    let l := t.literals.state w.literalState
    let o := t.offsets.state w.offsetState
    let m := t.lengths.state w.lengthState
    let (lbase, lbits) ← literalCounts[l.symbol]?
    let (mbase, mbits) ← matchLengths[m.symbol]?
    let (more, bits) := w.bits.take o.symbol
    let value := (1 <<< o.symbol) + more
    let (more, bits) := bits.take mbits
    let length := mbase + more
    let (more, bits) := bits.take lbits
    let count := lbase + more
    let (offset, offsets) := w.offsets.use value count
    let out := w.out ++ Bytes.slice literals w.used count
    if bits.overrun ∨ literals.size < w.used + count ∨ offset = 0 ∨ out.size - start < offset then
      none
    else
      let out := repeatBytes length offset out
      if n = 0 then
        some { w with bits, offsets, out, used := w.used + count }
      else
        let (more, bits) := bits.take l.bits
        let literalState := l.base + more
        let (more, bits) := bits.take m.bits
        let lengthState := m.base + more
        let (more, bits) := bits.take o.bits
        let offsetState := o.base + more
        commands t literals start n
          ⟨bits, literalState, offsetState, lengthState, offsets, w.used + count, out⟩

/-! ## Compressed blocks -/

/-- What blocks of a frame leave for later ones. -/
structure Memory where
  code : Option LiteralCode := none
  tables : Option CommandTables := none
  offsets : Offsets := {}

/-- The count of commands at a position, and the position behind it. -/
def commandCount? (data : ByteArray) (off stop : Nat) : Option (Nat × Nat) :=
  let b := (Bytes.byte data off).toNat
  let width := if b < 128 then 1 else if b < 255 then 2 else 3
  if stop < off + width then none
  else if b < 128 then some (b, off + 1)
  else if b < 255 then some ((b - 128) * 256 + (Bytes.byte data (off + 1)).toNat, off + 2)
  else some (Bytes.little data (off + 1) 2 + 0x7F00, off + 3)

/-- The tables of a block, and the position behind their descriptions. -/
def commandTables? (data : ByteArray) (off stop : Nat) (before : Option CommandTables) :
    Option (CommandTables × Nat) := do
  let modes := (Bytes.byte data off).toNat
  if stop ≤ off ∨ modes % 4 ≠ 0 then none
  else
    let (l, at1) ← commandTable? data (off + 1) stop (modes / 64) 35 9
      (.ofShares 6 literalShares) (before.map (·.literals))
    let (o, at2) ← commandTable? data at1 stop (modes / 16 % 4) 31 8
      (.ofShares 5 offsetShares) (before.map (·.offsets))
    let (m, at3) ← commandTable? data at2 stop (modes / 4 % 4) 52 9
      (.ofShares 6 lengthShares) (before.map (·.lengths))
    pure (⟨l, o, m⟩, at3)

/-- Add a compressed block, which lies between two positions, to the output of its frame. -/
def compressedBlock? (data : ByteArray) (off stop start : Nat) (memory : Memory)
    (out : ByteArray) : Option (ByteArray × Memory) := do
  let literals ← Literals.read? data off stop memory.code
  let (count, at1) ← commandCount? data literals.next stop
  let memory := { memory with code := literals.code }
  if count = 0 then
    if at1 = stop then pure (out ++ literals.bytes, memory) else none
  else
    let (t, at2) ← commandTables? data at1 stop memory.tables
    let b ← Backward.ofBytes? data at2 (stop - at2)
    let (literalState, b) := b.take t.literals.log
    let (offsetState, b) := b.take t.offsets.log
    let (lengthState, b) := b.take t.lengths.log
    let w ← commands t literals.bytes start count
      ⟨b, literalState, offsetState, lengthState, memory.offsets, 0, out⟩
    if w.bits.isSpent then
      let rest := Bytes.slice literals.bytes w.used literals.bytes.size
      pure (w.out ++ rest, { memory with tables := some t, offsets := w.offsets })
    else none

end Formulary.Codec.Zstd
