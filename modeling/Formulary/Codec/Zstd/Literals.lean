import Formulary.Codec.Zstd.StateCode

/-!
# Literals

The literals of a block : plain, one byte repeated, or coded by a prefix code whose code lengths
are written as weights. A symbol of weight `w` has `2 ^ (w - 1)` places in the table of the code.
-/

namespace Formulary.Codec.Zstd

/-- A prefix code : for each pattern of `log` bits its symbol and how many of the bits belong to
its code. -/
structure LiteralCode where
  log : Nat
  places : Array (Nat × Nat)

namespace LiteralCode

/-- The longest code. -/
def maxLog : Nat := 12

/-- How many places a weight stands for. -/
def share (weight : Nat) : Nat := if weight = 0 then 0 else 1 <<< (weight - 1)

/-- The weight of the last symbol, which is not written : it fills the table. -/
def lastWeight? (weights : List Nat) : Option (Nat × Nat) :=
  let total := weights.foldl (fun n w => n + share w) 0
  if total = 0 ∨ weights.any (· > maxLog) then none
  else
    let log := log2 total + 1
    let rest := (1 <<< log) - total
    if maxLog < log ∨ (1 <<< log2 rest) ≠ rest then none else some (log, log2 rest + 1)

/-- The code with the given weights of all symbols but the last. -/
def ofWeights? (weights : List Nat) : Option LiteralCode := do
  let (log, last) ← lastWeight? weights
  let weights := weights ++ [last]
  let ones := weights.count 1
  if ones < 2 ∨ ones % 2 = 1 then none
  else
    let places := (List.range (log + 1)).flatMap fun w =>
      if w = 0 then []
      else weights.zipIdx.flatMap fun (weight, s) =>
        if weight = w then List.replicate (share w) (s, log + 1 - w) else []
    some ⟨log, places.toArray⟩

/-- Weights of two alternating states, until the bits are spent. -/
def stateWeights (t : StateTable) : Nat → (one other : Nat) → Backward → List Nat →
    Option (List Nat)
  | 0, _, _, _, _ => none
  | fuel + 1, one, other, b, found =>
    let s := t.state one
    let (n, b) := b.take s.bits
    let found := s.symbol :: found
    if found.length > 254 then none
    else if b.overrun then some (((t.state other).symbol :: found).reverse)
    else stateWeights t fuel other (s.base + n) b found

/-- The weights coded by the `size` bytes at a position. -/
def codedWeights? (data : ByteArray) (off size : Nat) : Option (List Nat) := do
  let (t, used) ← StateTable.read? data off size 255 6
  if size ≤ used then none
  else
    let b ← Backward.ofBytes? data (off + used) (size - used)
    let (one, b) := b.take t.log
    let (other, b) := b.take t.log
    if b.overrun then none else stateWeights t 256 one other b []

/-- `n` weights of four bits. -/
def plainWeights (data : ByteArray) (off n : Nat) : List Nat :=
  (List.range n).map fun i =>
    let b := (Bytes.byte data (off + i / 2)).toNat
    if i % 2 = 0 then b / 16 else b % 16

/-- The code described at a position, and the count of bytes of the description. -/
def read? (data : ByteArray) (off size : Nat) : Option (LiteralCode × Nat) :=
  let head := (Bytes.byte data off).toNat
  let used := 1 + (if head < 128 then head else (head - 126) / 2)
  if size = 0 ∨ size < used then none
  else do
    let weights ←
      if head < 128 then codedWeights? data (off + 1) head
      else some (plainWeights data (off + 1) (head - 127))
    let code ← ofWeights? weights
    pure (code, used)

/-- `n` symbols. -/
def symbols (c : LiteralCode) : Nat → Backward → ByteArray → Backward × ByteArray
  | 0, b, out => (b, out)
  | n + 1, b, out =>
    let (s, used) := c.places.getD (b.peek c.log) (0, 1)
    symbols c n (b.skip used) (out.push (UInt8.ofNat s))

/-- `n` symbols that take up exactly the `size` bytes at a position. -/
def stream? (c : LiteralCode) (data : ByteArray) (off size n : Nat) (out : ByteArray) :
    Option ByteArray := do
  let b ← Backward.ofBytes? data off size
  let (b, out) := c.symbols n b out
  if b.isSpent then some out else none

/-- Four streams, the sizes of the first three of which are written in front. -/
def fourStreams? (c : LiteralCode) (data : ByteArray) (off size n : Nat) : Option ByteArray :=
  let a := Bytes.little data off 2
  let b := Bytes.little data (off + 2) 2
  let d := Bytes.little data (off + 4) 2
  let part := (n + 3) / 4
  if size < 10 ∨ n < 6 ∨ size < 6 + a + b + d ∨ n < 3 * part then none
  else do
    let at1 := off + 6
    let out ← c.stream? data at1 a part .empty
    let out ← c.stream? data (at1 + a) b part out
    let out ← c.stream? data (at1 + a + b) d part out
    c.stream? data (at1 + a + b + d) (size - 6 - a - b - d) (n - 3 * part) out

end LiteralCode

/-- The literals of a block, the code they leave for later blocks, and the position behind. -/
structure Literals where
  bytes : ByteArray
  code : Option LiteralCode
  next : Nat

namespace Literals

/-- The greatest size of a block. -/
def maxSize : Nat := 131072

/-- Plain or repeated literals behind a header of `width` bytes. -/
def simple? (data : ByteArray) (off stop width size : Nat) (repeated : Bool)
    (code : Option LiteralCode) : Option Literals :=
  let body := off + width
  let used := if repeated then 1 else size
  if maxSize < size ∨ stop < body + used then none
  else
    let bytes :=
      if repeated then
        Bytes.ofList (List.replicate size (Bytes.byte data body))
      else Bytes.slice data body size
    some ⟨bytes, code, body + used⟩

/-- Coded literals, with a code of their own or that of an earlier block. -/
def coded? (data : ByteArray) (off stop : Nat) (own : Bool) (code : Option LiteralCode) :
    Option Literals :=
  let format := (Bytes.byte data off).toNat / 4 % 4
  let bits := if format < 2 then 10 else if format = 2 then 14 else 18
  let width := if format < 2 then 3 else if format = 2 then 4 else 5
  let header := Bytes.little data off 5
  let size := header / 16 % (1 <<< bits)
  let packed := (header >>> (4 + bits)) % (1 <<< bits)
  let body := off + width
  if stop < off + 5 ∨ stop < body + packed ∨ maxSize < size then none
  else do
    let (c, used) ←
      if own then LiteralCode.read? data body packed else code.map (·, 0)
    let bytes ←
      if format = 0 then c.stream? data (body + used) (packed - used) size .empty
      else c.fourStreams? data (body + used) (packed - used) size
    some ⟨bytes, some c, body + packed⟩

/-- The literals at a position. -/
def read? (data : ByteArray) (off stop : Nat) (code : Option LiteralCode) : Option Literals :=
  let head := (Bytes.byte data off).toNat
  let format := head / 4 % 4
  if stop ≤ off then none
  else if head % 4 < 2 then
    let repeated := head % 4 == 1
    if format % 2 = 0 then simple? data off stop 1 (head / 8) repeated code
    else if format = 1 then
      simple? data off stop 2 (Bytes.little data off 2 / 16) repeated code
    else simple? data off stop 3 (Bytes.little data off 3 / 16) repeated code
  else coded? data off stop (head % 4 == 2) code

end Literals

end Formulary.Codec.Zstd
