import Formulary.Codec.Stream
import Formulary.Codec.Zstd.Sequences
import Formulary.Digest.XxHash

/-!
# Zstd

Frames one behind the other, with skippable frames among them. Content sizes and
content checks are compared where a frame has them; frames that need a dictionary are a fault.
-/

namespace Formulary.Codec.Zstd

/-- The bytes every frame starts with. -/
def magic : List UInt8 := [0x28, 0xB5, 0x2F, 0xFD]

/-- What a frame header tells. -/
structure FrameHeader where
  window : Nat
  contentSize : Option Nat
  checked : Bool
  /-- The position behind the header. -/
  next : Nat

/-- The greatest window a reader sets memory aside for. -/
def maxWindow : Nat := (1 <<< 27) + 1

/-- The window that a byte writes. -/
def windowOfByte (b : Nat) : Nat :=
  let base := 1 <<< (10 + b / 8)
  base + base / 8 * (b % 8)

/-- The frame header at a position. -/
def frameHeader? (data : ByteArray) (off : Nat) : Option FrameHeader :=
  let head := (Bytes.byte data (off + 4)).toNat
  let single := head / 32 % 2 == 1
  let windowWidth := if single then 0 else 1
  let dictionaryWidth := #[0, 1, 2, 4].getD (head % 4) 0
  let sizeWidth := #[if single then 1 else 0, 2, 4, 8].getD (head / 64) 0
  let dictionaryAt := off + 5 + windowWidth
  let sizeAt := dictionaryAt + dictionaryWidth
  let next := sizeAt + sizeWidth
  let written := Bytes.little data sizeAt sizeWidth + (if sizeWidth = 2 then 256 else 0)
  let contentSize := if sizeWidth = 0 then none else some written
  let window := if single then written else windowOfByte (Bytes.byte data (off + 5)).toNat
  if data.size < next ∨ head / 8 % 2 = 1 ∨ maxWindow < window ∨
      Bytes.little data dictionaryAt dictionaryWidth ≠ 0 then none
  else some ⟨window, contentSize, head / 4 % 2 == 1, next⟩

/-- A block at a position : the output with it, what it leaves for later, whether it is the
last, and the position behind it. -/
def block? (data : ByteArray) (off start limit : Nat) (memory : Memory) (out : ByteArray) :
    Option (ByteArray × Memory × Bool × Nat) :=
  let head := Bytes.little data off 3
  let size := head / 8
  let body := off + 3
  let last := head % 2 == 1
  if data.size < body ∨ limit < size then none
  else
    match head / 2 % 4 with
    | 0 =>
      if data.size < body + size then none
      else some (out ++ Bytes.slice data body size, memory, last, body + size)
    | 1 =>
      if data.size < body + 1 then none
      else
        some (out ++ Bytes.ofList (List.replicate size (Bytes.byte data body)), memory, last,
          body + 1)
    | 2 =>
      if data.size < body + size then none
      else do
        let (grown, memory) ← compressedBlock? data body (body + size) start memory out
        if limit < grown.size - out.size then none
        else some (grown, memory, last, body + size)
    | _ => none

/-- Blocks up to the last of a frame, with the position behind it unless there is a fault. -/
def blocks (data : ByteArray) (start limit : Nat) : Nat → Nat → Memory → ByteArray →
    ByteArray × Option Nat
  | 0, _, _, out => (out, none)
  | fuel + 1, off, memory, out =>
    match block? data off start limit memory out with
    | none => (out, none)
    | some (out, _, true, next) => (out, some next)
    | some (out, memory, false, next) => blocks data start limit fuel next memory out

/-- A frame at a position. -/
def frame (data : ByteArray) (off : Nat) (out : ByteArray) : ByteArray × Option Nat :=
  match frameHeader? data off with
  | none => (out, none)
  | some h =>
    let start := out.size
    match blocks data start (min h.window Literals.maxSize) data.size h.next {} out with
    | (out, none) => (out, none)
    | (out, some next) =>
      if !h.contentSize.all (· == out.size - start) then (out, none)
      else if !h.checked then (out, some next)
      else
        let hash := (XxHash.hash (out.extract start out.size)).toUInt32.toNat
        if next + 4 ≤ data.size ∧ Bytes.little data next 4 = hash then (out, some (next + 4))
        else (out, none)

/-- Frames up to the end of the data. -/
def frames (data : ByteArray) : Nat → Nat → ByteArray → Stream
  | 0, _, out => .cut out
  | fuel + 1, off, out =>
    if data.size ≤ off then .whole out
    else
      let size := Bytes.little data (off + 4) 4
      let mark := Bytes.little data off 4
      if data.size < off + 5 then .cut out
      else if mark / 16 = 0x184D2A5 then
        if data.size < off + 8 + size then .cut out else frames data fuel (off + 8 + size) out
      else if mark = 0xFD2FB528 then
        match frame data off out with
        | (out, some next) => frames data fuel next out
        | (out, none) => .cut out
      else .cut out

/-- The bytes of all frames. -/
def decode (data : ByteArray) : Stream := frames data data.size 0 .empty

end Formulary.Codec.Zstd
