import Formulary.Codec.Crc
import Formulary.Codec.Lzma
import Formulary.Codec.Stream
import Formulary.Digest.Sha256

/-!
# Xz

One xz stream : a header, blocks, an index of the blocks and a footer. Everything the format
repeats is compared : the sizes in block headers and index, the checks behind each block, and the
flags in header and footer. Bytes behind the footer are a fault.

Blocks are packed with LZMA2, alone or behind delta filters.
-/

namespace Formulary.Codec.Xz

/-- The bytes every stream starts with. -/
def magic : List UInt8 := [0xFD, 0x37, 0x7A, 0x58, 0x5A, 0]

/-- A number in groups of seven bits, the lowest first, at most nine groups. -/
def groupsOf? (data : ByteArray) : (count off weight acc : Nat) → Option (Nat × Nat)
  | 0, _, _, _ => none
  | n + 1, off, weight, acc =>
    if data.size ≤ off then none
    else
      let b := (Bytes.byte data off).toNat
      let acc := acc + b % 128 * weight
      if b < 128 then
        if b = 0 ∧ weight ≠ 1 then none else some (acc, off + 1)
      else groupsOf? data n (off + 1) (weight * 128) acc

/-- The number written at a position, and the position behind it. -/
def number? (data : ByteArray) (off : Nat) : Option (Nat × Nat) := groupsOf? data 9 off 1 0

/-- The size of a check, by its kind. -/
def checkSize (kind : Nat) : Nat :=
  if kind = 0 then 0 else 4 <<< ((kind - 1) / 3)

/-- The check of a kind, if the kind is one that is compared. -/
def check? (kind : Nat) (out : ByteArray) : Option ByteArray :=
  let word (n width : Nat) : ByteArray :=
    Bytes.ofList ((List.range width).map fun k => UInt8.ofNat (n >>> (8 * k)))
  match kind with
  | 1 => some (word (crc32 out).toNat 4)
  | 4 => some (word (crc64 out).toNat 8)
  | 10 => some (Bytes.ofList (Sha256.digest out))
  | _ => none

/-- All bytes from `off` up to `stop` are zero. -/
def zeros (data : ByteArray) (off stop : Nat) : Bool :=
  (List.range (stop - off)).all fun k => Bytes.byte data (off + k) == 0

/-! ## Block headers -/

/-- What a block header tells. -/
structure BlockHeader where
  size : Nat
  packed : Option Nat
  unpacked : Option Nat
  /-- The distances of the delta filters, the outermost first. -/
  deltas : List Nat

/-- The filters of a block : deltas, and LZMA2 last. -/
def filters? (data : ByteArray) : (count off : Nat) → Option (List Nat × Nat)
  | 0, _ => none
  | n + 1, off => do
    let (id, off) ← number? data off
    let (size, off) ← number? data off
    let property := (Bytes.byte data off).toNat
    if size ≠ 1 ∨ data.size < off + 1 then none
    else if id = 0x21 then
      if n = 0 ∧ property ≤ 40 then some ([], off + 1) else none
    else if id = 3 then do
      let (rest, off) ← filters? data n (off + 1)
      pure ((property + 1) :: rest, off)
    else none

/-- An optional number. -/
def optional? (present : Bool) (data : ByteArray) (off : Nat) : Option (Option Nat × Nat) :=
  if present then (number? data off).map fun (n, off) => (some n, off) else some (none, off)

/-- The block header at a position. -/
def blockHeader? (data : ByteArray) (off : Nat) : Option BlockHeader := do
  let size := ((Bytes.byte data off).toNat + 1) * 4
  if data.size < off + size then none
  else
    let head := Bytes.slice data off (size - 4)
    if (crc32 head).toNat ≠ Bytes.little data (off + size - 4) 4 then none
    else
      let flags := (Bytes.byte head 1).toNat
      if flags / 4 % 16 ≠ 0 then none
      else
        let (packed, at1) ← optional? (flags / 64 % 2 == 1) head 2
        let (unpacked, at2) ← optional? (flags / 128 == 1) head at1
        let (deltas, at3) ← filters? head (flags % 4 + 1) at2
        if packed = some 0 ∨ !zeros head at3 head.size then none
        else some ⟨size, packed, unpacked, deltas⟩

/-- Undo a delta filter : each byte is written as the difference to one before it. -/
def undelta (distance : Nat) (data : ByteArray) : ByteArray :=
  (List.range data.size).foldl (fun out i =>
    let before := if i < distance then 0 else Bytes.byte out (i - distance)
    out.push (Bytes.byte data i + before)) .empty

/-- Undo several, the innermost first. -/
def undeltas (distances : List Nat) (data : ByteArray) : ByteArray :=
  distances.foldr undelta data

/-! ## Blocks, index and footer -/

/-- The sizes of a block, as the index tells them. -/
structure Entry where
  unpadded : Nat
  unpacked : Nat
deriving DecidableEq

/-- The next multiple of four. -/
def padded (n : Nat) : Nat := (n + 3) / 4 * 4

/-- A block at a position : its bytes, and its sizes with the position behind it unless it is at
fault. -/
def block (data : ByteArray) (kind off : Nat) : ByteArray × Option (Entry × Nat) :=
  match blockHeader? data off with
  | none => (.empty, none)
  | some h =>
    let body := off + h.size
    let r := Lzma.decode data body
    let out := undeltas h.deltas r.out
    match r.next with
    | none => (out, none)
    | some stop =>
      let checkAt := body + padded (stop - body)
      let next := checkAt + checkSize kind
      let sizesFit := h.packed.all (· == stop - body) && h.unpacked.all (· == out.size)
      let checkFits := (check? kind out).all fun c =>
        (Bytes.slice data checkAt (checkSize kind)).toList == c.toList
      if sizesFit && zeros data stop checkAt && next ≤ data.size && checkFits then
        (out, some (⟨h.size + (stop - body) + checkSize kind, out.size⟩, next))
      else (out, none)

/-- The entries of an index. -/
def entries? (data : ByteArray) : (count off : Nat) → Option (List Entry × Nat)
  | 0, off => some ([], off)
  | n + 1, off => do
    let (unpadded, off) ← number? data off
    let (unpacked, off) ← number? data off
    let (rest, off) ← entries? data n off
    pure (⟨unpadded, unpacked⟩ :: rest, off)

/-- The index and the footer tell of exactly the given blocks, and nothing follows. -/
def ending (data : ByteArray) (off : Nat) (blocks : List Entry) : Bool :=
  match (do
    let (count, at1) ← number? data (off + 1)
    if count ≠ blocks.length then none else entries? data count at1) with
  | none => false
  | some (found, stop) =>
    let checkAt := off + padded (stop - off)
    let footer := checkAt + 4
    found == blocks && zeros data stop checkAt &&
      footer + 12 == data.size &&
      Bytes.little data checkAt 4 == (crc32 (data.extract off checkAt)).toNat &&
      Bytes.little data footer 4 == (crc32 (Bytes.slice data (footer + 4) 6)).toNat &&
      (Bytes.little data (footer + 4) 4 + 1) * 4 == footer - off &&
      (Bytes.slice data (footer + 8) 2).toList == (Bytes.slice data 6 2).toList &&
      Bytes.little data (footer + 10) 2 == 0x5A59

/-- Blocks up to the index. -/
def blocks (data : ByteArray) (kind : Nat) : Nat → Nat → List Entry → ByteArray → Stream
  | 0, _, _, out => .cut out
  | fuel + 1, off, found, out =>
    if data.size ≤ off then .cut out
    else if Bytes.byte data off == 0 then
      ⟨out, !ending data off found.reverse⟩
    else
      match block data kind off with
      | (more, none) => .cut (out ++ more)
      | (more, some (entry, next)) => blocks data kind fuel next (entry :: found) (out ++ more)

/-- The bytes of a stream. -/
def decode (data : ByteArray) : Stream :=
  if data.size < 12 || !Bytes.startsWith data magic then .cut .empty
  else
    let kind := (Bytes.byte data 7).toNat
    if Bytes.byte data 6 != 0 || kind ≥ 16 ||
        (crc32 (Bytes.slice data 6 2)).toNat != Bytes.little data 8 4 then .cut .empty
    else blocks data kind data.size 12 [] .empty

end Formulary.Codec.Xz
