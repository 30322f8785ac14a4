import Formulary.Codec.Crc
import Formulary.Codec.Inflate
import Formulary.Codec.Stream

/-!
# Gzip

The first member of a gzip file; what follows it is not looked at. A reader is handed whole
windows, so of the window in which the data turns out to be damaged it gets nothing, while data
that just ends is handed out to its last byte.
-/

namespace Formulary.Codec.Gzip

/-- The position behind the text that ends with a zero byte. -/
def skipText (data : ByteArray) : Nat → Nat → Option Nat
  | 0, _ => none
  | fuel + 1, off =>
    if data.size ≤ off then none
    else if Bytes.byte data off == 0 then some (off + 1)
    else skipText data fuel (off + 1)

/-- A flag of the header is set. -/
def hasFlag (flags mask : Nat) : Bool := flags / mask % 2 == 1

/-- The position behind the header. -/
def header? (data : ByteArray) : Option Nat := do
  if data.size < 10 then none
  else if !Bytes.startsWith data [0x1F, 0x8B, 8] then none
  else
    let flags := (Bytes.byte data 3).toNat
    if flags ≥ 32 then none
    else
      let off := 10
      let off ← if hasFlag flags 4 then
          let next := off + 2 + Bytes.little data off 2
          if data.size < next then none else some next
        else some off
      let off ← if hasFlag flags 8 then skipText data data.size off else some off
      let off ← if hasFlag flags 16 then skipText data data.size off else some off
      if hasFlag flags 2 then
        if data.size < off + 2 then none
        else if Bytes.little data off 2 = (crc32 (data.extract 0 off)).toNat % 65536 then
          some (off + 2)
        else none
      else some off

/-- The check and the length behind the data are right. -/
def trailerFits (data : ByteArray) (off : Nat) (out : ByteArray) : Bool :=
  off + 8 ≤ data.size &&
    Bytes.little data off 4 == (crc32 out).toNat &&
    Bytes.little data (off + 4) 4 == out.size % UInt32.size

/-- The bytes of the first member. -/
def decode (data : ByteArray) : Stream :=
  match header? data with
  | none => .cut .empty
  | some off =>
    let r := Inflate.decode data off
    match r.stop with
    | .finished =>
      if trailerFits data (r.bits.align.pos / 8) r.out then .whole r.out else .cut r.out
    | .truncated => .cut r.out
    | .invalid =>
      .cut (r.out.extract 0 (r.out.size / Inflate.windowSize * Inflate.windowSize))

end Formulary.Codec.Gzip
