import Formulary.Bytes

/-!
# LZMA chunks

The adaptive range coder of LZMA and the chunks of LZMA2. Every decoded bit updates the
estimate that it was decoded with; all estimates lie in one array, at fixed places for each of
their uses.
-/

namespace Formulary.Codec.Lzma

/-! ## The range coder -/

/-- The range coder over the bytes from `pos` up to `stop`, with the estimates. -/
structure Coder where
  data : ByteArray
  pos : Nat
  stop : Nat
  range : UInt32
  code : UInt32
  estimates : Array UInt16

/-- Keep eight bits of room : take one more byte in when the range gets small. Beyond the end
the position goes on, which the caller checks. -/
@[inline] def Coder.normalize (c : Coder) : Coder :=
  if c.range < 0x1000000 then
    let ⟨data, pos, stop, range, code, estimates⟩ := c
    let b := if pos < stop then Bytes.byte data pos else 0
    ⟨data, pos + 1, stop, range <<< 8, (code <<< 8) ||| b.toUInt32, estimates⟩
  else c

/-- The chunk ended before its symbols did. -/
def Coder.overrun (c : Coder) : Bool := c.stop < c.pos

/-- The next bit, with the estimate at a place. -/
def Coder.bit (c : Coder) (place : Nat) : Nat × Coder :=
  let ⟨data, pos, stop, range, code, estimates⟩ := c
  let p := estimates.getD place 1024
  let bound := (range >>> 11) * p.toUInt32
  if code < bound then
    let c : Coder :=
      ⟨data, pos, stop, bound, code, estimates.setIfInBounds place (p + ((2048 - p) >>> 5))⟩
    (0, c.normalize)
  else
    let c : Coder :=
      ⟨data, pos, stop, range - bound, code - bound,
        estimates.setIfInBounds place (p - (p >>> 5))⟩
    (1, c.normalize)

/-- Bits without estimates, the highest first. -/
def Coder.direct : Nat → Nat → Coder → Nat × Coder
  | 0, acc, c => (acc, c)
  | n + 1, acc, c =>
    let half := c.range >>> 1
    let (b, code) := if c.code < half then (0, c.code) else (1, c.code - half)
    Coder.direct n (2 * acc + b) ({ c with range := half, code }).normalize

/-- A number of `n` bits, the highest first, through a tree of estimates. -/
def Coder.tree (base : Nat) : Nat → Nat → Coder → Nat × Coder
  | 0, m, c => (m, c)
  | n + 1, m, c =>
    let (b, c) := c.bit (base + m)
    Coder.tree base n (2 * m + b) c

/-- A number of `n` bits through a tree of estimates. -/
def Coder.number (base n : Nat) (c : Coder) : Nat × Coder :=
  let (m, c) := Coder.tree base n 1 c
  (m - (1 <<< n), c)

/-- A number of `n` bits, the lowest first, through a tree of estimates. -/
def Coder.reverse (base : Nat) : (n m weight acc : Nat) → Coder → Nat × Coder
  | 0, _, _, acc, c => (acc, c)
  | n + 1, m, weight, acc, c =>
    let (b, c) := c.bit (base + m)
    Coder.reverse base n (2 * m + b) (2 * weight) (acc + b * weight) c

/-! ## Places of the estimates -/

/-- Is the next symbol a match, by state and position. -/
def placeMatch : Nat := 0
/-- Is the match a repeated one, by state. -/
def placeRep : Nat := 192
/-- Is it another than the latest distance, by state. -/
def placeRep0 : Nat := 204
/-- Is it another than the second latest, by state. -/
def placeRep1 : Nat := 216
/-- Is it another than the third latest, by state. -/
def placeRep2 : Nat := 228
/-- Is a repeated match longer than one byte, by state and position. -/
def placeLong : Nat := 240
/-- The slots of distances, by length. -/
def placeSlot : Nat := 432
/-- The low bits of middle distances. -/
def placeMiddle : Nat := 688
/-- The low bits of far distances. -/
def placeAlign : Nat := 803
/-- The lengths of matches. -/
def placeLength : Nat := 819
/-- The lengths of repeated matches. -/
def placeRepLength : Nat := 1333
/-- The literals, by context. -/
def placeLiteral : Nat := 1847

/-! ## Symbols -/

/-- The three properties of a stream : bits of context from the byte before and from the
position, for literals and for the rest. -/
structure Properties where
  lc : Nat
  lp : Nat
  pb : Nat
deriving DecidableEq

/-- The properties that a byte writes. -/
def Properties.ofByte? (b : Nat) : Option Properties :=
  let p : Properties := ⟨b % 9, b / 9 % 5, b / 45⟩
  if b < 225 && p.lc + p.lp ≤ 4 then some p else none

/-- The estimates at the start. -/
def Properties.fresh (p : Properties) : Array UInt16 :=
  Array.replicate (placeLiteral + (768 <<< (p.lc + p.lp))) 1024

/-- The state of the symbols. -/
structure Symbols where
  state : Nat := 0
  rep0 : Nat := 0
  rep1 : Nat := 0
  rep2 : Nat := 0
  rep3 : Nat := 0

/-- A length from two on. -/
def length (base posState : Nat) (c : Coder) : Nat × Coder :=
  let (b, c) := c.bit base
  if b = 0 then
    let (n, c) := c.number (base + 2 + posState * 8) 3
    (n + 2, c)
  else
    let (b, c) := c.bit (base + 1)
    if b = 0 then
      let (n, c) := c.number (base + 130 + posState * 8) 3
      (n + 10, c)
    else
      let (n, c) := c.number (base + 258) 8
      (n + 18, c)

/-- A distance, zero for the latest byte. -/
def distance (len : Nat) (c : Coder) : Nat × Coder :=
  let (slot, c) := c.number (placeSlot + min (len - 2) 3 * 64) 6
  if slot < 4 then (slot, c)
  else
    let bits := slot / 2 - 1
    let base := (2 + slot % 2) <<< bits
    if slot < 14 then
      let (low, c) := Coder.reverse (placeMiddle + base - slot) bits 1 1 0 c
      (base + low, c)
    else
      let (high, c) := Coder.direct (bits - 4) 0 c
      let (low, c) := Coder.reverse placeAlign 4 1 1 0 c
      (base + high * 16 + low, c)

/-- The rest of a literal without help from a match. -/
def plainLiteral (base : Nat) : Nat → Nat → Coder → Nat × Coder
  | 0, m, c => (m, c)
  | fuel + 1, m, c =>
    if m ≥ 256 then (m, c)
    else
      let (b, c) := c.bit (base + m)
      plainLiteral base fuel (2 * m + b) c

/-- A literal behind a match : the byte that the match would go on with helps as long as it is
right. -/
def matchedLiteral (base : Nat) : (fuel m matchByte : Nat) → Coder → Nat × Coder
  | 0, m, _, c => (m, c)
  | fuel + 1, m, matchByte, c =>
    if m ≥ 256 then (m, c)
    else
      let matchBit := matchByte / 128 % 2
      let (b, c) := c.bit (base + (1 + matchBit) * 256 + m)
      if b = matchBit then matchedLiteral base fuel (2 * m + b) (matchByte * 2) c
      else plainLiteral base fuel (2 * m + b) c

/-- The dictionary : all output, of which the part behind `start` may be referred to. -/
structure Dictionary where
  out : ByteArray
  start : Nat

/-- The byte at a distance, zero for the latest. -/
def Dictionary.back (d : Dictionary) (distance : Nat) : UInt8 :=
  if distance + 1 ≤ d.out.size - d.start then Bytes.byte d.out (d.out.size - distance - 1) else 0

/-- The distance reaches no further than the start. -/
def Dictionary.reaches (d : Dictionary) (distance : Nat) : Bool :=
  distance + 1 ≤ d.out.size - d.start

/-- Repeat bytes from a distance. -/
def Dictionary.copy : (length distance : Nat) → ByteArray → ByteArray
  | 0, _, out => out
  | n + 1, distance, out =>
    Dictionary.copy n distance (out.push (Bytes.byte out (out.size - distance - 1)))

/-- The state of a decoder between symbols. -/
structure Machine where
  coder : Coder
  symbols : Symbols
  dictionary : Dictionary

/-- The state behind a literal. -/
def afterLiteral (state : Nat) : Nat :=
  if state < 4 then 0 else if state < 10 then state - 3 else state - 6

/-- A literal. -/
def literal (p : Properties) (m : Machine) : Machine :=
  let ⟨c, s, ⟨out, start⟩⟩ := m
  let d : Dictionary := ⟨out, start⟩
  let before := (d.back 0).toNat
  let position := out.size - start
  let context := ((position % (1 <<< p.lp)) <<< p.lc) + (before >>> (8 - p.lc))
  let base := placeLiteral + 768 * context
  let matchByte := (d.back s.rep0).toNat
  let (v, c) :=
    if s.state < 7 then plainLiteral base 8 1 c
    else matchedLiteral base 8 1 matchByte c
  ⟨c, { s with state := afterLiteral s.state }, ⟨out.push (UInt8.ofNat (v % 256)), start⟩⟩

/-- What a match repeats : a length and a distance, with the state behind it. -/
def matchOf (posState : Nat) (c : Coder) (s : Symbols) : Nat × Coder × Symbols :=
  let late := s.state ≥ 7
  let (rep, c) := c.bit (placeRep + s.state)
  if rep = 0 then
    let (len, c) := length placeLength posState c
    let (dist, c) := distance len c
    (len, c, ⟨if late then 10 else 7, dist, s.rep0, s.rep1, s.rep2⟩)
  else
    let (other, c) := c.bit (placeRep0 + s.state)
    if other = 0 then
      let (isLong, c) := c.bit (placeLong + s.state * 16 + posState)
      if isLong = 0 then (1, c, { s with state := if late then 11 else 9 })
      else
        let (len, c) := length placeRepLength posState c
        (len, c, { s with state := if late then 11 else 8 })
    else
      let (other, c) := c.bit (placeRep1 + s.state)
      let (s, c) :=
        if other = 0 then ({ s with rep0 := s.rep1, rep1 := s.rep0 }, c)
        else
          let (other, c) := c.bit (placeRep2 + s.state)
          if other = 0 then
            ({ s with rep0 := s.rep2, rep1 := s.rep0, rep2 := s.rep1 }, c)
          else ({ s with rep0 := s.rep3, rep1 := s.rep0, rep2 := s.rep1, rep3 := s.rep2 }, c)
      let (len, c) := length placeRepLength posState c
      (len, c, { s with state := if late then 11 else 8 })

/-- Symbols until the output has the given size. The flag tells that all went well; each symbol
adds at least a byte. -/
def run (p : Properties) (target : Nat) : Nat → Machine → Bool × Machine
  | 0, m => (m.dictionary.out.size = target, m)
  | fuel + 1, m =>
    if m.dictionary.out.size ≥ target then (true, m)
    else if m.coder.overrun then (false, m)
    else
      let ⟨c, s, ⟨out, start⟩⟩ := m
      let posState := (out.size - start) % (1 <<< p.pb)
      let (isMatch, c) := c.bit (placeMatch + s.state * 16 + posState)
      if isMatch = 0 then run p target fuel (literal p ⟨c, s, ⟨out, start⟩⟩)
      else
        let (len, c, s) := matchOf posState c s
        let d : Dictionary := ⟨out, start⟩
        if c.overrun || !d.reaches s.rep0 then (false, ⟨c, s, ⟨out, start⟩⟩)
        else
          let fits := min len (target - out.size)
          let out := Dictionary.copy fits s.rep0 out
          if fits < len then (false, ⟨c, s, ⟨out, start⟩⟩)
          else run p target fuel ⟨c, s, ⟨out, start⟩⟩

/-! ## Chunks -/

/-- A stream of chunks between two chunks. -/
structure Chunks where
  pos : Nat
  needsDictionary : Bool := true
  properties : Option Properties := none
  estimates : Array UInt16 := #[]
  symbols : Symbols := {}
  dictionary : Dictionary

/-- What chunks decode to : the output, and the position behind them if they ended well. -/
structure Result where
  out : ByteArray
  next : Option Nat

/-- A compressed chunk. -/
def compressed (data : ByteArray) (control : Nat) (s : Chunks) : Except ByteArray Chunks :=
  let fault : Except ByteArray Chunks := .error s.dictionary.out
  if data.size < s.pos + 5 then fault
  else
    let size := (control % 32) * 65536 + Bytes.big data (s.pos + 1) 2 + 1
    let packed := Bytes.big data (s.pos + 3) 2 + 1
    let brings := control ≥ 0xC0
    let body := s.pos + (if brings then 6 else 5)
    let properties :=
      if brings then Properties.ofByte? (Bytes.byte data (s.pos + 5)).toNat else s.properties
    match properties with
    | none => fault
    | some p =>
      let (estimates, symbols) :=
        if control ≥ 0xA0 then (p.fresh, {}) else (s.estimates, s.symbols)
      if Bytes.byte data body != 0 then fault
      else
        let stop := min (body + packed) data.size
        let coder : Coder :=
          ⟨data, body + 5, stop, 0xFFFFFFFF, UInt32.ofNat (Bytes.big data (body + 1) 4),
            estimates⟩
        let target := s.dictionary.out.size + size
        let (good, m) := run p target (size + 1) ⟨coder, symbols, s.dictionary⟩
        let ⟨c, symbols, dictionary⟩ := m
        if good && !c.overrun && c.pos == body + packed && c.code == 0 then
          .ok { s with
            pos := body + packed, properties := some p, estimates := c.estimates
            symbols, dictionary }
        else .error dictionary.out

/-- A chunk that is not compressed. -/
def uncompressed (data : ByteArray) (s : Chunks) : Except ByteArray Chunks :=
  if data.size < s.pos + 3 then .error s.dictionary.out
  else
    let size := Bytes.big data (s.pos + 1) 2 + 1
    let body := Bytes.slice data (s.pos + 3) size
    let dictionary := { s.dictionary with out := s.dictionary.out ++ body }
    if body.size < size then .error dictionary.out
    else .ok { s with pos := s.pos + 3 + size, dictionary }

/-- Every chunk up to the end mark. -/
def chunks (data : ByteArray) : Nat → Chunks → Result
  | 0, s => ⟨s.dictionary.out, none⟩
  | fuel + 1, s =>
    if data.size ≤ s.pos then ⟨s.dictionary.out, none⟩
    else
      let control := (Bytes.byte data s.pos).toNat
      if control = 0 then ⟨s.dictionary.out, some (s.pos + 1)⟩
      else
        let resets := control ≥ 0xE0 || control == 1
        let s :=
          if resets then
            { s with
              needsDictionary := false, properties := none
              dictionary := { s.dictionary with start := s.dictionary.out.size } }
          else s
        if s.needsDictionary || (2 < control && control < 0x80) then ⟨s.dictionary.out, none⟩
        else
          match (if control ≥ 0x80 then compressed data control s else uncompressed data s) with
          | .ok s => chunks data fuel s
          | .error out => ⟨out, none⟩

/-- The chunks from a position on. -/
def decode (data : ByteArray) (off : Nat) : Result :=
  chunks data (data.size + 1) { pos := off, dictionary := ⟨.empty, 0⟩ }

end Formulary.Codec.Lzma
