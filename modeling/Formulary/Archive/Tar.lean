import Formulary.Codec.Stream
import Formulary.Text.Utf8

/-!
# Tape archives

Reading a tar archive. An archive is a run of members, each a header block with the bytes of the
member behind it, filled up to whole blocks; a block of zeros ends it, and so does the end of the
data between two members. Long names and sizes may be told ahead of a member, in members of their
own. A file may be sparse : only parts of it are written.

The archive may come out of a decoder that fails on the way; that counts only for those bytes
that are needed.
-/

namespace Formulary.Tar

/-! ## Blocks and fields -/

/-- The size of a block. -/
def blockSize : Nat := 512

/-- The next multiple of the block size. -/
def wholeBlocks (n : Nat) : Nat := (n + 511) / 512 * 512

/-- A header block. -/
structure Header where
  bytes : List UInt8

namespace Header

/-- The block at a position of an archive. -/
def ofData (data : ByteArray) (off : Nat) : Header :=
  ⟨(List.range blockSize).map fun i => Bytes.byte data (off + i)⟩

/-- The byte at a position. -/
def byte (h : Header) (pos : Nat) : UInt8 := h.bytes.getD pos 0

/-- The bytes of a field. -/
def field (h : Header) (pos length : Nat) : List UInt8 := (h.bytes.drop pos).take length

/-- The bytes of a field up to its first zero. -/
def text (h : Header) (pos length : Nat) : List UInt8 := (h.field pos length).takeWhile (· != 0)

/-- A number in octal digits, with blanks around it. -/
def octal? (bytes : List UInt8) : Option Nat :=
  let s := Text.ofBytes (Bytes.ofList (bytes.takeWhile (· != 0)))
  let digits := Text.trimChars s.toList
  let digits := match digits with
    | '+' :: rest => rest
    | _ => digits
  match Text.number? 8 digits with
  | some n => if n < UInt64.size then some n else none
  | none => none

/-- A number : octal digits, or its bytes behind a mark. -/
def number? (h : Header) (pos length : Nat) : Option Nat :=
  match h.field pos length with
  | [] => none
  | first :: rest =>
    if first ≥ 0x80 then
      let bytes := if length = 8 then (first ^^^ 0x80) :: rest else rest.drop (length - 9)
      some (bytes.foldl (fun n b => n * 256 + b.toNat) 0)
    else octal? (first :: rest)

/-- The letter that tells what the member is. -/
def letter (h : Header) : Char := Char.ofNat (h.byte 156).toNat

/-- The header has the fields of the standard. -/
def isStandard (h : Header) : Bool :=
  h.field 257 8 == [0x75, 0x73, 0x74, 0x61, 0x72, 0, 0x30, 0x30]

/-- The header has the fields of the other common layout, which knows sparse files. -/
def isExtended (h : Header) : Bool :=
  h.field 257 8 == [0x75, 0x73, 0x74, 0x61, 0x72, 0x20, 0x20, 0]

/-- Every byte is zero. -/
def isZero (h : Header) : Bool := h.bytes.all (· == 0)

/-- The sum of the bytes, those of the written sum taken as blanks. -/
def sum (h : Header) : Nat :=
  let total := fun (l : List UInt8) => l.foldl (fun n b => n + b.toNat) 0
  total (h.field 0 148) + 256 + total (h.field 156 356)

/-- The written sum is right. -/
def isSound (h : Header) : Bool := octal? (h.field 148 8) == some h.sum

/-- The name of the member, as far as the header tells it. -/
def name (h : Header) : List UInt8 :=
  let short := h.text 0 100
  let front := h.text 345 155
  if h.isStandard && !front.isEmpty then front ++ [0x2F] ++ short else short

/-- What the member links to, as far as the header tells it. -/
def linkName? (h : Header) : Option (List UInt8) :=
  let l := h.text 157 100
  if l.isEmpty then none else some l

end Header

/-! ## Notes ahead of a member -/

/-- The records of a note : lines that start with their own length, a blank and `key=`. -/
def records (note : List UInt8) : List (Option (List UInt8 × List UInt8)) :=
  ((Text.split (· == '\n') (note.map fun b => Char.ofNat b.toNat)).takeWhile (!·.isEmpty)).map
    fun line => do
      let length := line.takeWhile (· != ' ')
      let body := (line.dropWhile (· != ' ')).drop 1
      let digits := match length with
        | '+' :: rest => rest
        | _ => length
      let n ← Text.number? 10 digits
      let key := body.takeWhile (· != '=')
      if length.length < line.length ∧ n = line.length + 1 ∧ key.length < body.length then
        let bytes := fun (l : List Char) => l.map fun c => UInt8.ofNat c.toNat
        some (bytes key, bytes (body.drop (key.length + 1)))
      else none

/-- The value of a key in a note; records that are not well formed are passed over. -/
def noted? (note : List UInt8) (key : String) : Option (List UInt8) :=
  ((records note).filterMap id).lookup key.toUTF8.toList

/-- The number that a note tells for a key, if no record before it is malformed. -/
def notedNumber? (note : List UInt8) (key : String) : Option Nat :=
  let sound := (records note).takeWhile Option.isSome
  match (sound.filterMap id).lookup key.toUTF8.toList with
  | none => none
  | some value =>
    let digits := match value.map fun b => Char.ofNat b.toNat with
      | '+' :: rest => rest
      | cs => cs
    (Text.number? 10 digits).filter (· < UInt64.size)

/-- What was told ahead of a member. -/
structure Ahead where
  name : Option (List UInt8) := none
  linkName : Option (List UInt8) := none
  note : Option (List UInt8) := none

/-- Nothing was told. -/
def Ahead.isEmpty (a : Ahead) : Bool := a.name.isNone && a.linkName.isNone && a.note.isNone

/-- A told name without the zero that ends it. -/
def withoutEnd (bytes : List UInt8) : List UInt8 :=
  if bytes.getLast? = some 0 then bytes.dropLast else bytes

/-! ## Members -/

/-- What a member becomes. -/
inductive Kind where
  | directory | symbolicLink | hardLink | file
  /-- It only tells something about the archive. -/
  | note
deriving DecidableEq, Inhabited

/-- A member of an archive. -/
structure Member where
  name : String
  linkName : Option String
  kind : Kind
  /-- The mode bits, if they can be read. -/
  mode : Option Nat
  /-- The bytes, if the archive has all of them. -/
  bytes : Option ByteArray
deriving Inhabited

/-- The kind that a header tells. In old headers a name that ends in a slash tells a directory. -/
def kindOf (h : Header) (name : List UInt8) : Kind :=
  match h.letter with
  | '5' => .directory
  | '2' => .symbolicLink
  | '1' => .hardLink
  | 'g' | 'x' | 'L' | 'K' => .note
  | _ => if !h.isStandard && name.getLast? = some 0x2F then .directory else .file

/-! ## Sparse files -/

/-- The parts of a sparse file, as far as they are read. -/
structure Sparse where
  /-- Where the part read last ends. -/
  reached : Nat := 0
  /-- How many bytes are written. -/
  used : Nat := 0
  /-- Offset and size of each part, the latest first. -/
  parts : List (Nat × Nat) := []

/-- One more part, told by two fields. A part without offset or size says nothing. -/
def Sparse.add? (size : Nat) (s : Sparse) (field : List UInt8) : Option Sparse :=
  let off := field.take 12
  let length := (field.drop 12).take 12
  if off.headD 0 = 0 ∨ length.headD 0 = 0 then some s
  else do
    let off ← Header.octal? off
    let n ← Header.octal? length
    if (n ≠ 0 ∧ s.used % blockSize ≠ 0) ∨ off < s.reached ∨ size < s.used + n then none
    else some ⟨off + n, s.used + n, (off, n) :: s.parts⟩

/-- Parts told by fields one behind the other. -/
def Sparse.addAll? (h : Header) (size pos count : Nat) (s : Sparse) : Option Sparse :=
  (List.range count).foldlM (fun s k => s.add? size (h.field (pos + 24 * k) 24)) s

/-- Parts told by further blocks, as long as each says that one more follows. Also the position
behind them. -/
def Sparse.further? (data : ByteArray) (size : Nat) : Nat → Nat → Bool → Sparse →
    Option (Sparse × Nat)
  | _, off, false, s => some (s, off)
  | 0, _, true, _ => none
  | fuel + 1, off, true, s => do
    if data.size < off + blockSize then none
    else
      let h := Header.ofData data off
      let s ← s.addAll? h size 0 21
      Sparse.further? data size fuel (off + blockSize) (h.byte 504 == 1) s

/-- The bytes of a sparse file : the parts in their places, zeros between them. -/
def Sparse.fill (data : ByteArray) (s : Sparse) (off : Nat) : Option ByteArray :=
  if data.size < off + s.used then none
  else
    some (s.parts.reverse.foldl (fun (acc : ByteArray × Nat) part =>
      let gap := Bytes.ofList (List.replicate (part.1 - acc.1.size) 0)
      (acc.1 ++ gap ++ Bytes.slice data acc.2 part.2, acc.2 + part.2)) (.empty, off)).1

/-- The bytes of the sparse file with a header, and where its data starts. `off` is the position
behind the header, and the `size` bytes must be just what the parts need. -/
def sparse? (data : ByteArray) (h : Header) (off size : Nat) :
    Option (Option ByteArray × Nat) := do
  if !h.isExtended then none
  else
    let s ← Sparse.addAll? h size 386 4 {}
    let (s, body) ← Sparse.further? data size data.size off (h.byte 482 == 1) s
    let total ← Header.octal? (h.field 483 12)
    if s.reached = total ∧ s.used = size then some (s.fill data body, body) else none

/-! ## Archives -/

/-- The members of an archive in order, and whether it ends well behind them. -/
structure Contents where
  members : List Member
  sound : Bool
deriving Inhabited

/-- No more members. -/
def Contents.ended (sound : Bool) : Contents := ⟨[], sound⟩

/-- The member of a header. -/
def memberOf (h : Header) (ahead : Ahead) (bytes : Option ByteArray) : Member :=
  let note := ahead.note.getD []
  let name := match ahead.name with
    | some n => withoutEnd n
    | none => (noted? note "path").getD h.name
  let linkName := match ahead.linkName with
    | some n => some (withoutEnd n)
    | none => (noted? note "linkpath").orElse fun _ => h.linkName?
  let text := fun (l : List UInt8) => Text.ofBytes (Bytes.ofList l)
  { name := text name
    linkName := linkName.map text
    kind := kindOf h name
    mode := Header.octal? (h.field 100 8)
    bytes }

/-- What stands at a position of an archive. -/
inductive Found where
  /-- Nothing more, be it well or not. -/
  | ended (sound : Bool)
  /-- Something told ahead of a member, and the position behind it. -/
  | told (ahead : Ahead) (next : Nat)
  /-- A member, and the position behind it. -/
  | member (m : Member) (next : Nat)

/-- What is found at a header that is sound. The `size` bytes behind it start at `body`. -/
def foundAt (data : ByteArray) (h : Header) (ahead : Ahead) (body size : Nat) : Found :=
  let next := body + wholeBlocks size
  let knows := h.isStandard || h.isExtended
  let told := (Bytes.slice data body size).toList
  let letter := h.letter
  if UInt64.size ≤ next then .ended false
  else if knows && letter == 'L' then
    if ahead.name.isSome then .ended false else .told { ahead with name := some told } next
  else if knows && letter == 'K' then
    if ahead.linkName.isSome then .ended false
    else .told { ahead with linkName := some told } next
  else if knows && letter == 'x' then
    if ahead.note.isSome then .ended false else .told { ahead with note := some told } next
  else if letter == 'S' then
    match sparse? data h body size with
    | none => .ended false
    | some (bytes, start) => .member (memberOf h ahead bytes) (start + wholeBlocks size)
  else
    let bytes := if data.size < body + size then none else some (Bytes.slice data body size)
    .member (memberOf h ahead bytes) next

/-- What is found at a position. -/
def find (s : Codec.Stream) (off : Nat) (ahead : Ahead) : Found :=
  let data := s.bytes
  let h := Header.ofData data off
  if data.size = off ∧ !s.broken then .ended ahead.isEmpty
  else if data.size < off + blockSize then .ended false
  else if h.isZero then .ended ahead.isEmpty
  else if !h.isSound then .ended false
  else
    match h.number? 124 12 with
    | none => .ended false
    | some written =>
      foundAt data h ahead (off + blockSize)
        ((ahead.note.bind (notedNumber? · "size")).getD written)

/-- Members from a position on. -/
def membersFrom (s : Codec.Stream) : Nat → Nat → Ahead → Contents
  | 0, _, _ => .ended false
  | fuel + 1, off, ahead =>
    match find s off ahead with
    | .ended sound => .ended sound
    | .told ahead next => membersFrom s fuel next ahead
    | .member m next =>
      let rest := membersFrom s fuel next {}
      ⟨m :: rest.members, rest.sound⟩

/-- The members of an archive. -/
def read (s : Codec.Stream) : Contents := membersFrom s (s.bytes.size / blockSize + 1) 0 {}

end Formulary.Tar
