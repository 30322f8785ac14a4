import Formulary.Codec.Zstd.Bits

/-!
# State codes

Symbols coded by the states of a table (finite state entropy). A table is built from the share
each symbol has of the states; a state tells its symbol, and which bits lead to the next state.
-/

namespace Formulary.Codec.Zstd

/-- What a state tells : its symbol, how many bits lead on, and the state they are added to. -/
structure State where
  symbol : Nat
  bits : Nat
  base : Nat
deriving Inhabited

/-- A table of `2 ^ log` states. -/
structure StateTable where
  log : Nat
  states : Array State

namespace StateTable

/-- The table of one symbol, which takes no bits. -/
def single (symbol : Nat) : StateTable := ⟨0, #[⟨symbol, 0, 0⟩]⟩

/-- The state with a number. -/
def state (t : StateTable) (i : Nat) : State := t.states.getD i ⟨0, 0, 0⟩

/-! ## Building -/

/-- The symbols with the least share, each of which has one state at the end of the table. -/
def rare (shares : List Int) : List Nat :=
  (shares.zipIdx.filter (·.1 == -1)).map Prod.snd

/-- The symbols of the other states, in the order in which they are spread. -/
def common (shares : List Int) : List Nat :=
  shares.zipIdx.flatMap fun (share, s) => List.replicate share.toNat s

/-- Spread symbols over the first `free` places of a table, in steps that meet each place once. -/
def spread (size free : Nat) : (fuel pos : Nat) → List Nat → Array Nat → Array Nat
  | 0, _, _, places => places
  | _, _, [], places => places
  | fuel + 1, pos, s :: rest, places =>
    let next := (pos + size / 2 + size / 8 + 3) % size
    if pos < free then spread size free fuel next rest (places.setIfInBounds pos s)
    else spread size free fuel next (s :: rest) places

/-- The states of the placed symbols : the share of a symbol grows by one with each of its
states, and tells how many bits lead on. -/
def number (log : Nat) (places : Array Nat) (shares : List Int) : Array State :=
  (places.foldl (fun (acc : Array State × Array Nat) s =>
    let n := acc.2.getD s 1
    let bits := log - log2 n
    (acc.1.push ⟨s, bits, (n <<< bits) - (1 <<< log)⟩, acc.2.setIfInBounds s (n + 1)))
    (#[], (shares.map Int.natAbs).toArray)).1

/-- The table of the given shares. -/
def ofShares (log : Nat) (shares : List Int) : StateTable :=
  let size := 1 <<< log
  let last := rare shares
  let free := size - last.length
  let places := spread size free (2 * size) 0 (common shares) (Array.replicate size 0)
  let places := last.zipIdx.foldl (fun p (s, i) => p.setIfInBounds (size - 1 - i) s) places
  ⟨log, number log places shares⟩

/-! ## Reading the shares -/

/-- The state of a reader of shares. -/
structure Shares where
  /-- How many bits are read. -/
  pos : Nat
  /-- One more than the states that are left. -/
  remaining : Nat
  threshold : Nat
  width : Nat
  /-- The shares so far, the latest first. -/
  found : List Int

/-- As many zeros as two bits tell, and more while they are both set. -/
def zeroRun (data : ByteArray) (off stop : Nat) : Nat → Nat → List Int → Option (Nat × List Int)
  | 0, _, _ => none
  | fuel + 1, pos, found =>
    if stop < pos + 2 then none
    else
      let n := bitsAt data off pos 2
      let found := List.replicate n 0 ++ found
      if n = 3 then zeroRun data off stop fuel (pos + 2) found else some (pos + 2, found)

/-- Read shares until no state is left. -/
def readShares (data : ByteArray) (off stop limit : Nat) : Nat → Shares → Option Shares
  | 0, _ => none
  | fuel + 1, s =>
    if s.remaining ≤ 1 then some s
    else if limit < s.found.length + 1 then none
    else
      let bound := 2 * s.threshold - 1 - s.remaining
      let low := bitsAt data off s.pos (s.width - 1)
      let full := bitsAt data off s.pos s.width
      let (count, used) :=
        if low < bound then (low, s.width - 1)
        else (if full ≥ s.threshold then full - bound else full, s.width)
      let share : Int := (count : Int) - 1
      let remaining := s.remaining - share.natAbs
      let pos := s.pos + used
      let width := log2 (max remaining 1) + 1
      if stop < pos ∨ s.remaining < share.natAbs then none
      else
        let next : Option (Nat × List Int) :=
          if share = 0 then zeroRun data off stop (stop + 1) pos (share :: s.found)
          else some (pos, share :: s.found)
        match next with
        | none => none
        | some (pos, found) =>
          readShares data off stop limit fuel
            ⟨pos, remaining, 1 <<< (width - 1), width, found⟩

/-- The table described at a position, for symbols up to `top`, with at most `2 ^ maxLog`
states. Also the count of bytes of the description. -/
def read? (data : ByteArray) (off size top maxLog : Nat) : Option (StateTable × Nat) :=
  let log := bitsAt data off 0 4 + 5
  if size = 0 ∨ maxLog < log then none
  else
    match readShares data off (8 * size) (top + 1) (top + 2)
        ⟨4, (1 <<< log) + 1, 1 <<< log, log + 1, []⟩ with
    | none => none
    | some s =>
      if s.remaining = 1 ∧ s.found.length ≤ top + 1 then
        some (ofShares log s.found.reverse, (s.pos + 7) / 8)
      else none

end StateTable

end Formulary.Codec.Zstd
