import Formulary.Text

/-!
# Shortest decimals

The decimal with the fewest digits that still rounds to a given binary number, and of those
the nearest. All arithmetic is on natural numbers : a finite number is `mantissa * 2 ^ power`,
and the reals that round to it form an interval around it whose ends count when the mantissa
is even.
-/

namespace Formulary.Decimal

/-- A positive finite number of sixty-four bits. -/
structure Binary where
  mantissa : Nat
  power : Int

/-- The leading bit of a mantissa, which is not written : two to the fifty-second power. -/
def Binary.hidden : Nat := 1 <<< 52

/-- The number with the given bits, its sign aside; `none` for infinities, for what is no
number, and for zero. -/
def Binary.ofBits? (bits : UInt64) : Option Binary :=
  let fraction : Nat := bits.toNat % hidden
  let exponent : Nat := bits.toNat / hidden % 2048
  if exponent = 2047 then none
  else if exponent = 0 then
    if fraction = 0 then none else some ⟨fraction, -1074⟩
  else some ⟨fraction + hidden, (exponent : Int) - 1075⟩

/-- The interval of reals that round to a number, over a common denominator. -/
structure Interval where
  low : Nat
  value : Nat
  high : Nat
  denominator : Nat
  closed : Bool

/-- The interval of a number. Below a power of two the gap is half as wide. -/
def Binary.interval (b : Binary) : Interval :=
  let narrow := b.mantissa = hidden && b.power > -1074
  let scale : Nat := if b.power ≥ 0 then 4 <<< b.power.toNat else 4
  let denominator : Nat := if b.power ≥ 0 then 4 else 4 <<< (-b.power).toNat
  { low := b.mantissa * scale - (if narrow then scale / 4 else scale / 2)
    value := b.mantissa * scale
    high := b.mantissa * scale + scale / 2
    denominator
    closed := b.mantissa % 2 == 0 }

/-- A decimal `digits * 10 ^ power`. -/
structure Scientific where
  digits : Nat
  power : Int
deriving DecidableEq, Inhabited

/-- Twice the numerators of the decimal and of the denominator, on one scale. -/
def Interval.scaled (i : Interval) (d : Scientific) : Nat × Nat :=
  if d.power ≥ 0 then (d.digits * Nat.pow 10 d.power.toNat * i.denominator, 1)
  else (d.digits * i.denominator, Nat.pow 10 (-d.power).toNat)

/-- The decimal rounds to the number of the interval. -/
def Interval.holds (i : Interval) (d : Scientific) : Bool :=
  let (n, s) := i.scaled d
  if i.closed then i.low * s ≤ n && n ≤ i.high * s else i.low * s < n && n < i.high * s

/-- How far the decimal is from the number, on the scale of its power. -/
def Interval.distance (i : Interval) (d : Scientific) : Nat :=
  let (n, s) := i.scaled d
  (n - i.value * s) + (i.value * s - n)

/-- The largest decimal of the given power that is not above the number. -/
def Interval.below (i : Interval) (power : Int) : Scientific :=
  if power ≥ 0 then ⟨i.value / (i.denominator * Nat.pow 10 power.toNat), power⟩
  else ⟨i.value * Nat.pow 10 (-power).toNat / i.denominator, power⟩

/-- The decimals of the given power next to the number that round to it, nearest first. -/
def Interval.candidate? (i : Interval) (power : Int) : Option Scientific :=
  let low := i.below power
  let high : Scientific := ⟨low.digits + 1, power⟩
  match i.holds low, i.holds high with
  | true, true => some (if i.distance high < i.distance low then high else low)
  | true, false => some low
  | false, true => some high
  | false, false => none

/-- The first power, going down from `power`, whose grid has a decimal in the interval. -/
def Interval.search (i : Interval) : Nat → Int → Scientific
  | 0, power => i.below power
  | fuel + 1, power => (i.candidate? power).getD (i.search fuel (power - 1))

/-- A power of ten that is larger than the number. -/
def Interval.topPower (i : Interval) : Int :=
  (Nat.toDigits 10 i.value).length - (Nat.toDigits 10 i.denominator).length + 1

/-- The shortest decimal of a number. -/
def shortest (b : Binary) : Scientific :=
  let i := b.interval
  i.search 40 i.topPower

/-- A decimal without an exponent, with at least one digit on either side of its point. -/
def Scientific.positional (d : Scientific) : String :=
  let digits := Nat.toDigits 10 d.digits
  if d.power ≥ 0 then
    String.ofList (digits ++ List.replicate d.power.toNat '0') ++ ".0"
  else
    let places := (-d.power).toNat
    let digits := Text.padLeft (places + 1) digits
    let whole := digits.take (digits.length - places)
    let rest := ((digits.drop (digits.length - places)).reverse.dropWhile (· == '0')).reverse
    String.ofList whole ++ "." ++ (if rest.isEmpty then "0" else String.ofList rest)

/-- A number of sixty-four bits in its shortest form, always with a point. -/
def ofFloat (x : Float) : String :=
  if x.isNaN then "NaN"
  else
    let sign := if x.toBits ≥ 0x8000000000000000 then "-" else ""
    if x.isInf then sign ++ "inf"
    else match Binary.ofBits? x.toBits with
      | none => sign ++ "0.0"
      | some b => sign ++ (shortest b).positional

end Formulary.Decimal
