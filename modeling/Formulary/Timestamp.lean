import Formulary.Text

/-!
# Moments in time

A moment is a count of seconds since the start of 1970 with nanoseconds. A thousand million
nanoseconds or more mean a leap second, which is written as second sixty.
-/

namespace Formulary

/-- A moment in universal time. -/
structure Timestamp where
  seconds : Int
  nanos : Nat
deriving DecidableEq, Inhabited

namespace Timestamp

/-- Year, month and day of a count of days since the start of 1970. The count is taken from
the first of March of the year zero, so that a leap day ends its year; eras of four hundred
years are all alike. -/
def civil (days : Int) : Int × Nat × Nat :=
  let z := days + 719468
  let era := z.fdiv 146097
  let doe := (z - era * 146097).toNat
  let yoe := (doe - doe / 1460 + doe / 36524 - doe / 146096) / 365
  let doy := doe - (365 * yoe + yoe / 4 - yoe / 100)
  let mp := (5 * doy + 2) / 153
  let day := doy - (153 * mp + 2) / 5 + 1
  let month := if mp < 10 then mp + 3 else mp - 9
  let year := (yoe : Int) + era * 400 + (if month ≤ 2 then 1 else 0)
  (year, month, day)

/-- A number with at least the given count of digits. -/
def padded (width n : Nat) : String := String.ofList (Text.padLeft width (Nat.toDigits 10 n))

/-- A year : four digits, or a sign and at least four when it does not fit. -/
def yearText (year : Int) : String :=
  if 0 ≤ year ∧ year ≤ 9999 then padded 4 year.toNat
  else (if year < 0 then "-" else "+") ++ padded 4 year.natAbs

/-- Date and time to the second. -/
def dateTime (t : Timestamp) : String :=
  let days := t.seconds.fdiv 86400
  let rest := (t.seconds - days * 86400).toNat
  let (year, month, day) := civil days
  let second := rest % 60 + (if t.nanos ≥ 1000000000 then 1 else 0)
  yearText year ++ "-" ++ padded 2 month ++ "-" ++ padded 2 day ++ "T" ++
    padded 2 (rest / 3600) ++ ":" ++ padded 2 (rest / 60 % 60) ++ ":" ++ padded 2 second

/-- The moment to the second, in universal time. -/
def toSeconds (t : Timestamp) : String := t.dateTime ++ "Z"

/-- The moment with as many digits of its second as it needs : none, three, six or nine. -/
def toText (t : Timestamp) : String :=
  let n := t.nanos % 1000000000
  let fraction :=
    if n = 0 then ""
    else if n % 1000000 = 0 then "." ++ padded 3 (n / 1000000)
    else if n % 1000 = 0 then "." ++ padded 6 (n / 1000)
    else "." ++ padded 9 n
  t.dateTime ++ fraction ++ "Z"

end Timestamp

end Formulary
