import Formulary.Toml.Value

/-!
# Reading values

The values of TOML 1.0. A reader takes a value from the front of the characters and returns it
with the rest, or `none` when there is none. Arrays and inline tables may nest to a depth of
eighty; the recursion is on that depth, and lists of items recur on a bound taken from the
length of what is left.
-/

namespace Formulary.Toml

/-- A function that reads from the front of the characters. -/
abbrev Reader (α : Type) := List Char → Option (α × List Char)

/-! ## Blanks and comments -/

/-- A blank inside a line. -/
def isSpace (c : Char) : Bool := c == ' ' || c == '\t'

/-- The characters without leading blanks. -/
def skipSpace (cs : List Char) : List Char := cs.dropWhile isSpace

/-- A character that may stand in a comment. -/
def isCommentChar (c : Char) : Bool := c == '\t' || (0x20 ≤ c.toNat && c.toNat != 0x7F)

/-- What follows a line end, when one stands at the front. -/
def lineEnd? : List Char → Option (List Char)
  | '\n' :: rest => some rest
  | '\r' :: '\n' :: rest => some rest
  | _ => none

/-- What follows a comment, when one stands at the front; the same characters otherwise. -/
def skipComment : List Char → List Char
  | '#' :: rest => rest.dropWhile isCommentChar
  | cs => cs

/-- The characters without leading blanks, comments and line ends. -/
def skipLines : Nat → List Char → List Char
  | 0, cs => cs
  | fuel + 1, cs =>
    let cs := skipComment (skipSpace cs)
    match lineEnd? cs with
    | some rest => skipLines fuel rest
    | none => cs

/-- The rest of a line that has nothing more to say, with its end. -/
def closeLine? (cs : List Char) : Option (List Char) :=
  match skipComment (skipSpace cs) with
  | [] => some []
  | cs => lineEnd? cs

/-! ## Strings -/

/-- The character with that number. -/
def scalar? (n : Nat) : Option Char :=
  if n < 0xD800 ∨ (0xDFFF < n ∧ n < 0x110000) then some (Char.ofNat n) else none

/-- The character of an escape behind its backslash. -/
def escape : Reader Char
  | 'b' :: rest => some ('\x08', rest)
  | 't' :: rest => some ('\t', rest)
  | 'n' :: rest => some ('\n', rest)
  | 'f' :: rest => some ('\x0c', rest)
  | 'r' :: rest => some ('\r', rest)
  | '"' :: rest => some ('"', rest)
  | '\\' :: rest => some ('\\', rest)
  | 'u' :: rest => numbered 4 rest
  | 'U' :: rest => numbered 8 rest
  | _ => none
where
  /-- A character by a fixed count of hex digits. -/
  numbered (count : Nat) (cs : List Char) : Option (Char × List Char) :=
    if cs.length < count then none
    else (Text.number? 16 (cs.take count)).bind fun n =>
      (scalar? n).map fun c => (c, cs.drop count)

/-- A character that stands for itself in a string. -/
def isPlain (c : Char) : Bool := c == '\t' || (0x20 ≤ c.toNat && c.toNat != 0x7F)

/-- The rest of a string of one line, with its characters so far in reverse. -/
def basicRest : Nat → List Char → Reader String
  | 0, _, _ => none
  | fuel + 1, acc, cs =>
    match cs with
    | '"' :: rest => some (String.ofList acc.reverse, rest)
    | '\\' :: rest => (escape rest).bind fun (c, rest) => basicRest fuel (c :: acc) rest
    | c :: rest => if isPlain c then basicRest fuel (c :: acc) rest else none
    | [] => none

/-- The rest of a literal string of one line. -/
def literalRest (cs : List Char) : Option (String × List Char) :=
  let body := cs.takeWhile fun c => isPlain c && c != '\''
  match cs.dropWhile fun c => isPlain c && c != '\'' with
  | '\'' :: rest => some (String.ofList body, rest)
  | _ => none

/-- What follows a backslash at the end of a line of a long string : the next character that
is no blank. -/
def lineJoin? (cs : List Char) : Option (List Char) :=
  (lineEnd? (skipSpace cs)).map skipBlank
where
  /-- The characters without leading blanks and line ends. -/
  skipBlank : List Char → List Char
    | ' ' :: rest => skipBlank rest
    | '\t' :: rest => skipBlank rest
    | '\n' :: rest => skipBlank rest
    | '\r' :: '\n' :: rest => skipBlank rest
    | cs => cs

/-- The end of a long string : three quotes, with up to two more that belong to it. -/
def closeLong? (quote : Char) (acc cs : List Char) : Option (String × List Char) :=
  let count := (cs.takeWhile (· == quote)).length
  if count < 3 then none
  else
    let inner := min (count - 3) 2
    some (String.ofList (acc.reverse ++ List.replicate inner quote), cs.drop (inner + 3))

/-- The rest of a long string. -/
def longRest (quote : Char) (escapes : Bool) : Nat → List Char → Reader String
  | 0, _, _ => none
  | fuel + 1, acc, cs =>
    match closeLong? quote acc cs with
    | some result => some result
    | none =>
      match cs with
      | [] => none
      | '\r' :: '\n' :: rest => longRest quote escapes fuel ('\n' :: acc) rest
      | '\n' :: rest => longRest quote escapes fuel ('\n' :: acc) rest
      | c :: rest =>
        if c == '\\' && escapes then
          match lineJoin? rest with
          | some rest => longRest quote escapes fuel acc rest
          | none =>
            (escape rest).bind fun (c, rest) => longRest quote escapes fuel (c :: acc) rest
        else if isPlain c then longRest quote escapes fuel (c :: acc) rest
        else none

/-- A long string behind its quotes. A line end at its front is no part of it. -/
def long (quote : Char) (escapes : Bool) (cs : List Char) : Option (String × List Char) :=
  longRest quote escapes (cs.length + 1) [] ((lineEnd? cs).getD cs)

/-- A string of any of the four forms. -/
def string : Reader String
  | '"' :: '"' :: '"' :: rest => long '"' true rest
  | '\'' :: '\'' :: '\'' :: rest => long '\'' false rest
  | '"' :: rest => basicRest (rest.length + 1) [] rest
  | '\'' :: rest => literalRest rest
  | _ => none

/-! ## Keys -/

/-- A character of a bare key. -/
def isBare (c : Char) : Bool :=
  ('a' ≤ c && c ≤ 'z') || ('A' ≤ c && c ≤ 'Z') || Text.isDigit c || c == '_' || c == '-'

/-- One key, bare or quoted on one line. -/
def simpleKey : Reader String
  | '"' :: rest => basicRest (rest.length + 1) [] rest
  | '\'' :: rest => literalRest rest
  | cs =>
    let body := cs.takeWhile isBare
    if body.isEmpty then none else some (String.ofList body, cs.dropWhile isBare)

/-- Keys joined by dots, blanks allowed around each. -/
def dottedKey : Nat → Reader (List String)
  | 0, _ => none
  | fuel + 1, cs =>
    (simpleKey (skipSpace cs)).bind fun (k, rest) =>
      match skipSpace rest with
      | '.' :: rest => (dottedKey fuel rest).map fun (ks, rest) => (k :: ks, rest)
      | rest => some ([k], rest)

/-- A key with at most as many parts as values may nest. -/
def key (cs : List Char) : Option (List String × List Char) :=
  (dottedKey (cs.length + 1) cs).bind fun (ks, rest) =>
    if ks.length ≤ 80 then some (ks, rest) else none

/-! ## Numbers -/

/-- Digits with single underscores between them : the digits, and the rest. -/
def underscored (isDigit : Char → Bool) (cs : List Char) : Option (List Char × List Char) :=
  let inRun := fun c => isDigit c || c == '_'
  let groups := Text.split (· == '_') (cs.takeWhile inRun)
  if groups.any List.isEmpty then none else some (groups.flatten, cs.dropWhile inRun)

/-- The sign at the front, and whether it is a minus. -/
def sign : List Char → Bool × List Char
  | '-' :: rest => (true, rest)
  | '+' :: rest => (false, rest)
  | cs => (false, cs)

/-- Digits of a decimal number : no zero in front of other digits. -/
def decimalDigits (cs : List Char) : Option (List Char × List Char) :=
  match cs with
  | '0' :: rest => some (['0'], rest)
  | _ => underscored Text.isDigit cs

/-- An integer that fits sixty-four bits. -/
def fits (n : Int) : Option Value :=
  if -9223372036854775808 ≤ n ∧ n ≤ 9223372036854775807 then some (.integer n) else none

/-- An integer in a base given by its letter. -/
def basedInteger (base : Nat) (cs : List Char) : Option (Value × List Char) :=
  (underscored (fun c => (Text.digitValue? base c).isSome) cs).bind fun (ds, rest) =>
    (Text.number? base ds).bind fun n => (fits n).map (·, rest)

/-- An integer. -/
def integer : Reader Value
  | '0' :: 'x' :: rest => basedInteger 16 rest
  | '0' :: 'o' :: rest => basedInteger 8 rest
  | '0' :: 'b' :: rest => basedInteger 2 rest
  | cs =>
    let (negative, body) := sign cs
    (decimalDigits body).bind fun (ds, rest) =>
      (Text.number? 10 ds).bind fun n =>
        (fits (if negative then -(n : Int) else n)).map (·, rest)

/-- The exponent at the front, if there is one. `none` when it has no digits. -/
def exponent (cs : List Char) : Option (Option Int × List Char) :=
  match cs with
  | c :: rest =>
    if c == 'e' || c == 'E' then
      let (negative, body) := sign rest
      (underscored Text.isDigit body).bind fun (ds, rest) =>
        (Text.number? 10 ds).map fun n =>
          (some (if negative then -(n : Int) else n), rest)
    else some (none, cs)
  | [] => some (none, [])

/-- The number `digits * 10 ^ power` of sixty-four bits. Powers far beyond its range are
decided without computing them. -/
def floatOf (digits : Nat) (power : Int) : Float :=
  let size : Int := (Nat.toDigits 10 digits).length
  if digits = 0 then 0.0
  else if size + power > 400 then 1.0 / 0.0
  else if size + power < -400 then 0.0
  else if power ≥ 0 then Float.ofScientific (digits * Nat.pow 10 power.toNat) false 0
  else Float.ofScientific digits true (-power).toNat

/-- The word `inf` or `nan` behind an optional sign. -/
def namedFloat (cs : List Char) : Option (Value × List Char) :=
  let (negative, body) := sign cs
  match body with
  | 'i' :: 'n' :: 'f' :: rest =>
    some (.float (if negative then -(1.0 / 0.0) else 1.0 / 0.0), rest)
  | 'n' :: 'a' :: 'n' :: rest => some (.float (0.0 / 0.0), rest)
  | _ => none

/-- A number with a fraction or an exponent. One too large for its bits is refused. -/
def float (cs : List Char) : Option (Value × List Char) := do
  let (negative, body) := sign cs
  let (whole, rest) ← decimalDigits body
  let (places, rest, fractional) ← match rest with
    | '.' :: rest => (underscored Text.isDigit rest).map fun (ds, r) => (ds, r, true)
    | _ => some ([], rest, false)
  let (power, rest) ← exponent rest
  if !fractional && power.isNone then none
  else
    let n := (Text.number? 10 (whole ++ places)).getD 0
    let x := floatOf n (power.getD 0 - places.length)
    if x.isInf && !negative then none
    else some (.float (if negative then -x else x), rest)

/-! ## Dates and times -/

/-- A fixed count of digits, as a number. -/
def fixed (count : Nat) (cs : List Char) : Option (Nat × List Char) :=
  let ds := cs.take count
  if ds.length = count ∧ ds.all Text.isDigit then
    (Text.number? 10 ds).map (·, cs.drop count)
  else none

/-- A fixed character. -/
def expect (c : Char) : List Char → Option (List Char)
  | d :: rest => if c = d then some rest else none
  | [] => none

/-- How many days a month has. -/
def monthLength (year month : Nat) : Nat :=
  if month = 2 then
    if year % 4 = 0 ∧ (year % 100 ≠ 0 ∨ year % 400 = 0) then 29 else 28
  else if month = 4 ∨ month = 6 ∨ month = 9 ∨ month = 11 then 30 else 31

/-- A number with at least the given count of digits. -/
def padded (width n : Nat) : String := String.ofList (Text.padLeft width (Nat.toDigits 10 n))

/-- A date, in its normal form. -/
def date (cs : List Char) : Option (String × List Char) := do
  let (year, cs) ← fixed 4 cs
  let cs ← expect '-' cs
  let (month, cs) ← fixed 2 cs
  let cs ← expect '-' cs
  let (day, cs) ← fixed 2 cs
  if 1 ≤ month ∧ month ≤ 12 ∧ 1 ≤ day ∧ day ≤ monthLength year month then
    some (padded 4 year ++ "-" ++ padded 2 month ++ "-" ++ padded 2 day, cs)
  else none

/-- The fraction of a second at the front, if there is one : nine digits count. -/
def fraction (cs : List Char) : Option (String × List Char) :=
  match cs with
  | '.' :: rest =>
    let ds := rest.takeWhile Text.isDigit
    if ds.isEmpty then none
    else
      let shown := ((ds.take 9).reverse.dropWhile (· == '0')).reverse
      some (if shown.isEmpty then "" else "." ++ String.ofList shown,
        rest.dropWhile Text.isDigit)
  | _ => some ("", cs)

/-- A time of day, in its normal form. -/
def time (cs : List Char) : Option (String × List Char) := do
  let (hour, cs) ← fixed 2 cs
  let cs ← expect ':' cs
  let (minute, cs) ← fixed 2 cs
  let cs ← expect ':' cs
  let (second, cs) ← fixed 2 cs
  let (part, cs) ← fraction cs
  if hour ≤ 23 ∧ minute ≤ 59 ∧ second ≤ 60 then
    some (padded 2 hour ++ ":" ++ padded 2 minute ++ ":" ++ padded 2 second ++ part, cs)
  else none

/-- The distance from universal time at the front, if there is one. -/
def offset (cs : List Char) : Option (String × List Char) :=
  match cs with
  | 'Z' :: rest => some ("Z", rest)
  | 'z' :: rest => some ("Z", rest)
  | c :: rest =>
    if c == '+' || c == '-' then do
      let (hour, rest) ← fixed 2 rest
      let rest ← expect ':' rest
      let (minute, rest) ← fixed 2 rest
      if hour ≤ 23 ∧ minute ≤ 59 then
        some (String.singleton c ++ padded 2 hour ++ ":" ++ padded 2 minute, rest)
      else none
    else some ("", cs)
  | [] => some ("", [])

/-- A digit pair and a colon open a time of day. -/
def opensTime : List Char → Bool
  | a :: b :: ':' :: _ => Text.isDigit a && Text.isDigit b
  | _ => false

/-- A date, a time, or both. -/
def moment (cs : List Char) : Option (Value × List Char) :=
  if opensTime cs then (time cs).map fun (t, rest) => (.moment t, rest)
  else (date cs).bind fun (d, rest) =>
    match rest with
    | c :: more =>
      if (c == 'T' || c == 't' || c == ' ') && opensTime more then
        (time more).bind fun (t, rest) =>
          (offset rest).map fun (o, rest) => (.moment (d ++ "T" ++ t ++ o), rest)
      else some (.moment d, rest)
    | [] => some (.moment d, [])

/-- The characters open a date : four digits and a dash. -/
def opensDate : List Char → Bool
  | a :: b :: c :: d :: '-' :: _ => [a, b, c, d].all Text.isDigit
  | _ => false

/-- A number, a date or a time. -/
def numeric (cs : List Char) : Option (Value × List Char) :=
  if opensDate cs || opensTime cs then moment cs
  else
    let (_, body) := sign cs
    match body with
    | 'i' :: _ => namedFloat cs
    | 'n' :: _ => namedFloat cs
    | _ =>
      match decimalDigits body with
      | some (_, c :: _) =>
        if c == '.' || c == 'e' || c == 'E' then float cs else integer cs
      | _ => integer cs

end Formulary.Toml
