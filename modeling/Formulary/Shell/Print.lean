import Formulary.Shell.Arithmetic
import Formulary.Text.Utf8

/-!
# Printed text

The escapes of `echo` and `printf`, and the directives of `printf`, which is started again as long
as there are arguments left.
-/

namespace Formulary.Shell.Print

/-- The character that a letter behind a backslash stands for. -/
def escaped? : Char → Option Char
  | 'a' => some '\x07'
  | 'b' => some '\x08'
  | 'f' => some '\x0c'
  | 'n' => some '\n'
  | 'r' => some '\r'
  | 't' => some '\t'
  | 'v' => some '\x0b'
  | '\\' => some '\\'
  | _ => none

/-- A digit in base eight. -/
def isOctal (c : Char) : Bool := '0' ≤ c && c ≤ '7'

/-- The byte that some octal digits write, as a character. -/
def octalByte (ds : List Char) : Char :=
  let n := (Text.number? 8 ds).getD 0 % 256
  if n < 128 then Char.ofNat n else Text.byteChar n.toUInt8

/-- Text without its escapes, and whether an escape ended it. Octal digits may stand behind a
zero or, if `bare`, at once. -/
def unescape (bare : Bool) : Nat → List Char → List Char × Bool
  | 0, cs => (cs, false)
  | _, [] => ([], false)
  | fuel + 1, '\\' :: c :: rest =>
    let go := fun (d : List Char) (rest : List Char) =>
      let (s, ended) := unescape bare fuel rest
      (d ++ s, ended)
    match escaped? c with
    | some d => go [d] rest
    | none =>
      if c == 'c' then ([], true)
      else if c == '0' && !bare then
        let ds := (rest.take 3).takeWhile isOctal
        go [octalByte ds] (rest.drop ds.length)
      else if isOctal c && bare then
        let ds := ((c :: rest).take 3).takeWhile isOctal
        go [octalByte ds] ((c :: rest).drop ds.length)
      else go ['\\', c] rest
  | fuel + 1, c :: rest =>
    let (s, ended) := unescape bare fuel rest
    (c :: s, ended)

/-- What `echo` prints of its arguments, with escapes or without them. -/
def echoText (escapes : Bool) (arguments : List String) : String :=
  let (newline, arguments) := match arguments with
    | "-n" :: rest => (false, rest)
    | rest => (true, rest)
  let line := Text.join " " arguments
  let (text, ended) :=
    if escapes then unescape false (line.length + 1) line.toList else (line.toList, false)
  String.ofList text ++ (if newline && !ended then "\n" else "")

/-! ## Directives -/

/-- How a directive lays out its text. -/
structure Layout where
  left : Bool := false
  zeros : Bool := false
  plus : Bool := false
  space : Bool := false
  alternate : Bool := false
  width : Nat := 0
  precision : Option Nat := none

/-- Fill up to the width. -/
def Layout.fill (l : Layout) (sign body : List Char) : List Char :=
  let missing := l.width - sign.length - body.length
  if l.left then sign ++ body ++ List.replicate missing ' '
  else if l.zeros && l.precision.isNone then sign ++ List.replicate missing '0' ++ body
  else List.replicate missing ' ' ++ sign ++ body

/-- Digits, at least as many as the precision asks for. -/
def Layout.digits (l : Layout) (base n : Nat) : List Char :=
  match l.precision with
  | some p => if p = 0 ∧ n = 0 then [] else
    let ds := Nat.toDigits base n
    List.replicate (p - ds.length) '0' ++ ds
  | none => Nat.toDigits base n

/-- The number that an argument of `printf` writes, and whether all of it does. A quote stands
for the code of the character behind it. -/
def argumentNumber (s : String) : Int × Bool :=
  match s.toList with
  | [] => (0, true)
  | '\'' :: c :: _ | '"' :: c :: _ => ((c.toNat : Int), true)
  | _ =>
    match Expression.numberOf? s with
    | some n => (n, true)
    | none =>
      let negative := s.toList.head? == some '-'
      let ds := ((if negative then s.toList.drop 1 else s.toList).takeWhile Text.isDigit)
      let n : Int := (Text.number? 10 ds).getD 0
      (if negative then -n else n, false)

/-- What is left of the arguments, what was printed, and what was complained of. -/
structure Printing where
  arguments : List String
  printed : List Char := []
  complaints : List String := []
  ended : Bool := false
  /-- A directive had no meaning. -/
  broken : Bool := false

/-- Take the next argument. -/
def Printing.next (p : Printing) : Option String × Printing :=
  match p.arguments with
  | [] => (none, p)
  | a :: rest => (some a, { p with arguments := rest })

/-- The flags of a directive. -/
def flags : Layout → List Char → Layout × List Char
  | l, '-' :: rest => flags { l with left := true } rest
  | l, '0' :: rest => flags { l with zeros := true } rest
  | l, '+' :: rest => flags { l with plus := true } rest
  | l, ' ' :: rest => flags { l with space := true } rest
  | l, '#' :: rest => flags { l with alternate := true } rest
  | l, rest => (l, rest)

/-- A number in a directive, which may be the next argument. -/
def size (p : Printing) : List Char → Nat × Printing × List Char
  | '*' :: rest =>
    let (a, p) := p.next
    ((argumentNumber (a.getD "")).1.toNat, p, rest)
  | cs =>
    let ds := cs.takeWhile Text.isDigit
    ((Text.number? 10 ds).getD 0, p, cs.drop ds.length)

/-- Print one directive. -/
def directive (l : Layout) (kind : Char) (p : Printing) : Printing :=
  let (argument, p) := p.next
  let text := argument.getD ""
  let cut := fun (cs : List Char) => match l.precision with
    | some n => cs.take n
    | none => cs
  let padded := fun (cs : List Char) => ({ l with zeros := false } : Layout).fill [] cs
  let (n, isNumber) := argumentNumber text
  let checked : Printing :=
    if isNumber then p
    else
      let reason := if (text.toList.head?.map Text.isDigit).getD false
        then ": not completely converted" else ": expected numeric value"
      { p with complaints := p.complaints ++ [text ++ reason] }
  let unsigned := (n % (UInt64.size : Int)).toNat
  match kind with
  | 's' => { p with printed := p.printed ++ padded (cut text.toList) }
  | 'b' =>
    let (cs, ended) := unescape false (text.length + 1) text.toList
    { p with printed := p.printed ++ padded (cut cs), ended }
  | 'c' => { p with printed := p.printed ++ padded (text.toList.take 1) }
  | 'd' | 'i' =>
    let sign := if n < 0 then ['-'] else if l.plus then ['+'] else if l.space then [' '] else []
    { checked with printed := p.printed ++ l.fill sign (l.digits 10 n.natAbs) }
  | 'u' => { checked with printed := p.printed ++ l.fill [] (l.digits 10 unsigned) }
  | 'o' =>
    let sign := if l.alternate then ['0'] else []
    { checked with printed := p.printed ++ l.fill sign (l.digits 8 unsigned) }
  | 'x' =>
    let sign := if l.alternate && unsigned != 0 then ['0', 'x'] else []
    { checked with printed := p.printed ++ l.fill sign (l.digits 16 unsigned) }
  | _ =>
    let sign := if l.alternate && unsigned != 0 then ['0', 'X'] else []
    let ds := (l.digits 16 unsigned).map Char.toUpper
    { checked with printed := p.printed ++ l.fill sign ds }

/-- Print a format once. -/
def once : Nat → List Char → Printing → Printing
  | 0, _, p => p
  | _, [], p => p
  | fuel + 1, '%' :: '%' :: rest, p => once fuel rest { p with printed := p.printed ++ ['%'] }
  | fuel + 1, '%' :: rest, p =>
    let (l, after) := flags {} rest
    let (width, p, after) := size p after
    let (precision, p, after) := match after with
      | '.' :: after =>
        let (n, p, after) := size p after
        (some n, p, after)
      | after => (none, p, after)
    match after with
    | kind :: after =>
      if "sbcdiuoxX".toList.contains kind then
        let p := directive { l with width, precision } kind p
        if p.ended then p else once fuel after p
      else
        let written := String.ofList ('%' :: rest.take (rest.length - after.length))
        { p with
          complaints := p.complaints ++ [written ++ ": invalid directive"]
          ended := true
          broken := true }
    | [] =>
      { p with
        complaints := p.complaints ++ ["%" ++ String.ofList rest ++ ": invalid directive"]
        ended := true
        broken := true }
  | fuel + 1, '\\' :: rest, p =>
    let width := match rest with
      | c :: _ => if isOctal c then ((rest.take 3).takeWhile isOctal).length else 1
      | [] => 0
    let (cs, ended) := unescape true (rest.length + 2) ('\\' :: rest.take width)
    let p := { p with printed := p.printed ++ cs, ended }
    if ended then p else once fuel (rest.drop width) p
  | fuel + 1, c :: rest, p => once fuel rest { p with printed := p.printed ++ [c] }

/-- Print a format, again and again until the arguments are used up. -/
def formatted (format : String) : Nat → Printing → Printing
  | 0, p => p
  | fuel + 1, p =>
    let before := p.arguments.length
    let p := once (format.length + 1) format.toList p
    if p.ended || p.arguments.isEmpty || p.arguments.length == before then p
    else formatted format fuel p

/-- What `printf` prints, what it complains of, and its status. -/
def printf (format : String) (arguments : List String) : String × List String × Nat :=
  let p := formatted format (arguments.length + 1) { arguments }
  (String.ofList p.printed, p.complaints,
    if p.broken then 2 else if p.complaints.isEmpty then 0 else 1)

end Formulary.Shell.Print
