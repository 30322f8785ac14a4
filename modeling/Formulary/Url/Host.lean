import Formulary.Text.Casing
import Formulary.Text.Utf8
import Formulary.Bytes

/-!
# Hosts of URLs

Domain names and addresses as the authority of a URL writes them. Reading a host only decides
whether it is one, and whether it is the local one.
-/

namespace Formulary.Url

/-- Why a text is no URL. -/
inductive Defect where
  | emptyHost | badDomain | badPort | badIpv4 | badIpv6 | badHostCharacter | relative
deriving DecidableEq, Inhabited

/-- The printed text. -/
def Defect.message : Defect → String
  | emptyHost => "empty host"
  | badDomain => "invalid international domain name"
  | badPort => "invalid port number"
  | badIpv4 => "invalid IPv4 address"
  | badIpv6 => "invalid IPv6 address"
  | badHostCharacter => "invalid domain character"
  | relative => "relative URL without a base"

/-- The bytes of a text with its percent escapes undone. A percent sign without two hex digits
stands for itself. -/
def unescape : List UInt8 → List UInt8
  | 0x25 :: a :: b :: rest =>
    match Text.digitValue? 16 (Char.ofNat a.toNat), Text.digitValue? 16 (Char.ofNat b.toNat) with
    | some x, some y => UInt8.ofNat (x * 16 + y) :: unescape rest
    | _, _ => 0x25 :: unescape (a :: b :: rest)
  | b :: rest => b :: unescape rest
  | [] => []

/-! ## Addresses of four bytes -/

/-- What a part of an address writes : hex digits behind `0x`, octal ones behind a zero, decimal
ones. A number that is too big has no value. -/
def ipv4Number? (part : List Char) : Option (Option Nat) :=
  let (base, digits) := match part with
    | '0' :: 'x' :: rest => (16, rest)
    | '0' :: 'X' :: rest => (16, rest)
    | '0' :: c :: rest => (8, c :: rest)
    | _ => (10, part)
  if part = [] then none
  else if digits = [] then some (some 0)
  else (Text.number? base digits).map fun n => if n < UInt32.size then some n else none

/-- The last part of a domain is a number, so all of it must be an address. -/
def endsInNumber (domain : List Char) : Bool :=
  let parts := (Text.split (· == '.') domain).reverse
  let last := match parts with
    | [] :: next :: _ => next
    | p :: _ => p
    | [] => []
  (!last.isEmpty && last.all Text.isDigit) || (ipv4Number? last).isSome

/-- The domain is an address. -/
def isIpv4 (domain : List Char) : Bool :=
  let parts := Text.split (· == '.') domain
  let parts := if parts.getLast? = some [] then parts.dropLast else parts
  match (parts.mapM ipv4Number?).bind (·.mapM id) with
  | none => false
  | some numbers =>
    let last := numbers.getLast?.getD 0
    let front := numbers.dropLast
    numbers.length ≤ 4 && front.all (· ≤ 255) && last < Nat.pow 256 (4 - front.length)

/-! ## Addresses of sixteen bytes -/

/-- A part of an address : up to four hex digits. -/
def isIpv6Piece (part : List Char) : Bool :=
  !part.isEmpty && part.length ≤ 4 && part.all fun c => (Text.digitValue? 16 c).isSome

/-- How many parts a run between colons has, the last of which may be an address of four bytes
where that is allowed. -/
def ipv6Count? (mayEndInIpv4 : Bool) (run : List Char) : Option Nat :=
  if run = [] then some 0
  else
    let parts := Text.split (· == ':') run
    let last := parts.getLast?.getD []
    let isDotted :=
      let bytes := Text.split (· == '.') last
      mayEndInIpv4 && bytes.length == 4 && bytes.all fun b =>
        match Text.number? 10 b with
        | some n => n ≤ 255 && (b.length == 1 || b.head? != some '0')
        | none => false
    if parts.dropLast.all isIpv6Piece && (isIpv6Piece last || isDotted) then
      some (parts.length + if isDotted then 1 else 0)
    else none

/-- The two sides of the first pair of colons. -/
def splitAtGap : List Char → List Char → Option (List Char × List Char)
  | front, ':' :: ':' :: rest => some (front.reverse, rest)
  | front, c :: rest => splitAtGap (c :: front) rest
  | _, [] => none

/-- The text is an address. One gap of any length may be left out. -/
def isIpv6 (text : List Char) : Bool :=
  match splitAtGap [] text with
  | none => ipv6Count? true text == some 8
  | some (front, back) =>
    match ipv6Count? false front, ipv6Count? true back with
    | some a, some b => a + b ≤ 7
    | _, _ => false

/-! ## Hosts -/

/-- A character that no domain may hold. -/
def isForbiddenInDomain (c : Char) : Bool :=
  c.toNat ≤ 0x20 || c.toNat = 0x7F ||
    ['#', '%', '/', ':', '<', '>', '?', '@', '[', '\\', ']', '^', '|'].contains c

/-- A character that no host of an unknown scheme may hold. -/
def isForbiddenInHost (c : Char) : Bool :=
  ['\x00', '\t', '\n', '\r', ' ', '#', '/', ':', '<', '>', '?', '@', '[', '\\', ']', '^',
    '|'].contains c

/-- An address between brackets. -/
def bracketed (text : List Char) : Except Defect String :=
  match text with
  | '[' :: rest =>
    if rest.getLast? = some ']' ∧ isIpv6 rest.dropLast then .ok (String.ofList text)
    else .error .badIpv6
  | _ => .error .badIpv6

/-- Read the host of a known scheme. -/
def domain (text : List Char) : Except Defect String :=
  if text.head? = some '[' then bracketed text
  else
    let bytes := Bytes.ofList (unescape (String.ofList text).toUTF8.toList)
    match String.fromUTF8? bytes with
    | none => .error .badDomain
    | some s =>
      let name := (Text.lower s).toList
      if name = [] then .error .emptyHost
      else if name.any isForbiddenInDomain then .error .badDomain
      else if endsInNumber name then
        if isIpv4 name then .ok (String.ofList name) else .error .badIpv4
      else .ok (String.ofList name)

/-- Read the host of a scheme that nothing is known of. -/
def opaqueHost (text : List Char) : Except Defect String :=
  if text.head? = some '[' then bracketed text
  else if text.any isForbiddenInHost then .error .badHostCharacter
  else .ok (String.ofList text)

end Formulary.Url
