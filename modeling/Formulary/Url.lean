import Formulary.Path
import Formulary.Url.Host

/-!
# URLs

Reading absolute URLs, with the leniency of browsers : blanks around them go, tabs and line feeds
in them say nothing, a backslash may stand for a slash, and dots in a path are taken at once.
-/

namespace Formulary

/-- An absolute URL, without its query and fragment. -/
structure Url where
  scheme : String
  host : Option String := none
  /-- The segments of the path, with their percent escapes. -/
  path : List String := []
deriving DecidableEq, Inhabited

namespace Url

/-! ## Characters -/

/-- A letter of ASCII. -/
def isLetter (c : Char) : Bool := ('a' ≤ c && c ≤ 'z') || ('A' ≤ c && c ≤ 'Z')

/-- A character that ends the authority of a URL. -/
def endsAuthority (special : Bool) (c : Char) : Bool :=
  c == '/' || c == '?' || c == '#' || (special && c == '\\')

/-- The characters of a URL that count. -/
def significant (text : String) : List Char :=
  let isEdge := fun (c : Char) => decide (c.toNat ≤ 0x20)
  let cs := ((text.toList.dropWhile isEdge).reverse.dropWhile isEdge).reverse
  cs.filter fun c => c != '\t' && c != '\n' && c != '\r'

/-- The scheme and what follows its colon. -/
def schemeOf? (cs : List Char) : Option (String × List Char) :=
  let isBody := fun c => isLetter c || Text.isDigit c || c == '+' || c == '-' || c == '.'
  let name := cs.takeWhile isBody
  match name, cs.drop name.length with
  | first :: _, ':' :: rest =>
    if isLetter first then some (Text.lower (String.ofList name), rest) else none
  | _, _ => none

/-- The schemes whose hosts are domains. -/
def isSpecial (scheme : String) : Bool :=
  ["http", "https", "ws", "wss", "ftp", "file"].contains scheme

/-! ## Paths -/

/-- The segment says to stay. -/
def isHere (s : List Char) : Bool := s == ['.'] || (s.map Char.toLower) == "%2e".toList

/-- The segment says to go up. -/
def isUp (s : List Char) : Bool :=
  ["..", ".%2e", "%2e.", "%2e%2e"].any fun t => s.map Char.toLower == t.toList

/-- The segment names a drive. -/
def isDrive : List Char → Bool
  | [c, d] => isLetter c && (d == ':' || d == '|')
  | _ => false

/-- Add segments to those taken so far, the latest first. -/
def climb (isFile : Bool) : List (List Char) → List (List Char) → List (List Char)
  | taken, [] => taken
  | taken, s :: rest =>
    let last := rest.isEmpty
    if isUp s then
      let taken := match taken with
        | [d] => if isFile && isDrive d then [d] else []
        | _ => taken.drop 1
      climb isFile (if last then [] :: taken else taken) rest
    else if isHere s then climb isFile (if last then [] :: taken else taken) rest
    else
      let s := if isFile && taken.isEmpty && isDrive s then s.take 1 ++ [':'] else s
      climb isFile (s :: taken) rest

/-- The segments of a path, which ends at a query or a fragment. -/
def segmentsOf (special isFile : Bool) (cs : List Char) : List String :=
  let body := cs.takeWhile fun c => c != '?' && c != '#'
  let isSlash := fun c => c == '/' || (special && c == '\\')
  let body := if isFile then body.dropWhile isSlash else
    match body with
    | c :: rest => if isSlash c then rest else body
    | [] => []
  let segments := (climb isFile [] (Text.split isSlash body)).reverse
  let segments := if isFile && segments.length > 1 then
      match segments.dropWhile List.isEmpty with
      | [] => [[]]
      | l => l
    else segments
  segments.map String.ofList

/-! ## Authorities -/

/-- What follows the user information, which ends at the last at sign before the path. -/
def afterUser (special : Bool) (cs : List Char) : Except Defect (Bool × List Char) :=
  let authority := cs.takeWhile (!endsAuthority special ·)
  let parts := Text.split (· == '@') authority
  match parts.dropLast with
  | [] => .ok (false, cs)
  | users =>
    let length := (users.flatMap (· ++ ['@'])).length
    let rest := cs.drop length
    if length = 1 then
      match rest with
      | c :: _ => if endsAuthority special c then .error .emptyHost else .ok (false, rest)
      | [] => .ok (false, rest)
    else .ok (users != [[]] && users != [[':']], rest)

/-- The characters of a host : up to a colon that is not between brackets. -/
def hostText (special : Bool) : Bool → List Char → List Char
  | _, [] => []
  | inside, c :: rest =>
    if (c == ':' && !inside) || endsAuthority special c then []
    else c :: hostText special (if c == '[' then true else if c == ']' then false else inside) rest

/-- Check a port, and give what follows it. -/
def afterPort (special : Bool) (cs : List Char) : Except Defect (List Char) :=
  match cs with
  | ':' :: rest =>
    let digits := rest.takeWhile Text.isDigit
    let behind := rest.drop digits.length
    let fits := digits = [] ∨ (Text.number? 10 digits).any (· ≤ 65535)
    match behind with
    | c :: _ =>
      if fits ∧ (endsAuthority special c ∨ c = '\\') then .ok behind else .error .badPort
    | [] => if fits then .ok behind else .error .badPort
  | _ => .ok cs

/-- Read what follows the two slashes behind a scheme. -/
def withAuthority (scheme : String) (cs : List Char) : Except Defect Url := do
  let special := isSpecial scheme
  let (hasUser, cs) ← afterUser special cs
  let text := hostText special false cs
  let rest := cs.drop text.length
  if special && text.isEmpty then throw .emptyHost
  let host ← if special then domain text else opaqueHost text
  if host = "" ∧ (rest.head? = some ':' ∨ hasUser) then throw .emptyHost
  let rest ← afterPort special rest
  pure ⟨scheme, if host = "" then none else some host, segmentsOf special false rest⟩

/-- Read a file URL behind its colon. The local host counts as none. -/
def ofFile (cs : List Char) : Except Defect Url := do
  let isSlash := fun c => c == '/' || c == '\\'
  match cs with
  | a :: b :: rest =>
    if isSlash a && isSlash b then
      let text := rest.takeWhile (!endsAuthority true ·)
      if text.isEmpty || isDrive text then pure ⟨"file", none, segmentsOf true true rest⟩
      else
        let host ← domain text
        let after := rest.drop text.length
        pure ⟨"file", if host = "localhost" then none else some host, segmentsOf true true after⟩
    else pure ⟨"file", none, segmentsOf true true cs⟩
  | _ => pure ⟨"file", none, segmentsOf true true cs⟩

/-- Read an absolute URL. -/
def parse (text : String) : Except Defect Url :=
  match schemeOf? (significant text) with
  | none => .error .relative
  | some (scheme, rest) =>
    if scheme = "file" then ofFile rest
    else if isSpecial scheme then
      withAuthority scheme (rest.dropWhile fun c => c == '/' || c == '\\')
    else match rest with
      | '/' :: '/' :: rest => withAuthority scheme rest
      | _ => .ok ⟨scheme, none, [String.ofList rest]⟩

/-- The path of the file that a URL names, if it names one of this host. -/
def filePath? (u : Url) : Option Path :=
  if u.host.isSome then none
  else
    let bytes := u.path.flatMap fun s => 0x2F :: unescape s.toUTF8.toList
    let text := Text.ofBytes (Bytes.ofList bytes)
    let close := match bytes.reverse with
      | c :: l :: _ :: _ => (c == 0x3A || c == 0x7C) && isLetter (Char.ofNat l.toNat)
      | _ => false
    some ⟨if close then text ++ "/" else text⟩

end Url

end Formulary
