import Formulary.Formula

/-!
# Versions of formulas

The version of a formula is the declared one, or the one in the last segment of the source
URL : without archive extension, without a name before the last dash, without a leading `v`.
-/

namespace Formulary

/-- The extensions of archives, the first that fits being taken off. -/
def archiveExtensions : List String :=
  [".tar.gz", ".tgz", ".tar.xz", ".txz", ".tar.bz2", ".tbz2", ".tar.zst", ".tar", ".zip"]

namespace Version

/-- What follows the last character that satisfies `p`, or everything. -/
def afterLast (p : Char → Bool) (cs : List Char) : List Char :=
  (cs.reverse.takeWhile fun c => !p c).reverse

/-- The last segment of the path of a URL. -/
def lastSegment (url : List Char) : List Char :=
  let path := url.takeWhile fun c => c != '?' && c != '#'
  afterLast (· == '/') (path.reverse.dropWhile (· == '/')).reverse

/-- The segment without its archive extension. -/
def dropExtension (segment : List Char) : List Char :=
  (archiveExtensions.findSome? fun e => Text.before? e.toList segment).getD segment

/-- The characters without one leading `v` or `V`. -/
def dropMark : List Char → List Char
  | 'v' :: rest => rest
  | 'V' :: rest => rest
  | cs => cs

/-- The version that a URL names. -/
def ofUrl? (url : String) : Option String :=
  let candidate := dropMark (afterLast (· == '-') (dropExtension (lastSegment url.toList)))
  match candidate with
  | c :: _ => if Text.isDigit c then some (String.ofList candidate) else none
  | [] => none

end Version

namespace Formula

/-- The declared version, or the one that the source URL names. -/
def version? (f : Formula) : Option String :=
  match f.identity.version with
  | some v =>
    let v := Text.trim v
    if v ≠ "" then some v else Version.ofUrl? f.source.url
  | none => Version.ofUrl? f.source.url

/-- The version with the count of rebuilds behind it, when there are any. -/
def packageVersion? (f : Formula) : Option String :=
  f.version?.map fun v =>
    match f.identity.revision with
    | some r => if r > 0 then v ++ "_" ++ Text.decimal r.toNat else v
    | none => v

end Formula

end Formulary
