import Formulary.Text.Utf8

/-!
# Paths

A path is kept as it is written, because messages show it so. Its meaning is its list of
components : empty segments and dots are left out, except a dot that opens a relative path.
-/

namespace Formulary

/-- A path as it is written. -/
structure Path where
  text : String
deriving DecidableEq, Inhabited

/-- One step of a path. -/
inductive Component where
  | root
  | here
  | up
  | name (s : String)
deriving DecidableEq

namespace Path

/-! ## Components -/

/-- The segments between the slashes. -/
def segments (p : Path) : List (List Char) := Text.split (· == '/') p.text.toList

/-- The path starts at the root. -/
def isAbsolute (p : Path) : Bool :=
  match p.text.toList with
  | c :: _ => c == '/'
  | [] => false

/-- The component that a segment inside a path stands for. -/
def component? (segment : List Char) : Option Component :=
  if segment = [] ∨ segment = ['.'] then none
  else if segment = ['.', '.'] then some .up
  else some (.name (String.ofList segment))

/-- The components in order. -/
def components (p : Path) : List Component :=
  match p.segments with
  | [] => []
  | first :: rest =>
    let body := rest.filterMap component?
    if p.isAbsolute then .root :: body
    else if first = ['.'] then .here :: body
    else match component? first with
      | some c => c :: body
      | none => body

/-- The names that the components lead to when each `up` takes back the name before it, or
`none` when one has nothing to take back. -/
def descend : List String → List Component → Option (List String)
  | names, [] => some names.reverse
  | names, .name s :: rest => descend (s :: names) rest
  | _ :: names, .up :: rest => descend names rest
  | [], .up :: _ => none
  | names, _ :: rest => descend names rest

/-! ## Building paths -/

/-- The path `q`, taken from `p` when it is relative. -/
def join (p : Path) (q : String) : Path :=
  if (Path.mk q).isAbsolute then ⟨q⟩
  else match p.text.toList.getLast? with
    | none => ⟨q⟩
    | some '/' => ⟨p.text ++ q⟩
    | some _ => ⟨p.text ++ "/" ++ q⟩

/-- The text of the components : names with a slash between each two. -/
def ofComponents : List Component → Path
  | [] => ⟨""⟩
  | .root :: rest => ⟨"/" ++ Text.join "/" (rest.map word)⟩
  | cs => ⟨Text.join "/" (cs.map word)⟩
where
  /-- How a component is written. -/
  word : Component → String
    | .root => ""
    | .here => "."
    | .up => ".."
    | .name s => s

/-- Characters from the end of a path that say nothing : slashes and lone dots. -/
def trimEnd : List Char → List Char
  | '/' :: rest => if rest = [] then ['/'] else trimEnd rest
  | '.' :: '/' :: rest => trimEnd ('/' :: rest)
  | cs => cs

/-- The path without its last component. -/
def parent? (p : Path) : Option Path :=
  match p.components.getLast? with
  | none | some .root => none
  | some _ =>
    let rest := (trimEnd p.text.toList.reverse).dropWhile (· != '/')
    some ⟨String.ofList (trimEnd rest).reverse⟩

/-- The last component, when it is a name. -/
def fileName? (p : Path) : Option String :=
  match p.components.getLast? with
  | some (.name s) => some s
  | _ => none

/-- The file name up to its last dot, which does not open it. -/
def stem (name : List Char) : List Char :=
  match name.reverse.dropWhile (· != '.') with
  | _ :: rest => if rest = [] ∨ name = ['.', '.'] then name else rest.reverse
  | [] => name

/-- The path with what follows the last dot of its file name replaced. -/
def withExtension (p : Path) (extension : String) : Path :=
  match p.fileName?, p.parent? with
  | some name, some parent =>
    parent.join (String.ofList (stem name.toList) ++ "." ++ extension)
  | _, _ => p

/-- The path from the root, for a working directory. Dots and doubled slashes go, a closing
slash stays. An empty path has no such form. -/
def absolute? (p workdir : Path) : Option Path :=
  if p.text.isEmpty then none
  else
    let body := p.components.filter fun c => c != .here && c != .root
    let words := Text.join "/" (body.map ofComponents.word)
    let close := if p.text.toList.getLast? = some '/' && !body.isEmpty then "/" else ""
    if p.isAbsolute then
      let two := match p.text.toList with
        | '/' :: '/' :: '/' :: _ => false
        | '/' :: '/' :: _ => true
        | _ => false
      some ⟨(if two then "//" else "/") ++ words ++ close⟩
    else if body.isEmpty then
      some (if p.text.toList.getLast? = some '/' then workdir.join "" else workdir)
    else some ⟨(workdir.join words).text ++ close⟩

/-- The path as it is printed. -/
def display (p : Path) : String := Text.shown p.text

end Path

end Formulary
