import Formulary.Bindings
import Formulary.Text.Utf8

/-!
# JSON

Values and how they are printed, two blanks for each level of nesting. Members keep the order
in which they are given.
-/

namespace Formulary

/-- A JSON value. -/
inductive Json where
  | null
  | bool (b : Bool)
  | number (n : Int)
  | text (s : String)
  | list (items : List Json)
  | object (members : List (String × Json))
deriving Inhabited

namespace Json

/-- A text that may be absent. -/
def ofOption (s : Option String) : Json :=
  match s with
  | none => null
  | some s => text s

/-- A list of texts. -/
def texts (l : List String) : Json := list (l.map text)

/-- Names with their values. -/
def ofBindings (b : Bindings) : Json := object (b.entries.map fun e => (e.1, text e.2))

/-! ## Order -/

mutual

/-- The value with the members of every object in the order of their names. -/
def sorted : Json → Json
  | list items => list (sortedItems items)
  | object members => object ((sortedMembers members).mergeSort fun a b => a.1 ≤ b.1)
  | j => j

/-- Each item with its members in order. -/
def sortedItems : List Json → List Json
  | [] => []
  | j :: rest => sorted j :: sortedItems rest

/-- Each member with the members of its value in order. -/
def sortedMembers : List (String × Json) → List (String × Json)
  | [] => []
  | (k, j) :: rest => (k, sorted j) :: sortedMembers rest

end

/-! ## Printing -/

/-- How a character is written between quotes. -/
def escape (c : Char) : List Char :=
  if c == '"' || c == '\\' then ['\\', c]
  else if c == '\n' then ['\\', 'n']
  else if c == '\r' then ['\\', 'r']
  else if c == '\t' then ['\\', 't']
  else if c.toNat == 8 then ['\\', 'b']
  else if c.toNat == 12 then ['\\', 'f']
  else if c.toNat < 0x20 then
    ['\\', 'u'] ++ Text.padLeft 4 (Nat.toDigits 16 c.toNat)
  else [c]

/-- The text between quotes. -/
def quote (s : String) : String := "\"" ++ String.ofList (s.toList.flatMap escape) ++ "\""

/-- The blanks in front of a line. -/
def indent (depth : Nat) : String := String.ofList (List.replicate (2 * depth) ' ')

/-- Items on lines of their own between two brackets, which close up when there are none. -/
def block (opening closing : String) (depth : Nat) (items : List String) : String :=
  if items.isEmpty then opening ++ closing
  else opening ++ "\n" ++ Text.join ",\n" (items.map (indent (depth + 1) ++ ·)) ++ "\n" ++
    indent depth ++ closing

mutual

/-- The value printed at a level of nesting. -/
def printAt (depth : Nat) : Json → String
  | null => "null"
  | bool true => "true"
  | bool false => "false"
  | number n => Text.integer n
  | text s => quote s
  | list items => block "[" "]" depth (printItems (depth + 1) items)
  | object members => block "\x7b" "\x7d" depth (printMembers (depth + 1) members)

/-- Each item printed. -/
def printItems (depth : Nat) : List Json → List String
  | [] => []
  | j :: rest => printAt depth j :: printItems depth rest

/-- Each member printed with its name. -/
def printMembers (depth : Nat) : List (String × Json) → List String
  | [] => []
  | (k, j) :: rest => (quote k ++ ": " ++ printAt depth j) :: printMembers depth rest

end

/-- The value as text. -/
def pretty (j : Json) : String := printAt 0 j

end Json

end Formulary
