import Formulary.Text

/-!
# Patterns

Patterns of text, in which `*` stands for any text, `?` for any character, and `[…]` for one of
some characters. A quoted character stands for itself.
-/

namespace Formulary.Shell

/-- A character of an expanded word, and whether it was quoted. -/
structure Glyph where
  char : Char
  quoted : Bool
deriving DecidableEq

/-- What a part of a pattern stands for. -/
inductive PatternItem where
  | anyText
  | anyChar
  | char (c : Char)
  /-- One of the characters in some ranges, or one that is in none of them. -/
  | oneOf (negated : Bool) (ranges : List (Char × Char))
deriving DecidableEq

/-- A pattern of text. -/
abbrev Pattern := List PatternItem

namespace Pattern

/-- The ranges of a bracket, and what follows it. -/
def ranges : Nat → List Glyph → Option (List (Char × Char) × List Glyph)
  | 0, _ | _, [] => none
  | fuel + 1, a :: rest =>
    if a.char == ']' && !a.quoted then some ([], rest)
    else match rest with
      | dash :: b :: after =>
        if dash.char == '-' && !dash.quoted && !(b.char == ']' && !b.quoted) then
          (ranges fuel after).map fun (rs, r) => ((a.char, b.char) :: rs, r)
        else (ranges fuel rest).map fun (rs, r) => ((a.char, a.char) :: rs, r)
      | _ => (ranges fuel rest).map fun (rs, r) => ((a.char, a.char) :: rs, r)

/-- A bracket that may start with a closing bracket as a character. -/
def bracket? (cs : List Glyph) : Option (PatternItem × List Glyph) :=
  let negated := match cs with
    | c :: _ => !c.quoted && (c.char == '!' || c.char == '^')
    | [] => false
  let cs := if negated then cs.drop 1 else cs
  let first := match cs with
    | c :: _ => if c.char == ']' && !c.quoted then [(']', ']')] else []
    | [] => []
  (ranges (cs.length + 1) (cs.drop first.length)).map fun (rs, rest) =>
    (.oneOf negated (first ++ rs), rest)

/-- Read a pattern. -/
def read : Nat → List Glyph → Pattern
  | 0, _ | _, [] => []
  | fuel + 1, c :: rest =>
    if c.quoted then .char c.char :: read fuel rest
    else if c.char == '*' then .anyText :: read fuel rest
    else if c.char == '?' then .anyChar :: read fuel rest
    else if c.char == '[' then
      match bracket? rest with
      | some (item, rest) => item :: read fuel rest
      | none => .char '[' :: read fuel rest
    else if c.char == '\\' then
      match rest with
      | d :: rest => .char d.char :: read fuel rest
      | [] => [.char '\\']
    else .char c.char :: read fuel rest

/-- The pattern that characters write. -/
def ofGlyphs (cs : List Glyph) : Pattern := read cs.length cs

/-- An item that stands for one character stands for this one. -/
def admits (c : Char) : PatternItem → Bool
  | .anyText | .anyChar => true
  | .char d => c == d
  | .oneOf negated ranges => (ranges.any fun (a, b) => a ≤ c && c ≤ b) != negated

/-- A pattern stands for a text. -/
def covers : Pattern → List Char → Bool
  | [], [] => true
  | [], _ :: _ => false
  | .anyText :: rest, [] => covers rest []
  | .anyText :: rest, c :: cs => covers rest (c :: cs) || covers (.anyText :: rest) cs
  | _ :: _, [] => false
  | item :: rest, c :: cs => admits c item && covers rest cs
termination_by p cs => p.length + cs.length

/-- The pattern stands for more than one text. -/
def isOpen (p : Pattern) : Bool := p.any fun
  | .char _ => false
  | _ => true

/-- The text of a pattern that stands for one text. -/
def text (p : Pattern) : List Char := p.filterMap fun
  | .char c => some c
  | _ => none

/-- Take away what a pattern covers at the start, as little or as much as can be. -/
def dropStart (longest : Bool) (p : Pattern) (cs : List Char) : List Char :=
  let lengths := List.range (cs.length + 1)
  match (if longest then lengths.reverse else lengths).find? fun n => covers p (cs.take n) with
  | some n => cs.drop n
  | none => cs

/-- Take away what a pattern covers at the end, as little or as much as can be. -/
def dropEnd (longest : Bool) (p : Pattern) (cs : List Char) : List Char :=
  let lengths := List.range (cs.length + 1)
  match (if longest then lengths else lengths.reverse).find? fun n => covers p (cs.drop n) with
  | some n => cs.take n
  | none => cs

end Pattern

end Formulary.Shell
