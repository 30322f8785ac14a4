import Formulary.Shell.Arithmetic
import Formulary.Shell.Pattern
import Formulary.Shell.Session

/-!
# Expansion of words

A word becomes pieces, its pieces are cut into fields, and fields that are patterns become the
names of the files that they cover. Scripts inside of words are run by a function that is given.
-/

namespace Formulary.Shell.Expansion

open Session

/-- What an expanded word is made of. -/
inductive Piece where
  /-- A character, and whether a separator may be cut there. -/
  | char (c : Char) (quoted splits : Bool)
  /-- Something was quoted here, be it nothing. -/
  | mark
  /-- A field ends here. -/
  | gap
deriving DecidableEq

/-- Pieces of some text. -/
def ofText (s : String) (quoted splits : Bool) : List Piece :=
  s.toList.map fun c => .char c quoted splits

/-- Pieces that may be cut wherever they are not quoted. -/
def splitting (ps : List Piece) : List Piece := ps.map fun
  | .char c q _ => .char c q (!q)
  | p => p

/-- Run the commands of a script, line by line, up to its fault. -/
def runProgram (again : Script → Act Unit) (p : Program) : Act Unit := do
  for line in p.lines do again line
  match p.fault with
  | some (line, message) =>
    modify ({ · with line })
    fail ("Syntax error: " ++ message)
  | none => pure ()

/-- The output of a script, without the line ends at its end. -/
def outputOf (again : Script → Act Unit) (script : List Char) : Act String := do
  let n ← newChannel (.buffer .empty)
  apart do
    attach 1 n
    runProgram again (Program.parse script)
  let s ← get
  set { s with outputStatus := some s.status }
  let text := (Text.ofBytes (s.gathered n)).toList.filter (· != '\x00')
  pure (String.ofList (text.reverse.dropWhile (· == '\n')).reverse)

/-- The arguments as pieces, with gaps between them. -/
def argumentPieces (arguments : List String) (quoted : Bool) : List Piece :=
  (List.intersperse [.gap] (arguments.map fun a =>
    (if quoted then [Piece.mark] else []) ++ ofText a quoted (!quoted))).flatten

/-- The text of pieces, with spaces for gaps. -/
def textOf (ps : List Piece) : String := String.ofList (ps.filterMap fun
  | .char c _ _ => some c
  | .gap => some ' '
  | .mark => none)

/-- The pattern that pieces write. -/
def patternOf (ps : List Piece) : Pattern := Pattern.ofGlyphs (ps.filterMap fun
  | .char c q _ => some ⟨c, q⟩
  | _ => none)

/-- What is printed of an expression without a value. -/
def faultMessage (expression : String) : ArithmeticFault → String
  | .malformed => "arithmetic expression: expecting primary: \"" ++ expression ++ "\""
  | .divisionByZero => "arithmetic expression: division by zero: \"" ++ expression ++ "\""
  | .notNumber text => "Illegal number: " ++ text

/-- The value of an expression, whose assignments are made. -/
def valueOf (expression : String) : Act Int := do
  match Expression.ofText? expression.toList with
  | none => fail (faultMessage expression .malformed)
  | some e =>
    let s ← get
    let (result, vars) := (e.evaluate.run).run s.vars
    set { s with vars }
    match result with
    | .ok n => pure n
    | .error f => fail (faultMessage expression f)

/-- The pieces of a word. Operands inside of it may be nested down to some depth. -/
def pieces (again : Script → Act Unit) : Nat → Word → Act (List Piece)
  | 0, _ => fail "Bad substitution"
  | depth + 1, w => do
    let mut found : List Piece := []
    for part in w do
      let here ← match part with
        | .text s q => pure ((if q then [.mark] else []) ++ s.map fun c => .char c q false)
        | .output script q => do
          let text ← outputOf again script
          pure ((if q then [.mark] else []) ++ ofText text q (!q))
        | .arithmetic expression q => do
          let inner ← pieces again depth ((Token.quotedWord? expression).getD [])
          let n ← valueOf (textOf inner)
          pure (ofText (Text.integer n) q (!q))
        | .parameter name op operand q => do
          let s ← get
          let shown := fun (text : String) =>
            (if q then [Piece.mark] else []) ++ ofText text q (!q)
          let isAll := name == "@" || name == "*"
          let joiner := match s.separators with
            | c :: _ => String.singleton c
            | [] => ""
          let plain : Option (List Piece) :=
            if name == "*" && q then some (shown (Text.join joiner s.arguments))
            else if isAll then some (argumentPieces s.arguments q)
            else (s.value? name).map shown
          let isSet := if isAll then !s.arguments.isEmpty else (s.value? name).isSome
          let isNull := if isAll then s.arguments.all (· == "")
            else ((s.value? name).getD "") == ""
          let word := (if q then Token.quotedOperand? operand else Token.wholeWord? operand).getD []
          let absent := fun (colon : Bool) => !isSet || (colon && isNull)
          let nothing := if q && !isAll then [Piece.mark] else []
          let present := plain.getD nothing
          let needed : Act Unit := do
            if s.options.needSet && !isSet && !isAll then fail (name ++ ": parameter not set")
          let assigned : Act (List Piece) := do
            let inner ← pieces again depth word
            assign name (textOf inner)
            pure (shown (textOf inner))
          let refused := fun (reason : String) => do
            let inner ← pieces again depth word
            let text := textOf inner
            (fail (name ++ ": " ++ (if text = "" then reason else text)) : Act (List Piece))
          let instead : Act (List Piece) := do
            let inner ← pieces again depth word
            pure (if q then inner else splitting inner)
          let trimmed := fun (cut : Pattern → List Char → List Char) => do
            needed
            let inner ← pieces again depth ((Token.wholeWord? operand).getD [])
            pure (shown (String.ofList
              (cut (patternOf inner) ((s.value? name).getD "").toList)))
          match op with
          | "" => do
            needed
            pure present
          | "length" => do
            needed
            let n := if isAll then s.arguments.length
              else Text.byteLength ((s.value? name).getD "")
            pure (ofText (Text.decimal n) q (!q))
          | ":-" => if absent true then instead else pure present
          | "-" => if absent false then instead else pure present
          | ":=" => if absent true then assigned else pure present
          | "=" => if absent false then assigned else pure present
          | ":+" => if absent true then pure nothing else instead
          | "+" => if absent false then pure nothing else instead
          | ":?" => if absent true then refused "parameter not set or null" else pure present
          | "?" => if absent false then refused "parameter not set" else pure present
          | "#" => trimmed (Pattern.dropStart false)
          | "##" => trimmed (Pattern.dropStart true)
          | "%" => trimmed (Pattern.dropEnd false)
          | _ => trimmed (Pattern.dropEnd true)
      found := found ++ here
    pure found

/-- A tilde at the start of a word stands for the home directory. -/
def withHome (s : Session) (w : Word) : Word :=
  match w with
  | .text ('~' :: cs) false :: rest =>
    let isWhole := match cs with
      | [] => rest.isEmpty
      | c :: _ => c == '/'
    match isWhole, s.vars.get? "HOME" with
    | true, some home => .text home.toList true :: .text cs false :: rest
    | _, _ => w
  | _ => w

/-- Words may be nested this deep. -/
def maxDepth : Nat := 100

/-- The pieces of a word. -/
def expanded (again : Script → Act Unit) (w : Word) : Act (List Piece) := do
  let s ← get
  match w with
  | [.text [] true, .parameter "@" "" [] true] => pure (argumentPieces s.arguments true)
  | w => pieces again maxDepth (withHome s w)

/-- The one text that a word stands for where it is not cut. -/
def single (again : Script → Act Unit) (w : Word) : Act String := do
  pure (textOf (← expanded again w))

/-- The pattern that a word stands for. -/
def pattern (again : Script → Act Unit) (w : Word) : Act Pattern := do
  pure (patternOf (← expanded again w))

/-! ## Fields -/

/-- Fields that were cut so far, the latest first, and the one that is being read. -/
structure Cutting where
  fields : List (List Glyph) := []
  current : Option (List Glyph) := none
  /-- The latest field was ended by blanks, which one other separator may follow. -/
  blankEnd : Bool := false

/-- End the field that is being read, if there is one. -/
def Cutting.finish (c : Cutting) : Cutting :=
  match c.current with
  | some f => { c with fields := f.reverse :: c.fields, current := none }
  | none => c

/-- Read one piece. -/
def Cutting.read (separators : List Char) (c : Cutting) : Piece → Cutting
  | .mark => { c with current := some (c.current.getD []), blankEnd := false }
  | .gap => { c.finish with blankEnd := false }
  | .char ch quoted splits =>
    if splits && separators.contains ch then
      if Text.isBlank ch then
        { c.finish with blankEnd := c.blankEnd || c.current.isSome }
      else if c.current.isSome then { c.finish with blankEnd := false }
      else if c.blankEnd then { c with blankEnd := false }
      else { c with fields := [] :: c.fields, blankEnd := false }
    else { c with current := some (⟨ch, quoted⟩ :: c.current.getD []), blankEnd := false }

/-- Cut pieces into fields. -/
def cut (separators : List Char) (ps : List Piece) : List (List Glyph) :=
  (ps.foldl (Cutting.read separators) {}).finish.fields.reverse

/-! ## File names -/

/-- The names in a directory that a pattern covers, where a hidden name needs a dot. -/
def namesCovered (d : Disk) (base : String) (p : Pattern) : List String :=
  match d.found true ⟨if base = "" then "." else base⟩ with
  | .ok (place, .directory _) =>
    let wantsHidden := p.head? == some (.char '.')
    ((if wantsHidden then [".", ".."] else []) ++ d.namesIn place).filter fun n =>
      (wantsHidden || !Text.startsWith n ".") && Pattern.covers p n.toList
  | _ => []

/-- The paths that patterns, one for each segment, cover. -/
def pathsCovered (d : Disk) (segments : List Pattern) : List String :=
  let step := fun (bases : List String × Bool) (p : Pattern) =>
    let slash := if bases.2 then "" else "/"
    let go := fun (base : String) =>
      if Pattern.isOpen p then (namesCovered d (base ++ slash) p).map (base ++ slash ++ ·)
      else [base ++ slash ++ String.ofList (Pattern.text p)]
    (bases.1.flatMap go, false)
  let paths := (segments.foldl step ([""], true)).1
  (paths.filter fun p => match d.found false ⟨p⟩ with
    | .ok _ => true
    | .error _ => false).mergeSort fun a b => a ≤ b

/-- The characters between slashes. -/
def segmentsOf : List Glyph → List (List Glyph)
  | [] => [[]]
  | g :: rest =>
    if g.char == '/' then [] :: segmentsOf rest
    else match segmentsOf rest with
      | first :: more => (g :: first) :: more
      | [] => [[g]]

/-- The texts that a field stands for. -/
def namesOf (s : Session) (field : List Glyph) : List String :=
  let text := String.ofList (field.map Glyph.char)
  if s.options.plainNames || !Pattern.isOpen (Pattern.ofGlyphs field) then [text]
  else match pathsCovered s.disk ((segmentsOf field).map Pattern.ofGlyphs) with
    | [] => [text]
    | paths => paths

/-- The fields that a word stands for. -/
def fields (again : Script → Act Unit) (w : Word) : Act (List String) := do
  let ps ← expanded again w
  let s ← get
  pure ((cut s.separators ps).flatMap (namesOf s))

/-- The fields that words stand for. -/
def allFields (again : Script → Act Unit) (ws : List Word) : Act (List String) := do
  let mut found := []
  for w in ws do found := found ++ (← fields again w)
  pure found

end Formulary.Shell.Expansion
