import Formulary.Text.Utf8

/-!
# Tokens of shell scripts

A script is cut into words, operators and line ends. A word is a list of parts : plain text, and
expansions whose inner text is kept as it is written and read when it is expanded. Quoting is
resolved here; what was quoted is marked so.
-/

namespace Formulary.Shell

/-- A part of a word. -/
inductive Part where
  | text (s : List Char) (quoted : Bool)
  /-- `$name`, or `$\x7bname op operand\x7d`. -/
  | parameter (name : String) (op : String) (operand : List Char) (quoted : Bool)
  /-- The output of a script. -/
  | output (script : List Char) (quoted : Bool)
  /-- The value of an expression. -/
  | arithmetic (expression : List Char) (quoted : Bool)
deriving DecidableEq, Inhabited

/-- A word as it is written. -/
abbrev Word := List Part

/-- What a token is. -/
inductive TokenKind where
  | word (w : Word)
  | operator (s : String)
  /-- A number right before a redirection. -/
  | descriptor (n : Nat)
  /-- The text of a here-document, and whether it is expanded. -/
  | document (text : List Char) (expands : Bool)
  | newline
deriving DecidableEq, Inhabited

/-- A token with its line. -/
structure Token where
  kind : TokenKind
  line : Nat
deriving DecidableEq, Inhabited

namespace Token

/-! ## Finding ends -/

/-- The text up to a closing single quote, and what follows the quote. -/
def singleQuoted : List Char → Option (List Char × List Char)
  | [] => none
  | '\'' :: rest => some ([], rest)
  | c :: rest => (singleQuoted rest).map fun (s, r) => (c :: s, r)

/-- The inner text of a bracket that is closed by `close`, and what follows it. Quotes hide
brackets, and inner brackets are counted. -/
def bracketed (opening closing : Char) : (fuel depth : Nat) → (quote : Option Char) → List Char →
    Option (List Char × List Char)
  | 0, _, _, _ => none
  | _, _, _, [] => none
  | fuel + 1, depth, quote, c :: rest =>
    let keep := fun (r : Option (List Char × List Char)) => r.map fun (s, t) => (c :: s, t)
    match quote with
    | some q =>
      if c == q then keep (bracketed opening closing fuel depth none rest)
      else if c == '\\' && q == '"' then
        match rest with
        | d :: rest =>
          (bracketed opening closing fuel depth quote rest).map fun (s, t) => (c :: d :: s, t)
        | [] => none
      else keep (bracketed opening closing fuel depth quote rest)
    | none =>
      if c == '\\' then
        match rest with
        | d :: rest =>
          (bracketed opening closing fuel depth none rest).map fun (s, t) => (c :: d :: s, t)
        | [] => none
      else if c == '\'' || c == '"' || c == '`' then
        keep (bracketed opening closing fuel depth (some c) rest)
      else if c == opening then keep (bracketed opening closing fuel (depth + 1) none rest)
      else if c == closing then
        match depth with
        | 0 => some ([], rest)
        | depth + 1 => keep (bracketed opening closing fuel depth none rest)
      else keep (bracketed opening closing fuel depth none rest)

/-- The text between back quotes, with the backslashes that protect back quotes, dollars and
backslashes taken away. -/
def backQuoted : List Char → Option (List Char × List Char)
  | [] => none
  | '`' :: rest => some ([], rest)
  | '\\' :: c :: rest =>
    let s := if c == '`' || c == '$' || c == '\\' then [c] else ['\\', c]
    (backQuoted rest).map fun (t, r) => (s ++ t, r)
  | c :: rest => (backQuoted rest).map fun (s, r) => (c :: s, r)

/-! ## Expansions -/

/-- A character that may start a name. -/
def startsName (c : Char) : Bool := c == '_' || c.isAlpha

/-- A character that may be in a name. -/
def inName (c : Char) : Bool := startsName c || Text.isDigit c

/-- The parameters that are one special character. -/
def specialParameters : List Char := ['@', '*', '#', '?', '-', '$', '!']

/-- The name of a parameter at the start of some text. -/
def parameterName (cs : List Char) : Option (String × List Char) :=
  match cs with
  | c :: rest =>
    if startsName c then
      let name := cs.takeWhile inName
      some (String.ofList name, cs.drop name.length)
    else if Text.isDigit c then
      let name := cs.takeWhile Text.isDigit
      some (String.ofList name, cs.drop name.length)
    else if specialParameters.contains c then some (String.singleton c, rest)
    else none
  | [] => none

/-- The operators between a parameter and its operand, the longer ones first. -/
def parameterOperators : List String :=
  [":-", ":=", ":+", ":?", "%%", "##", "-", "=", "+", "?", "%", "#"]

/-- The expansion that the text between braces writes. -/
def braced? (inner : List Char) (quoted : Bool) : Option Part :=
  match inner with
  | '#' :: rest@(_ :: _) =>
    match parameterName rest with
    | some (name, []) => some (.parameter name "length" [] quoted)
    | _ => ordinary
  | _ => ordinary
where
  /-- A name, perhaps with an operator and an operand. -/
  ordinary : Option Part := do
    let (name, rest) ← parameterName inner
    if rest = [] then some (.parameter name "" [] quoted)
    else
      let op ← parameterOperators.find? fun op => (Text.after? op.toList rest).isSome
      some (.parameter name op (rest.drop op.length) quoted)

/-- The expansion behind a dollar, and what follows it. A dollar that opens nothing is text. -/
def dollar (quoted : Bool) (cs : List Char) : Option (Part × List Char) :=
  let single := fun (name : Char) => Part.parameter (String.singleton name) "" [] quoted
  match cs with
  | '(' :: '(' :: rest =>
    match bracketed '(' ')' (rest.length + 1) 0 none rest with
    | some (inner, ')' :: after) => some (.arithmetic inner quoted, after)
    | _ => command cs
  | '(' :: _ => command cs
  | '\x7b' :: rest => do
    let (inner, after) ← bracketed '\x7b' '\x7d' (rest.length + 1) 0 none rest
    let part ← braced? inner quoted
    some (part, after)
  | c :: rest =>
    if Text.isDigit c then some (single c, rest)
    else match parameterName cs with
      | some (name, after) => some (.parameter name "" [] quoted, after)
      | none => some (.text ['$'] quoted, cs)
  | [] => some (.text ['$'] quoted, [])
where
  /-- A script between parentheses. -/
  command (cs : List Char) : Option (Part × List Char) := do
    let rest := cs.drop 1
    let (inner, after) ← bracketed '(' ')' (rest.length + 1) 0 none rest
    some (.output inner quoted, after)

/-! ## Words -/

/-- Add a character to the parts of a word, the latest part first. -/
def addChar (c : Char) (quoted : Bool) : Word → Word
  | .text s q :: rest => if q == quoted then .text (c :: s) q :: rest else .text [c] quoted :: .text s q :: rest
  | parts => .text [c] quoted :: parts

/-- Put parts that were gathered backward in order. -/
def inOrder (parts : Word) : Word :=
  (parts.map fun
    | .text s q => .text s.reverse q
    | p => p).reverse

/-- Text between double quotes, up to the closing one. -/
def doubleQuoted : Nat → Word → List Char → Option (Word × List Char)
  | 0, _, _ => none
  | _, _, [] => none
  | _, parts, '"' :: rest => some (parts, rest)
  | fuel + 1, parts, '\\' :: '\n' :: rest => doubleQuoted fuel parts rest
  | fuel + 1, parts, '\\' :: c :: rest =>
    if c == '$' || c == '`' || c == '"' || c == '\\' then
      doubleQuoted fuel (addChar c true parts) rest
    else doubleQuoted fuel (addChar c true (addChar '\\' true parts)) rest
  | fuel + 1, parts, '$' :: rest => do
    let (part, rest) ← dollar true rest
    match part with
    | .text [c] q => doubleQuoted fuel (addChar c q parts) rest
    | part => doubleQuoted fuel (part :: parts) rest
  | fuel + 1, parts, '`' :: rest => do
    let (script, rest) ← backQuoted rest
    doubleQuoted fuel (.output script true :: parts) rest
  | fuel + 1, parts, c :: rest => doubleQuoted fuel (addChar c true parts) rest

/-- A character that ends a word. -/
def endsWord (c : Char) : Bool :=
  [' ', '\t', '\n', ';', '&', '|', '<', '>', '(', ')'].contains c

/-- The parts of a word up to a character that `stops` it, the latest first. -/
def wordParts (stops : Char → Bool) : Nat → Word → List Char → Option (Word × List Char)
  | 0, _, _ => none
  | _, parts, [] => some (parts, [])
  | fuel + 1, parts, '\\' :: '\n' :: rest => wordParts stops fuel parts rest
  | fuel + 1, parts, '\\' :: c :: rest => wordParts stops fuel (addChar c true parts) rest
  | fuel + 1, parts, '\'' :: rest => do
    let (s, rest) ← singleQuoted rest
    wordParts stops fuel (.text s.reverse true :: parts) rest
  | fuel + 1, parts, '"' :: rest => do
    let (parts, rest) ← doubleQuoted (rest.length + 1) (.text [] true :: parts) rest
    wordParts stops fuel parts rest
  | fuel + 1, parts, '$' :: rest => do
    let (part, rest) ← dollar false rest
    match part with
    | .text [c] q => wordParts stops fuel (addChar c q parts) rest
    | part => wordParts stops fuel (part :: parts) rest
  | fuel + 1, parts, '`' :: rest => do
    let (script, rest) ← backQuoted rest
    wordParts stops fuel (.output script false :: parts) rest
  | fuel + 1, parts, c :: rest =>
    if stops c then some (parts, c :: rest)
    else wordParts stops fuel (addChar c false parts) rest

/-- The word at the start of some text. -/
def word? (cs : List Char) : Option (Word × List Char) :=
  (wordParts endsWord (cs.length + 1) [] cs).map fun (parts, rest) => (inOrder parts, rest)

/-- All of some text as one word. -/
def wholeWord? (cs : List Char) : Option Word :=
  (wordParts (fun _ => false) (cs.length + 1) [] cs).map fun (parts, _) => inOrder parts

/-- Text that is expanded as if between double quotes, where a double quote is text. -/
def quotedWord? (cs : List Char) : Option Word :=
  let protect := cs.flatMap fun c => if c == '"' then ['\\', '"'] else [c]
  (doubleQuoted (protect.length + 2) [] (protect ++ ['"'])).map fun (parts, _) => inOrder parts

/-- An operand between double quotes, in which double quotes only mark what is quoted anyway. -/
def quotedOperand : Nat → Word → List Char → Option Word
  | 0, _, _ => none
  | fuel + 1, parts, cs => do
    let (parts, rest) ← doubleQuoted (cs.length + 1) parts cs
    if rest = [] then some (inOrder parts) else quotedOperand fuel parts rest

/-- Read an operand between double quotes. -/
def quotedOperand? (cs : List Char) : Option Word :=
  quotedOperand (cs.length + 1) [] (cs ++ ['"'])

/-- The text of a word in which nothing is quoted or expanded. -/
def plainText? : Word → Option String
  | [.text s false] => some (String.ofList s)
  | _ => none

/-- The text of a word with its quotes taken away, expansions left out, and whether there were
quotes. -/
def delimiterOf (w : Word) : List Char × Bool :=
  (w.flatMap fun
    | .text s _ => s
    | _ => [],
   w.any fun
    | .text _ q => q
    | _ => false)

/-! ## Scripts -/

/-- The operators, the longer ones first. -/
def operators : List String :=
  ["<<-", "&&", "||", ";;", "<<", ">>", "<&", ">&", "<>", ">|", "&", "|", ";", "(", ")", "<", ">"]

/-- The lines of a here-document up to its delimiter, and what follows them. -/
def documentBody (strip : Bool) (delimiter : List Char) : Nat → List Char →
    List Char × List Char × Nat
  | 0, cs => ([], cs, 0)
  | fuel + 1, cs =>
    if cs = [] then ([], [], 0)
    else
      let raw := cs.takeWhile (· != '\n')
      let after := (cs.drop raw.length).drop 1
      let line := if strip then raw.dropWhile (· == '\t') else raw
      if line = delimiter then ([], after, 1)
      else
        let (body, rest, n) := documentBody strip delimiter fuel after
        (line ++ '\n' :: body, rest, n + 1)

/-- Here-documents that are still to be read : whether tabs are stripped, the delimiter, and
whether it was quoted. -/
abbrev Pending := List (Bool × List Char × Bool)

/-- Put the texts of here-documents where their delimiters were noted. -/
def fillDocuments (bodies : List (List Char)) (tokens : List Token) : List Token :=
  (tokens.foldl (fun (acc : List Token × List (List Char)) t =>
    match t.kind, acc.2 with
    | .document [] e, b :: rest => (({ t with kind := .document b e } : Token) :: acc.1, rest)
    | _, bodies => (t :: acc.1, bodies)) ([], bodies)).1.reverse

/-- Read the here-documents that are due at a line end. -/
def documents (pending : Pending) (cs : List Char) : List (List Char) × List Char × Nat :=
  pending.foldl (fun (acc : List (List Char) × List Char × Nat) p =>
    let (body, rest, n) := documentBody p.1 p.2.1 (acc.2.1.length + 1) acc.2.1
    (acc.1 ++ [body], rest, acc.2.2 + n)) ([], cs, 0)

/-- A line feed in some text. -/
def lineFeeds (cs : List Char) : Nat := cs.count '\n'

/-- What was cut off a script : its tokens, and whether a quote or bracket was left open at the
end, before which no token is missing. -/
structure Scanned where
  tokens : List Token
  isOpen : Bool := false

/-- The whole of a script is read : fill in the here-documents. -/
def finish (bodies : List (List Char)) (found : List Token) (isOpen : Bool) : Scanned :=
  ⟨fillDocuments bodies found.reverse, isOpen⟩

/-- Cut a script into tokens, those found so far in reverse. -/
def scan : Nat → (line : Nat) → Pending → (bodies : List (List Char)) → List Token → List Char →
    Scanned
  | 0, _, _, bodies, found, _ => finish bodies found true
  | fuel + 1, line, pending, bodies, found, cs =>
    match cs with
    | [] => finish (bodies ++ (documents pending []).1) found false
    | ' ' :: rest | '\t' :: rest => scan fuel line pending bodies found rest
    | '\\' :: '\n' :: rest => scan fuel (line + 1) pending bodies found rest
    | '#' :: rest =>
      scan fuel line pending bodies found (rest.dropWhile (· != '\n'))
    | '\n' :: rest =>
      let (more, rest, n) := documents pending rest
      scan fuel (line + 1 + n) [] (bodies ++ more) (⟨.newline, line⟩ :: found) rest
    | cs =>
      match operators.find? fun op => (Text.after? op.toList cs).isSome with
      | some op =>
        let rest := cs.drop op.length
        if op = "<<" ∨ op = "<<-" then
          match word? (rest.dropWhile fun c => c == ' ' || c == '\t') with
          | none => finish bodies found true
          | some (w, rest) =>
            let (delimiter, quoted) := delimiterOf w
            scan fuel line (pending ++ [(op == "<<-", delimiter, quoted)]) bodies
              (⟨.document [] (!quoted), line⟩ :: found) rest
        else scan fuel line pending bodies (⟨.operator op, line⟩ :: found) rest
      | none =>
        let digits := cs.takeWhile Text.isDigit
        let after := cs.drop digits.length
        if digits ≠ [] ∧ (after.head? = some '<' ∨ after.head? = some '>') then
          let n := (Text.number? 10 digits).getD 0
          scan fuel line pending bodies (⟨.descriptor n, line⟩ :: found) after
        else
          match word? cs with
          | none => finish bodies found true
          | some (w, rest) =>
            let passed := lineFeeds (cs.take (cs.length - rest.length))
            scan fuel (line + passed) pending bodies (⟨.word w, line⟩ :: found) rest

/-- The tokens of a script. -/
def ofScript (cs : List Char) : Scanned := scan (cs.length + 1) 1 [] [] [] cs

end Token

end Formulary.Shell
