import Formulary.Shell.Token

/-!
# Shell scripts

The commands of a script and their grammar. Reserved words are those words, unquoted, that stand
where a command may start.
-/

namespace Formulary.Shell

/-- What a redirection does. -/
inductive Redirection where
  | read (fd : Nat) (target : Word)
  | write (fd : Nat) (target : Word)
  | append (fd : Nat) (target : Word)
  | duplicate (fd : Nat) (target : Word)
  | document (fd : Nat) (text : List Char) (expands : Bool)
deriving DecidableEq, Inhabited

/-- A simple command. -/
structure Simple where
  line : Nat
  assignments : List (String × Word) := []
  words : List Word := []
  redirections : List Redirection := []
deriving DecidableEq, Inhabited

/-- A script, or a part of one. -/
inductive Script where
  | simple (c : Simple)
  | pipeline (negated : Bool) (stages : List Script)
  /-- The second part runs only if the first succeeds. -/
  | andThen (a b : Script)
  /-- The second part runs only if the first fails. -/
  | orElse (a b : Script)
  | sequence (parts : List Script)
  | branch (condition yes : Script) (no : Option Script)
  /-- Repeated as long as the condition succeeds, or, for `until`, fails. -/
  | loop (untilSuccess : Bool) (condition body : Script)
  | each (name : String) (words : Option (List Word)) (body : Script)
  | choice (subject : Word) (cases : List (List Word × Script))
  | group (body : Script) (redirections : List Redirection)
  | subshell (body : Script) (redirections : List Redirection)
  | define (name : String) (body : Script)
  /-- Not waited for. -/
  | aside (body : Script)

instance : Inhabited Script := ⟨.sequence []⟩

namespace Grammar

/-! ## Reading tokens -/

/-- A token that cannot stand where it does : its line, unless it is the end of the script, and
what is printed of it. -/
structure Unexpected where
  line : Option Nat
  message : String

/-- A reader of tokens. -/
abbrev Reader (α : Type) := List Token → Except Unexpected (α × List Token)

/-- What a token is called in a message. -/
def tokenName : TokenKind → String
  | .operator s => "\"" ++ s ++ "\""
  | .newline => "newline"
  | .word w =>
    match Token.plainText? w with
    | some s => "\"" ++ s ++ "\""
    | none => "word"
  | .descriptor n => "\"" ++ Text.decimal n ++ "\""
  | .document _ _ => "redirection"

/-- The token at the front cannot stand there. -/
def unexpected : List Token → Unexpected
  | [] => ⟨none, "end of file unexpected"⟩
  | t :: _ => ⟨some t.line, tokenName t.kind ++ " unexpected"⟩

/-- The unquoted text of the word at the front. -/
def keyword? : List Token → Option String
  | ⟨.word w, _⟩ :: _ => Token.plainText? w
  | _ => none

/-- The operator at the front. -/
def operator? : List Token → Option String
  | ⟨.operator s, _⟩ :: _ => some s
  | _ => none

/-- Pass over line ends. -/
def skipLines : List Token → List Token
  | ⟨.newline, _⟩ :: rest => skipLines rest
  | ts => ts

/-- The token at the front stands where another one should. -/
def expecting (word : String) (ts : List Token) : Unexpected :=
  let u := unexpected ts
  { u with message := u.message ++ " (expecting \"" ++ word ++ "\")" }

/-- Read a reserved word. -/
def expect (word : String) : Reader Unit := fun ts =>
  if keyword? ts = some word then .ok ((), ts.drop 1) else .error (expecting word ts)

/-- The words that cannot start a command. -/
def closers : List String :=
  ["then", "else", "elif", "fi", "do", "done", "esac", "\x7d"]

/-- The words at the front of a list of commands that end it. -/
def endsList (ts : List Token) : Bool :=
  match ts with
  | [] => true
  | _ =>
    match keyword? ts, operator? ts with
    | some w, _ => closers.contains w
    | _, some op => op == ")" || op == ";;"
    | _, _ => false

/-! ## Redirections -/

/-- The redirection at the front, if there is one. -/
def redirection (ts : List Token) : Except Unexpected (Option Redirection × List Token) :=
  let (fd, ts) := match ts with
    | ⟨.descriptor n, _⟩ :: rest => (some n, rest)
    | _ => (none, ts)
  match ts with
  | ⟨.document text expands, _⟩ :: rest =>
    .ok (some (.document (fd.getD 0) text expands), rest)
  | ⟨.operator op, _⟩ :: ⟨.word w, _⟩ :: rest =>
    match op with
    | "<" => .ok (some (.read (fd.getD 0) w), rest)
    | ">" | ">|" => .ok (some (.write (fd.getD 1) w), rest)
    | ">>" => .ok (some (.append (fd.getD 1) w), rest)
    | "<&" => .ok (some (.duplicate (fd.getD 0) w), rest)
    | ">&" => .ok (some (.duplicate (fd.getD 1) w), rest)
    | "<>" => .ok (some (.read (fd.getD 0) w), rest)
    | _ => .ok (none, ts)
  | ⟨.operator op, _⟩ :: rest =>
    if ["<", ">", ">|", ">>", "<&", ">&", "<>"].contains op then .error (unexpected rest)
    else .ok (none, ts)
  | _ => .ok (none, ts)

/-- Every redirection at the front. -/
def redirections : Nat → Reader (List Redirection)
  | 0, ts => .ok ([], ts)
  | fuel + 1, ts => do
    match ← redirection ts with
    | (some r, rest) =>
      let (more, rest) ← redirections fuel rest
      pure (r :: more, rest)
    | (none, rest) => pure ([], rest)

/-! ## Simple commands -/

/-- A word that assigns to a variable. -/
def assignment? (w : Word) : Option (String × Word) :=
  match w with
  | .text s false :: rest =>
    let name := s.takeWhile Token.inName
    match s.drop name.length with
    | '=' :: value =>
      if (name.head?.map Token.startsName).getD false then
        some (String.ofList name, if value = [] then rest else .text value false :: rest)
      else none
    | _ => none
  | _ => none

/-- Words and redirections up to an operator. -/
def simpleParts : Nat → Simple → Reader Simple
  | 0, c, ts => .ok (c, ts)
  | fuel + 1, c, ts => do
    match ← redirection ts with
    | (some r, rest) =>
      simpleParts fuel { c with redirections := c.redirections ++ [r] } rest
    | (none, _) =>
      match ts with
      | ⟨.word w, _⟩ :: rest =>
        match c.words, assignment? w with
        | [], some a => simpleParts fuel { c with assignments := c.assignments ++ [a] } rest
        | _, _ => simpleParts fuel { c with words := c.words ++ [w] } rest
      | _ => pure (c, ts)

/-! ## Commands -/

/-- The patterns of a case, which a closing parenthesis ends. -/
def patterns : Nat → Reader (List Word)
  | 0, ts => .error (unexpected ts)
  | fuel + 1, ts =>
    match ts with
    | ⟨.word w, _⟩ :: ⟨.operator "|", _⟩ :: rest => do
      let (more, rest) ← patterns fuel rest
      pure (w :: more, rest)
    | ⟨.word w, _⟩ :: ⟨.operator ")", _⟩ :: rest => .ok ([w], rest)
    | ⟨.word _, _⟩ :: rest => .error (expecting ")" rest)
    | ts => .error (expecting ")" ts)

/-- The words after `in`. -/
def wordList : List Token → List Word × List Token
  | ⟨.word w, _⟩ :: rest =>
    let (more, rest) := wordList rest
    (w :: more, rest)
  | ts => ([], ts)

/-- Pass over a semicolon and line ends. -/
def skipSeparators (ts : List Token) : List Token :=
  match ts with
  | ⟨.operator ";", _⟩ :: rest => skipLines rest
  | ts => skipLines ts

mutual

/-- A list of commands, of which there is at least one. -/
def list : Nat → Reader Script
  | 0, ts => .error (unexpected ts)
  | fuel + 1, ts => do
    let ts := skipLines ts
    let (parts, rest) ← listParts fuel ts
    if parts.isEmpty then .error (unexpected ts) else pure (.sequence parts, rest)

/-- A list of commands that may be empty. -/
def maybeList : Nat → Reader Script
  | 0, ts => .error (unexpected ts)
  | fuel + 1, ts => do
    let (parts, rest) ← listParts fuel (skipLines ts)
    pure (.sequence parts, rest)

/-- The commands of a list. -/
def listParts : Nat → Reader (List Script)
  | 0, ts => .error (unexpected ts)
  | fuel + 1, ts =>
    if endsList ts then .ok ([], ts)
    else do
      let (a, rest) ← andOr fuel ts
      match rest with
      | ⟨.operator ";", _⟩ :: rest =>
        let (more, rest) ← listParts fuel (skipLines rest)
        pure (a :: more, rest)
      | ⟨.operator "&", _⟩ :: rest =>
        let (more, rest) ← listParts fuel (skipLines rest)
        pure (.aside a :: more, rest)
      | ⟨.newline, _⟩ :: rest =>
        let (more, rest) ← listParts fuel (skipLines rest)
        pure (a :: more, rest)
      | rest => pure ([a], rest)

/-- Pipelines joined by `&&` and `||`. -/
def andOr : Nat → Reader Script
  | 0, ts => .error (unexpected ts)
  | fuel + 1, ts => do
    let (a, rest) ← pipeline fuel ts
    andOrRest fuel a rest

/-- What is joined to the pipelines read so far. -/
def andOrRest : Nat → Script → Reader Script
  | 0, _, ts => .error (unexpected ts)
  | fuel + 1, a, ts =>
    match operator? ts with
    | some "&&" => do
      let (b, rest) ← pipeline fuel (skipLines (ts.drop 1))
      andOrRest fuel (.andThen a b) rest
    | some "||" => do
      let (b, rest) ← pipeline fuel (skipLines (ts.drop 1))
      andOrRest fuel (.orElse a b) rest
    | _ => .ok (a, ts)

/-- A pipeline, perhaps negated. -/
def pipeline : Nat → Reader Script
  | 0, ts => .error (unexpected ts)
  | fuel + 1, ts =>
    if keyword? ts = some "!" then do
      let (stages, rest) ← stages fuel (ts.drop 1)
      pure (.pipeline true stages, rest)
    else do
      let (stages, rest) ← stages fuel ts
      match stages with
      | [one] => pure (one, rest)
      | stages => pure (.pipeline false stages, rest)

/-- The stages of a pipeline. -/
def stages : Nat → Reader (List Script)
  | 0, ts => .error (unexpected ts)
  | fuel + 1, ts => do
    let (a, rest) ← command fuel ts
    match operator? rest with
    | some "|" =>
      let (more, rest) ← stages fuel (skipLines (rest.drop 1))
      pure (a :: more, rest)
    | _ => pure ([a], rest)

/-- One command. -/
def command : Nat → Reader Script
  | 0, ts => .error (unexpected ts)
  | fuel + 1, ts =>
    match keyword? ts, operator? ts with
    | some "if", _ => do
      let (c, rest) ← branches fuel (ts.drop 1)
      withRedirections fuel c rest
    | some "while", _ => do
      let (c, rest) ← loopRest fuel false (ts.drop 1)
      withRedirections fuel c rest
    | some "until", _ => do
      let (c, rest) ← loopRest fuel true (ts.drop 1)
      withRedirections fuel c rest
    | some "for", _ => do
      let (c, rest) ← eachRest fuel (ts.drop 1)
      withRedirections fuel c rest
    | some "case", _ => do
      let (c, rest) ← choiceRest fuel (ts.drop 1)
      withRedirections fuel c rest
    | some "\x7b", _ => do
      let (body, rest) ← list fuel (ts.drop 1)
      let ((), rest) ← expect "\x7d" rest
      let (rs, rest) ← redirections (rest.length + 1) rest
      pure (.group body rs, rest)
    | _, some "(" => do
      let (body, rest) ← list fuel (ts.drop 1)
      if operator? rest = some ")" then
        let (rs, rest) ← redirections (rest.length + 1) (rest.drop 1)
        pure (.subshell body rs, rest)
      else .error (unexpected rest)
    | some w, _ =>
      if closers.contains w then .error (unexpected ts)
      else match ts with
        | _ :: ⟨.operator "(", _⟩ :: ⟨.operator ")", _⟩ :: rest => do
          let (body, rest) ← command fuel (skipLines rest)
          pure (.define w body, rest)
        | _ => plain ts
    | _, _ => plain ts

/-- A compound command with the redirections behind it. -/
def withRedirections : Nat → Script → Reader Script
  | 0, _, ts => .error (unexpected ts)
  | _ + 1, c, ts => do
    let (rs, rest) ← redirections (ts.length + 1) ts
    pure (if rs.isEmpty then c else .group c rs, rest)

/-- A simple command. -/
def plain (ts : List Token) : Except Unexpected (Script × List Token) := do
  let line := (ts.head?.map Token.line).getD 0
  let (c, rest) ← simpleParts (ts.length + 1) { line } ts
  if c.words.isEmpty ∧ c.assignments.isEmpty ∧ c.redirections.isEmpty then
    .error (unexpected ts)
  else pure (.simple c, rest)

/-- Conditions and what depends on them, up to `fi`. -/
def branches : Nat → Reader Script
  | 0, ts => .error (unexpected ts)
  | fuel + 1, ts => do
    let (condition, rest) ← list fuel ts
    let ((), rest) ← expect "then" rest
    let (yes, rest) ← list fuel rest
    match keyword? rest with
    | some "elif" =>
      let (no, rest) ← branches fuel (rest.drop 1)
      pure (.branch condition yes (some no), rest)
    | some "else" =>
      let (no, rest) ← list fuel (rest.drop 1)
      let ((), rest) ← expect "fi" rest
      pure (.branch condition yes (some no), rest)
    | _ =>
      let ((), rest) ← expect "fi" rest
      pure (.branch condition yes none, rest)

/-- The condition and the body of a loop. -/
def loopRest : Nat → Bool → Reader Script
  | 0, _, ts => .error (unexpected ts)
  | fuel + 1, untilSuccess, ts => do
    let (condition, rest) ← list fuel ts
    let (body, rest) ← body fuel rest
    pure (.loop untilSuccess condition body, rest)

/-- A body between `do` and `done`. -/
def body : Nat → Reader Script
  | 0, ts => .error (unexpected ts)
  | fuel + 1, ts => do
    let ((), rest) ← expect "do" ts
    let (b, rest) ← list fuel rest
    let ((), rest) ← expect "done" rest
    pure (b, rest)

/-- The name, the words and the body of a loop over words. -/
def eachRest : Nat → Reader Script
  | 0, ts => .error (unexpected ts)
  | fuel + 1, ts =>
    match keyword? ts with
    | none => .error { unexpected ts with message := "Bad for loop variable" }
    | some name => do
      let rest := skipLines (ts.drop 1)
      if keyword? rest = some "in" then
        let (words, rest) := wordList (rest.drop 1)
        let (body, rest) ← body fuel (skipSeparators rest)
        pure (.each name (some words) body, rest)
      else
        let (body, rest) ← body fuel (skipSeparators rest)
        pure (.each name none body, rest)

/-- The subject and the cases of a choice. -/
def choiceRest : Nat → Reader Script
  | 0, ts => .error (unexpected ts)
  | fuel + 1, ts =>
    match ts with
    | ⟨.word subject, _⟩ :: rest => do
      let ((), rest) ← expect "in" (skipLines rest)
      let (cases, rest) ← choiceCases fuel (skipLines rest)
      pure (.choice subject cases, rest)
    | ts => .error (unexpected ts)

/-- The cases of a choice, up to `esac`. -/
def choiceCases : Nat → Reader (List (List Word × Script))
  | 0, ts => .error (unexpected ts)
  | fuel + 1, ts =>
    if keyword? ts = some "esac" then .ok ([], ts.drop 1)
    else do
      let ts := if operator? ts = some "(" then ts.drop 1 else ts
      let (ps, rest) ← patterns (ts.length + 1) ts
      let (body, rest) ← maybeList fuel rest
      match operator? rest with
      | some ";;" =>
        let (more, rest) ← choiceCases fuel (skipLines (rest.drop 1))
        pure ((ps, body) :: more, rest)
      | _ =>
        let ((), rest) ← expect "esac" rest
        pure ([(ps, body)], rest)

end

/-- The commands up to the end of a line. -/
def line (depth : Nat) : Nat → Reader (List Script)
  | 0, ts => .error (unexpected ts)
  | fuel + 1, ts =>
    match ts with
    | [] => .ok ([], [])
    | ⟨.newline, _⟩ :: rest => .ok ([], rest)
    | ts => do
      let (a, rest) ← andOr depth ts
      match rest with
      | [] | ⟨.newline, _⟩ :: _ => pure ([a], rest.drop 1)
      | ⟨.operator ";", _⟩ :: rest =>
        let (more, rest) ← line depth fuel rest
        pure (a :: more, rest)
      | ⟨.operator "&", _⟩ :: rest =>
        let (more, rest) ← line depth fuel rest
        pure (.aside a :: more, rest)
      | rest => .error (unexpected rest)

end Grammar

/-- A whole script, cut into lines of commands that are run one after the other, up to the first
fault of its grammar. -/
structure Program where
  lines : List Script
  fault : Option (Nat × String) := none

namespace Program

/-- Read lines. -/
def ofLines (isOpen : Bool) (lastLine depth : Nat) : Nat → List Token → Program
  | 0, _ => ⟨[], none⟩
  | fuel + 1, ts =>
    match Grammar.skipLines ts with
    | [] => ⟨[], none⟩
    | ts =>
      let unclosed : Program := ⟨[], some (lastLine, "Unterminated quoted string")⟩
      match Grammar.line depth (ts.length + 1) ts with
      | .error u => if isOpen then unclosed else ⟨[], some (u.line.getD lastLine, u.message)⟩
      | .ok (parts, rest) =>
        let closed := ts[ts.length - rest.length - 1]?.map Token.kind == some .newline
        if isOpen && rest.isEmpty && !closed then unclosed
        else
          let more := ofLines isOpen lastLine depth fuel rest
          ⟨.sequence parts :: more.lines, more.fault⟩

/-- Read a script. -/
def parse (cs : List Char) : Program :=
  let scanned := Token.ofScript cs
  let ts := scanned.tokens
  let lastLine := Token.lineFeeds cs + 1
  let p := ofLines scanned.isOpen lastLine (8 * ts.length + 16) (ts.length + 1) ts
  if scanned.isOpen && p.fault.isNone then
    { p with fault := some (lastLine, "Unterminated quoted string") }
  else p

end Program

end Formulary.Shell
