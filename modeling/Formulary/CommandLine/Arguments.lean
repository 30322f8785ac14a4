import Formulary.Path
import Formulary.Text

/-!
# Arguments of the command line

Reading what was asked for. Options may stand before and after the operand of a command, with
their values behind a blank or an equals sign; after `--` everything is an operand.
-/

namespace Formulary.CommandLine

/-! ## What can be asked for -/

/-- How a command gets its source. -/
structure SourceOptions where
  sourceCache : Option Path := none
  noCache : Bool := false
  noProbe : Bool := false
deriving DecidableEq, Inhabited

/-- A command with its options. -/
inductive Action where
  | cook (formula : Path) (source : SourceOptions) (base : Option Path) (jobs : Option UInt32)
      (keepBuildDirectory json : Bool)
  | fetch (formula : Path) (source : SourceOptions)
  | flags (formula : Path) (source : SourceOptions) (json : Bool)
  | deps (formula : Path) (json : Bool)
  | validate (formula : Path)
deriving DecidableEq, Inhabited

/-- Everything that was asked for. -/
structure Invocation where
  config : Option Path := none
  action : Action
deriving DecidableEq, Inhabited

/-- Why nothing is done. -/
inductive Refusal where
  /-- The arguments make no sense, with what is wrong. -/
  | usage (message : String)
  | help
  | version
deriving DecidableEq, Inhabited

/-! ## Rules -/

/-- What an option takes. -/
inductive ValueKind where
  /-- Nothing. -/
  | switch
  /-- A path, which is not empty. -/
  | path
  /-- A number of 32 bits. -/
  | word
deriving DecidableEq, Inhabited

/-- An option. -/
structure Rule where
  long : String
  short : Option Char := none
  kind : ValueKind := .switch
deriving DecidableEq, Inhabited

/-- The option that every command has. -/
def configRule : Rule := ⟨"config", some 'c', .path⟩

/-- The options of commands that get sources. -/
def sourceRules : List Rule := [⟨"source-cache", none, .path⟩, ⟨"no-cache", none, .switch⟩,
  ⟨"no-probe", none, .switch⟩]

/-- Print JSON. -/
def jsonRule : Rule := ⟨"json", none, .switch⟩

/-- The commands with their options. -/
def commands : List (String × List Rule) :=
  [("cook", ⟨"prefix", some 'p', .path⟩ :: sourceRules ++
      [⟨"jobs", some 'j', .word⟩, ⟨"keep-builddir", none, .switch⟩, jsonRule]),
   ("fetch", sourceRules),
   ("flags", sourceRules ++ [jsonRule]),
   ("deps", [jsonRule]),
   ("validate", [])]

/-! ## Values -/

/-- The number of 32 bits that a text writes, with a sign or none. -/
def word? (s : String) : Option UInt32 :=
  let (negative, ds) := match s.toList with
    | '-' :: ds => (true, ds)
    | '+' :: ds => (false, ds)
    | ds => (false, ds)
  if !ds.all Text.isDigit then none
  else match Text.number? 10 ds with
    | some n => if n < UInt32.size ∧ (negative → n = 0) then some n.toUInt32 else none
    | none => none

/-- A text will do as a value. -/
def fits (kind : ValueKind) (value : String) : Bool :=
  match kind with
  | .switch => false
  | .path => value != ""
  | .word => (word? value).isSome

/-- What was given so far. -/
structure Given where
  /-- Options by their long names; those that take nothing have an empty value. -/
  options : List (String × String) := []
  operand : Option String := none

namespace Given

/-- The value of an option. -/
def value? (g : Given) (long : String) : Option String := g.options.lookup long

/-- The path that an option gives. -/
def path? (g : Given) (long : String) : Option Path := (g.value? long).map Path.mk

/-- An option was given. -/
def has (g : Given) (long : String) : Bool := (g.value? long).isSome

/-- Note an option, which may be given once only. -/
def note (g : Given) (r : Rule) (value : String) : Except Refusal Given :=
  if g.has r.long then
    .error (.usage ("the argument '--" ++ r.long ++ "' cannot be used multiple times"))
  else if r.kind ≠ .switch ∧ !fits r.kind value then
    .error (.usage ("invalid value '" ++ value ++ "' for '--" ++ r.long ++ "'"))
  else .ok { g with options := (r.long, value) :: g.options }

end Given

/-! ## Reading -/

/-- An argument that no rule allows. -/
def unexpected (argument : String) : Refusal :=
  .usage ("unexpected argument '" ++ argument ++ "' found")

/-- An option without its value. -/
def noValue (r : Rule) : Refusal :=
  .usage ("a value is required for '--" ++ r.long ++ "' but none was supplied")

/-- The text looks like an option. -/
def looksLikeOption (s : String) : Bool := Text.startsWith s "-" && s != "-"

/-- Note an option whose value is the next argument. -/
def noteNext (g : Given) (r : Rule) : List String → Except Refusal (Given × List String)
  | v :: rest =>
    if looksLikeOption v then .error (noValue r) else (g.note r v).map fun g => (g, rest)
  | [] => .error (noValue r)

/-- Read an option by its long name. -/
def readLong (rules : List Rule) (hasVersion : Bool) (g : Given) (text : String)
    (rest : List String) : Except Refusal (Given × List String) :=
  let (name, value) := match Text.splitOnce '=' text with
    | some (name, value) => (name, some value)
    | none => (text, none)
  if name = "help" ∧ value = none then .error .help
  else if name = "version" ∧ value = none ∧ hasVersion then .error .version
  else match rules.find? fun r => r.long = name with
    | none => .error (unexpected ("--" ++ text))
    | some r =>
      match r.kind, value with
      | .switch, none => (g.note r "").map fun g => (g, rest)
      | .switch, some _ => .error (unexpected ("--" ++ text))
      | _, some v => if v = "" then .error (noValue r) else (g.note r v).map fun g => (g, rest)
      | _, none => noteNext g r rest

/-- Read options by their letters, of which only the last may take a value. -/
def readShort (rules : List Rule) (hasVersion : Bool) (rest : List String) :
    Given → List Char → Except Refusal (Given × List String)
  | g, [] => .ok (g, rest)
  | g, c :: cs =>
    if c = 'h' then .error .help
    else if c = 'V' ∧ hasVersion then .error .version
    else match rules.find? fun r => r.short = some c with
      | none => .error (unexpected ("-" ++ String.singleton c))
      | some r =>
        if r.kind = .switch then do readShort rules hasVersion rest (← g.note r "") cs
        else match cs with
          | [] => noteNext g r rest
          | '=' :: v => if v = [] then .error (noValue r) else
            (g.note r (String.ofList v)).map fun g => (g, rest)
          | v => (g.note r (String.ofList v)).map fun g => (g, rest)

/-- Read an option. -/
def readOption (rules : List Rule) (hasVersion : Bool) (g : Given) (a : String)
    (rest : List String) : Except Refusal (Given × List String) :=
  match a.toList with
  | '-' :: '-' :: name => readLong rules hasVersion g (String.ofList name) rest
  | '-' :: letters => readShort rules hasVersion rest g letters
  | _ => .ok (g, rest)

/-- Note the operand, of which there is one. -/
def noteOperand (g : Given) (a : String) : Except Refusal Given :=
  match g.operand with
  | some _ => .error (unexpected a)
  | none =>
    if a = "" then .error (.usage "a value is required for '<FORMULA>' but none was supplied")
    else .ok { g with operand := some a }

/-- Read the arguments of a command. -/
def readCommand (rules : List Rule) : Nat → Given → List String → Except Refusal Given
  | _, g, [] => .ok g
  | 0, g, _ => .ok g
  | fuel + 1, g, a :: rest => do
    if a = "--" then rest.foldlM noteOperand g
    else if looksLikeOption a then
      let (g, rest) ← readOption rules false g a rest
      readCommand rules fuel g rest
    else readCommand rules fuel (← noteOperand g a) rest

/-- Read the options before the command. The first other argument is its name. -/
def readOuter : Nat → Given → List String → Except Refusal (Given × List String)
  | _, g, [] => .ok (g, [])
  | 0, g, rest => .ok (g, rest)
  | fuel + 1, g, a :: rest => do
    if a = "--" then
      match rest with
      | [] => pure (g, [])
      | b :: _ => throw (unexpected b)
    else if looksLikeOption a then
      let (g, rest) ← readOption [configRule] true g a rest
      readOuter fuel g rest
    else pure (g, a :: rest)

/-- How a command gets its source. -/
def sourceOptions (g : Given) : Except Refusal SourceOptions :=
  if g.has "no-cache" ∧ g.has "source-cache" then
    .error (.usage
      "the argument '--no-cache' cannot be used with '--source-cache <SOURCE_CACHE>'")
  else .ok ⟨g.path? "source-cache", g.has "no-cache", g.has "no-probe"⟩

/-- The command that was asked for. -/
def actionOf (command : String) (g : Given) : Except Refusal Action := do
  match g.operand with
  | none =>
    throw (.usage "the following required arguments were not provided:\n  <FORMULA>")
  | some operand =>
    let formula : Path := ⟨operand⟩
    let source ← sourceOptions g
    match command with
    | "cook" =>
      pure (.cook formula source (g.path? "prefix") ((g.value? "jobs").bind word?)
        (g.has "keep-builddir") (g.has "json"))
    | "fetch" => pure (.fetch formula source)
    | "flags" => pure (.flags formula source (g.has "json"))
    | "deps" => pure (.deps formula (g.has "json"))
    | _ => pure (.validate formula)

/-- Read the arguments. -/
def parse (arguments : List String) : Except Refusal Invocation := do
  let fuel := arguments.length + 1
  let (outer, rest) ← readOuter fuel {} arguments
  match rest with
  | [] => throw (.usage "'kiln' requires a subcommand but one was not provided")
  | ["help"] => throw .help
  | ["help", name] =>
    if (commands.lookup name).isSome ∨ name = "help" then throw .help
    else throw (.usage ("unrecognized subcommand '" ++ name ++ "'"))
  | command :: rest =>
    match commands.lookup command with
    | none => throw (.usage ("unrecognized subcommand '" ++ command ++ "'"))
    | some rules =>
      let g ← readCommand (configRule :: rules) fuel {} rest
      pure ⟨(g.path? "config").or (outer.path? "config"), ← actionOf command g⟩

end Formulary.CommandLine
