import Formulary.Shell.Expansion
import Formulary.Shell.Launch

/-!
# Running scripts

The meaning of each command. A command is run by `step`, which is given the function that runs
the commands inside of it; `run` ties the two, with fuel for how deep they may be nested. A script
that uses the fuel up is killed.
-/

namespace Formulary.Shell

open Session

/-- A function that runs commands. -/
abbrev Runner := Script → Act Unit

namespace Run

/-! ## Outcomes -/

/-- Run something whose failure does not end the script. -/
def inTest (act : Act Unit) : Act Unit := do
  let before := (← get).tested
  modify ({ · with tested := true })
  let stop ← caught act
  modify ({ · with tested := before })
  match stop with
  | some stop => throw stop
  | none => pure ()

/-- End the script if a command failed and the script is to end then. -/
def checkFailure : Act Unit := do
  let s ← get
  if s.options.stopOnFailure && !s.tested && s.status != 0 then throw .exit

/-! ## Redirections -/

/-- Make a redirection, and tell if it could not be made. -/
def redirect (again : Runner) (r : Redirection) : Act (Except String Unit) := do
  match r with
  | .read fd target | .append fd target => do
    openFile fd (← Expansion.single again target) r
  | .write fd target => do
    let path ← Expansion.single again target
    if (← get).options.keepFiles && (← onDisk (Disk.isFile ⟨path⟩)) then
      pure (.error (openFailure true path .exists))
    else openFile fd path r
  | .duplicate fd target => do duplicate fd (← Expansion.single again target)
  | .document fd text expands => do
    let text ← if expands then Expansion.single again ((Token.quotedWord? text).getD [])
      else pure (String.ofList text)
    attach fd (← newChannel (.buffer (Text.toBytes text)))
    pure (.ok ())

/-- Make redirections up to the first that cannot be made, which is printed. -/
def redirectAll (again : Runner) : List Redirection → Act Bool
  | [] => pure true
  | r :: rest => do
    match ← redirect again r with
    | .ok () => redirectAll again rest
    | .error message =>
      complain message
      setStatus 2
      pure false

/-- Run something with redirections, which are taken back unless they are `kept`. -/
def withRedirections (again : Runner) (kept : Bool) (rs : List Redirection) (act : Act Unit) :
    Act Unit := do
  let before := (← get).handles
  if ← redirectAll again rs then
    let stop ← caught act
    if !kept then modify ({ · with handles := before })
    match stop with
    | some stop => throw stop
    | none => pure ()
  else modify ({ · with handles := before })

/-! ## Functions -/

/-- Give the variables that a function had for itself their old values. -/
def leaveScope : Act Unit := do
  let s ← get
  let scope := s.saved.headD []
  let vars := scope.foldl (fun (b : Bindings) (name, old) =>
    match old with
    | some v => b.insert name v
    | none => without b name) s.vars
  set { s with vars, saved := s.saved.drop 1 }

/-- Run a function. -/
def callFunction (again : Runner) (body : Script) (arguments : List String) : Act Unit := do
  let before := (← get).arguments
  modify fun s => { s with arguments, saved := [] :: s.saved }
  let stop ← caught (again body)
  leaveScope
  modify ({ · with arguments := before })
  match stop with
  | some .returned | none => pure ()
  | some stop => throw stop

/-! ## Programs -/

/-- The options that a shell is started with, and the other arguments. -/
def startOptions : Options → (command : Bool) → List String →
    Except Char (Options × Bool × List String)
  | o, command, [] => .ok (o, command, [])
  | o, command, "--" :: rest => .ok (o, command, rest)
  | o, command, a :: rest =>
    match a.toList with
    | '-' :: letters@(_ :: _) =>
      match letters.find? fun c => !"cefuxnvismC".toList.contains c with
      | some c => .error c
      | none =>
        let has := letters.contains
        startOptions
          { stopOnFailure := o.stopOnFailure || has 'e', needSet := o.needSet || has 'u'
            plainNames := o.plainNames || has 'f', trace := o.trace || has 'x'
            keepFiles := o.keepFiles || has 'C' }
          (command || has 'c') rest
    | _ => .ok (o, command, a :: rest)

/-- Run what was set to run at the end of the script. The status stays. -/
def finish (again : Runner) : Act Unit := do
  match (← get).atExit with
  | none => pure ()
  | some script => do
    let status := (← get).status
    modify ({ · with atExit := none })
    let _ ← caught (Expansion.runProgram again (Program.parse script.toList))
    setStatus status

/-- The search path of a shell that is given none. -/
def defaultSearchPath : String :=
  "/usr/local/sbin:/usr/local/bin:/usr/sbin:/usr/bin:/sbin:/bin"

/-- Run a script in a session of its own, with nothing but its environment. -/
def fresh (again : Runner) (name : String) (options : Options) (arguments : List String)
    (script : String) : Act Unit := do
  let s ← get
  let environment := s.environment.insert "PWD" s.disk.workdir.text
  let vars := if environment.contains "PATH" then environment
    else environment.insert "PATH" defaultSearchPath
  set { s with
    vars, exported := environment.names, fixed := [], arguments, name, options, line := 1
    functions := [], status := 0, tested := false, atExit := none, saved := [] }
  let stop ← caught (Expansion.runProgram again (Program.parse script.toList))
  finish again
  match stop with
  | some stop => throw stop
  | none => pure ()

/-- Run the shell as a program. -/
def shell (again : Runner) (self : String) (arguments : List String) : Act Unit := do
  let refuse := fun (message : String) => do
    say 2 (self ++ ": 0: " ++ message ++ "\n")
    exitWith 2
  match startOptions {} false arguments with
  | .error c => refuse ("Illegal option -" ++ String.singleton c)
  | .ok (options, true, rest) =>
    match rest with
    | [] => refuse "-c requires an argument"
    | script :: rest => fresh again (rest.headD self) options (rest.drop 1) script
  | .ok (options, false, []) => do
    let script ← readAll 0
    fresh again self options [] (Text.ofBytes script)
  | .ok (options, false, path :: rest) => do
    match ← tryDisk (Disk.read ⟨path⟩) with
    | .ok script => fresh again path options rest (Text.ofBytes script)
    | .error .isDirectory => pure ()
    | .error cause => refuse (openFailure false path cause)

/-- Split bindings from the front of the arguments of `env`. -/
def bindingsOf (b : Bindings) : List String → Bindings × List String
  | [] => (b, [])
  | a :: rest =>
    match Text.splitOnce '=' a with
    | some (name, value) => bindingsOf (b.insert name value) rest
    | none => (b, a :: rest)

/-- Options of `env` that take from the environment. -/
def withoutBindings (b : Bindings) : List String → Bindings × List String
  | "-i" :: rest | "-" :: rest => withoutBindings .empty rest
  | "-u" :: name :: rest => withoutBindings (without b name) rest
  | rest => (b, rest)

/-- Go on as the program that the first argument names. -/
def become (again : Runner) : Nat → (program : List String) → Act Unit
  | 0, _ => throw (.killed 9)
  | depth + 1, program => do
    let s ← get
    let search := (s.environment.get? "PATH").getD "/bin:/usr/bin"
    match Start.find s.disk search program with
    | .fails .notFound | .fails .notDirectory => do
      say 2 ("env: " ++ Tools.quoted (program.headD "") ++ ": No such file or directory\n")
      exitWith 127
    | .fails cause => do
      say 2 ("env: " ++ Tools.quoted (program.headD "") ++ ": " ++ Tools.reason cause ++ "\n")
      exitWith 126
    | .unknownFormat path => shell again "sh" (path :: program.drop 1)
    | .starts start => runStart depth start
where
  /-- Run a tool. -/
  runStart (depth : Nat) (start : Start) : Act Unit := do
    let arguments := start.arguments.drop 1
    setStatus 0
    match start.tool with
    | "sh" | "dash" => shell again (start.arguments.headD "sh") arguments
    | "env" => do
      let (b, rest) := withoutBindings (← get).environment arguments
      let (b, rest) := bindingsOf b rest
      modify ({ · with vars := b, exported := b.names })
      if rest.isEmpty then Tools.sayLines (b.entries.map fun (k, v) => k ++ "=" ++ v)
      else become again depth rest
    | tool =>
      match Tools.table.lookup tool with
      | some act => act arguments
      | none => exitWith 127

/-- Programs may start programs this often. -/
def maxPrograms : Nat := 50

/-- What is printed of a program that a signal ended. -/
def signalText? (signal : Nat) : Option String :=
  [(1, "Hangup"), (3, "Quit"), (6, "Aborted"), (9, "Killed"), (11, "Segmentation fault"),
    (15, "Terminated")].lookup signal

/-- Run a program apart, and print it if a signal ended it. -/
def waitFor (act : Act Unit) : Act Unit := do
  match ← isolated act with
  | some (.killed signal) =>
    match signalText? signal with
    | some text => say 2 (text ++ "\n")
    | none => pure ()
  | _ => pure ()

/-- Run a program and wait for it. -/
def program (again : Runner) (words : List String) : Act Unit := do
  let s ← get
  let name := words.headD ""
  match Start.find s.disk ((s.vars.get? "PATH").getD "") words with
  | .fails .notFound | .fails .notDirectory => do
    complain (name ++ ": not found")
    setStatus 127
  | .fails cause => do
    complain (name ++ ": " ++ Tools.reason cause)
    setStatus 126
  | .unknownFormat path => waitFor (shell again name (path :: words.drop 1))
  | .starts start => waitFor (become.runStart again maxPrograms start)

/-! ## Built-in commands -/

/-- Print a message of a built-in command. -/
def refuse (command message : String) (status : Nat) : Act Unit := do
  complain (command ++ ": " ++ message)
  setStatus status

/-- The number that an argument gives, or a fault. -/
def numberArgument (command text : String) : Act Nat := do
  match Text.number? 10 text.toList with
  | some n => pure n
  | none => fail (command ++ ": Illegal number: " ++ text)

/-- Change the working directory. -/
def changeDirectory (arguments : List String) : Act Unit := do
  let s ← get
  let (wanted, shows) := match arguments.filter fun a => !(["-P", "-L", "--"].contains a) with
    | [] => ((s.vars.get? "HOME").getD "", false)
    | "-" :: _ => ((s.vars.get? "OLDPWD").getD "", true)
    | a :: _ => (a, false)
  let here := s.disk.workdir
  let full := (here.join wanted).text
  let segments := (Text.pieces '/' full).foldl (fun (acc : List String) x =>
    if x = "" ∨ x = "." then acc else if x = ".." then acc.dropLast else acc ++ [x]) []
  let goal : Path := ⟨"/" ++ Text.join "/" segments⟩
  let mayEnter := match s.disk.found true goal with
    | .ok (_, .directory m) => s.disk.permits m .search
    | _ => false
  if mayEnter then
    modify fun s => { s with
      disk := { s.disk with workdir := goal }
      vars := (s.vars.insert "OLDPWD" here.text).insert "PWD" goal.text }
    exportName "PWD"
    exportName "OLDPWD"
    if shows then say 1 (goal.text ++ "\n")
  else refuse "cd" ("can't cd to " ++ wanted) 2

/-- Set options, or the arguments. -/
def setOptions : List String → Act Unit
  | [] => pure ()
  | "--" :: rest => modify ({ · with arguments := rest })
  | a :: rest => do
    let turn := fun (on : Bool) (c : Char) => modify fun (s : Session) =>
      { s with
        options := match c with
          | 'e' => { s.options with stopOnFailure := on }
          | 'u' => { s.options with needSet := on }
          | 'f' => { s.options with plainNames := on }
          | 'x' => { s.options with trace := on }
          | 'C' => { s.options with keepFiles := on }
          | _ => s.options }
    match a.toList with
    | ['-', 'o'] | ['+', 'o'] =>
      match rest with
      | name :: rest => do
        let on := a == "-o"
        match name with
        | "errexit" => turn on 'e'
        | "nounset" => turn on 'u'
        | "noglob" => turn on 'f'
        | "xtrace" => turn on 'x'
        | "noclobber" => turn on 'C'
        | _ => fail ("set: Illegal option -o " ++ name)
        setOptions rest
      | [] => pure ()
    | '-' :: letters@(_ :: _) => do
      for c in letters do turn true c
      setOptions rest
    | '+' :: letters@(_ :: _) => do
      for c in letters do turn false c
      setOptions rest
    | _ => modify ({ · with arguments := a :: rest })

/-- Set variables that are written as bindings, and do something with each name. -/
def eachName (arguments : List String) (act : String → Act Unit) : Act Unit := do
  for a in arguments do
    match Text.splitOnce '=' a with
    | some (name, value) => do
      assign name value
      act name
    | none => act a

/-- Read a line into variables. The last of them takes what is left of it. -/
def readInto (arguments : List String) : Act Unit := do
  let raw := arguments.contains "-r"
  let names := arguments.filter (· != "-r")
  match ← readLine 0 with
  | none => do
    for name in names do assign name ""
    setStatus 1
  | some (bytes, ended) => do
    let text := Text.ofBytes bytes
    let text := if raw then text else String.ofList (text.toList.filter (· != '\\'))
    let separators := (← get).separators
    let isGap := fun (c : Char) => separators.contains c
    let trim := fun (cs : List Char) => cs.dropWhile isGap
    let mut rest := trim text.toList
    let mut left := names
    for name in names do
      left := left.drop 1
      if left.isEmpty then
        assign name (String.ofList (trim rest.reverse).reverse)
      else
        let word := rest.takeWhile fun c => !isGap c
        assign name (String.ofList word)
        rest := trim (rest.drop word.length)
    setStatus (if ended then 0 else 1)

/-- The numbers of signals that have names here. -/
def signalNumber? (name : String) : Option Nat :=
  match name with
  | "HUP" => some 1
  | "INT" => some 2
  | "QUIT" => some 3
  | "ABRT" => some 6
  | "KILL" => some 9
  | "SEGV" => some 11
  | "PIPE" => some 13
  | "TERM" => some 15
  | name => Text.number? 10 name.toList

/-- Send a signal, which only the shell itself can get. -/
def kill (arguments : List String) : Act Unit := do
  let (signal, targets) := match arguments with
    | "-s" :: name :: rest => (signalNumber? name, rest)
    | a :: rest =>
      match a.toList with
      | '-' :: name => (signalNumber? (String.ofList name), rest)
      | _ => (some 15, a :: rest)
    | [] => (some 15, [])
  match signal with
  | none => refuse "kill" "invalid signal number or name" 2
  | some signal =>
    if targets.contains (Text.decimal ownNumber) then
      if signal = 0 then pure () else throw (.killed signal)
    else refuse "kill" "No such process" 1

/-- Tell what a name is. -/
def tellKind (name : String) (isVerbose : Bool) (isBuiltin : Bool) : Act Unit := do
  let s ← get
  let path := (Start.candidates ((s.vars.get? "PATH").getD "") name).find? fun p =>
    match s.disk.found true ⟨p⟩ with
    | .ok (_, .file n) => s.disk.canRun (((s.disk.fileData? n).map FileData.mode).getD 0)
    | _ => false
  if isBuiltin || (s.functions.lookup name).isSome then
    say 1 ((if isVerbose then name ++ " is a shell builtin" else name) ++ "\n")
  else match path with
    | some p => say 1 ((if isVerbose then name ++ " is " ++ p else p) ++ "\n")
    | none => do
      if isVerbose then say 1 (name ++ ": not found\n")
      setStatus 127

/-- The built-in commands whose failure ends the script, and whose assignments stay. -/
def specials : List String :=
  [":", ".", "break", "continue", "eval", "exec", "exit", "export", "readonly", "return", "set",
   "shift", "times", "trap", "unset"]

/-- The other built-in commands. -/
def builtins : List String :=
  ["[", "alias", "cd", "command", "echo", "false", "getopts", "hash", "kill", "local", "printf",
   "pwd", "read", "test", "true", "type", "ulimit", "umask", "wait"]

/-- Leave some loops. -/
def levels (command : String) (arguments : List String) : Act Nat := do
  match arguments with
  | [] => pure 1
  | a :: _ => numberArgument command a

/-- Run a built-in command. The commands that run other commands are not here. -/
def builtin (again : Runner) (name : String) (arguments : List String) : Act Unit := do
  let s ← get
  let status : Act Nat := match arguments with
    | [] => pure s.status
    | a :: _ => numberArgument name a
  match name with
  | "exit" => do exitWith ((← status) % 256)
  | "return" => do
    setStatus ((← status) % 256)
    throw .returned
  | "break" => do throw (.broke (← levels name arguments))
  | "continue" => do throw (.continued (← levels name arguments))
  | _ => do
    setStatus 0
    match name with
    | "false" => setStatus 1
    | "echo" => say 1 (Print.echoText true arguments)
    | "printf" => do
      match (if arguments.head? = some "--" then arguments.drop 1 else arguments) with
      | [] => refuse name "usage: printf format [arg ...]" 2
      | format :: rest => do
        let (text, complaints, status) := Print.printf format rest
        say 1 text
        for c in complaints do refuse name c status
    | "test" | "[" => do
      let closed := name == "test" || arguments.getLast? == some "]"
      let operands := if name == "[" then arguments.dropLast else arguments
      if !closed then refuse name "missing ]" 2
      else match Condition.ofArguments operands with
        | .error message => refuse name message 2
        | .ok c =>
          match ← onDisk c.answer with
          | .ok b => setStatus (if b then 0 else 1)
          | .error message => refuse name message 2
    | "cd" => changeDirectory arguments
    | "pwd" => say 1 (s.disk.workdir.text ++ "\n")
    | "export" => eachName (arguments.filter (· != "-p")) exportName
    | "readonly" => eachName arguments fun n => modify fun s => { s with fixed := n :: s.fixed }
    | "local" =>
      for a in arguments do
        let variableName := ((Text.splitOnce '=' a).map Prod.fst).getD a
        modify fun s =>
          match s.saved with
          | scope :: outer =>
            { s with saved := ((variableName, s.vars.get? variableName) :: scope) :: outer }
          | [] => s
        match Text.splitOnce '=' a with
        | some (_, value) => assign variableName value
        | none => pure ()
    | "unset" => do
      if arguments.head? = some "-f" then
        modify fun s => { s with functions := s.functions.filter fun f => !arguments.contains f.1 }
      else
        for n in arguments.filter (· != "-v") do unset n
    | "set" => setOptions arguments
    | "shift" => do
      let n ← levels name arguments
      if n > s.arguments.length then fail "shift: can't shift that many"
      else modify ({ · with arguments := s.arguments.drop n })
    | "eval" => Expansion.runProgram again (Program.parse (Text.join " " arguments).toList)
    | "." => do
      match arguments with
      | [] => pure ()
      | path :: _ => do
        match ← tryDisk (Disk.read ⟨path⟩) with
        | .error .isDirectory => pure ()
        | .error cause => fail (".: " ++ openFailure false path cause)
        | .ok bytes => do
          let program := Program.parse (Text.ofBytes bytes).toList
          match ← caught (Expansion.runProgram again program) with
          | some .returned | none => pure ()
          | some stop => throw stop
    | "read" => readInto arguments
    | "kill" => kill arguments
    | "trap" =>
      match arguments with
      | script :: signals =>
        if signals.contains "EXIT" || signals.contains "0" then
          modify ({ · with atExit := if script = "-" then none else some script })
      | [] => pure ()
    | "type" => for a in arguments do tellKind a true ((specials ++ builtins).contains a)
    | "umask" => if arguments.isEmpty then say 1 "0022\n"
    | _ => pure ()

/-! ## Commands -/

/-- Print a command before it is run, if that is wanted. -/
def trace (words : List String) : Act Unit := do
  if (← get).options.trace then say 2 ("+ " ++ Text.join " " words ++ "\n")

/-- Make assignments. -/
def assignAll (again : Runner) (handOn : Bool) (assignments : List (String × Word)) :
    Act Unit := do
  for (name, word) in assignments do
    let value ← Expansion.single again word
    assign name value
    if handOn then exportName name
    else trace [name ++ "=" ++ value]

/-- Run something with assignments that do not stay. -/
def withAssignments (again : Runner) (assignments : List (String × Word)) (act : Act Unit) :
    Act Unit := do
  if assignments.isEmpty then act
  else
    let before ← get
    assignAll again true assignments
    let stop ← caught act
    modify fun s =>
      { s with
        vars := assignments.foldl (fun (b : Bindings) (name, _) =>
          match before.vars.get? name with
          | some v => b.insert name v
          | none => without b name) s.vars
        exported := s.exported.filter fun n =>
          before.exported.contains n || !(assignments.any (·.1 == n)) }
    match stop with
    | some stop => throw stop
    | none => pure ()

/-- Go on as another program. -/
def replace (again : Runner) (words : List String) : Act Unit := do
  match Start.find (← get).disk (((← get).vars.get? "PATH").getD "") words with
  | .fails .notFound | .fails .notDirectory => do
    complain ("exec: " ++ words.headD "" ++ ": not found")
    exitWith 127
  | .fails cause => do
    complain ("exec: " ++ words.headD "" ++ ": " ++ Tools.reason cause)
    exitWith 126
  | _ => do
    let status := program again words
    modify ({ · with atExit := none })
    status
    throw .exit

/-- Run words as a command : a function, a built-in command, or a program. -/
def words (again : Runner) (bypass : Bool) (name : String) (arguments : List String) :
    Act Unit := do
  let s ← get
  match (if bypass || specials.contains name then none else s.functions.lookup name) with
  | some body => callFunction again body arguments
  | none =>
    if (specials ++ builtins).contains name then builtin again name arguments
    else program again (name :: arguments)

/-- Run the words behind `command`, which passes over functions. -/
def command (again : Runner) (arguments : List String) : Act Unit := do
  match arguments with
  | [] => setStatus 0
  | "-v" :: n :: _ => do
    setStatus 0
    tellKind n false ((specials ++ builtins).contains n)
  | ["--"] => setStatus 0
  | "--" :: name :: rest | name :: rest => words again true name rest

/-- Run a simple command. -/
def simple (again : Runner) (c : Simple) : Act Unit := do
  modify ({ · with line := c.line, outputStatus := none })
  let fields ← Expansion.allFields again c.words
  match fields with
  | [] => do
    let before := (← get).status
    setStatus 0
    withRedirections again false c.redirections (pure ())
    if (← get).status = 0 then
      setStatus before
      assignAll again false c.assignments
      setStatus ((← get).outputStatus.getD 0)
  | name :: arguments => do
    trace (name :: arguments)
    match name, arguments with
    | "exec", [] => do
      assignAll again false c.assignments
      setStatus 0
      withRedirections again true c.redirections (pure ())
      if (← get).status ≠ 0 then throw .exit
    | "exec", program =>
      withAssignments again c.assignments
        (withRedirections again true c.redirections (replace again program))
    | "command", rest =>
      withAssignments again c.assignments
        (withRedirections again false c.redirections (command again rest))
    | name, arguments =>
      if specials.contains name then do
        assignAll again false c.assignments
        withRedirections again false c.redirections (builtin again name arguments)
      else
        withAssignments again c.assignments
          (withRedirections again false c.redirections (words again false name arguments))
  checkFailure

/-- Run the stages of a pipeline, each in a session of its own. Each reads what the one before it
wrote. -/
def stages (again : Runner) : (input : Option Nat) → List Script → Act Unit
  | _, [] => pure ()
  | input, stage :: rest => do
    let output ← if rest.isEmpty then pure none
      else do pure (some (← newChannel (.buffer .empty)))
    apart do
      match input with
      | some n => attach 0 n
      | none => pure ()
      match output with
      | some n => attach 1 n
      | none => pure ()
      again stage
    match output with
    | some n => stages again (some n) rest
    | none => pure ()

/-- Run the body of a loop once. Tells whether the loop goes on. -/
def round (again : Runner) (body : Script) : Act Bool := do
  match ← caught (again body) with
  | none | some (.continued 0) | some (.continued 1) => pure true
  | some (.continued (n + 1)) => throw (.continued n)
  | some (.broke 0) | some (.broke 1) => do
    setStatus 0
    pure false
  | some (.broke (n + 1)) => throw (.broke n)
  | some stop => throw stop

/-- Run a loop, at most so many times. -/
def loop (again : Runner) (untilSuccess : Bool) (condition body : Script) :
    Nat → (status : Nat) → Act Unit
  | 0, _ => throw (.killed 9)
  | rounds + 1, status => do
    inTest (again condition)
    if ((← get).status == 0) != untilSuccess then
      if ← round again body then loop again untilSuccess condition body rounds (← get).status
    else setStatus status

/-- Loops end after this many rounds. -/
def maxRounds : Nat := 1000000

/-- Run the body of a loop over words. -/
def each (again : Runner) (name : String) (body : Script) : List String → Act Unit
  | [] => pure ()
  | w :: rest => do
    assign name w
    if ← round again body then each again name body rest

/-- Run the first case with a pattern that covers a text. -/
def cases (again : Runner) (subject : List Char) : List (List Word × Script) → Act Unit
  | [] => setStatus 0
  | (patterns, body) :: rest => do
    if ← patterns.anyM fun w => do
      pure (Pattern.covers (← Expansion.pattern again w) subject)
    then
      setStatus 0
      again body
    else cases again subject rest

/-- Run a command, where `again` runs the commands in it. -/
def step (again : Runner) : Script → Act Unit
  | .simple c => simple again c
  | .pipeline negated parts => do
    if negated then
      inTest (match parts with
        | [one] => again one
        | parts => stages again none parts)
      setStatus (if (← get).status = 0 then 1 else 0)
    else
      inTest (stages again none parts)
      checkFailure
  | .andThen a b => do
    inTest (again a)
    if (← get).status = 0 then again b
  | .orElse a b => do
    inTest (again a)
    if (← get).status ≠ 0 then again b
  | .sequence parts => do for part in parts do again part
  | .branch condition yes no => do
    inTest (again condition)
    if (← get).status = 0 then again yes
    else match no with
      | some no => again no
      | none => setStatus 0
  | .loop untilSuccess condition body => loop again untilSuccess condition body maxRounds 0
  | .each name ws body => do
    let values ← match ws with
      | some ws => Expansion.allFields again ws
      | none => do pure (← get).arguments
    setStatus 0
    each again name body values
  | .choice subject alternatives => do
    let text ← Expansion.single again subject
    cases again text.toList alternatives
  | .group body rs => do withRedirections again false rs (again body)
  | .subshell body rs => do
    withRedirections again false rs (apart (again body))
    checkFailure
  | .define name body => do
    modify fun s => { s with functions := (name, body) :: s.functions.filter (·.1 != name) }
    setStatus 0
  | .aside body => do
    apart (again body)
    setStatus 0

end Run

/-- Run a command whose parts are nested no deeper than the fuel. -/
def run : Nat → Script → Act Unit
  | 0, _ => throw (.killed 9)
  | fuel + 1, s => Run.step (run fuel) s

end Formulary.Shell
