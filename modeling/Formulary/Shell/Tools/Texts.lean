import Formulary.Shell.Condition
import Formulary.Shell.Print
import Formulary.Shell.Tools.Basic

/-!
# Tools that read and print

None of these changes a file, except `tee`.
-/

namespace Formulary.Shell.Tools

open Session

/-! ## Printing -/

/-- The leading options of `echo`, and what is left. -/
def echoOptions : List String → List Char × List String
  | a :: rest =>
    match a.toList with
    | '-' :: cs@(_ :: _) =>
      if cs.all fun c => c == 'n' || c == 'e' || c == 'E' then
        let (letters, others) := echoOptions rest
        (cs ++ letters, others)
      else ([], a :: rest)
    | _ => ([], a :: rest)
  | [] => ([], [])

/-- Print the arguments. -/
def echo : Tool := fun arguments => do
  let (letters, rest) := echoOptions arguments
  let escapes := (letters.filter fun c => c == 'e' || c == 'E').getLast? == some 'e'
  let line := Text.join " " rest
  let (text, ended) :=
    if escapes then Print.unescape false (line.length + 1) line.toList else (line.toList, false)
  say 1 (String.ofList text ++ (if letters.contains 'n' || ended then "" else "\n"))

/-- Print with a format. -/
def printf : Tool := fun arguments => do
  match (if arguments.head? = some "--" then arguments.drop 1 else arguments) with
  | [] => missingOperand "printf"
  | format :: rest =>
    let (text, complaints, _) := Print.printf format rest
    say 1 text
    for c in complaints do complain "printf" c

/-- Print numbers in a row. -/
def seq : Tool := fun arguments => do
  let numbers := arguments.map fun a => (Print.argumentNumber a).1
  let (first, step, last) : Int × Int × Int := match numbers with
    | [last] => (1, 1, last)
    | [first, last] => (first, 1, last)
    | first :: step :: last :: _ => (first, step, last)
    | [] => (1, 1, 0)
  let count := if step = 0 then 0 else ((last - first).tdiv step + 1).toNat
  let count := if (last - first) * step < 0 then 0 else count
  sayLines ((List.range count).map fun (k : Nat) => Text.integer (first + step * k))

/-- Print the name of the system. -/
def uname : Tool := fun arguments => do
  let (letters, _) := options arguments
  sayLines [if letters.contains 'm' then "x86_64" else "Linux"]

/-! ## Paths -/

/-- A path without the slashes at its end. -/
def withoutSlashes (cs : List Char) : List Char := (cs.reverse.dropWhile (· == '/')).reverse

/-- Print the last name of a path. -/
def basename : Tool := fun arguments => do
  match arguments with
  | [] => missingOperand "basename"
  | path :: rest =>
    let trimmed := String.ofList (withoutSlashes path.toList)
    let name := if trimmed = "" then (if path = "" then "" else "/")
      else ((Text.pieces '/' trimmed).getLast?).getD ""
    let ending := rest.headD ""
    sayLines [match Text.before? ending.toList name.toList with
      | some (c :: cs) => String.ofList (c :: cs)
      | _ => name]

/-- Print paths without their last names. -/
def dirname : Tool := fun arguments => do
  if arguments.isEmpty then missingOperand "dirname"
  else sayLines (arguments.map fun path =>
    let trimmed := withoutSlashes path.toList
    let above := (trimmed.reverse.dropWhile (· != '/')).reverse
    if above = [] then (if trimmed = [] ∧ path ≠ "" then "/" else ".")
    else
      let s := String.ofList (withoutSlashes above)
      if s = "" then "/" else s)

/-- Print where a path leads, or what a link holds. -/
def readlink : Tool := fun arguments => do
  let (letters, paths) := options arguments
  for path in paths do
    if letters.contains 'f' then
      match (← get).disk.target true ⟨path⟩ with
      | .ok t => sayLines [(Disk.pathOf t.place).text]
      | .error _ => setStatus 1
    else
      match (← get).disk.found false ⟨path⟩ with
      | .ok (_, .link target) => sayLines [target]
      | _ => setStatus 1

/-- Print paths without links. -/
def realpath : Tool := fun arguments => do
  for path in (options arguments).2 do
    match (← get).disk.target true ⟨path⟩ with
    | .ok t => sayLines [(Disk.pathOf t.place).text]
    | .error cause => complain "realpath" (path ++ ": " ++ reason cause)

/-- Print the names in directories. -/
def ls : Tool := fun arguments => do
  let (letters, paths) := options arguments
  let all := letters.contains 'a'
  let almost := letters.contains 'A'
  let several := paths.length > 1
  let shown := fun (names : List String) =>
    let names := names.filter fun n => all || almost || !(Text.startsWith n ".")
    let names := if all then "." :: ".." :: names else names
    names.mergeSort fun a b => a ≤ b
  let mut isFirst := true
  for path in (if paths.isEmpty then ["."] else paths) do
    match ← tryDisk (Disk.kind true ⟨path⟩) with
    | .error cause =>
      say 2 ("ls: cannot access " ++ quoted path ++ ": " ++ reason cause ++ "\n")
      setStatus 2
    | .ok .directory =>
      if letters.contains 'd' then sayLines [path]
      else
        if several then sayLines ((if isFirst then [] else [""]) ++ [path ++ ":"])
        isFirst := false
        match ← tryDisk (Disk.list ⟨path⟩) with
        | .ok names => sayLines (shown names)
        | .error cause =>
          say 2 ("ls: cannot open directory " ++ quoted path ++ ": " ++ reason cause ++ "\n")
          setStatus 2
    | .ok _ => sayLines [path]

/-! ## Filters -/

/-- Print files. -/
def cat : Tool := fun arguments => do
  for path in (if arguments.isEmpty then ["-"] else arguments) do
    match ← input "cat" path with
    | some bytes => write 1 bytes
    | none => pure ()

/-- Print what is read, and write it to files. -/
def tee : Tool := fun arguments => do
  let (letters, paths) := options arguments
  let bytes ← readAll 0
  write 1 bytes
  for path in paths do
    attempt "tee" path
      (if letters.contains 'a' then Disk.append ⟨path⟩ bytes else Disk.write ⟨path⟩ bytes)

/-- The count that options of `head` and `tail` give, whether it counts bytes, and the other
arguments. -/
def countOption : List String → (Nat × Bool) × List String
  | [] => ((10, false), [])
  | "-n" :: n :: rest => ((count n, false), rest)
  | "-c" :: n :: rest => ((count n, true), rest)
  | a :: rest =>
    match a.toList with
    | '-' :: 'n' :: n => ((count (String.ofList n), false), rest)
    | '-' :: 'c' :: n => ((count (String.ofList n), true), rest)
    | '-' :: n@(_ :: _) => ((count (String.ofList n), false), rest)
    | _ =>
      let (c, others) := countOption rest
      (c, a :: others)
where
  /-- A written count. -/
  count (s : String) : Nat := (Text.number? 10 s.toList).getD 10

/-- Print the first lines or bytes. -/
def head : Tool := fun arguments => do
  let ((n, isBytes), paths) := countOption arguments
  for bytes in ← inputs "head" paths do
    if isBytes then write 1 (bytes.extract 0 n)
    else say 1 (String.join ((closedLines bytes).take n))

/-- Print the last lines or bytes. -/
def tail : Tool := fun arguments => do
  let ((n, isBytes), paths) := countOption arguments
  for bytes in ← inputs "tail" paths do
    if isBytes then write 1 (bytes.extract (bytes.size - n) bytes.size)
    else
      let ls := closedLines bytes
      say 1 (String.join (ls.drop (ls.length - n)))

/-- Count lines, words and bytes. -/
def wc : Tool := fun arguments => do
  let (letters, paths) := options arguments
  let counts := fun (bytes : ByteArray) =>
    let all := [('l', bytes.toList.count 10),
      ('w', (Text.words (Text.ofBytes bytes).toList).length), ('c', bytes.size)]
    (if letters = [] then all else all.filter fun c => letters.contains c.1).map Prod.snd
  for path in (if paths.isEmpty then ["-"] else paths) do
    match ← input "wc" path with
    | none => pure ()
    | some bytes =>
      let numbers := (counts bytes).map Text.decimal
      let numbers := if numbers.length > 1 && paths.isEmpty
        then numbers.map fun n => String.ofList (List.replicate (7 - n.length) ' ') ++ n else numbers
      sayLines [Text.join " " numbers ++ (if paths.isEmpty then "" else " " ++ path)]

/-- Print lines in order. -/
def sort : Tool := fun arguments => do
  let (letters, paths) := options arguments
  let all := (← inputs "sort" paths).flatMap lines
  let number := fun (s : String) => (Print.argumentNumber s).1
  let sorted := if letters.contains 'n' then all.mergeSort fun a b => number a ≤ number b
    else all.mergeSort fun a b => a ≤ b
  let sorted := if letters.contains 'r' then sorted.reverse else sorted
  sayLines (if letters.contains 'u' then sorted.eraseDups else sorted)

/-- Lines without those that repeat the line before them. -/
def withoutRepeats : List String → List String
  | a :: b :: rest => if a = b then withoutRepeats (b :: rest) else a :: withoutRepeats (b :: rest)
  | ls => ls

/-- Print lines without repetitions. -/
def uniq : Tool := fun arguments => do
  sayLines (withoutRepeats ((← inputs "uniq" (options arguments).2).flatMap lines))

/-- The characters that a set of `tr` writes. -/
def charSet : Nat → List Char → List Char
  | 0, _ | _, [] => []
  | fuel + 1, a :: '-' :: b :: rest =>
    (List.range (b.toNat + 1 - a.toNat)).map (fun k => Char.ofNat (a.toNat + k))
      ++ charSet fuel rest
  | fuel + 1, c :: rest => c :: charSet fuel rest

/-- Exchange or delete characters. -/
def tr : Tool := fun arguments => do
  let (letters, sets) := options arguments
  let sets := sets.map fun s =>
    let cs := (Print.unescape true (s.length + 1) s.toList).1
    charSet cs.length cs
  let text := (Text.ofBytes (← readAll 0)).toList
  match letters.contains 'd', sets with
  | true, gone :: _ => say 1 (String.ofList (text.filter fun c => !gone.contains c))
  | false, [old, new] =>
    let pairs := old.zipIdx.map fun (c, k) => (c, (new[k]?).getD (new.getLastD c))
    say 1 (String.ofList (text.map fun c => (pairs.lookup c).getD c))
  | _, _ => missingOperand "tr"

/-- Print the lines in which some text stands. -/
def grep : Tool := fun arguments => do
  let (letters, rest) := options arguments
  match rest with
  | [] => setStatus 2
  | wanted :: paths =>
    let cs := wanted.toList
    let atStart := cs.head? == some '^'
    let cs := if atStart then cs.drop 1 else cs
    let atEnd := cs.getLast? == some '$'
    let cs := if atEnd then cs.dropLast else cs
    let fits := fun (line : String) =>
      let line := line.toList
      match atStart, atEnd with
      | true, true => line == cs
      | true, false => (Text.after? cs line).isSome
      | false, true => (Text.before? cs line).isSome
      | false, false => Text.occursIn cs line
    let all := (← inputs "grep" paths).flatMap lines
    let found := all.filter fun line => fits line != letters.contains 'v'
    if letters.contains 'q' then pure ()
    else if letters.contains 'c' then sayLines [Text.decimal found.length]
    else sayLines found
    if (← get).status = 1 then setStatus 2
    else setStatus (if found.isEmpty then 1 else 0)

/-- Print a field of each line. -/
def cut : Tool := fun arguments => do
  let value := fun (letter : String) =>
    match arguments.dropWhile fun a => !(Text.startsWith a letter) with
    | a :: rest => if a = letter then rest.head? else some (String.ofList (a.toList.drop 2))
    | [] => none
  let separator := ((value "-d").bind fun s => s.toList.head?).getD '\t'
  let field := ((value "-f").bind fun s => Text.number? 10 s.toList).getD 1
  sayLines ((lines (← readAll 0)).map fun line =>
    match Text.pieces separator line with
    | [whole] => whole
    | fields => (fields[field - 1]?).getD "")

/-! ## Conditions -/

/-- Answer a condition with the status. -/
def test (tool : String) : Tool := fun arguments => do
  let arguments := if tool = "[" then arguments.dropLast else arguments
  match Condition.ofArguments arguments with
  | .error message =>
    complain tool message
    setStatus 2
  | .ok c =>
    match ← onDisk c.answer with
    | .ok true => setStatus 0
    | .ok false => setStatus 1
    | .error message =>
      complain tool message
      setStatus 2

end Formulary.Shell.Tools
