import Formulary.Disk.Operations
import Formulary.Shell.Arithmetic

/-!
# Conditions

What `test` asks of texts, numbers and files.
-/

namespace Formulary.Shell

/-- What is asked. -/
inductive Condition where
  /-- The text is not empty. -/
  | text (s : String)
  | unary (op : String) (a : String)
  | binary (op : String) (a b : String)
  | negated (c : Condition)
  | both (a b : Condition)
  | either (a b : Condition)

instance : Inhabited Condition := ⟨.text ""⟩

namespace Condition

/-- The operators before one operand. -/
def unaryOperators : List String :=
  ["-n", "-z", "-e", "-f", "-d", "-r", "-w", "-x", "-s", "-L", "-h", "-t", "-b", "-c", "-p", "-S",
   "-u", "-g", "-k", "-O", "-G"]

/-- The operators between two operands. -/
def binaryOperators : List String :=
  ["=", "!=", "-eq", "-ne", "-gt", "-ge", "-lt", "-le", "<", ">", "-nt", "-ot", "-ef"]

/-! ## Reading -/

mutual

/-- A condition, of which alternatives bind the least. -/
def alternatives : Nat → List String → Except String (Condition × List String)
  | 0, _ => .error "argument expected"
  | fuel + 1, ts => do
    let (a, rest) ← conjunction fuel ts
    match rest with
    | "-o" :: rest =>
      let (b, rest) ← alternatives fuel rest
      pure (.either a b, rest)
    | rest => pure (a, rest)

/-- Conditions that must hold together. -/
def conjunction : Nat → List String → Except String (Condition × List String)
  | 0, _ => .error "argument expected"
  | fuel + 1, ts => do
    let (a, rest) ← single fuel ts
    match rest with
    | "-a" :: rest =>
      let (b, rest) ← conjunction fuel rest
      pure (.both a b, rest)
    | rest => pure (a, rest)

/-- A single condition, perhaps negated or in brackets. -/
def single : Nat → List String → Except String (Condition × List String)
  | 0, _ => .error "argument expected"
  | fuel + 1, ts =>
    match ts with
    | [] => .error "argument expected"
    | [a] => .ok (.text a, [])
    | a :: op :: rest =>
      if binaryOperators.contains op ∧ rest ≠ [] then
        .ok (.binary op a (rest.headD ""), rest.drop 1)
      else if a = "!" then do
        let (c, rest) ← single fuel (op :: rest)
        pure (.negated c, rest)
      else if a = "(" then do
        let (c, rest) ← alternatives fuel (op :: rest)
        match rest with
        | ")" :: rest => pure (c, rest)
        | _ => .error "closing paren expected"
      else if unaryOperators.contains a then .ok (.unary a op, rest)
      else .ok (.text a, op :: rest)

end

/-- Read a condition. Nothing at all is a condition that does not hold. -/
def ofArguments (arguments : List String) : Except String Condition :=
  match arguments with
  | [] => .ok (.text "")
  | ts => do
    match ← alternatives (4 * ts.length + 4) ts with
    | (c, []) => pure c
    | (_, extra :: _) => .error (extra ++ ": unexpected operator")

/-! ## Answers -/

/-- The number that an operand writes. -/
def numberOf (s : String) : Except String Int :=
  match Expression.numberOf? s with
  | some n => .ok n
  | none => .error ("Illegal number: " ++ s)

/-- What an operator before a file name asks. -/
def fileAnswer (op a : String) : StateM Disk Bool := do
  let found := (← get).found (op != "-L" && op != "-h") ⟨a⟩
  let d ← get
  match found with
  | .error _ => pure false
  | .ok (_, e) =>
    let (mode, size) := match e with
      | .directory m => (m, 1)
      | .file n => ((d.fileData? n).elim (0, 0) fun f => (f.mode, f.bytes.size))
      | .link _ => (0o777, 1)
    let isFile := Disk.kindOf e == .file
    pure <| match op with
      | "-e" | "-O" | "-G" => true
      | "-f" => isFile
      | "-d" => Disk.kindOf e == .directory
      | "-L" | "-h" => Disk.kindOf e == .link
      | "-r" => d.permits mode .read
      | "-w" => d.permits mode .write
      | "-x" => if isFile then d.canRun mode else d.permits mode .search
      | "-s" => size > 0
      | "-u" => mode / 0o4000 % 2 == 1
      | "-g" => mode / 0o2000 % 2 == 1
      | "-k" => mode / 0o1000 % 2 == 1
      | _ => false

/-- What an operator between two operands asks. -/
def binaryAnswer (op a b : String) : StateM Disk (Except String Bool) := do
  let compare := fun (test : Int → Int → Bool) => do
    let x ← numberOf a
    let y ← numberOf b
    pure (test x y)
  match op with
  | "=" => pure (.ok (a == b))
  | "!=" => pure (.ok (a != b))
  | "<" => pure (.ok (a < b))
  | ">" => pure (.ok (b < a))
  | "-eq" => pure (compare (· == ·))
  | "-ne" => pure (compare (· != ·))
  | "-gt" => pure (compare (· > ·))
  | "-ge" => pure (compare (· ≥ ·))
  | "-lt" => pure (compare (· < ·))
  | "-le" => pure (compare (· ≤ ·))
  | "-ef" =>
    let d ← get
    pure (.ok (match d.found true ⟨a⟩, d.found true ⟨b⟩ with
      | .ok (p, e), .ok (q, f) => p == q || (e == f && Disk.kindOf e == .file)
      | _, _ => false))
  | _ => pure (.ok false)

/-- The answer. -/
def answer : Condition → StateM Disk (Except String Bool)
  | .text s => pure (.ok (s != ""))
  | .unary "-n" a => pure (.ok (a != ""))
  | .unary "-z" a => pure (.ok (a == ""))
  | .unary "-t" a => pure ((numberOf a).map fun _ => false)
  | .unary op a => do pure (.ok (← fileAnswer op a))
  | .binary op a b => binaryAnswer op a b
  | .negated c => do pure ((← answer c).map not)
  | .both a b => do
    match ← answer a with
    | .ok true => answer b
    | other => pure other
  | .either a b => do
    match ← answer a with
    | .ok false => answer b
    | other => pure other

end Condition

end Formulary.Shell
