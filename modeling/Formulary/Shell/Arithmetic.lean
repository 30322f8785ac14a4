import Formulary.Bindings
import Formulary.Text

/-!
# Arithmetic

Expressions over whole numbers of 64 bits, with the values of variables, and assignments to them.
-/

namespace Formulary.Shell

/-- An operator between two numbers. -/
inductive Operator where
  | times | divide | remainder | plus | minus | shiftLeft | shiftRight
  | less | lessEqual | greater | greaterEqual | equal | unequal
  | bitAnd | bitXor | bitOr | logicalAnd | logicalOr
deriving DecidableEq, Inhabited

/-- An operator before a number. -/
inductive Sign where
  | keep | negate | complement | logicalNot
deriving DecidableEq

/-- An expression. -/
inductive Expression where
  | number (n : Int)
  | valueOf (variableName : String)
  | signed (s : Sign) (e : Expression)
  | binary (op : Operator) (a b : Expression)
  | choose (condition yes no : Expression)
  /-- Set a variable, perhaps to what an operator makes of its value. -/
  | assign (name : String) (op : Option Operator) (e : Expression)

instance : Inhabited Expression := ⟨.number 0⟩

/-- Why an expression has no value. -/
inductive ArithmeticFault where
  | malformed
  | divisionByZero
  | notNumber (text : String)

namespace Expression

/-! ## Reading -/

/-- The written operators with their binding strengths, the longer ones first. -/
def operators : List (String × Operator × Nat) :=
  [("<<", .shiftLeft, 8), (">>", .shiftRight, 8), ("<=", .lessEqual, 7), (">=", .greaterEqual, 7),
   ("==", .equal, 6), ("!=", .unequal, 6), ("&&", .logicalAnd, 2), ("||", .logicalOr, 1),
   ("*", .times, 10), ("/", .divide, 10), ("%", .remainder, 10), ("+", .plus, 9),
   ("-", .minus, 9), ("<", .less, 7), (">", .greater, 7), ("&", .bitAnd, 5), ("^", .bitXor, 4),
   ("|", .bitOr, 3)]

/-- Pass over spaces. -/
def skip (cs : List Char) : List Char := cs.dropWhile Text.isBlank

/-- The number at the start of some text, in base ten, eight or sixteen. -/
def number? (cs : List Char) : Option (Int × List Char) :=
  let written := cs.takeWhile fun c => c.isAlphanum
  let rest := cs.drop written.length
  let value := match written with
    | '0' :: x :: ds =>
      if x == 'x' || x == 'X' then Text.number? 16 ds else Text.number? 8 (x :: ds)
    | ds => Text.number? 10 ds
  value.map fun n => ((n : Int), rest)

/-- A name at the start of some text. -/
def name? (cs : List Char) : Option (String × List Char) :=
  match cs with
  | c :: _ =>
    if c == '_' || c.isAlpha then
      let name := cs.takeWhile fun c => c == '_' || c.isAlphanum
      some (String.ofList name, cs.drop name.length)
    else none
  | [] => none

/-- The binary operator at the start of some text. An assignment is none. -/
def operator? (cs : List Char) : Option (Operator × Nat × List Char) :=
  operators.findSome? fun (text, op, strength) =>
    match Text.after? text.toList cs with
    | some rest =>
      if rest.head? = some '=' ∧ !(["<=", ">=", "==", "!=", "<", ">"].contains text) then none
      else some (op, strength, rest)
    | none => none

/-- An assignment operator at the start of some text. -/
def assignment? (cs : List Char) : Option (Option Operator × List Char) :=
  match cs with
  | '=' :: rest => if rest.head? = some '=' then none else some (none, rest)
  | _ =>
    operators.findSome? fun (text, op, strength) =>
      if strength = 7 ∨ strength = 6 ∨ strength ≤ 2 then none
      else (Text.after? (text ++ "=").toList cs).map fun rest => (some op, rest)

mutual

/-- An expression, with a choice or an assignment at its outside. -/
def whole : Nat → List Char → Option (Expression × List Char)
  | 0, _ => none
  | fuel + 1, cs =>
    let target := do
      let (name, rest) ← name? (skip cs)
      let (op, rest) ← assignment? (skip rest)
      some (name, op, rest)
    match target with
    | some (name, op, rest) => do
      let (e, rest) ← whole fuel rest
      some (.assign name op e, rest)
    | none => do
      let (condition, rest) ← level fuel 1 cs
      match skip rest with
      | '?' :: rest => do
        let (yes, rest) ← whole fuel rest
        match skip rest with
        | ':' :: rest => do
          let (no, rest) ← whole fuel rest
          some (.choose condition yes no, rest)
        | _ => none
      | rest => some (condition, rest)

/-- Operands joined by operators that bind at least as strongly as a level. -/
def level : Nat → Nat → List Char → Option (Expression × List Char)
  | 0, _, _ => none
  | fuel + 1, least, cs => do
    let (a, rest) ← operand fuel cs
    joined fuel least a rest

/-- What is joined to an operand. -/
def joined : Nat → Nat → Expression → List Char → Option (Expression × List Char)
  | 0, _, _, _ => none
  | fuel + 1, least, a, cs =>
    match operator? (skip cs) with
    | some (op, strength, rest) =>
      if strength < least then some (a, cs)
      else do
        let (b, rest) ← level fuel (strength + 1) rest
        joined fuel least (.binary op a b) rest
    | none => some (a, cs)

/-- A number, a name, a bracket, or a sign before one of them. -/
def operand : Nat → List Char → Option (Expression × List Char)
  | 0, _ => none
  | fuel + 1, cs =>
    let signed := fun (s : Sign) (rest : List Char) =>
      (operand fuel rest).map fun (e, rest) => (Expression.signed s e, rest)
    match skip cs with
    | '(' :: rest => do
      let (e, rest) ← whole fuel rest
      match skip rest with
      | ')' :: rest => some (e, rest)
      | _ => none
    | '+' :: rest => signed .keep rest
    | '-' :: rest => signed .negate rest
    | '~' :: rest => signed .complement rest
    | '!' :: rest => signed .logicalNot rest
    | cs =>
      match name? cs with
      | some (name, rest) => some (.valueOf name, rest)
      | none => (number? cs).map fun (n, rest) => (.number n, rest)

end

/-- Read an expression. Blank text is zero. -/
def ofText? (cs : List Char) : Option Expression :=
  if skip cs = [] then some (.number 0)
  else match whole (8 * cs.length + 16) cs with
    | some (e, rest) => if skip rest = [] then some e else none
    | none => none

/-! ## Values -/

/-- Wrapped to 64 bits. -/
def wrap (n : Int) : Int := n.bmod UInt64.size

/-- A truth as a number. -/
def truth (b : Bool) : Int := if b then 1 else 0

/-- The bits of a number. -/
def bits (n : Int) : Nat := (n % (UInt64.size : Int)).toNat

/-- What an operator makes of two numbers. -/
def combine (op : Operator) (a b : Int) : Except ArithmeticFault Int :=
  match op with
  | .times => .ok (wrap (a * b))
  | .divide => if b = 0 then .error .divisionByZero else .ok (wrap (a.tdiv b))
  | .remainder => if b = 0 then .error .divisionByZero else .ok (wrap (a.tmod b))
  | .plus => .ok (wrap (a + b))
  | .minus => .ok (wrap (a - b))
  | .shiftLeft => .ok (wrap (a * (1 <<< (bits b % 64) : Nat)))
  | .shiftRight => .ok (a >>> (bits b % 64))
  | .less => .ok (truth (a < b))
  | .lessEqual => .ok (truth (a ≤ b))
  | .greater => .ok (truth (a > b))
  | .greaterEqual => .ok (truth (a ≥ b))
  | .equal => .ok (truth (a = b))
  | .unequal => .ok (truth (a ≠ b))
  | .bitAnd => .ok (wrap (bits a &&& bits b))
  | .bitXor => .ok (wrap (bits a ^^^ bits b))
  | .bitOr => .ok (wrap (bits a ||| bits b))
  | .logicalAnd => .ok (truth (a ≠ 0 ∧ b ≠ 0))
  | .logicalOr => .ok (truth (a ≠ 0 ∨ b ≠ 0))

/-- The number that a text writes, with a sign or none. -/
def numberOf? (s : String) : Option Int :=
  match skip s.toList with
  | '-' :: rest => whole? rest |>.map fun n => -n
  | '+' :: rest => whole? rest
  | rest => whole? rest
where
  /-- A number and spaces behind it. -/
  whole? (cs : List Char) : Option Int :=
    match number? cs with
    | some (n, rest) => if skip rest = [] then some n else none
    | none => none

/-- Evaluate with the values of variables. -/
def evaluate : Expression → ExceptT ArithmeticFault (StateM Bindings) Int
  | .number n => pure (wrap n)
  | .valueOf s => do
    match (← get).get? s with
    | none => pure 0
    | some text =>
      if text = "" then pure 0
      else match numberOf? text with
        | some n => pure (wrap n)
        | none => throw (.notNumber text)
  | .signed s e => do
    let n ← evaluate e
    match s with
    | .keep => pure n
    | .negate => pure (wrap (-n))
    | .complement => pure (-n - 1)
    | .logicalNot => pure (truth (n = 0))
  | .binary .logicalAnd a b => do
    if (← evaluate a) = 0 then pure 0 else pure (truth ((← evaluate b) ≠ 0))
  | .binary .logicalOr a b => do
    if (← evaluate a) ≠ 0 then pure 1 else pure (truth ((← evaluate b) ≠ 0))
  | .binary op a b => do
    let x ← evaluate a
    let y ← evaluate b
    match combine op x y with
    | .ok n => pure n
    | .error f => throw f
  | .choose condition yes no => do
    if (← evaluate condition) ≠ 0 then evaluate yes else evaluate no
  | .assign name op e => do
    let n ← evaluate e
    let value ← match op with
      | none => pure n
      | some op => do
        let old ← evaluate (.valueOf name)
        match combine op old n with
        | .ok n => pure n
        | .error f => throw f
    modify fun vars => vars.insert name (Text.integer value)
    pure value

end Expression

end Formulary.Shell
