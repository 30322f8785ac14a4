import Formulary.Text.Printable
import Formulary.Bindings
import Formulary.Toml.Value

/-!
# Decoding documents

A decoder turns a value of a document into a value of a domain type, or says what is wrong with
its shape. Records are read from tables, whose known keys may come in any order beside unknown
ones, or from arrays that hold the fields in their declared order. Faults are found in the
order of the document; a field that is missing is reported at the end of its table.
-/

namespace Formulary.Toml

/-- What is wrong with the shape of a document. -/
inductive ShapeError where
  | missing (field : String)
  | wrongType (found expected : String)
  | outOfRange (found expected : String)
  | unknownVariant (found : String) (known : List String)
  /-- A fault that is not described any further. -/
  | unspecified
deriving DecidableEq

/-- A name between back quotes. -/
def ticked (s : String) : String := "`" ++ s ++ "`"

/-- The known variants, as a message lists them. -/
def variantList : List String → String
  | [a] => ticked a
  | [a, b] => ticked a ++ " or " ++ ticked b
  | l => "one of " ++ Text.join ", " (l.map ticked)

/-- The text printed for a fault, when it has one. -/
def ShapeError.message? : ShapeError → Option String
  | missing field => some ("missing field " ++ ticked field)
  | wrongType found expected => some ("invalid type: " ++ found ++ ", expected " ++ expected)
  | outOfRange found expected => some ("invalid value: " ++ found ++ ", expected " ++ expected)
  | unknownVariant found known =>
    some ("unknown variant " ++ ticked found ++ ", expected " ++ variantList known)
  | unspecified => none

/-- A reading of values as a domain type. -/
abbrev Decoder (α : Type) := Value → Except ShapeError α

/-- What a value is called in a message. -/
def Value.describe : Value → String
  | .text s => "string " ++ Text.quoted s
  | .integer n => "integer " ++ ticked (Text.integer n)
  | .float x => "floating point " ++ ticked (Decimal.ofFloat x)
  | .boolean b => "boolean " ++ ticked (if b then "true" else "false")
  | .moment _ => "map"
  | .array _ => "sequence"
  | .table _ => "map"

/-- The value is not of the expected type. -/
def wrong {α : Type} (expected : String) (v : Value) : Except ShapeError α :=
  .error (.wrongType v.describe expected)

/-! ## Simple values -/

/-- A text. -/
def decodeText : Decoder String
  | .text s => .ok s
  | v => wrong "a string" v

/-- The text of a path. -/
def decodePath : Decoder String
  | .text s => .ok s
  | v => wrong "path string" v

/-- A truth value. -/
def decodeBoolean : Decoder Bool
  | .boolean b => .ok b
  | v => wrong "a boolean" v

/-- A number of thirty-two bits. -/
def decodeWord : Decoder UInt32
  | .integer n =>
    if 0 ≤ n ∧ n < (UInt32.size : Int) then .ok (UInt32.ofNat n.toNat)
    else .error (.outOfRange ("integer " ++ ticked (Text.integer n)) "u32")
  | v => wrong "u32" v

/-- A list. -/
def decodeList {α : Type} (item : Decoder α) : Decoder (List α)
  | .array items => items.mapM item
  | v => wrong "a sequence" v

/-- The key under which a date or time is the only entry of a table. -/
def momentKey : String := "$__toml_private_datetime"

/-- Names with texts. -/
def decodeBindings : Decoder Bindings
  | .table entries => decodeEntries entries
  | .moment s => .ok (Bindings.empty.insert momentKey s)
  | v => wrong "a map" v
where
  /-- The texts of the entries, in order. -/
  decodeEntries (entries : Table) : Except ShapeError Bindings :=
    entries.foldlM (fun b e => (decodeText e.2).map (b.insert e.1)) .empty

/-- One of some named values, as its name or as a table with the name for its only key and
nothing under it. -/
def decodeVariant {α : Type} (variants : List (String × α)) : Decoder α
  | .text s => named s
  | .table [(s, v)] => do
    let a ← named s
    match v with
    | .table [] => pure a
    | .array [] => pure a
    | _ => throw .unspecified
  | _ => .error .unspecified
where
  /-- The value of a name. -/
  named (s : String) : Except ShapeError α :=
    match variants.lookup s with
    | some a => .ok a
    | none => .error (.unknownVariant s (variants.map Prod.fst))

/-! ## Records -/

/-- How a record is read : each field adds to what is known of the record so far, and
`finish` asks for the fields that have no default. -/
structure RecordShape (σ α : Type) where
  title : String
  fields : List (String × (Value → σ → Except ShapeError σ))
  start : σ
  finish : σ → Except ShapeError α

namespace RecordShape

variable {σ α : Type}

/-- Read one entry of a table. An unknown key says nothing. -/
def step (shape : RecordShape σ α) (known : σ) (e : String × Value) : Except ShapeError σ :=
  match shape.fields.lookup e.1 with
  | none => .ok known
  | some read => read e.2 known

/-- Read the entries of a table. -/
def ofEntries (shape : RecordShape σ α) (entries : Table) : Except ShapeError α := do
  shape.finish (← entries.foldlM shape.step shape.start)

/-- Read the fields in their order. A field that is missing gets no name here. -/
def ofItems (shape : RecordShape σ α) (items : List Value) : Except ShapeError α := do
  let known ← (shape.fields.zip items).foldlM (fun s e => e.1.2 e.2 s) shape.start
  match shape.finish known with
  | .error (.missing _) => .error .unspecified
  | result => result

/-- Read a record. -/
def decode (shape : RecordShape σ α) : Decoder α
  | .table entries => shape.ofEntries entries
  | .moment s => shape.ofEntries [(momentKey, .text s)]
  | .array items => shape.ofItems items
  | v => wrong ("struct " ++ shape.title) v

end RecordShape

/-- A field that must be there. -/
def required {α : Type} (name : String) : Option α → Except ShapeError α
  | some a => .ok a
  | none => .error (.missing name)

/-- A field read by a decoder and put into the record. -/
def field {σ α : Type} (name : String) (decode : Decoder α) (put : α → σ → σ) :
    String × (Value → σ → Except ShapeError σ) :=
  (name, fun v s => (decode v).map (put · s))

end Formulary.Toml
