import Formulary.Bindings
import Formulary.Error
import Formulary.Formula

/-!
# Linker flags

`-s -w` and one `-X symbol=value` for each entry. The linker splits the joined flags at white
space and knows two quotes and no escapes, so a value with white space is quoted, and one
with white space and both quotes cannot be passed.
-/

namespace Formulary.Flags

/-- The flags that always come first : no symbol table, no debugging data. -/
def strip : List String := ["-s", "-w"]

/-- Why a flag cannot be rendered. -/
inductive Refusal where
  | unresolved (entry : FlagEntry)
  | unquotable (symbol value : String)
deriving DecidableEq

/-- The failure that a refusal is reported as. -/
def Refusal.toError : Refusal → Error
  | unresolved entry =>
    .template ("flag for " ++ entry.symbol ++ " references unresolved variable '" ++
      entry.source ++ "'")
  | unquotable symbol value =>
    .template ("value for " ++ symbol ++
      " contains whitespace and both quote characters: " ++ value)

/-- The text `symbol=value`, quoted when it holds white space. -/
def assignment (symbol value : String) : Except Refusal String :=
  let text := symbol ++ "=" ++ value
  if !text.toList.any Text.isBlank then .ok text
  else if !text.toList.contains '\'' then .ok ("'" ++ text ++ "'")
  else if !text.toList.contains '"' then .ok ("\"" ++ text ++ "\"")
  else .error (.unquotable symbol value)

/-- The flag of one entry. -/
def renderOne (vars : Bindings) (entry : FlagEntry) : Except Refusal String :=
  match vars.get? entry.source with
  | none => .error (.unresolved entry)
  | some value => (assignment entry.symbol value).map ("-X " ++ ·)

/-- The flags of all entries, in their order. -/
def render (entries : List FlagEntry) (vars : Bindings) : Except Refusal (List String) :=
  (entries.mapM (renderOne vars)).map (strip ++ ·)

/-- The flags as one text. -/
def joined (flags : List String) : String := Text.join " " flags

/-- How many flags inject a value. -/
def injectionCount (flags : List String) : Nat :=
  (flags.filter (Text.startsWith · "-X ")).length

end Formulary.Flags
