import Formulary.Decimal.Shortest

/-!
# Documents

The values of a TOML document. Tables keep their keys in the order of the document.
-/

namespace Formulary.Toml

/-- A value of a document. -/
inductive Value where
  | text (s : String)
  | integer (n : Int)
  | float (x : Float)
  | boolean (b : Bool)
  /-- A date or a time, in its normal form. -/
  | moment (s : String)
  | array (items : List Value)
  | table (entries : List (String × Value))
deriving Inhabited

/-- The keys of a table with their values. -/
abbrev Table := List (String × Value)

end Formulary.Toml
