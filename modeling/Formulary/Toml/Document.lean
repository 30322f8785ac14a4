import Formulary.Toml.Reader

/-!
# Reading documents

A document is a sequence of key lines and table headers. While it is read, a table remembers
how it came to be, because that decides who may still add to it : a table that a longer header
only implies may get its own header, one made by dotted keys may be extended by dotted keys,
and no other may be extended.
-/

namespace Formulary.Toml

/-! ## Tables under construction -/

/-- How a table came to be. -/
inductive Origin where
  /-- By a header or as a value of its own. -/
  | explicit
  /-- By a header of a table inside it. -/
  | implied
  /-- By a dotted key. -/
  | dotted
deriving DecidableEq

/-- A table or value under construction. -/
inductive Node where
  | leaf (v : Value)
  | table (origin : Origin) (entries : List (String × Node))
  /-- A list of tables made by headers, the last first. -/
  | tables (earlier : List (List (String × Node))) (last : List (String × Node))
deriving Inhabited

/-- The keys of a table under construction. -/
abbrev Entries := List (String × Node)

/-- Put a node in place of the one that the key has. -/
def Entries.set (entries : Entries) (k : String) (n : Node) : Entries :=
  entries.map fun e => if e.1 = k then (k, n) else e

/-- Change the table at the end of a path. Tables on the way are made where there are none;
a path of dotted keys passes only through tables that it may extend. -/
def descend (viaDots : Bool) (change : Origin → Entries → Option Entries) :
    List String → Origin → Entries → Option Entries
  | [], origin, entries => change origin entries
  | k :: rest, _, entries =>
    match entries.lookup k with
    | none =>
      let origin := if viaDots then Origin.dotted else .implied
      (descend viaDots change rest origin []).map fun sub => entries ++ [(k, .table origin sub)]
    | some (.leaf _) => none
    | some (.tables earlier last) =>
      (descend viaDots change rest .explicit last).map fun sub =>
        Entries.set entries k (.tables earlier sub)
    | some (.table origin sub) =>
      if viaDots && origin == .explicit then none
      else (descend viaDots change rest origin sub).map fun sub =>
        Entries.set entries k (.table origin sub)

/-- Add a value under a dotted key. -/
def addValue (keys : List String) (v : Value) (origin : Origin) (entries : Entries) :
    Option Entries :=
  match keys.reverse with
  | [] => none
  | last :: front =>
    let path := front.reverse
    descend true (fun origin entries =>
      if (origin == .dotted) == path.isEmpty then none
      else if (entries.lookup last).isSome then none
      else some (entries ++ [(last, .leaf v)])) path origin entries

mutual

/-- The value of a finished node. -/
def Node.value : Node → Value
  | .leaf v => v
  | .table _ entries => .table (Node.values entries)
  | .tables earlier last =>
    .array ((Node.tablesValues earlier).reverse ++ [.table (Node.values last)])

/-- The values of finished entries. -/
def Node.values : List (String × Node) → List (String × Value)
  | [] => []
  | (k, n) :: rest => (k, n.value) :: Node.values rest

/-- The values of finished tables. -/
def Node.tablesValues : List (List (String × Node)) → List Value
  | [] => []
  | t :: rest => .table (Node.values t) :: Node.tablesValues rest

end

/-! ## Values -/

/-- The items of an array behind its bracket. -/
def arrayItems (item : Reader Value) : Nat → Reader (List Value)
  | 0, _ => none
  | fuel + 1, cs =>
    match skipLines (cs.length + 1) cs with
    | ']' :: rest => some ([], rest)
    | cs =>
      (item cs).bind fun (v, rest) =>
        match skipLines (rest.length + 1) rest with
        | ',' :: rest => (arrayItems item fuel rest).map fun (vs, rest) => (v :: vs, rest)
        | ']' :: rest => some ([v], rest)
        | _ => none

/-- The entries of an inline table behind its brace or a comma. -/
def inlineEntries (item : Reader Value) : Nat → Entries → Reader Entries
  | 0, _, _ => none
  | fuel + 1, entries, cs =>
    (key cs).bind fun (keys, rest) =>
      (expect '=' (skipSpace rest)).bind fun rest =>
        (item (skipSpace rest)).bind fun (v, rest) =>
          (addInline keys v entries).bind fun entries =>
            match skipSpace rest with
            | ',' :: rest => inlineEntries item fuel entries rest
            | c :: rest => if c == '\x7d' then some (entries, rest) else none
            | [] => none
where
  /-- Add a value to an inline table, whose own keys are not dotted. -/
  addInline (keys : List String) (v : Value) (entries : Entries) : Option Entries :=
    addValue keys v .explicit entries

/-- An inline table behind its brace. -/
def inlineTable (item : Reader Value) (cs : List Char) : Option (Value × List Char) :=
  match skipSpace cs with
  | [] => none
  | c :: rest =>
    if c == '\x7d' then some (.table [], rest)
    else (inlineEntries item (cs.length + 1) [] cs).map fun (entries, rest) =>
      (.table (Node.values entries), rest)

/-- A fixed word. -/
def word (w : String) (v : Value) (cs : List Char) : Option (Value × List Char) :=
  (Text.after? w.toList cs).map (v, ·)

/-- A value, with room for the given depth of arrays and inline tables. -/
def value : Nat → Reader Value
  | depth, cs =>
    match cs with
    | [] => none
    | c :: rest =>
      if c == '"' || c == '\'' then (string cs).map fun (s, rest) => (.text s, rest)
      else if c == '[' then
        match depth with
        | 0 => none
        | depth + 1 =>
          (arrayItems (value depth) (rest.length + 1) rest).map fun (vs, rest) =>
            (.array vs, rest)
      else if c == '\x7b' then
        match depth with
        | 0 => none
        | depth + 1 => inlineTable (value depth) rest
      else if c == 't' then word "true" (.boolean true) cs
      else if c == 'f' then word "false" (.boolean false) cs
      else if c == 'i' || c == 'n' then namedFloat cs
      else numeric cs

/-- How deep arrays and inline tables may nest. -/
def maxDepth : Nat := 80

/-! ## Lines -/

/-- A document half read : the root without the table of the last header, which is put back
when the next header comes. -/
structure State where
  root : Entries := []
  /-- The path of the last header; `none` before the first. -/
  path : Option (List String) := none
  /-- The last header opens one more table of a list. -/
  isList : Bool := false
  /-- The keys of the table of the last header. -/
  current : Entries := []

/-- Put the table of the last header into its place. -/
def State.close (s : State) : Option Entries :=
  match s.path with
  | none => some s.current
  | some path =>
    match path.reverse with
    | [] => none
    | last :: front =>
      descend false (fun _ entries =>
        match entries.lookup last with
        | none =>
          let n := if s.isList then .tables [] s.current else .table .explicit s.current
          some (entries ++ [(last, n)])
        | some (.tables earlier t) =>
          if s.isList then
            some (Entries.set entries last (.tables (t :: earlier) s.current))
          else none
        | some _ => none) front.reverse .explicit s.root

/-- Take the table that a header names out of its place, if it is only implied so far. -/
def takeImplied (last : String) (entries : Entries) : Option (Entries × Entries) :=
  match entries.lookup last with
  | none => some ([], entries)
  | some (.table .implied sub) => some (sub, entries.filter (·.1 ≠ last))
  | some _ => none

/-- The table at the end of a path of headers. -/
def tableAt : List String → Entries → Option Entries
  | [], entries => some entries
  | k :: rest, entries =>
    match entries.lookup k with
    | none => some []
    | some (.leaf _) => none
    | some (.tables _ last) => tableAt rest last
    | some (.table _ sub) => tableAt rest sub

/-- Begin the table of a header. -/
def State.header (s : State) (path : List String) (isList : Bool) : Option State := do
  let root ← s.close
  match path.reverse with
  | [] => none
  | last :: front =>
    let front := front.reverse
    let parent ← tableAt front root
    if isList then
      match parent.lookup last with
      | some (.leaf _) => none
      | some (.table ..) => none
      | _ =>
        let root ← descend false (fun _ entries => some entries) front .explicit root
        some { root, path := some path, isList, current := [] }
    else
      let (implied, _) ← takeImplied last parent
      let root ← descend false
        (fun _ entries => (takeImplied last entries).map (·.2)) front .explicit root
      some { root, path := some path, isList, current := implied }

/-- A header, from its bracket to the end of its line. -/
def headerLine (s : State) (cs : List Char) : Option (State × List Char) :=
  match cs with
  | '[' :: '[' :: rest =>
    (key rest).bind fun (path, rest) =>
      match skipSpace rest with
      | ']' :: ']' :: rest =>
        (closeLine? rest).bind fun rest => (s.header path true).map (·, rest)
      | _ => none
  | '[' :: rest =>
    (key rest).bind fun (path, rest) =>
      match skipSpace rest with
      | ']' :: rest => (closeLine? rest).bind fun rest => (s.header path false).map (·, rest)
      | _ => none
  | _ => none

/-- A key with its value, to the end of the line. -/
def keyLine (s : State) (cs : List Char) : Option (State × List Char) :=
  (key cs).bind fun (keys, rest) =>
    (expect '=' (skipSpace rest)).bind fun rest =>
      (value maxDepth (skipSpace rest)).bind fun (v, rest) =>
        (closeLine? rest).bind fun rest =>
          (addValue keys v .explicit s.current).map fun current => ({ s with current }, rest)

/-- Every line of a document. -/
def documentLines : Nat → State → List Char → Option State
  | 0, _, _ => none
  | fuel + 1, s, cs =>
    match skipLines (cs.length + 1) cs with
    | [] => some s
    | '[' :: rest =>
      (headerLine s ('[' :: rest)).bind fun (s, rest) => documentLines fuel s rest
    | cs => (keyLine s cs).bind fun (s, rest) => documentLines fuel s rest

/-- The table that a document describes; `none` when it is not well formed. A byte order mark
at its front is passed over. -/
def document (text : String) : Option Table := do
  let cs := match text.toList with
    | '\uFEFF' :: rest => rest
    | cs => cs
  let s ← documentLines (cs.length + 1) {} cs
  let root ← s.close
  pure (Node.values root)

end Formulary.Toml
