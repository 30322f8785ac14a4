import Formulary.Shell.Tools.Files
import Formulary.Shell.Tools.Texts

/-!
# Tools

The tools that a script may call by name, apart from the shell itself.
-/

namespace Formulary.Shell.Tools

open Session

/-- Print the working directory. -/
def pwd : Tool := fun _ => do sayLines [(← get).disk.workdir.text]

/-- The tools. -/
def table : List (String × Tool) :=
  [("basename", basename), ("cat", cat), ("chmod", chmod), ("cp", cp), ("cut", cut),
   ("dirname", dirname), ("echo", echo), ("false", fun _ => setStatus 1), ("grep", grep),
   ("head", head), ("install", install), ("ln", ln), ("ls", ls), ("mkdir", mkdir), ("mv", mv),
   ("printf", printf), ("pwd", pwd), ("readlink", readlink), ("realpath", realpath), ("rm", rm),
   ("rmdir", rmdir), ("seq", seq), ("sleep", fun _ => pure ()), ("sort", sort), ("tail", tail),
   ("tee", tee), ("test", test "test"), ("[", test "["), ("touch", touch), ("tr", tr),
   ("true", fun _ => pure ()), ("uname", uname), ("uniq", uniq), ("wc", wc)]

/-- The tools that start other programs. -/
def starters : List String := ["sh", "dash", "env"]

/-- The names of all tools. -/
def names : List String := starters ++ table.map Prod.fst

/-- A file with these bytes in front of a name is the tool of that name. -/
def magic : List UInt8 := [0x7F, 0x45, 0x4C, 0x46]

/-- The bytes of the file of a tool. -/
def image (name : String) : ByteArray := Bytes.ofList magic ++ name.toUTF8

/-- The name of the tool whose file has these bytes. -/
def ofImage? (bytes : ByteArray) : Option String :=
  if Bytes.startsWith bytes magic then some (Text.ofBytes (bytes.extract 4 bytes.size)) else none

end Formulary.Shell.Tools
