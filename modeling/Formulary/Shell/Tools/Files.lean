import Formulary.Shell.Tools.Basic

/-!
# Tools that change files
-/

namespace Formulary.Shell.Tools

open Session

/-! ## Modes -/

/-- Who a letter of a mode speaks of, as a mask of bits. -/
def whoMask : Char → Nat
  | 'u' => 0o4700
  | 'g' => 0o2070
  | 'o' => 0o1007
  | _ => 0o7777

/-- The bits that a letter of a mode gives to everyone. Directories and files that may be run by
someone are searched or run with `X` too. -/
def rightBits (isDirectory : Bool) (mode : Nat) : Char → Nat
  | 'r' => 0o444
  | 'w' => 0o222
  | 'x' => 0o111
  | 'X' => if isDirectory || mode &&& 0o111 != 0 then 0o111 else 0
  | 's' => 0o6000
  | 't' => 0o1000
  | _ => 0

/-- What `umask` takes away where a mode names nobody. -/
def defaultMask : Nat := 0o022

/-- One clause of a mode, such as `u+x`. -/
def changeMode? (isDirectory : Bool) (mode : Nat) (clause : List Char) : Option Nat :=
  let who := clause.takeWhile fun c => "ugoa".toList.contains c
  let mask := if who = [] then 0o7777 - defaultMask
    else (who.map whoMask).foldl (· ||| ·) 0
  match clause.drop who.length with
  | op :: rights =>
    if !rights.all fun c => "rwxXst".toList.contains c then none
    else
      let bits := (rights.map (rightBits isDirectory mode)).foldl (· ||| ·) 0 &&& mask
      match op with
      | '+' => some (mode ||| bits)
      | '-' => some (mode - (mode &&& bits))
      | '=' =>
        let cleared := if who = [] then 0o7777 else mask
        let cleared := if isDirectory then cleared &&& 0o1777 else cleared
        some (mode - (mode &&& cleared) ||| bits)
      | _ => none
  | [] => none

/-- The mode that a written mode makes of another one. -/
def mode? (written : String) (isDirectory : Bool) (mode : Nat) : Option Nat :=
  match written.toList.head? with
  | some c =>
    if Text.isDigit c then (Text.number? 8 written.toList).filter (· ≤ 0o7777)
    else (Text.pieces ',' written).foldl
      (fun acc clause => acc.bind fun m => changeMode? isDirectory m clause.toList) (some mode)
  | none => none

/-- Change the mode of one file. -/
def changeOne (written path : String) : Act Unit := do
  let isDirectory ← onDisk (Disk.isDirectory ⟨path⟩)
  match ← tryDisk (Disk.mode ⟨path⟩) with
  | .error cause => complain "chmod" ("cannot access " ++ quoted path ++ ": " ++ reason cause)
  | .ok old =>
    match mode? written isDirectory old with
    | none => complain "chmod" ("invalid mode: " ++ quoted written)
    | some m => attempt "chmod" ("changing permissions of " ++ quoted path) (Disk.setMode ⟨path⟩ m)

/-- The paths of everything below a directory, as they would be written. -/
def everythingBelow (path : String) : Act (List String) := do
  let d := (← get).disk
  match d.found false ⟨path⟩ with
  | .ok (place, .directory _) =>
    pure ((d.below place).filterMap fun (q, e) =>
      if Disk.kindOf e == .link then none else some (path ++ "/" ++ Text.join "/" q))
  | _ => pure []

/-- Change modes. -/
def chmod : Tool := fun arguments => do
  let recursive := arguments.any fun a => a == "-R" || a == "--recursive"
  let rest := arguments.filter fun a => !(["-R", "--recursive", "-v", "-f", "--"].contains a)
  match rest with
  | [] | [_] => missingOperand "chmod"
  | written :: paths =>
    if (mode? written false 0).isNone then
      complain "chmod" ("invalid mode: " ++ quoted written)
      say 2 "Try 'chmod --help' for more information.\n"
    else for path in paths do
      changeOne written path
      if recursive then
        for inner in ← everythingBelow path do changeOne written inner

/-! ## Directories -/

/-- Make directories. -/
def mkdir : Tool := fun arguments => do
  let (mode, arguments) := match arguments with
    | "-m" :: m :: rest => (mode? m true 0o777, rest)
    | rest => (none, rest)
  let (letters, paths) := options arguments
  if paths.isEmpty then missingOperand "mkdir"
  for path in paths do
    let make : DiskM Unit := do
      if letters.contains 'p' then Disk.makeDirectories ⟨path⟩ else Disk.makeDirectory ⟨path⟩
      match mode with
      | some m => Disk.setMode ⟨path⟩ m
      | none => pure ()
    attempt "mkdir" ("cannot create directory " ++ quoted path) make

/-- Remove empty directories. -/
def rmdir : Tool := fun arguments => do
  let (_, paths) := options arguments
  if paths.isEmpty then missingOperand "rmdir"
  for path in paths do
    attempt "rmdir" ("failed to remove " ++ quoted path) (Disk.removeDirectory ⟨path⟩)

/-- Remove files, and trees if told so. -/
def rm : Tool := fun arguments => do
  let (letters, paths) := options arguments
  let force := letters.contains 'f'
  let trees := letters.contains 'r' || letters.contains 'R'
  if paths.isEmpty && !force then missingOperand "rm"
  for path in paths do
    match ← tryDisk (Disk.kind false ⟨path⟩) with
    | .error .notFound =>
      if force then pure ()
      else complain "rm" ("cannot remove " ++ quoted path ++ ": " ++ reason .notFound)
    | .error cause => complain "rm" ("cannot remove " ++ quoted path ++ ": " ++ reason cause)
    | .ok .directory =>
      if trees then attempt "rm" ("cannot remove " ++ quoted path) (Disk.removeTree ⟨path⟩)
      else complain "rm" ("cannot remove " ++ quoted path ++ ": Is a directory")
    | .ok _ => attempt "rm" ("cannot remove " ++ quoted path) (Disk.removeFile ⟨path⟩)

/-! ## Copies, moves and links -/

/-- Where something goes : into the last operand if that is a directory. -/
def destination (source onto : String) : Act String := do
  if ← onDisk (Disk.isDirectory ⟨onto⟩) then
    pure ((Path.mk onto).join (((Path.mk source).fileName?).getD source)).text
  else pure onto

/-- Do something with each operand and its destination. -/
def eachOperand (tool : String) (paths : List String) (act : String → String → Act Unit) :
    Act Unit := do
  match paths.reverse with
  | [] => do
    complain tool "missing file operand"
    say 2 ("Try '" ++ tool ++ " --help' for more information.\n")
  | [a] => do
    complain tool ("missing destination file operand after " ++ quoted a)
    say 2 ("Try '" ++ tool ++ " --help' for more information.\n")
  | onto :: sources =>
    if sources.length > 1 ∧ !(← onDisk (Disk.isDirectory ⟨onto⟩)) then
      complain tool ("target " ++ quoted onto ++ ": " ++ reason .notDirectory)
    else
      for source in sources.reverse do act source (← destination source onto)

/-- Copy a file. A new copy has the mode of the file as far as new files may have it, unless all
of it is `kept`; one that is there keeps its mode. -/
def copyFile (kept : Bool) (source onto : Path) : DiskM Unit := do
  let bytes ← Disk.read source
  let mode ← Disk.mode source
  let isNew := !(← Disk.isThere onto)
  Disk.write onto bytes
  if kept then Disk.setMode onto mode
  else if isNew then Disk.setMode onto (mode &&& (0o7777 - defaultMask) &&& 0o777)

/-- Copy a tree, down to some depth. -/
def copyTree (kept : Bool) : Nat → Path → Path → DiskM Unit
  | 0, _, _ => throw .loop
  | depth + 1, source, onto => do
    match ← Disk.kind false source with
    | .file => copyFile kept source onto
    | .link =>
      match (← get).found false source with
      | .ok (_, .link target) => Disk.makeLink target onto
      | _ => throw .notFound
    | .directory => do
      let mode ← Disk.mode source
      let names ← Disk.list source
      if !(← Disk.isDirectory onto) then
        Disk.makeDirectory onto
        Disk.setMode onto (if kept then mode else mode &&& (0o777 - defaultMask))
      for name in names do copyTree kept depth (source.join name) (onto.join name)

/-- Copy files, and trees if told so. -/
def cp : Tool := fun arguments => do
  let (letters, paths) := options arguments
  let trees := letters.any fun c => c == 'r' || c == 'R' || c == 'a'
  let kept := letters.any fun c => c == 'p' || c == 'a'
  eachOperand "cp" paths fun source onto => do
    match ← tryDisk (Disk.kind (!trees) ⟨source⟩) with
    | .error cause => complain "cp" ("cannot stat " ++ quoted source ++ ": " ++ reason cause)
    | .ok .directory =>
      if trees then
        let depth := (← get).disk.depth + 1
        attempt "cp" ("cannot copy " ++ quoted source) (copyTree kept depth ⟨source⟩ ⟨onto⟩)
      else complain "cp" ("-r not specified; omitting directory " ++ quoted source)
    | .ok .link => attempt "cp" ("cannot copy " ++ quoted source) (copyTree kept 1 ⟨source⟩ ⟨onto⟩)
    | .ok .file =>
      let d := (← get).disk
      let same : Bool := match d.found true ⟨source⟩, d.found true ⟨onto⟩ with
        | .ok (_, e), .ok (_, f) => e == f && Disk.kindOf e == .file
        | _, _ => false
      if same then
        complain "cp" (quoted source ++ " and " ++ quoted onto ++ " are the same file")
      else
        attempt "cp" ("cannot create regular file " ++ quoted onto)
          (copyFile kept ⟨source⟩ ⟨onto⟩)

/-- Move files. -/
def mv : Tool := fun arguments => do
  let (_, paths) := options arguments
  eachOperand "mv" paths fun source onto => do
    match ← tryDisk (Disk.kind false ⟨source⟩) with
    | .error cause => complain "mv" ("cannot stat " ++ quoted source ++ ": " ++ reason cause)
    | .ok _ =>
      attempt "mv" ("cannot move " ++ quoted source ++ " to " ++ quoted onto)
        (Disk.rename ⟨source⟩ ⟨onto⟩)

/-- Make links. -/
def ln : Tool := fun arguments => do
  let (letters, paths) := options arguments
  let force := letters.contains 'f'
  let paths := match paths with
    | [a] => [a, "."]
    | paths => paths
  eachOperand "ln" paths fun source onto => do
    if force then
      let _ ← tryDisk (Disk.removeFile ⟨onto⟩)
    if letters.contains 's' then
      attempt "ln" ("failed to create symbolic link " ++ quoted onto) (Disk.makeLink source ⟨onto⟩)
    else attempt "ln" ("failed to create hard link " ++ quoted onto) (Disk.addName ⟨source⟩ ⟨onto⟩)

/-- Make files that are not there. -/
def touch : Tool := fun arguments => do
  let (letters, paths) := options arguments
  if paths.isEmpty then
    complain "touch" "missing file operand"
    say 2 "Try 'touch --help' for more information.\n"
  for path in paths do
    if ← onDisk (Disk.isThere ⟨path⟩) then pure ()
    else if letters.contains 'c' then pure ()
    else attempt "touch" ("cannot touch " ++ quoted path) (Disk.append ⟨path⟩ .empty)

/-- Copy files and set their modes, or make directories. -/
def install : Tool := fun arguments => do
  let written := match arguments.dropWhile fun a => !(a == "-m") with
    | _ :: m :: _ => some m
    | _ => arguments.findSome? fun (a : String) =>
      (Text.after? "-m".toList a.toList).bind fun m =>
        if m = [] then none else some (String.ofList m)
  let rest := match arguments.span fun a => !(a == "-m") with
    | (before, _ :: _ :: after) => before ++ after
    | (before, _) => before.filter fun a => !(Text.startsWith a "-m")
  let (letters, paths) := options rest
  let mode := (written.bind fun m => mode? m false 0).getD 0o755
  if letters.contains 'd' then
    for path in paths do
      attempt "install" ("cannot create directory " ++ quoted path) do
        Disk.makeDirectories ⟨path⟩
        Disk.setMode ⟨path⟩ mode
  else
    eachOperand "install" paths fun source onto => do
      attempt "install" ("cannot create regular file " ++ quoted onto) do
        if letters.contains 'D' then
          match (Path.mk onto).parent? with
          | some above => Disk.makeDirectories above
          | none => pure ()
        let bytes ← Disk.read ⟨source⟩
        Disk.write ⟨onto⟩ bytes
        Disk.setMode ⟨onto⟩ mode

end Formulary.Shell.Tools
