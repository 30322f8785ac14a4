import Formulary.CommandLine

/-!
# Footprints

Which files of a machine a run may read, and what it changed. With the two, a run on a disk in
memory does on a machine what it did in memory.
-/

namespace Formulary.CommandLine

/-! ## What is read -/

/-- The files that arguments name, and the document in which the system declares its release. -/
def namedFiles (arguments : List String) : List Path :=
  match parse arguments with
  | .error _ => []
  | .ok i =>
    let formula := match i.action with
      | .cook p _ _ _ _ _ | .fetch p _ | .flags p _ _ | .deps p _ | .validate p => p
    formula :: i.config.toList ++ [Machine.releaseDocument]

/-- The source options of a command that gets a source. -/
def sourceOptions? : Action → Option (Path × SourceOptions)
  | .cook p s _ _ _ _ => some (p, s)
  | .fetch p s => some (p, s)
  | .flags p s _ => some (p, s)
  | _ => none

/-- The file that a URL names. -/
def fileOfUrl? (url : String) : Option Path :=
  match Url.parse url with
  | .ok u => if u.scheme = "file" then u.filePath? else none
  | .error _ => none

/-- The files in which the source may be found, on a disk that holds the named files. -/
def sourceFiles (m : Machine) (arguments : List String) : StateM Disk (List Path) := do
  match parse arguments with
  | .error _ => pure []
  | .ok i =>
    match sourceOptions? i.action with
    | none => pure []
    | some (p, s) =>
      let act : CommandM (List Path) := do
        let f ← loadFormula p
        let c := s.setOver (← loadConfig m i.config)
        let entry := c.sourceCache.map fun dir => Cache.entry dir f.source.checksum
        pure ((fileOfUrl? f.source.url).toList ++ entry.toList)
      match ← act.run with
      | .ok files => pure files
      | .error _ => pure []

/-! ## What is changed -/

/-- A change of a disk. -/
inductive Change where
  | directory (p : Path)
  | file (p : Path) (bytes : ByteArray) (mode : Nat)
  | gone (p : Path)
deriving Inhabited

/-- A file is as it was. -/
def unchanged (was : Option FileData) (data : FileData) : Bool :=
  was.any fun old => old.bytes.data == data.bytes.data && old.mode == data.mode

/-- The changes from one disk to another. Directories come before what is in them. Links are left
out. -/
def changes (before after : Disk) : List Change :=
  let kept := after.entries.filterMap fun (p, e) =>
    match e with
    | .directory _ =>
      if (before.entryAt? p).isSome then none else some (p, Change.directory (Disk.pathOf p))
    | .file n =>
      let data := (after.fileData? n).getD ⟨.empty, 0⟩
      if unchanged (before.fileAt? p) data then none
      else some (p, .file (Disk.pathOf p) data.bytes data.mode)
    | .link _ => none
  let removed := before.entries.filterMap fun (p, e) =>
    if Disk.kindOf e = .file ∧ (after.entryAt? p).isNone then some (Change.gone (Disk.pathOf p))
    else none
  removed ++ (kept.mergeSort fun a b => a.1.length ≤ b.1.length).map Prod.snd

end Formulary.CommandLine
