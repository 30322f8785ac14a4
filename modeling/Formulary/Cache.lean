import Formulary.Disk.Trees
import Formulary.Payload
import Formulary.World

/-!
# The source cache

Payloads are kept in a directory, each under the name that its checksum gives. A payload from the
cache is verified like any other; one that does not verify is discarded and fetched again. What
goes wrong with the cache itself only costs a fetch.
-/

namespace Formulary

/-- A way to get the bytes behind a URL. -/
abbrev Fetcher := String → StateM Disk (Except Error ByteArray)

namespace Cache

/-- The name of the entry for a declared checksum. A text that is no checksum gives a name too. -/
def key (declared : String) : String :=
  match Checksum.parse declared with
  | .ok digest => digest.cacheKey
  | .error _ =>
    String.ofList ((Text.trim declared).toList.map fun c => if c == ':' || c == '/' then '_' else c)

/-- Where the entry for a declared checksum is. -/
def entry (directory : Path) (declared : String) : Path := directory.join (key declared)

/-- The bytes of an entry, when it is there and can be read. -/
def readEntry (p : Path) : StateM Disk (Option ByteArray) := do
  if !(← Disk.isThere p) then pure none
  else match ← (Disk.read p).run with
    | .error _ => pure none
    | .ok bytes => pure (some bytes)

/-- The payload that an entry holds. An entry that can be read but does not verify is removed. -/
def lookUp (p : Path) (declared : String) : StateM Disk (Option Verified) := do
  match ← readEntry p with
  | none => pure none
  | some bytes =>
    match Verified.check bytes declared with
    | .ok archive => pure (some archive)
    | .error _ =>
      let _ ← (Disk.removeFile p).run
      pure none

/-- Make the directory of an entry. -/
def makeRoom (p : Path) : DiskM Unit :=
  match p.parent? with
  | some above => Disk.makeDirectories above
  | none => pure ()

/-- The name under which the payload of an entry is written first. -/
def draft (p : Path) : Path := p.withExtension "tmp"

/-- Put a payload into an entry : it is written under another name first, so the entry never
holds a part of it. -/
def store (p : Path) (bytes : ByteArray) : DiskM Unit := do
  makeRoom p
  Disk.write (draft p) bytes
  Disk.rename (draft p) p

/-- Fetch a payload and verify it. -/
def fetch (fetcher : Fetcher) (url declared : String) : WorldM (Except Error Verified) := do
  match ← World.call (.fetch url) Except.isOk (fetcher url) with
  | .error e => pure (.error e)
  | .ok bytes => pure (Verified.check bytes declared)

/-- The payload that the cache holds, if there is a cache. -/
def consult (declared : String) : Option Path → StateM Disk (Option Verified)
  | none => pure none
  | some directory => lookUp (entry directory declared) declared

/-- Keep a payload in the cache, if there is a cache. That it cannot be kept does no harm. -/
def keep (declared : String) (archive : Verified) : Option Path → StateM Disk Unit
  | none => pure ()
  | some directory => do
    let _ ← (store (entry directory declared) archive.bytes).run

/-- Get a verified payload, from the cache when it can give it, and keep it there. -/
def retrieve (fetcher : Fetcher) (url declared : String) (cache : Option Path) :
    WorldM (Except Error Verified) := do
  match ← World.onDisk (consult declared cache) with
  | some archive => pure (.ok archive)
  | none =>
    match ← fetch fetcher url declared with
    | .error e => pure (.error e)
    | .ok archive =>
      World.onDisk (keep declared archive cache)
      pure (.ok archive)

/-- The cache has a file for a declared checksum. -/
def holds (declared : String) : Option Path → StateM Disk Bool
  | none => pure false
  | some directory => Disk.isFile (entry directory declared)

end Cache

end Formulary
