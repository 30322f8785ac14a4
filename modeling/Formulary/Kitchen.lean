import Formulary.Cook
import Formulary.HostMetadata
import Formulary.Url

/-!
# The kitchen

What can be done with a formula : cook it, only fetch its source, or only render its flags.
-/

namespace Formulary

/-! ## Fetching -/

namespace Fetcher

/-- Get what is behind a URL. Files are read; there is no network. -/
def ofUrl : Fetcher := fun text => do
  match Url.parse text with
  | .error defect => pure (.error (.fetch ("Invalid URL " ++ text ++ ": " ++ defect.message)))
  | .ok url =>
    if url.scheme = "file" then
      match url.filePath? with
      | none => pure (.error (.fetch ("Invalid file URL: " ++ text)))
      | some p =>
        match ← (Disk.read p).run with
        | .ok bytes => pure (.ok bytes)
        | .error cause =>
          pure (.error (.fetch ("Failed to read " ++ p.display ++ ": " ++ cause.message)))
    else if url.scheme = "http" ∨ url.scheme = "https" then
      pure (.error (.fetch ("Failed to download " ++ text ++ ": there is no network")))
    else
      pure (.error (.fetch ("Unsupported URL scheme '" ++ url.scheme ++ "' in " ++ text)))

end Fetcher

namespace Kitchen

/-- A fetcher can call itself this : there are no control characters in it but tabs. -/
def canBeCalled (userAgent : String) : Bool :=
  userAgent.toList.all fun c => (' ' ≤ c && c != '\x7f') || c == '\t'

/-- The failure when a fetcher cannot be called what the configuration says. -/
def nameError : Error :=
  .fetch "Failed to create HTTP client: builder error: failed to parse header value"

/-- The kitchen of a machine. -/
def ofMachine (m : Machine) (config : Config) : Kitchen where
  config
  fetcher := .ofUrl
  metadata := m.metadata
  probe := .onPath m.searchPath (m.environment.get? "HOME")
  host := m.host
  temporary := m.temporary
  now := m.now

/-- Set up the kitchen of a machine. -/
def setUp (m : Machine) (config : Config) : Except Error Kitchen :=
  if canBeCalled config.userAgent then .ok (ofMachine m config) else .error nameError

/-- Cook a formula into a prefix with given procedures. -/
def cookWith (k : Kitchen) (f : Formula) (install : InstallProcedure)
    (test : Option TestProcedure) (base : Path) : WorldM Report := fun w =>
  let (_, c) := Cook.run k f install test (Cook.start k f base test.isSome w)
  (c.report, c.world)

/-- Cook a formula into a prefix by its own commands. -/
def cook (k : Kitchen) (m : Machine) (f : Formula) (base : Path) : WorldM Report :=
  k.cookWith f (CommandBuild.procedure m f) (CommandTest.procedure? m f) base

/-- Take the first steps of a cook, and give up its build directory. -/
def partly {α : Type} (k : Kitchen) (f : Formula) (steps : CookM α) : WorldM (Except Error α) :=
  fun w =>
    let (result, c) := steps.run (Cook.start k f (k.config.home f) false w)
    let (_, c) := Cook.cleanUp c
    (result, c.world)

/-- Get the verified source of a formula. -/
def fetch (k : Kitchen) (f : Formula) : WorldM (Except Error Verified) :=
  k.partly f (Cook.fetchOnly k f)

/-- The build variables and the flags of a formula. -/
def renderFlags (k : Kitchen) (f : Formula) : WorldM (Except Error (Bindings × List String)) :=
  k.partly f (Cook.flagsOnly k f)

/-- The source of a formula is in the cache. -/
def isCached (k : Kitchen) (f : Formula) : StateM Disk Bool :=
  Cache.holds f.source.checksum k.config.sourceCache

end Kitchen

end Formulary
