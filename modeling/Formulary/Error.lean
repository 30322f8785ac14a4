/-!
# Failures of a cook

Every way in which loading or cooking a formula can fail, with its printed text, its kind,
and the exit status of the kind. Zero is the status of no kind (`Kind.exitCode_ne_zero`).
-/

namespace Formulary

/-- Why a formula could not be loaded or cooked. -/
inductive Error where
  /-- The payload has another digest than the declared one. -/
  | integrity (expected actual : String)
  /-- The source could not be retrieved. -/
  | fetch (reason : String)
  /-- The verified payload could not be unpacked. -/
  | extraction (reason : String)
  /-- A dependency is missing, or the host is older than its condition. -/
  | dependency (reason : String)
  /-- The linker flags could not be rendered. -/
  | template (reason : String)
  /-- A build variable could not be determined. -/
  | resolve (reason : String)
  /-- The build tool failed. -/
  | build (reason : String)
  /-- The artifacts could not be placed into the prefix. -/
  | install (reason : String)
  /-- The smoke test did not pass. -/
  | test (reason : String) (stub : Bool)
  /-- The formula or the configuration is invalid. -/
  | parse (reason : String)
  /-- A file operation failed outside any phase. -/
  | io (reason : String)
deriving DecidableEq, Inhabited

namespace Error

/-- The coarse class of a failure, which decides the exit status. -/
inductive Kind where
  | integrity | fetch | extraction | dependency | template | resolve | build | install | test
  | parse | io
deriving DecidableEq, Inhabited

/-- Every kind. -/
def Kind.all : List Kind :=
  [.integrity, .fetch, .extraction, .dependency, .template, .resolve, .build, .install, .test,
    .parse, .io]

/-- The printed name of a kind. -/
def Kind.name : Kind → String
  | .integrity => "IntegrityError"
  | .fetch => "FetchError"
  | .extraction => "ExtractionError"
  | .dependency => "UnsatisfiedDependencyError"
  | .template => "TemplateError"
  | .resolve => "ResolveError"
  | .build => "BuildError"
  | .install => "InstallError"
  | .test => "TestFailure"
  | .parse => "ParseError"
  | .io => "IoError"

/-- The kind of that name. -/
def Kind.ofName? (name : String) : Option Kind := all.find? (·.name = name)

/-- The exit status of a process that fails with this kind. -/
def Kind.exitCode : Kind → Nat
  | .parse => 2
  | .io => 3
  | .dependency => 10
  | .fetch => 11
  | .integrity => 12
  | .extraction => 13
  | .resolve => 14
  | .template => 15
  | .build => 16
  | .install => 17
  | .test => 18

theorem Kind.exitCode_ne_zero (k : Kind) : k.exitCode ≠ 0 := by cases k <;> decide

/-- The kind of a failure. -/
def kind : Error → Kind
  | integrity .. => .integrity
  | fetch _ => .fetch
  | extraction _ => .extraction
  | dependency _ => .dependency
  | template _ => .template
  | resolve _ => .resolve
  | build _ => .build
  | install _ => .install
  | test .. => .test
  | parse _ => .parse
  | io _ => .io

/-- The text printed for a failure. -/
def message : Error → String
  | integrity expected actual => s!"checksum mismatch: expected {expected}, got {actual}"
  | fetch reason => "fetch failed: " ++ reason
  | extraction reason => "extraction failed: " ++ reason
  | dependency reason => "unsatisfied dependency: " ++ reason
  | template reason => "flag template error: " ++ reason
  | resolve reason => "could not resolve build variable: " ++ reason
  | build reason => "build failed: " ++ reason
  | install reason => "install failed: " ++ reason
  | test reason true => "smoke test is a declared stub and always fails: " ++ reason
  | test reason false => "smoke test failed: " ++ reason
  | parse reason => "parse error: " ++ reason
  | io reason => "I/O error: " ++ reason

end Error

end Formulary
