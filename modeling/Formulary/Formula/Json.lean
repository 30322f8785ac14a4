import Formulary.Formula
import Formulary.Json

/-!
# Formulas as JSON

A formula written out in full : every field is there, also those that its document left to their
defaults.
-/

namespace Formulary

/-- A number that may be absent. -/
def wordJson : Option UInt32 → Json
  | none => .null
  | some w => .number w.toNat

/-- A condition on the host. -/
def HostCondition.toJson (c : HostCondition) : Json :=
  .object [("os", .text c.os), ("since", .text c.since)]

/-- A dependency. -/
def Dependency.toJson (d : Dependency) : Json := .object [
  ("name", .text d.name),
  ("contexts", .texts (d.stages.map Stage.name)),
  ("provenance", .text d.provenance.name),
  ("host", (d.condition.map HostCondition.toJson).getD .null),
  ("executable", .ofOption d.executable)]

/-- An artifact. -/
def Artifact.toJson (a : Artifact) : Json :=
  .object [("path", .text a.path), ("dest", .text a.dest), ("mode", .text a.mode.name)]

namespace Formula

/-- The section on what the formula is of. -/
def identityJson (f : Formula) : Json := .object [
  ("name", .text f.identity.name),
  ("version", .ofOption f.identity.version),
  ("description", .ofOption f.identity.description),
  ("homepage", .ofOption f.identity.homepage),
  ("license", .ofOption f.identity.license),
  ("revision", wordJson f.identity.revision)]

/-- The section on where the source is. -/
def sourceJson (f : Formula) : Json := .object [
  ("url", .text f.source.url),
  ("checksum", .text f.source.checksum),
  ("commit", match f.source.commit with
    | some p => .object [("version", .text p.version), ("id", .text p.id)]
    | none => .null)]

/-- The section on how to build. -/
def buildJson (f : Formula) : Json := .object [
  ("command", .texts f.build.command),
  ("output", .text f.build.output),
  ("environment", .ofBindings f.build.environment),
  ("toolchain", .texts f.build.toolchain),
  ("flags", .list (f.build.flags.map fun e =>
    .object [("symbol", .text e.symbol), ("variable", .text e.source)])),
  ("workdir", .ofOption f.build.workdir),
  ("jobs", wordJson f.build.jobs)]

/-- The section on how to test. -/
def testJson (f : Formula) : Json :=
  match f.test with
  | some t => .object [
      ("stub", .bool t.stub),
      ("commands", .list (t.commands.map Json.texts)),
      ("expect_output", .ofOption t.expected)]
  | none => .null

/-- The whole formula. -/
def toJson (f : Formula) : Json := .object [
  ("formula", f.identityJson),
  ("source", f.sourceJson),
  ("dependencies", .list (f.dependencies.map Dependency.toJson)),
  ("build", f.buildJson),
  ("install", .object [
    ("bin", .texts f.install.bin),
    ("artifacts", .list (f.install.artifacts.map Artifact.toJson))]),
  ("test", f.testJson),
  ("variables", .ofBindings f.vars)]

end Formula

end Formulary
