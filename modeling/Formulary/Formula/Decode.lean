import Formulary.Error
import Formulary.Formula
import Formulary.Toml.Decode
import Formulary.Toml.Document

/-!
# Formula documents

The fields of a formula document, with their names, their order and their defaults.
-/

namespace Formulary

open Toml

/-! ## Records of a formula -/

/-- What is known of an identity while it is read. -/
structure IdentityFields where
  name : Option String := none
  version : Option String := none
  description : Option String := none
  homepage : Option String := none
  license : Option String := none
  revision : Option UInt32 := none

/-- The `formula` table. -/
def identityShape : RecordShape IdentityFields Identity where
  title := "FormulaSection"
  fields := [
    field "name" decodeText fun a s => { s with name := some a },
    field "version" decodeText fun a s => { s with version := some a },
    field "description" decodeText fun a s => { s with description := some a },
    field "homepage" decodeText fun a s => { s with homepage := some a },
    field "license" decodeText fun a s => { s with license := some a },
    field "revision" decodeWord fun a s => { s with revision := some a }]
  start := {}
  finish s := do
    let name ← required "name" s.name
    pure { name, version := s.version, description := s.description, homepage := s.homepage,
           license := s.license, revision := s.revision }

/-- What is known of a commit pin while it is read. -/
structure CommitPinFields where
  version : Option String := none
  id : Option String := none

/-- The `commit` table of a source. -/
def commitPinShape : RecordShape CommitPinFields CommitPin where
  title := "CommitPin"
  fields := [
    field "version" decodeText fun a s => { s with version := some a },
    field "id" decodeText fun a s => { s with id := some a }]
  start := {}
  finish s := do
    let version ← required "version" s.version
    let id ← required "id" s.id
    pure { version, id }

/-- What is known of a source while it is read. -/
structure SourceFields where
  url : Option String := none
  checksum : Option String := none
  commit : Option CommitPin := none

/-- The `source` table. -/
def sourceShape : RecordShape SourceFields Source where
  title := "SourceSection"
  fields := [
    field "url" decodeText fun a s => { s with url := some a },
    field "checksum" decodeText fun a s => { s with checksum := some a },
    field "commit" commitPinShape.decode fun a s => { s with commit := some a }]
  start := {}
  finish s := do
    let url ← required "url" s.url
    let checksum ← required "checksum" s.checksum
    pure { url, checksum, commit := s.commit }

/-- The stages by name. -/
def decodeStage : Decoder Stage :=
  decodeVariant [("build", .build), ("test", .test), ("runtime", .runtime)]

/-- The provenances by name. -/
def decodeProvenance : Decoder Provenance :=
  decodeVariant [("formula", .formula), ("host", .host)]

/-- What is known of a host condition while it is read. -/
structure HostConditionFields where
  os : Option String := none
  since : Option String := none

/-- The `host` table of a dependency. -/
def hostConditionShape : RecordShape HostConditionFields HostCondition where
  title := "HostCondition"
  fields := [
    field "os" decodeText fun a s => { s with os := some a },
    field "since" decodeText fun a s => { s with since := some a }]
  start := {}
  finish s := do
    let os ← required "os" s.os
    let since ← required "since" s.since
    pure { os, since }

/-- What is known of a dependency while it is read. -/
structure DependencyFields where
  name : Option String := none
  stages : List Stage := [.runtime]
  provenance : Provenance := .formula
  condition : Option HostCondition := none
  executable : Option String := none

/-- An item of `dependencies`. -/
def dependencyShape : RecordShape DependencyFields Dependency where
  title := "DependencySpec"
  fields := [
    field "name" decodeText fun a s => { s with name := some a },
    field "contexts" (decodeList decodeStage) fun a s => { s with stages := a },
    field "provenance" decodeProvenance fun a s => { s with provenance := a },
    field "host" hostConditionShape.decode fun a s => { s with condition := some a },
    field "executable" decodeText fun a s => { s with executable := some a }]
  start := {}
  finish s := do
    let name ← required "name" s.name
    pure { name, stages := s.stages, provenance := s.provenance, condition := s.condition,
           executable := s.executable }

/-- What is known of a flag entry while it is read. -/
structure FlagEntryFields where
  symbol : Option String := none
  source : Option String := none

/-- An item of `flags`. -/
def flagEntryShape : RecordShape FlagEntryFields FlagEntry where
  title := "FlagEntry"
  fields := [
    field "symbol" decodeText fun a s => { s with symbol := some a },
    field "variable" decodeText fun a s => { s with source := some a }]
  start := {}
  finish s := do
    let symbol ← required "symbol" s.symbol
    let source ← required "variable" s.source
    pure { symbol, source }

/-- What is known of the build while it is read. -/
structure BuildFields where
  command : Option (List String) := none
  output : Option String := none
  environment : Bindings := .empty
  toolchain : List String := []
  flags : List FlagEntry := []
  workdir : Option String := none
  jobs : Option UInt32 := none

/-- The `build` table. -/
def buildShape : RecordShape BuildFields Build where
  title := "BuildSection"
  fields := [
    field "command" (decodeList decodeText) fun a s => { s with command := some a },
    field "output" decodeText fun a s => { s with output := some a },
    field "environment" decodeBindings fun a s => { s with environment := a },
    field "toolchain" (decodeList decodeText) fun a s => { s with toolchain := a },
    field "flags" (decodeList flagEntryShape.decode) fun a s => { s with flags := a },
    field "workdir" decodeText fun a s => { s with workdir := some a },
    field "jobs" decodeWord fun a s => { s with jobs := some a }]
  start := {}
  finish s := do
    let command ← required "command" s.command
    let output ← required "output" s.output
    pure { command, output, environment := s.environment, toolchain := s.toolchain,
           flags := s.flags, workdir := s.workdir, jobs := s.jobs }

/-- The modes by name. -/
def decodeMode : Decoder Mode :=
  decodeVariant [("executable", .executable), ("readable", .readable)]

/-- What is known of an artifact while it is read. -/
structure ArtifactFields where
  path : Option String := none
  dest : Option String := none
  mode : Mode := .readable

/-- An item of `artifacts`. -/
def artifactShape : RecordShape ArtifactFields Artifact where
  title := "ArtifactSpec"
  fields := [
    field "path" decodeText fun a s => { s with path := some a },
    field "dest" decodeText fun a s => { s with dest := some a },
    field "mode" decodeMode fun a s => { s with mode := a }]
  start := {}
  finish s := do
    let path ← required "path" s.path
    let dest ← required "dest" s.dest
    pure { path, dest, mode := s.mode }

/-- The `install` table. -/
def installShape : RecordShape Install Install where
  title := "InstallSection"
  fields := [
    field "bin" (decodeList decodeText) fun a s => { s with bin := a },
    field "artifacts" (decodeList artifactShape.decode) fun a s => { s with artifacts := a }]
  start := {}
  finish s := .ok s

/-- The `test` table. -/
def smokeTestShape : RecordShape SmokeTest SmokeTest where
  title := "TestSection"
  fields := [
    field "stub" decodeBoolean fun a s => { s with stub := a },
    field "commands" (decodeList (decodeList decodeText)) fun a s => { s with commands := a },
    field "expect_output" decodeText fun a s => { s with expected := some a }]
  start := {}
  finish s := .ok s

/-! ## Formulas -/

/-- What is known of a formula while it is read. -/
structure FormulaFields where
  identity : Option Identity := none
  source : Option Source := none
  dependencies : List Dependency := []
  build : Option Build := none
  install : Install := {}
  test : Option SmokeTest := none
  vars : Bindings := .empty

/-- A whole document. -/
def formulaShape : RecordShape FormulaFields Formula where
  title := "Formula"
  fields := [
    field "formula" identityShape.decode fun a s => { s with identity := some a },
    field "source" sourceShape.decode fun a s => { s with source := some a },
    field "dependencies" (decodeList dependencyShape.decode) fun a s =>
      { s with dependencies := a },
    field "build" buildShape.decode fun a s => { s with build := some a },
    field "install" installShape.decode fun a s => { s with install := a },
    field "test" smokeTestShape.decode fun a s => { s with test := some a },
    field "variables" decodeBindings fun a s => { s with vars := a }]
  start := {}
  finish s := do
    let identity ← required "formula" s.identity
    let source ← required "source" s.source
    let build ← required "build" s.build
    pure { identity, source, dependencies := s.dependencies, build, install := s.install,
           test := s.test, vars := s.vars }

namespace Formula

/-- The formula that a document describes. -/
def ofDocument (t : Table) : Except ShapeError Formula := formulaShape.ofEntries t

/-- The failure for a document that is no formula. -/
def shapeFailure (subject : String) (e : ShapeError) : Error :=
  .parse (subject ++ match e.message? with
    | some m => ": " ++ m
    | none => "")

/-- Read a formula. -/
def parse (text : String) : Except Error Formula :=
  match Toml.document text with
  | none => .error (shapeFailure "Invalid formula" .unspecified)
  | some t => (ofDocument t).mapError (shapeFailure "Invalid formula")

end Formula

end Formulary
