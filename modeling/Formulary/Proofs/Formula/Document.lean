import Formulary.Formula.Decode
import Formulary.Proofs.Toml.Record

/-!
# Documents of formulas

Which documents describe a formula, said by what each of their tables gives
(`Formula.DescribedBy`) : its keys may come in any order and beside unknown ones, and a field with
its default may be left out. Such a document is read as the formula. A document that lacks a field
in one of its tables, where there is no default (`Formula.Part.Lacks`), is refused.
-/

namespace Formulary

open Toml Rendering

/-! ## The tables of a document

What the table of each record gives. Keys that are not named here may stand beside the others, and
say nothing. -/

structure Identity.DescribedBy (i : Identity) (t : Table) : Prop where
  keys : t.DistinctKeys
  name : t.Gives text "name" i.name
  version : t.GivesOption text "version" i.version
  description : t.GivesOption text "description" i.description
  homepage : t.GivesOption text "homepage" i.homepage
  license : t.GivesOption text "license" i.license
  revision : t.GivesOption word "revision" i.revision

structure CommitPin.DescribedBy (c : CommitPin) (t : Table) : Prop where
  keys : t.DistinctKeys
  version : t.Gives text "version" c.version
  id : t.Gives text "id" c.id

structure Source.DescribedBy (s : Source) (t : Table) : Prop where
  keys : t.DistinctKeys
  url : t.Gives text "url" s.url
  checksum : t.Gives text "checksum" s.checksum
  commit : t.GivesOption (record CommitPin.DescribedBy) "commit" s.commit

structure HostCondition.DescribedBy (c : HostCondition) (t : Table) : Prop where
  keys : t.DistinctKeys
  os : t.Gives text "os" c.os
  since : t.Gives text "since" c.since

structure Dependency.DescribedBy (d : Dependency) (t : Table) : Prop where
  keys : t.DistinctKeys
  name : t.Gives text "name" d.name
  contexts : t.GivesDefault (list (named Stage.name)) "contexts" [.runtime] d.stages
  provenance : t.GivesDefault (named Provenance.name) "provenance" .formula d.provenance
  host : t.GivesOption (record HostCondition.DescribedBy) "host" d.condition
  executable : t.GivesOption text "executable" d.executable

structure FlagEntry.DescribedBy (e : FlagEntry) (t : Table) : Prop where
  keys : t.DistinctKeys
  symbol : t.Gives text "symbol" e.symbol
  source : t.Gives text "variable" e.source

structure Build.DescribedBy (b : Build) (t : Table) : Prop where
  keys : t.DistinctKeys
  command : t.Gives (list text) "command" b.command
  output : t.Gives text "output" b.output
  environment : t.GivesDefault bindings "environment" .empty b.environment
  toolchain : t.GivesDefault (list text) "toolchain" [] b.toolchain
  flags : t.GivesDefault (list (record FlagEntry.DescribedBy)) "flags" [] b.flags
  workdir : t.GivesOption text "workdir" b.workdir
  jobs : t.GivesOption word "jobs" b.jobs

structure Artifact.DescribedBy (a : Artifact) (t : Table) : Prop where
  keys : t.DistinctKeys
  path : t.Gives text "path" a.path
  dest : t.Gives text "dest" a.dest
  mode : t.GivesDefault (named Mode.name) "mode" .readable a.mode

structure Install.DescribedBy (i : Install) (t : Table) : Prop where
  keys : t.DistinctKeys
  bin : t.GivesDefault (list text) "bin" [] i.bin
  artifacts : t.GivesDefault (list (record Artifact.DescribedBy)) "artifacts" [] i.artifacts

structure SmokeTest.DescribedBy (s : SmokeTest) (t : Table) : Prop where
  keys : t.DistinctKeys
  stub : t.GivesDefault boolean "stub" false s.stub
  commands : t.GivesDefault (list (list text)) "commands" [] s.commands
  expect_output : t.GivesOption text "expect_output" s.expected

/-- The document describes the formula. -/
structure Formula.DescribedBy (f : Formula) (t : Table) : Prop where
  keys : t.DistinctKeys
  formula : t.Gives (record Identity.DescribedBy) "formula" f.identity
  source : t.Gives (record Source.DescribedBy) "source" f.source
  dependencies : t.GivesDefault (list (record Dependency.DescribedBy)) "dependencies" []
    f.dependencies
  build : t.Gives (record Build.DescribedBy) "build" f.build
  install : t.GivesDefault (record Install.DescribedBy) "install" {} f.install
  test : t.GivesOption (record SmokeTest.DescribedBy) "test" f.test
  vars : t.GivesDefault bindings "variables" .empty f.vars

/-! ## The parts of a formula -/

namespace Formula

/-- The records that a document is made of. -/
inductive Part where
  | formula | identity | source | commit | dependency | condition | build | flag | install
  | artifact | test
deriving DecidableEq

namespace Part

/-- What is known of the part while it is read. -/
@[reducible]
def Known : Part → Type
  | formula => FormulaFields
  | identity => IdentityFields
  | source => SourceFields
  | commit => CommitPinFields
  | dependency => DependencyFields
  | condition => HostConditionFields
  | build => BuildFields
  | flag => FlagEntryFields
  | install => Install
  | artifact => ArtifactFields
  | test => SmokeTest

/-- What the part is read as. -/
@[reducible]
def Result : Part → Type
  | formula => Formula
  | identity => Identity
  | source => Source
  | commit => CommitPin
  | dependency => Dependency
  | condition => HostCondition
  | build => Build
  | flag => FlagEntry
  | install => Install
  | artifact => Artifact
  | test => SmokeTest

/-- How the part is read. -/
def shape : (p : Part) → RecordShape p.Known p.Result
  | formula => formulaShape
  | identity => identityShape
  | source => sourceShape
  | commit => commitPinShape
  | dependency => dependencyShape
  | condition => hostConditionShape
  | build => buildShape
  | flag => flagEntryShape
  | install => installShape
  | artifact => artifactShape
  | test => smokeTestShape

theorem orderless (p : Part) : p.shape.Orderless := by
  refine ⟨by cases p <;> decide, ?_⟩
  unfold shape
  cases p with
  | formula => simp [formulaShape, List.pairwise_cons, RecordShape.commutes_field]
  | identity => simp [identityShape, List.pairwise_cons, RecordShape.commutes_field]
  | source => simp [sourceShape, List.pairwise_cons, RecordShape.commutes_field]
  | commit => simp [commitPinShape, List.pairwise_cons, RecordShape.commutes_field]
  | dependency => simp [dependencyShape, List.pairwise_cons, RecordShape.commutes_field]
  | condition => simp [hostConditionShape, List.pairwise_cons, RecordShape.commutes_field]
  | build => simp [buildShape, List.pairwise_cons, RecordShape.commutes_field]
  | flag => simp [flagEntryShape, List.pairwise_cons, RecordShape.commutes_field]
  | install => simp [installShape, List.pairwise_cons, RecordShape.commutes_field]
  | artifact => simp [artifactShape, List.pairwise_cons, RecordShape.commutes_field]
  | test => simp [smokeTestShape, List.pairwise_cons, RecordShape.commutes_field]

/-! ## Reading what describes a formula -/

/-- A part is read from a table whose fields give it. -/
theorem reads_of_readFields (p : Part) {describes : p.Result → Table → Prop}
    (h : ∀ a t, describes a t → t.DistinctKeys ∧
      (RecordShape.readFields p.shape.fields (t.lookup ·) p.shape.start >>= p.shape.finish) =
        .ok a) : Reads p.shape.decode (record describes) := by
  refine reads_record fun a t ha => ?_
  obtain ⟨hkeys, hread⟩ := h a t ha
  obtain ⟨s, hs, hfinish⟩ := bind_eq_ok_iff.1 hread
  exact RecordShape.ofEntries_of_readFields p.orderless hkeys hs hfinish

open RecordShape

theorem reads_identity : Reads identityShape.decode (record Identity.DescribedBy) := by
  refine reads_of_readFields .identity fun i t h => ⟨h.keys, ?_⟩
  unfold shape identityShape
  dsimp only
  rw [readFields_gives reads_text h.name,
    readFields_givesOption (fun b (s : IdentityFields) => { s with version := b })
      reads_text h.version rfl,
    readFields_givesOption (fun b (s : IdentityFields) => { s with description := b })
      reads_text h.description rfl,
    readFields_givesOption (fun b (s : IdentityFields) => { s with homepage := b })
      reads_text h.homepage rfl,
    readFields_givesOption (fun b (s : IdentityFields) => { s with license := b })
      reads_text h.license rfl,
    readFields_givesOption (fun b (s : IdentityFields) => { s with revision := b })
      reads_word h.revision rfl]
  rfl

theorem reads_commit : Reads commitPinShape.decode (record CommitPin.DescribedBy) := by
  refine reads_of_readFields .commit fun c t h => ⟨h.keys, ?_⟩
  unfold shape commitPinShape
  dsimp only
  rw [readFields_gives reads_text h.version,
    readFields_gives reads_text h.id]
  rfl

theorem reads_source : Reads sourceShape.decode (record Source.DescribedBy) := by
  refine reads_of_readFields .source fun s t h => ⟨h.keys, ?_⟩
  unfold shape sourceShape
  dsimp only
  rw [readFields_gives reads_text h.url,
    readFields_gives reads_text h.checksum,
    readFields_givesOption (fun b (s : SourceFields) => { s with commit := b })
      reads_commit h.commit rfl]
  rfl

theorem reads_condition : Reads hostConditionShape.decode (record HostCondition.DescribedBy) := by
  refine reads_of_readFields .condition fun c t h => ⟨h.keys, ?_⟩
  unfold shape hostConditionShape
  dsimp only
  rw [readFields_gives reads_text h.os,
    readFields_gives reads_text h.since]
  rfl

theorem reads_stage : Reads decodeStage (named Stage.name) :=
  reads_variant fun s => by cases s <;> rfl

theorem reads_provenance : Reads decodeProvenance (named Provenance.name) :=
  reads_variant fun p => by cases p <;> rfl

theorem reads_dependency : Reads dependencyShape.decode (record Dependency.DescribedBy) := by
  refine reads_of_readFields .dependency fun d t h => ⟨h.keys, ?_⟩
  unfold shape dependencyShape
  dsimp only
  rw [readFields_gives reads_text h.name,
    readFields_givesDefault (reads_list reads_stage) h.contexts rfl,
    readFields_givesDefault reads_provenance h.provenance rfl,
    readFields_givesOption (fun b (s : DependencyFields) => { s with condition := b })
      reads_condition h.host rfl,
    readFields_givesOption (fun b (s : DependencyFields) => { s with executable := b })
      reads_text h.executable rfl]
  rfl

theorem reads_flag : Reads flagEntryShape.decode (record FlagEntry.DescribedBy) := by
  refine reads_of_readFields .flag fun e t h => ⟨h.keys, ?_⟩
  unfold shape flagEntryShape
  dsimp only
  rw [readFields_gives reads_text h.symbol,
    readFields_gives reads_text h.source]
  rfl

theorem reads_build : Reads buildShape.decode (record Build.DescribedBy) := by
  refine reads_of_readFields .build fun b t h => ⟨h.keys, ?_⟩
  unfold shape buildShape
  dsimp only
  rw [readFields_gives (reads_list reads_text) h.command,
    readFields_gives reads_text h.output,
    readFields_givesDefault reads_bindings h.environment rfl,
    readFields_givesDefault (reads_list reads_text) h.toolchain rfl,
    readFields_givesDefault (reads_list reads_flag) h.flags rfl,
    readFields_givesOption (fun b (s : BuildFields) => { s with workdir := b })
      reads_text h.workdir rfl,
    readFields_givesOption (fun b (s : BuildFields) => { s with jobs := b }) reads_word h.jobs rfl]
  rfl

theorem reads_mode : Reads decodeMode (named Mode.name) :=
  reads_variant fun m => by cases m <;> rfl

theorem reads_artifact : Reads artifactShape.decode (record Artifact.DescribedBy) := by
  refine reads_of_readFields .artifact fun a t h => ⟨h.keys, ?_⟩
  unfold shape artifactShape
  dsimp only
  rw [readFields_gives reads_text h.path,
    readFields_gives reads_text h.dest,
    readFields_givesDefault reads_mode h.mode rfl]
  rfl

theorem reads_install : Reads installShape.decode (record Install.DescribedBy) := by
  refine reads_of_readFields .install fun i t h => ⟨h.keys, ?_⟩
  unfold shape installShape
  dsimp only
  rw [readFields_givesDefault (reads_list reads_text) h.bin rfl,
    readFields_givesDefault (reads_list reads_artifact) h.artifacts rfl]
  rfl

theorem reads_test : Reads smokeTestShape.decode (record SmokeTest.DescribedBy) := by
  refine reads_of_readFields .test fun s t h => ⟨h.keys, ?_⟩
  unfold shape smokeTestShape
  dsimp only
  rw [readFields_givesDefault reads_boolean h.stub rfl,
    readFields_givesDefault (reads_list (reads_list reads_text)) h.commands rfl,
    readFields_givesOption (fun b (s : SmokeTest) => { s with expected := b })
      reads_text h.expect_output rfl]
  rfl

theorem reads_formula : Reads formulaShape.decode (record Formula.DescribedBy) := by
  refine reads_of_readFields .formula fun f t h => ⟨h.keys, ?_⟩
  unfold shape formulaShape
  dsimp only
  rw [readFields_gives reads_identity h.formula,
    readFields_gives reads_source h.source,
    readFields_givesDefault (reads_list reads_dependency) h.dependencies rfl,
    readFields_gives reads_build h.build,
    readFields_givesDefault reads_install h.install rfl,
    readFields_givesOption (fun b (s : FormulaFields) => { s with test := b })
      reads_test h.test rfl,
    readFields_givesDefault reads_bindings h.vars rfl]
  rfl

/-! ## What a document lacks -/

/-- The fields of a part that have no default. -/
def needed : Part → List String
  | formula => ["formula", "source", "build"]
  | identity => ["name"]
  | source => ["url", "checksum"]
  | commit => ["version", "id"]
  | dependency => ["name"]
  | condition => ["os", "since"]
  | build => ["command", "output"]
  | flag => ["symbol", "variable"]
  | install => []
  | artifact => ["path", "dest"]
  | test => []

/-- The fields of a part that hold another part. -/
def tables : Part → List (String × Part)
  | formula => [("formula", identity), ("source", source), ("build", build), ("install", install),
      ("test", test)]
  | source => [("commit", commit)]
  | dependency => [("host", condition)]
  | _ => []

/-- The fields of a part that hold a list of other parts. -/
def lists : Part → List (String × Part)
  | formula => [("dependencies", dependency)]
  | build => [("flags", flag)]
  | install => [("artifacts", artifact)]
  | _ => []

/-- A table of the part, or one inside it, is without a field that has no default. -/
inductive Lacks : Part → Value → Prop
  | here {p : Part} {name : String} {t : Table} : name ∈ p.needed → t.lookup name = none →
    Lacks p (.table t)
  | within {p q : Part} {name : String} {v w : Value} : (name, q) ∈ p.tables →
    Holds (p.shape.fields.map Prod.fst) v name w → Lacks q w → Lacks p v
  | among {p q : Part} {name : String} {v : Value} {items : List Value} {w : Value} :
    (name, q) ∈ p.lists → Holds (p.shape.fields.map Prod.fst) v name (.array items) → w ∈ items →
    Lacks q w → Lacks p v

/-- No other field puts what the field puts, and the record asks for it. -/
theorem requires {p : Part} {name : String} (h : name ∈ p.needed) : p.shape.Requires name := by
  cases p <;> simp only [needed, List.mem_cons, List.not_mem_nil, or_false] at h
  case formula =>
    rcases h with rfl | rfl | rfl
    · exact ⟨(·.identity = none), rfl, by simp [shape, formulaShape, keeps_field],
        fun _ hs => exists_required_eq_error hs _⟩
    · exact ⟨(·.source = none), rfl, by simp [shape, formulaShape, keeps_field],
        fun _ hs => exists_bind_eq_error fun _ => exists_required_eq_error hs _⟩
    · exact ⟨(·.build = none), rfl, by simp [shape, formulaShape, keeps_field],
        fun _ hs => exists_bind_eq_error fun _ => exists_bind_eq_error fun _ =>
          exists_required_eq_error hs _⟩
  case identity =>
    subst h
    exact ⟨(·.name = none), rfl, by simp [shape, identityShape, keeps_field],
      fun _ hs => exists_required_eq_error hs _⟩
  case source =>
    rcases h with rfl | rfl
    · exact ⟨(·.url = none), rfl, by simp [shape, sourceShape, keeps_field],
        fun _ hs => exists_required_eq_error hs _⟩
    · exact ⟨(·.checksum = none), rfl, by simp [shape, sourceShape, keeps_field],
        fun _ hs => exists_bind_eq_error fun _ => exists_required_eq_error hs _⟩
  case commit =>
    rcases h with rfl | rfl
    · exact ⟨(·.version = none), rfl, by simp [shape, commitPinShape, keeps_field],
        fun _ hs => exists_required_eq_error hs _⟩
    · exact ⟨(·.id = none), rfl, by simp [shape, commitPinShape, keeps_field],
        fun _ hs => exists_bind_eq_error fun _ => exists_required_eq_error hs _⟩
  case dependency =>
    subst h
    exact ⟨(·.name = none), rfl, by simp [shape, dependencyShape, keeps_field],
      fun _ hs => exists_required_eq_error hs _⟩
  case condition =>
    rcases h with rfl | rfl
    · exact ⟨(·.os = none), rfl, by simp [shape, hostConditionShape, keeps_field],
        fun _ hs => exists_required_eq_error hs _⟩
    · exact ⟨(·.since = none), rfl, by simp [shape, hostConditionShape, keeps_field],
        fun _ hs => exists_bind_eq_error fun _ => exists_required_eq_error hs _⟩
  case build =>
    rcases h with rfl | rfl
    · exact ⟨(·.command = none), rfl, by simp [shape, buildShape, keeps_field],
        fun _ hs => exists_required_eq_error hs _⟩
    · exact ⟨(·.output = none), rfl, by simp [shape, buildShape, keeps_field],
        fun _ hs => exists_bind_eq_error fun _ => exists_required_eq_error hs _⟩
  case flag =>
    rcases h with rfl | rfl
    · exact ⟨(·.symbol = none), rfl, by simp [shape, flagEntryShape, keeps_field],
        fun _ hs => exists_required_eq_error hs _⟩
    · exact ⟨(·.source = none), rfl, by simp [shape, flagEntryShape, keeps_field],
        fun _ hs => exists_bind_eq_error fun _ => exists_required_eq_error hs _⟩
  case artifact =>
    rcases h with rfl | rfl
    · exact ⟨(·.path = none), rfl, by simp [shape, artifactShape, keeps_field],
        fun _ hs => exists_required_eq_error hs _⟩
    · exact ⟨(·.dest = none), rfl, by simp [shape, artifactShape, keeps_field],
        fun _ hs => exists_bind_eq_error fun _ => exists_required_eq_error hs _⟩

theorem field_of_tables {p q : Part} {name : String} (h : (name, q) ∈ p.tables) :
    ∃ put, field name q.shape.decode put ∈ p.shape.fields := by
  cases p <;> simp only [tables, List.mem_cons, List.not_mem_nil, or_false, Prod.mk.injEq] at h
  case formula =>
    rcases h with ⟨rfl, rfl⟩ | ⟨rfl, rfl⟩ | ⟨rfl, rfl⟩ | ⟨rfl, rfl⟩ | ⟨rfl, rfl⟩
    · exact ⟨_, List.mem_of_getElem? (i := 0) rfl⟩
    · exact ⟨_, List.mem_of_getElem? (i := 1) rfl⟩
    · exact ⟨_, List.mem_of_getElem? (i := 3) rfl⟩
    · exact ⟨_, List.mem_of_getElem? (i := 4) rfl⟩
    · exact ⟨_, List.mem_of_getElem? (i := 5) rfl⟩
  case source =>
    obtain ⟨rfl, rfl⟩ := h
    exact ⟨_, List.mem_of_getElem? (i := 2) rfl⟩
  case dependency =>
    obtain ⟨rfl, rfl⟩ := h
    exact ⟨_, List.mem_of_getElem? (i := 3) rfl⟩

theorem field_of_lists {p q : Part} {name : String} (h : (name, q) ∈ p.lists) :
    ∃ put, field name (decodeList q.shape.decode) put ∈ p.shape.fields := by
  cases p <;> simp only [lists, List.mem_cons, List.not_mem_nil, or_false, Prod.mk.injEq] at h
  case formula =>
    obtain ⟨rfl, rfl⟩ := h
    exact ⟨_, List.mem_of_getElem? (i := 2) rfl⟩
  case build =>
    obtain ⟨rfl, rfl⟩ := h
    exact ⟨_, List.mem_of_getElem? (i := 4) rfl⟩
  case install =>
    obtain ⟨rfl, rfl⟩ := h
    exact ⟨_, List.mem_of_getElem? (i := 1) rfl⟩

theorem refuses_of_lacks {p : Part} {v : Value} (h : Lacks p v) : Refuses p.shape.decode v := by
  induction h with
  | here hneeded hnone => exact (requires hneeded).refuses hnone
  | within hfield hholds _ ih =>
    obtain ⟨put, hput⟩ := field_of_tables hfield
    exact refuses_of_holds (orderless _) hput hholds ih
  | among hfield hholds hmem _ ih =>
    obtain ⟨put, hput⟩ := field_of_lists hfield
    exact refuses_of_holds (orderless _) hput hholds (refuses_list hmem ih)

end Part

/-! ## Whole documents -/

theorem ofDocument_of_describedBy {f : Formula} {t : Table} (h : f.DescribedBy t) :
    ofDocument t = .ok f :=
  Part.reads_formula f (.table t) ⟨t, rfl, h⟩

theorem parse_of_ofDocument_eq_error {text : String} {t : Table} (htext : document text = some t)
    (h : ∃ e, ofDocument t = .error e) : ∃ message, parse text = .error (.parse message) := by
  obtain ⟨e, he⟩ := h
  unfold parse
  rw [htext]
  dsimp only
  rw [he]
  exact ⟨_, rfl⟩

/-- A document that describes a formula is read as that formula, and one that lacks a field is
refused. So is a text that such a document is written as. -/
theorem reads_documents :
    (∀ (f : Formula) (t : Table), f.DescribedBy t → ofDocument t = .ok f ∧
      ∀ text, document text = some t → parse text = .ok f) ∧
    ∀ t : Table, Part.Lacks .formula (.table t) → (∃ e, ofDocument t = .error e) ∧
      ∀ text, document text = some t → ∃ message, parse text = .error (.parse message) := by
  constructor
  · intro f t h
    have hread := ofDocument_of_describedBy h
    refine ⟨hread, fun text htext => ?_⟩
    unfold parse
    rw [htext]
    dsimp only
    rw [hread]
    rfl
  · intro t h
    have hrefused : ∃ e, ofDocument t = .error e := Part.refuses_of_lacks h
    exact ⟨hrefused, fun text htext => parse_of_ofDocument_eq_error htext hrefused⟩

namespace Sample

/-- A formula with defaults and without. -/
def formula : Formula where
  identity := { name := "hello", revision := some 2 }
  source := { url := "https://example.com/hello-1.0.tar.gz", checksum := "sha256:00" }
  dependencies := [{ name := "make", stages := [.build] }]
  build := { command := ["make"], output := "hello" }
  vars := .ofList [("vendor", "Kiln"), ("edition", "first")]

def identity : Table := [("revision", .integer 2), ("name", .text "hello")]

/-- The table of the source, with a key that says nothing. -/
def source : Table :=
  [("mirror", .boolean true), ("checksum", .text "sha256:00"),
    ("url", .text "https://example.com/hello-1.0.tar.gz")]

def dependency : Table := [("name", .text "make"), ("contexts", .array [.text "build"])]

/-- The table of the build, with a default that is written. -/
def build : Table :=
  [("output", .text "hello"), ("toolchain", .array []), ("command", .array [.text "make"])]

def vars : Table := [("vendor", .text "Kiln"), ("edition", .text "first")]

/-- A document of the formula, if the source is its own. -/
def document (source : Table) : Table :=
  [("build", .table build), ("variables", .table vars), ("source", .table source),
    ("formula", .table identity), ("dependencies", .array [.table dependency])]

theorem describedBy : formula.DescribedBy (document source) := by
  have hidentity : formula.identity.DescribedBy identity :=
    ⟨by decide, ⟨_, rfl, rfl⟩, rfl, rfl, rfl, rfl, ⟨_, rfl, rfl⟩⟩
  have hsource : formula.source.DescribedBy source :=
    ⟨by decide, ⟨_, rfl, rfl⟩, ⟨_, rfl, rfl⟩, rfl⟩
  have hdependency : Dependency.DescribedBy { name := "make", stages := [.build] } dependency :=
    ⟨by decide, ⟨_, rfl, rfl⟩, .inl ⟨_, rfl, _, rfl, .cons rfl .nil⟩, .inr ⟨rfl, rfl⟩, rfl, rfl⟩
  have hbuild : formula.build.DescribedBy build :=
    ⟨by decide, ⟨_, rfl, _, rfl, .cons rfl .nil⟩, ⟨_, rfl, rfl⟩, .inr ⟨rfl, rfl⟩,
      .inl ⟨_, rfl, _, rfl, .nil⟩, .inr ⟨rfl, rfl⟩, rfl, rfl⟩
  exact ⟨by decide, ⟨_, rfl, _, rfl, hidentity⟩, ⟨_, rfl, _, rfl, hsource⟩,
    .inl ⟨_, rfl, _, rfl, .cons ⟨_, rfl, hdependency⟩ .nil⟩, ⟨_, rfl, _, rfl, hbuild⟩,
    .inr ⟨rfl, rfl⟩, rfl, .inl ⟨_, rfl, [("vendor", "Kiln"), ("edition", "first")], by decide, rfl⟩⟩

/-- The table of the source without the checksum. -/
def unpinned : Table := [("url", .text "https://example.com/hello-1.0.tar.gz")]

theorem lacks : Part.Lacks .formula (.table (document unpinned)) := by
  have hlacks : Part.Lacks .source (.table unpinned) :=
    .here (by decide : "checksum" ∈ Part.source.needed) rfl
  exact .within (by decide : ("source", Part.source) ∈ Part.formula.tables)
    (.entry (by simp [document])) hlacks

end Sample

theorem reads_documents_sample :
    ofDocument (Sample.document Sample.source) = .ok Sample.formula ∧
      ∃ e, ofDocument (Sample.document Sample.unpinned) = .error e :=
  ⟨(reads_documents.1 _ _ Sample.describedBy).1, (reads_documents.2 _ Sample.lacks).1⟩

end Formula

end Formulary
