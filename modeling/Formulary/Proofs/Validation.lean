import Formulary.Formula.Validation
import Formulary.Proofs.Bindings
import Formulary.Proofs.Runs

/-!
# What validation makes sure of

A formula is accepted exactly when it is usable (`exists_validate_iff`) : nothing less is made sure
of, and nothing more is asked. Each check has one lemma that says when it passes.
-/

namespace Formulary.Formula

/-- What is asked of a formula. -/
structure Usable (f : Formula) : Prop where
  name : Text.isBlankText f.identity.name = false
  version : ∃ v, f.version? = some v
  checksum : ∃ c, Checksum.parse f.source.checksum = .ok c
  command : f.build.command ≠ []
  output : Text.isBlankText f.build.output = false
  workdir : ∀ dir ∈ f.build.workdir, staysInside dir = true
  vars : ∀ name, f.vars.contains name = true → name ∉ builtinVariables
  flags : ∀ e ∈ f.build.flags, e.source ∈ builtinVariables ∨ f.vars.contains e.source = true
  stages : ∀ d ∈ f.dependencies, d.stages ≠ []
  conditions : ∀ d ∈ f.dependencies, ∀ c ∈ d.condition, ∃ v, OsVersion.parse c.since = .ok v
  destinations : ∀ a ∈ f.install.all, ∃ d, Destination.check a.dest = .ok d
  test : ∀ t ∈ f.test, t.stub = false → t.commands ≠ []

variable {f : Formula}

/-- A path stays inside when it neither starts at the root nor steps up. -/
theorem staysInside_iff {dir : String} : staysInside dir = true ↔
    ∀ c ∈ (Path.mk dir).components, c ≠ .root ∧ c ≠ .up := by
  unfold staysInside
  rw [List.all_eq_true]
  exact forall₂_congr fun c _ => by cases c <;> simp

theorem checkSource_eq_ok_iff : f.checkSource = .ok () ↔
    Text.isBlankText f.identity.name = false ∧ (∃ v, f.version? = some v) ∧
      ∃ c, Checksum.parse f.source.checksum = .ok c := by
  unfold checkSource
  cases Text.isBlankText f.identity.name with
  | true => simp
  | false =>
    cases f.version? with
    | none => simp
    | some v => cases Checksum.parse f.source.checksum <;> simp

theorem checkBuild_eq_ok_iff : f.checkBuild = .ok () ↔
    f.build.command ≠ [] ∧ Text.isBlankText f.build.output = false ∧
      (∀ dir ∈ f.build.workdir, staysInside dir = true) ∧
      (∀ name, f.vars.contains name = true → name ∉ builtinVariables) ∧
      ∀ e ∈ f.build.flags, e.source ∈ builtinVariables ∨ f.vars.contains e.source = true := by
  have hnames : f.vars.names.find? builtinVariables.contains = none ↔
      ∀ name, f.vars.contains name = true → name ∉ builtinVariables := by
    simp [List.find?_eq_none, Bindings.contains_iff_mem_names]
  have hflags : (f.build.flags.find? fun e =>
        !(builtinVariables.contains e.source || f.vars.contains e.source)) = none ↔
      ∀ e ∈ f.build.flags, e.source ∈ builtinVariables ∨ f.vars.contains e.source = true := by
    simp [List.find?_eq_none, or_iff_not_imp_left]
  rw [← hnames, ← hflags]
  unfold checkBuild
  generalize f.vars.names.find? builtinVariables.contains = redefined
  dsimp only
  generalize (f.build.flags.find? fun e =>
    !(builtinVariables.contains e.source || f.vars.contains e.source)) = unknown
  cases f.build.command with
  | nil => simp
  | cons program arguments =>
    cases Text.isBlankText f.build.output with
    | true => simp
    | false =>
      cases f.build.workdir with
      | none => cases redefined <;> cases unknown <;> simp
      | some dir =>
        cases hstays : staysInside dir with
        | false => simp [hstays]
        | true => cases redefined <;> cases unknown <;> simp [hstays]

/-- A dependency passes when it is needed in some stage and its condition can be read. -/
theorem exists_checkDependency_iff {d : Dependency} :
    (∃ warnings, checkDependency d = .ok warnings) ↔
      d.stages ≠ [] ∧ ∀ c ∈ d.condition, ∃ v, OsVersion.parse c.since = .ok v := by
  unfold checkDependency
  cases d.stages with
  | nil => simp
  | cons stage stages =>
    have hlast : ∃ warnings : List String, (if d.provenance = .host ∧
        d.effectiveProvenance = .formula then pure ["Dependency " ++ d.name ++
          " is host-provided without a host condition; it will be built"]
        else pure [] : Except Defect (List String)) = .ok warnings := by
      split <;> exact ⟨_, rfl⟩
    cases d.condition with
    | none => simpa using hlast
    | some c =>
      cases hparse : OsVersion.parse c.since with
      | error cause => simp [hparse]
      | ok v => simpa [hparse] using hlast

theorem checkArtifacts_eq_ok_iff {artifacts : List Artifact} :
    checkArtifacts artifacts = .ok () ↔
      ∀ a ∈ artifacts, ∃ d, Destination.check a.dest = .ok d := by
  unfold checkArtifacts
  induction artifacts with
  | nil => simp
  | cons a artifacts ih =>
    rw [List.forM, List.forall_mem_cons, ← ih]
    cases Destination.check a.dest <;> simp

theorem exists_checkTest_iff {test : Option SmokeTest} :
    (∃ warnings, checkTest test = .ok warnings) ↔
      ∀ t ∈ test, t.stub = false → t.commands ≠ [] := by
  cases test with
  | none => simp [checkTest]
  | some t =>
    cases hstub : t.stub <;> cases hcommands : t.commands <;> simp [checkTest, hstub, hcommands]

/-- A formula is accepted exactly when it is usable. -/
theorem exists_validate_iff : (∃ warnings, f.validate = .ok warnings) ↔ f.Usable := by
  have hall : (∃ warnings, f.validate = .ok warnings) ↔
      f.checkSource = .ok () ∧ f.checkBuild = .ok () ∧
        (∃ warnings, f.dependencies.mapM checkDependency = .ok warnings) ∧
        checkArtifacts f.install.all = .ok () ∧ ∃ warnings, checkTest f.test = .ok warnings := by
    have hunit : ∀ p : Unit → Prop, (∃ u, p u) ↔ p () :=
      fun p => ⟨fun ⟨_, h⟩ => h, fun h => ⟨_, h⟩⟩
    simp [validate, bind_eq_ok_iff, hunit]
  simp only [hall, checkSource_eq_ok_iff, checkBuild_eq_ok_iff, exists_mapM_eq_ok_iff,
    exists_checkDependency_iff, checkArtifacts_eq_ok_iff, exists_checkTest_iff]
  constructor
  · rintro ⟨⟨hname, hversion, hchecksum⟩, ⟨hcommand, houtput, hworkdir, hvars, hflags⟩,
      hdependencies, hdestinations, htest⟩
    exact ⟨hname, hversion, hchecksum, hcommand, houtput, hworkdir, hvars, hflags,
      fun d hd => (hdependencies d hd).1, fun d hd => (hdependencies d hd).2, hdestinations, htest⟩
  · intro h
    exact ⟨⟨h.name, h.version, h.checksum⟩,
      ⟨h.command, h.output, h.workdir, h.vars, h.flags⟩,
      fun d hd => ⟨h.stages d hd, h.conditions d hd⟩, h.destinations, h.test⟩

end Formulary.Formula
