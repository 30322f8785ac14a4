import Formulary.Cook
import Formulary.Proofs.Cache.Retrieve
import Formulary.Proofs.Checksum
import Formulary.Proofs.Depends
import Formulary.Proofs.Flags
import Formulary.Proofs.Path
import Formulary.Proofs.Validation
import Formulary.Proofs.Variables

/-!
# What an accepted formula cannot fail for

Validation looks at what later phases rely on. `Cleared` says, phase by phase, which failures are
then impossible, whatever the host, the fetcher, the cache and those who are asked for build
variables answer, and `cleared` that an accepted formula is cleared.
-/

namespace Formulary

open Variables

namespace Formula

/-- What a formula cannot fail for. -/
structure Cleared (f : Formula) : Prop where
  /-- Any host can be decided about : its copies do, or it is too old for one of them. -/
  host (host : Host) :
    (∃ check, HostCheck.ofHost (.ofDeclarations f.dependencies) host = .ok check) ∨
      ∃ refusal, HostCheck.ofHost (.ofDeclarations f.dependencies) host = .error refusal ∧
        refusal.toError.kind = .dependency
  /-- Bytes are refused only for a digest other than the declared one. -/
  checksum : ∃ expected, Checksum.parse f.source.checksum = .ok expected ∧
    ∀ bytes e, Verified.check bytes f.source.checksum = .error e →
      e = .integrity expected.display (Checksum.of expected.algorithm bytes).display ∧
        expected.display ≠ (Checksum.of expected.algorithm bytes).display
  /-- A source is not got only because the fetcher fails, when it is asked, or gives bytes with
  another digest. -/
  fetch (fetcher : Fetcher) (url : String) (cache : Option Path) (w w' : World) (e : Error) :
    Cache.retrieve fetcher url f.source.checksum cache w = (.error e, w') →
      ∃ d, Cache.consult f.source.checksum cache w.disk = (none, d) ∧
        ((fetcher url d).1 = .error e ∨ ∃ expected actual : Checksum,
          e = .integrity expected.display actual.display ∧ expected.display ≠ actual.display)
  /-- There is a version. -/
  version {σ : Type} (source : MetadataSource (StateM σ)) (tree : Path) (s s' : σ)
    (name url : String) : (resolve source f tree).run s ≠ (.error (.version name url), s')
  /-- The variables are those that the formula may not set, with the answers to the questions about
  them, and the formula's own. -/
  vars {σ : Type} (source : MetadataSource (StateM σ)) (tree : Path) (s s' : σ) (vars : Bindings) :
    (resolve source f tree).run s = (.ok vars, s') →
      (∀ name, vars.contains name = true ↔
        name ∈ builtinVariables ∨ f.vars.contains name = true) ∧
      (∃ a : Answers, a.FoundBy source f tree s s' ∧ a.HeldBy vars) ∧
      ∀ name value, f.vars.get? name = some value → vars.get? name = some value
  /-- Every flag has a value. -/
  flags {σ : Type} (source : MetadataSource (StateM σ)) (tree : Path) (s s' : σ) (vars : Bindings)
    (e : FlagEntry) : (resolve source f tree).run s = (.ok vars, s') →
      Flags.render f.build.flags vars ≠ .error (.unresolved e)
  /-- The build runs inside the source tree. -/
  workdir (k : Kitchen) (tree : SourceTree) (vars : Bindings) (flags : List String) (r : Report) :
    tree.root.Encloses (Cook.contextOf k f tree vars flags r).workdir
  /-- There is a program to run. -/
  command (context : BuildContext) : CommandBuild.argv f context ≠ []

variable {σ : Type} {f : Formula}

theorem Usable.get?_resolved (h : f.Usable) (a : Answers) {name : String}
    (hname : name ∈ builtinVariables) : (withOwn f a.vars).get? name = a.vars.get? name := by
  have hnone : f.vars.get? name = none := by
    cases hvalue : f.vars.get? name with
    | none => rfl
    | some value =>
      exact absurd hname (h.vars name (Bindings.contains_iff.2 ⟨value, hvalue⟩))
  rw [get?_withOwn, hnone, Option.none_or]

/-- The names that a flag may refer to are those of the variables. -/
theorem contains_resolved_iff (f : Formula) (a : Answers) (name : String) :
    (withOwn f a.vars).contains name = true ↔
      name ∈ builtinVariables ∨ f.vars.contains name = true := by
  rw [contains_withOwn_iff, a.contains_vars_iff]

theorem Usable.host (h : f.Usable) (host : Host) :
    (∃ check, HostCheck.ofHost (.ofDeclarations f.dependencies) host = .ok check) ∨
      ∃ refusal, HostCheck.ofHost (.ofDeclarations f.dependencies) host = .error refusal ∧
        refusal.toError.kind = .dependency := by
  have hread : ∀ r ∈ (Classified.ofDeclarations f.dependencies).hostProvided,
      ∃ v, OsVersion.parse r.condition.since = .ok v := by
    intro r hr
    rw [Classified.hostProvided_ofDeclarations] at hr
    obtain ⟨d, hd, hrequirement⟩ := List.mem_filterMap.1 hr
    exact h.conditions d hd _ (Classified.condition_of_requirement? hrequirement)
  cases hcheck : HostCheck.ofHost (.ofDeclarations f.dependencies) host with
  | ok check => exact .inl ⟨check, rfl⟩
  | error refusal =>
    obtain ⟨r, -, minimum, rfl, -⟩ := HostCheck.tooOld_of_ofHost hread hcheck
    exact .inr ⟨_, rfl, rfl⟩

theorem Usable.fetch (h : f.Usable) {fetcher : Fetcher} {url : String} {cache : Option Path}
    {w w' : World} {e : Error}
    (hretrieve : Cache.retrieve fetcher url f.source.checksum cache w = (.error e, w')) :
    ∃ d, Cache.consult f.source.checksum cache w.disk = (none, d) ∧
      ((fetcher url d).1 = .error e ∨ ∃ expected actual : Checksum,
        e = .integrity expected.display actual.display ∧ expected.display ≠ actual.display) := by
  obtain ⟨expected, hparse⟩ := h.checksum
  obtain ⟨d, hconsult, hrefused | ⟨bytes, hcheck⟩⟩ := Cache.missed_of_retrieve hretrieve
  · exact ⟨d, hconsult, .inl hrefused⟩
  · exact ⟨d, hconsult, .inr ⟨expected, _, Verified.integrity_of_check hparse hcheck⟩⟩

theorem Usable.workdir_encloses (h : f.Usable) (k : Kitchen) (tree : SourceTree) (vars : Bindings)
    (flags : List String) (r : Report) :
    tree.root.Encloses (Cook.contextOf k f tree vars flags r).workdir := by
  unfold Cook.contextOf
  dsimp only
  cases hworkdir : f.build.workdir with
  | none => exact Path.encloses_refl _
  | some dir =>
    have hstays := staysInside_iff.1 (h.workdir dir hworkdir)
    exact Path.encloses_join (Path.isAbsolute_eq_false fun hroot => (hstays _ hroot).1 rfl)
      (fun hup => (hstays _ hup).2 rfl) _

theorem Usable.version_known (h : f.Usable) {source : MetadataSource (StateM σ)} {tree : Path}
    {s s' : σ} {name url : String} :
    (resolve source f tree).run s ≠ (.error (.version name url), s') := by
  intro hrun
  have hresolves := resolves source f tree s
  rw [hrun] at hresolves
  cases hresolves with
  | noVersion hnone =>
    obtain ⟨v, hv⟩ := h.version
    exact absurd (hnone.symm.trans hv) nofun
  | noCommit _ _ hpinned => exact pinnedCommit_ne_version f _ hpinned

/-- What a resolution found out is there, with the formula's own values. -/
theorem Usable.vars_resolved (h : f.Usable) {source : MetadataSource (StateM σ)} {tree : Path}
    {s s' : σ} {vars : Bindings} (hrun : (resolve source f tree).run s = (.ok vars, s')) :
    (∀ name, vars.contains name = true ↔
        name ∈ builtinVariables ∨ f.vars.contains name = true) ∧
      (∃ a : Answers, a.FoundBy source f tree s s' ∧ a.HeldBy vars) ∧
      ∀ name value, f.vars.get? name = some value → vars.get? name = some value := by
  have hresolves := resolves source f tree s
  rw [hrun] at hresolves
  cases hresolves with
  | @resolved a _ hfound =>
    refine ⟨contains_resolved_iff f a, ⟨a, hfound, .of_forall fun name => h.get?_resolved a⟩,
      fun name value hvalue => ?_⟩
    rw [get?_withOwn, hvalue, Option.some_or]

theorem Usable.flags_known (h : f.Usable) {source : MetadataSource (StateM σ)} {tree : Path}
    {s s' : σ} {vars : Bindings} {e : FlagEntry}
    (hrun : (resolve source f tree).run s = (.ok vars, s')) :
    Flags.render f.build.flags vars ≠ .error (.unresolved e) := by
  intro hrender
  obtain ⟨he, hnone⟩ := Flags.get?_of_render_eq_error hrender
  have hcontains := ((h.vars_resolved hrun).1 e.source).2 (h.flags e he)
  obtain ⟨value, hvalue⟩ := Bindings.contains_iff.1 hcontains
  exact absurd (hnone.symm.trans hvalue) nofun

/-- An accepted formula is cleared. -/
theorem cleared (f : Formula) (h : ∃ warnings, f.validate = .ok warnings) : f.Cleared := by
  have husable : f.Usable := exists_validate_iff.1 h
  exact {
    host := husable.host
    checksum := by
      obtain ⟨expected, hparse⟩ := husable.checksum
      exact ⟨expected, hparse, fun bytes e => Verified.integrity_of_check hparse⟩
    fetch := fun fetcher url cache w w' e => husable.fetch
    version := fun source tree s s' name url => husable.version_known
    vars := fun source tree s s' vars => husable.vars_resolved
    flags := fun source tree s s' vars e => husable.flags_known
    workdir := husable.workdir_encloses
    command := by
      intro context hnil
      exact husable.command (List.map_eq_nil_iff.1 hnil) }

/-- A formula with something for each phase. -/
theorem cleared_hello :
    let f : Formula := {
      identity := { name := "hello", description := some "Greets", license := some "MIT" }
      source := {
        url := "https://example.org/hello-1.0.tar.gz"
        checksum := "sha256:" ++ String.ofList (List.replicate 64 'a') }
      dependencies := [{
        name := "git", provenance := .host, condition := some ⟨"macos", "el_capitan"⟩ }]
      build := {
        command := ["make", placeholder "greeting"]
        output := "hello"
        flags := [⟨"main.Greeting", "greeting"⟩, ⟨"main.Version", "version"⟩]
        workdir := some "./cmd/hello" }
      install := { bin := ["cmd/hello/hello"] }
      test := some { commands := [["%(prefix)s/bin/hello"]] }
      vars := .ofList [("greeting", "hi")] }
    f.validate = .ok ["Missing formula homepage"] ∧ f.Cleared := by
  intro f
  have hvalid : f.validate = .ok ["Missing formula homepage"] := by decide +kernel
  exact ⟨hvalid, cleared f ⟨_, hvalid⟩⟩

end Formula

end Formulary
