import Formulary.Procedure
import Formulary.Proofs.Flags
import Formulary.Proofs.Preflight
import Formulary.Proofs.Template

/-!
# What a variable stands for in a build

The flags look a variable up among the variables, and the command looks it up after the name of the
formula and what the context says of the build (`Formula.ownValues`). So an argument that names a
variable becomes the value that the flags inject, unless the build has a value of its own under that
name, which then takes its place (`Formula.one_value`). A formula may call its variables by such
names, too (`Formula.names_differ`).
-/

namespace Formulary

namespace Formula

/-- What a command is told under names that are not looked up among the variables. -/
def ownValues (f : Formula) (c : BuildContext) : List (String × String) :=
  [("name", f.identity.name), ("ldflags", c.linkerFlags), ("output", c.output),
    ("jobs", Text.decimal c.jobs.toNat), ("prefix", c.base.display)]

/-- The value that a name has in a build command. -/
theorem valueOf?_substitutions (f : Formula) (c : BuildContext) (name : String) :
    f.valueOf? c.substitutions name =
      if name = "version" then (f.version?.or (c.vars.get? name)).or (f.vars.get? name)
      else ((f.ownValues c).lookup name).or ((c.vars.get? name).or (f.vars.get? name)) := by
  unfold valueOf? ownValues BuildContext.substitutions
  simp only [Bindings.get?_insert, Bindings.lookup_of_cons, List.lookup_nil]
  grind

section

variable {σ : Type} {f : Formula} {source : MetadataSource (StateM σ)} {tree : Path} {s s' : σ}

/-- In a build command of an accepted formula, a variable has its value unless the build has one of
its own under the name. -/
theorem Usable.valueOf?_substitutions (h : f.Usable) {c : BuildContext}
    (hresolve : (Variables.resolve source f tree).run s = (.ok c.vars, s')) {name value : String}
    (hvalue : c.vars.get? name = some value) :
    f.valueOf? c.substitutions name = ((f.ownValues c).lookup name).or (some value) := by
  obtain ⟨-, ⟨a, hfound, hheld⟩, -⟩ := h.vars_resolved hresolve
  obtain ⟨-, -, -, -, -, hversion, -⟩ := hfound
  rw [Formula.valueOf?_substitutions, hvalue, Option.some_or]
  split
  · rename_i hname
    subst hname
    have hown : (f.ownValues c).lookup "version" = none := rfl
    rw [hversion, hown, ← hheld.version, hvalue]
    rfl
  · rfl

/-- An argument that names a variable is the value that the variable has in build commands. -/
theorem getElem?_argv_of_valueOf? {c : BuildContext} {name value : String} (hkey : IsKey name)
    (h : f.valueOf? c.substitutions name = some value) (hvalue : '%' ∉ value.toList) {i : Nat}
    (hi : f.build.command[i]? = some (placeholder name)) :
    (CommandBuild.argv f c)[i]? = some value := by
  rw [CommandBuild.argv, List.getElem?_map, hi, Option.map_some,
    substitute_placeholder_of_valueOf? hkey h hvalue]

/-- In the flags the value of a variable is assigned to each symbol that it is for. -/
theorem assigns_of_render {vars : Bindings} {flags : List String}
    (h : Flags.render f.build.flags vars = .ok flags) {i : Nat} {e : FlagEntry}
    (he : f.build.flags[i]? = some e) {value : String} (hvalue : vars.get? e.source = some value) :
    ∃ text, Flags.Assigns e.symbol value (.ok text) ∧ flags[i + 2]? = some ("-X " ++ text) := by
  obtain ⟨rendered, rfl, hrendered⟩ := Flags.render_eq_ok_iff.1 h
  obtain ⟨hi, rfl⟩ := List.getElem?_eq_some_iff.1 he
  have hone := hrendered.get hi (hrendered.length_eq ▸ hi)
  obtain ⟨value', text, hvalue', htext, hflag⟩ := Flags.renderOne_eq_ok_iff.1 hone
  obtain rfl := Option.some.inj (hvalue.symm.trans hvalue')
  refine ⟨text, htext ▸ Flags.assigns _ _, ?_⟩
  have hlast : rendered[i]? = some ("-X " ++ text) :=
    hflag ▸ List.getElem?_eq_getElem (hrendered.length_eq ▸ hi)
  exact hlast

/-- Where an accepted formula names one of its variables, in the command or for a flag, this stands
for the value of that variable. Only in the command a value takes its place that the build has of
its own under the name. -/
theorem one_value (f : Formula) (source : MetadataSource (StateM σ)) (tree : Path) (s s' : σ)
    (c : BuildContext) (hvalid : ∃ warnings, f.validate = .ok warnings)
    (hresolve : (Variables.resolve source f tree).run s = (.ok c.vars, s'))
    (hplain : ∀ e ∈ c.vars.entries, IsKey e.1 ∧ '%' ∉ e.2.toList) :
    ∀ name value, c.vars.get? name = some value →
      (∀ i : Nat, f.build.command[i]? = some (placeholder name) →
        ((f.ownValues c).lookup name = none → (CommandBuild.argv f c)[i]? = some value) ∧
        ∀ own, (f.ownValues c).lookup name = some own → '%' ∉ own.toList →
          (CommandBuild.argv f c)[i]? = some own) ∧
      ∀ flags, Flags.render f.build.flags c.vars = .ok flags →
        ∀ (i : Nat) (e : FlagEntry), f.build.flags[i]? = some e → e.source = name →
          ∃ text, Flags.Assigns e.symbol value (.ok text) ∧
            flags[i + 2]? = some ("-X " ++ text) := by
  intro name value hvalue
  obtain ⟨hkey, hpercent⟩ :=
    hplain _ ((Bindings.lookup_eq_some_iff_mem c.vars.nodup_names).1 hvalue)
  have hvalueOf := (exists_validate_iff.1 hvalid).valueOf?_substitutions hresolve hvalue
  refine ⟨fun i hi => ⟨fun hnone => ?_, fun own hown hpercent => ?_⟩, ?_⟩
  · rw [hnone, Option.none_or] at hvalueOf
    exact getElem?_argv_of_valueOf? hkey hvalueOf hpercent hi
  · rw [hown, Option.some_or] at hvalueOf
    exact getElem?_argv_of_valueOf? hkey hvalueOf hpercent hi
  · rintro flags hrender i e he rfl
    exact assigns_of_render hrender he hvalue

end

/-! ## A variable called output -/

namespace Outputs

/-! What follows is a formula that calls one of its variables as a command calls the output of the
build, and what such a build is told. -/

def formula : Formula where
  identity := { name := "hello", version := some "1.0" }
  source := {
    url := "https://example.org/hello-1.0.tar.gz"
    checksum := "sha256:" ++ String.ofList (List.replicate 64 'a') }
  build := {
    command := ["tool", placeholder "output", placeholder "greeting"]
    output := "hello"
    flags := [⟨"main.Output", "output"⟩, ⟨"main.Greeting", "greeting"⟩] }
  vars := .ofList [("greeting", "good day"), ("output", "other")]

def metadata : MetadataSource (StateM Unit) :=
  .fixed { commit := some "c", toolchainVersion := some "t", now := ⟨0, 0⟩ }

def context : BuildContext where
  tree := ⟨"/source"⟩
  workdir := ⟨"/source"⟩
  output := formula.build.output
  flags := ["-s", "-w", "-X main.Output=other", "-X 'main.Greeting=good day'"]
  environment := .empty
  dependencies := []
  vars := Variables.withOwn formula (Variables.builtins "1.0" "c" "HEAD" "t" ⟨0, 0⟩)
  jobs := 4
  base := ⟨"/prefix"⟩

theorem validate_formula : ∃ warnings, formula.validate = .ok warnings := by
  have hvalid : formula.validate.toOption.isSome = true := by decide +kernel
  cases hresult : formula.validate with
  | ok warnings => exact ⟨warnings, rfl⟩
  | error defect =>
    rw [hresult] at hvalid
    exact absurd hvalid nofun

theorem run_resolve :
    (Variables.resolve metadata formula context.tree).run () = (.ok context.vars, ()) := rfl

theorem render_flags :
    Flags.render formula.build.flags context.vars = .ok context.flags := by decide +kernel

theorem plain_vars : ∀ e ∈ context.vars.entries, IsKey e.1 ∧ '%' ∉ e.2.toList := by
  decide +kernel

end Outputs

/-- A greeting is the same text in the command and in its flag, which quotes it. The output that the
command is passed is the one of the build, and the flag has the variable's. -/
theorem one_value_greeting :
    let f := Outputs.formula
    let c := Outputs.context
    (CommandBuild.argv f c)[2]? = some "good day" ∧
      (∃ text, Flags.Assigns "main.Greeting" "good day" (.ok text) ∧
        c.flags[3]? = some ("-X " ++ text)) ∧
      (CommandBuild.argv f c)[1]? = some "hello" ∧
      ∃ text, Flags.Assigns "main.Output" "other" (.ok text) ∧
        c.flags[2]? = some ("-X " ++ text) := by
  intro f c
  have hone := one_value f Outputs.metadata c.tree () () c Outputs.validate_formula
    Outputs.run_resolve Outputs.plain_vars
  obtain ⟨hcommand, hflags⟩ := hone "greeting" "good day" rfl
  obtain ⟨hcommand', hflags'⟩ := hone "output" "other" rfl
  exact ⟨(hcommand 2 rfl).1 rfl, hflags _ Outputs.render_flags 1 _ rfl rfl,
    (hcommand' 1 rfl).2 "hello" rfl (by decide), hflags' _ Outputs.render_flags 0 _ rfl rfl⟩

/-- Each argument that names a variable is the value that the flags inject for it. -/
def NamesVars (f : Formula) (c : BuildContext) : Prop :=
  ∀ name value, c.vars.get? name = some value →
    ∀ i : Nat, f.build.command[i]? = some (placeholder name) →
      (CommandBuild.argv f c)[i]? = some value

/-- A formula is accepted that has a variable called output, and its command is passed another text
for this name than the value of the variable, which the flag has. -/
theorem names_differ :
    let f := Outputs.formula
    let c := Outputs.context
    (∃ warnings, f.validate = .ok warnings) ∧
      (Variables.resolve Outputs.metadata f c.tree).run () = (.ok c.vars, ()) ∧
      (∀ e ∈ c.vars.entries, IsKey e.1 ∧ '%' ∉ e.2.toList) ∧
      (∀ s ∈ [f.identity.name, c.output, c.base.display], '%' ∉ s.toList) ∧
      Flags.render f.build.flags c.vars = .ok c.flags ∧
      c.flags[2]? = some "-X main.Output=other" ∧ ¬NamesVars f c := by
  refine ⟨Outputs.validate_formula, Outputs.run_resolve, Outputs.plain_vars, by decide +kernel,
    Outputs.render_flags, rfl, fun hnames => ?_⟩
  have hpassed : (CommandBuild.argv Outputs.formula Outputs.context)[1]? = some "hello" := by
    decide +kernel
  have hother := hnames "output" "other" rfl 1 rfl
  rw [hpassed] at hother
  simp at hother

end Formula

end Formulary
