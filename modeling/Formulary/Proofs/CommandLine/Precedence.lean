import Formulary.CommandLine
import Formulary.Proofs.Settings

/-!
# What a cook is configured by

A field of a configuration has the value that an option gives, or else the one that the settings
file says, or else its default (`Config.LayeredBy`). A cook is configured so but for one field
(`CommandLine.configured`) : build directories are kept when the switch is given, and only then,
whatever the file says. This makes a difference when the file wants them kept and the switch is not
given (`CommandLine.setting_ignored`).
-/

namespace Formulary

/-- The value of a field : what is given for it, or else what is said of it, or else its default. -/
inductive Layered {α : Type} (given said : Option α) (default : α) : α → Prop
  | given {a : α} : given = some a → Layered given said default a
  | said {a : α} : given = none → said = some a → Layered given said default a
  | default : given = none → said = none → Layered given said default default

theorem layered_iff {α : Type} {given said : Option α} {default a : α} :
    Layered given said default a ↔ a = (given.or said).getD default := by
  constructor
  · intro h
    cases h with
    | given h => rw [h]; rfl
    | said h h' => rw [h, h']; rfl
    | default h h' => rw [h, h']; rfl
  · rintro rfl
    cases given with
    | some a => exact .given rfl
    | none =>
      cases said with
      | some a => exact .said rfl rfl
      | none => exact .default rfl rfl

namespace Config

/-- What is said of the fields of a configuration, at one place. -/
structure Layer where
  sourceCache : Option (Option Path) := none
  buildRoot : Option (Option Path) := none
  sandboxRoot : Option (Option Path) := none
  keepBuildDirectory : Option Bool := none
  jobs : Option UInt32 := none
  probes : Option Bool := none
  userAgent : Option String := none
  cellar : Option Path := none

/-- Each field of the configuration is layered. -/
structure LayeredBy (c : Config) (upper lower : Layer) (default : Config) : Prop where
  sourceCache : Layered upper.sourceCache lower.sourceCache default.sourceCache c.sourceCache
  buildRoot : Layered upper.buildRoot lower.buildRoot default.buildRoot c.buildRoot
  sandboxRoot : Layered upper.sandboxRoot lower.sandboxRoot default.sandboxRoot c.sandboxRoot
  keepBuildDirectory : Layered upper.keepBuildDirectory lower.keepBuildDirectory
    default.keepBuildDirectory c.keepBuildDirectory
  jobs : Layered upper.jobs lower.jobs default.jobs c.jobs
  probes : Layered upper.probes lower.probes default.probes c.probes
  userAgent : Layered upper.userAgent lower.userAgent default.userAgent c.userAgent
  cellar : Layered upper.cellar lower.cellar default.cellar c.cellar

/-- The configuration, with build directories kept or not. -/
def keeping (c : Config) (keep : Bool) : Config := { c with keepBuildDirectory := keep }

end Config

/-- What a settings file says. -/
def Settings.layer (s : Settings) : Config.Layer where
  sourceCache := s.sourceCache.map some
  buildRoot := s.buildRoot.map some
  sandboxRoot := s.sandboxRoot.map some
  keepBuildDirectory := s.keepBuildDirectory
  jobs := s.jobs
  probes := s.probes
  userAgent := s.userAgent
  cellar := s.cellar

namespace CommandLine

/-- What the options of a cook say. A switch that is not given says nothing. -/
def optionLayer (o : SourceOptions) (jobs : Option UInt32) (keep : Bool) : Config.Layer where
  sourceCache := if o.noCache then some none else o.sourceCache.map some
  keepBuildDirectory := if keep then some true else none
  jobs := jobs
  probes := if o.noProbe then some false else none

/-! ## The configuration of a cook -/

/-- The configuration of a cook, from the settings file and the options. -/
def cookConfig (m : Machine) (config : Option Path) (o : SourceOptions) (jobs : Option UInt32)
    (keep : Bool) : CommandM Config := do
  let c := o.setOver (← loadConfig m config)
  pure { c with jobs := jobs.getD c.jobs, keepBuildDirectory := keep }

/-- Cook a formula by a configuration. -/
def cookBy (m : Machine) (f : Formula) (c : Config) (base : Option Path) (json : Bool) :
    CommandM Printed := do
  let base := base.getD (c.home f)
  let k ← setUp m c
  let cached ← if json then pure false else (k.isCached f : StateM Disk Bool)
  let report ← inWorld (k.cook m f base)
  let output := if json then line report.toJson.pretty
    else line ("Cooking " ++ title f ++ " into " ++ base.display)
      ++ (if cached then line "  - Source already cached" else "")
      ++ "\n" ++ line report.display
  pure { output, status := report.exitCode }

theorem cook_eq (m : Machine) (config : Option Path) (formula : Path) (o : SourceOptions)
    (base : Option Path) (jobs : Option UInt32) (keep json : Bool) :
    cook m config formula o base jobs keep json = (do
      let f ← loadFormula formula
      let c ← cookConfig m config o jobs keep
      cookBy m f c base json) := by
  unfold cook cookConfig cookBy
  simp only [bind_assoc, pure_bind]

/-- This is what the settings file of a command says, if there is one. -/
def SaidBy (d : Disk) (s : Settings) : Option Path → Prop
  | none => s = {}
  | some p => s.HeldBy d p

/-- The settings of a file are set over the configuration of the machine. -/
theorem run_loadConfig_of_saidBy {m : Machine} {config : Option Path} {d : Disk} {s : Settings}
    (h : SaidBy d s config) :
    ∃ d', (loadConfig m config).run d = (.ok (s.setOver (Config.ofMachine m)), d') := by
  cases config with
  | none =>
    obtain rfl : s = {} := h
    exact ⟨d, rfl⟩
  | some p =>
    have hload : (Settings.load p d).1 = .ok s := Settings.load_eq_ok_iff.2 h
    refine ⟨(Settings.load p d).2, ?_⟩
    unfold loadConfig
    rw [run_bind, run_liftM]
    dsimp only
    rw [hload]
    rfl

theorem run_loadConfig_of_not_saidBy {m : Machine} {config : Option Path} {d : Disk}
    (h : ∀ s, ¬SaidBy d s config) : ∃ e d', (loadConfig m config).run d = (.error e, d') := by
  cases config with
  | none => exact absurd rfl (h {})
  | some p =>
    unfold loadConfig
    rw [run_bind, run_liftM]
    dsimp only
    cases hload : (Settings.load p d).1 with
    | error e => exact ⟨_, _, rfl⟩
    | ok s => exact absurd (Settings.load_eq_ok_iff.1 hload) (h s)

theorem layered_sourceCache (o : SourceOptions) (said default : Option Path) :
    Layered (if o.noCache then some none else o.sourceCache.map some) (said.map some) default
      (if o.noCache then none else o.sourceCache.or (said.or default)) := by
  rw [layered_iff]
  cases o.noCache with
  | true => rfl
  | false => cases o.sourceCache <;> cases said <;> rfl

theorem layered_probes (o : SourceOptions) (said : Option Bool) (default : Bool) :
    Layered (if o.noProbe then some false else none) said default
      (said.getD default && !o.noProbe) := by
  rw [layered_iff]
  cases o.noProbe with
  | true => exact Bool.and_false _
  | false => exact Bool.and_true _

theorem layered_directory (said default : Option Path) :
    Layered none (said.map some) default (said.or default) := by
  rw [layered_iff]
  cases said <;> rfl

/-- The options set over the settings that are set over the defaults are layered, once the one field
is as well. -/
theorem layeredBy_setOver (o : SourceOptions) (jobs : Option UInt32) (keep : Bool) (s : Settings)
    (default : Config) {c : Config} (hc : c = o.setOver (s.setOver default)) {kept : Bool}
    (hkept : Layered (if keep then some true else none) s.keepBuildDirectory
      default.keepBuildDirectory kept) :
    ({ c with jobs := jobs.getD c.jobs, keepBuildDirectory := kept } : Config).LayeredBy
      (optionLayer o jobs keep) s.layer default := by
  subst hc
  exact {
    sourceCache := layered_sourceCache o s.sourceCache default.sourceCache
    buildRoot := layered_directory s.buildRoot default.buildRoot
    sandboxRoot := layered_directory s.sandboxRoot default.sandboxRoot
    keepBuildDirectory := hkept
    jobs := layered_iff.2 (by cases jobs <;> rfl)
    probes := layered_probes o s.probes default.probes
    userAgent := layered_iff.2 rfl
    cellar := layered_iff.2 rfl }

/-! ## Options that contradict each other -/

theorem exclusive_of_sourceOptions {g : Given} {o : SourceOptions} (h : sourceOptions g = .ok o)
    (ho : o.noCache = true) : o.sourceCache = none := by
  unfold sourceOptions at h
  split at h
  · cases h
  · rename_i hnot
    obtain rfl := Except.ok.inj h
    have hnone : ¬(g.value? "source-cache").isSome := fun hsome => hnot ⟨ho, hsome⟩
    show (g.value? "source-cache").map Path.mk = none
    rw [Option.not_isSome_iff_eq_none.1 hnone]
    rfl

theorem exclusive_of_actionOf {command : String} {g : Given} {formula : Path} {o : SourceOptions}
    {base : Option Path} {jobs : Option UInt32} {keep json : Bool}
    (h : actionOf command g = .ok (.cook formula o base jobs keep json))
    (ho : o.noCache = true) : o.sourceCache = none := by
  unfold actionOf at h
  split at h
  · cases h
  · obtain ⟨source, hsource, h⟩ := bind_eq_ok_iff.1 h
    split at h <;> cases h
    exact exclusive_of_sourceOptions hsource ho

/-- A cook is not asked for with a cache and without one. -/
theorem exclusive_of_parse {arguments : List String} {i : Invocation}
    (h : parse arguments = .ok i) {formula : Path} {o : SourceOptions} {base : Option Path}
    {jobs : Option UInt32} {keep json : Bool} (hi : i.action = .cook formula o base jobs keep json)
    (ho : o.noCache = true) : o.sourceCache = none := by
  unfold parse at h
  obtain ⟨⟨outer, rest⟩, -, h⟩ := bind_eq_ok_iff.1 h
  dsimp only at h
  split at h
  · cases h
  · cases h
  · split at h <;> cases h
  · split at h
    · cases h
    · obtain ⟨g, -, h⟩ := bind_eq_ok_iff.1 h
      obtain ⟨action, haction, h⟩ := bind_eq_ok_iff.1 h
      obtain rfl := Except.ok.inj h
      obtain rfl : action = _ := hi
      exact exclusive_of_actionOf haction ho

/-! ## What a cook is configured by -/

/-- The kitchen of a cook has the configuration of the cook. -/
theorem config_of_setUp {m : Machine} {c : Config} {k : Kitchen} (h : Kitchen.setUp m c = .ok k) :
    k.config = c := by
  unfold Kitchen.setUp at h
  split at h <;> cases h
  rfl

theorem run_cookConfig_of_saidBy {m : Machine} {config : Option Path} {d : Disk} {s : Settings}
    (h : SaidBy d s config) (o : SourceOptions) (jobs : Option UInt32) (keep : Bool) :
    ∃ (c : Config) (d' : Disk), c.LayeredBy (optionLayer o jobs keep) s.layer (Config.ofMachine m) ∧
      (cookConfig m config o jobs keep).run d = (.ok (c.keeping keep), d') := by
  obtain ⟨d', hload⟩ := run_loadConfig_of_saidBy (m := m) h
  have hlayered := layeredBy_setOver o jobs keep s (Config.ofMachine m) rfl (layered_iff.2 rfl)
  refine ⟨_, d', hlayered, ?_⟩
  unfold cookConfig
  rw [run_bind, hload]
  rfl

/-- The one field is layered as well if the switch is given, or else if the file does not ask for
what only the switch can. -/
theorem kept_iff {m : Machine} {o : SourceOptions} {jobs : Option UInt32} {keep : Bool}
    {s : Settings} {c : Config}
    (h : c.LayeredBy (optionLayer o jobs keep) s.layer (Config.ofMachine m)) :
    c.keeping keep = c ↔ keep = true ∨ s.keepBuildDirectory ≠ some true := by
  have hkept : c.keepBuildDirectory = ((if keep then some true else none).or
    s.keepBuildDirectory).getD false := layered_iff.1 h.keepBuildDirectory
  have heq : c.keeping keep = c ↔ keep = c.keepBuildDirectory :=
    ⟨fun h => congrArg Config.keepBuildDirectory h, fun h => by rw [h]; rfl⟩
  rw [heq, hkept]
  cases keep with
  | true => simp
  | false => cases s.keepBuildDirectory <;> simp

/-- A cook is configured by its options over the settings file over the defaults of the machine, but
for one field : build directories are kept when the switch is given, and only then. A file that
cannot be read as settings ends the cook before there is a kitchen, and options that contradict each
other are not taken. -/
theorem configured (m : Machine) (config : Option Path) (o : SourceOptions) (jobs : Option UInt32)
    (keep : Bool) :
    (∀ formula base json, cook m config formula o base jobs keep json = (do
      let f ← loadFormula formula
      let c ← cookConfig m config o jobs keep
      cookBy m f c base json)) ∧
    (∀ c k, Kitchen.setUp m c = .ok k → k.config = c) ∧
    (∀ d s, SaidBy d s config → ∃ (c : Config) (d' : Disk),
      c.LayeredBy (optionLayer o jobs keep) s.layer (Config.ofMachine m) ∧
      (cookConfig m config o jobs keep).run d = (.ok (c.keeping keep), d') ∧
      (c.keeping keep = c ↔ keep = true ∨ s.keepBuildDirectory ≠ some true)) ∧
    (∀ d, (∀ s, ¬SaidBy d s config) →
      ∃ e d', (cookConfig m config o jobs keep).run d = (.error e, d')) ∧
    ∀ arguments i, parse arguments = .ok i → ∀ formula base json,
      i.action = .cook formula o base jobs keep json → o.noCache = true → o.sourceCache = none := by
  refine ⟨fun formula base json => cook_eq .., fun c k => config_of_setUp, fun d s hs => ?_,
    fun d hd => ?_, fun arguments i hi formula base json => exclusive_of_parse hi⟩
  · obtain ⟨c, d', hlayered, hrun⟩ := run_cookConfig_of_saidBy (m := m) hs o jobs keep
    exact ⟨c, d', hlayered, hrun, kept_iff hlayered⟩
  · obtain ⟨e, d', hload⟩ := run_loadConfig_of_not_saidBy (m := m) hd
    refine ⟨e, d', ?_⟩
    unfold cookConfig
    rw [run_bind, hload]

namespace Sample

def machine : Machine where
  launch _ := pure (.error .notFound)
  processors := 4

def text : String := "keep_builddir = true\njobs = 3\n"

/-- A disk with a settings file. -/
def disk : Disk where
  entries := [([], .directory 0o755), (["k.toml"], .file 0)]
  files := [(0, ⟨text.toUTF8, 0o644⟩)]

def settings : Settings where
  keepBuildDirectory := some true
  jobs := some 3

/-- The two lines of the text are the entries. -/
def readsText : Option Toml.Table → Bool
  | some [(first, .boolean true), (second, .integer 3)] =>
    first = "keep_builddir" ∧ second = "jobs"
  | _ => false

theorem document_text :
    Toml.document text = some [("keep_builddir", .boolean true), ("jobs", .integer 3)] := by
  -- values cannot be compared, as there are floats among them
  have hread : readsText (Toml.document text) = true := by decide +kernel
  generalize Toml.document text = table at hread ⊢
  unfold readsText at hread
  split at hread
  · obtain ⟨rfl, rfl⟩ := of_decide_eq_true hread
    rfl
  · exact absurd hread nofun

theorem saidBy : SaidBy disk settings (some ⟨"k.toml"⟩) :=
  ⟨text.toUTF8, text, _, rfl, by decide +kernel, document_text,
    ⟨rfl, rfl, rfl, ⟨_, rfl, rfl⟩, ⟨_, rfl, rfl⟩, rfl, rfl, rfl⟩⟩

end Sample

/-- With the switch, everything is as the options and the file say. -/
theorem configured_switch :
    SaidBy Sample.disk Sample.settings (some ⟨"k.toml"⟩) ∧ ∃ (c : Config) (d' : Disk),
      c.LayeredBy (optionLayer { noProbe := true } (some 8) true) Sample.settings.layer
        (Config.ofMachine Sample.machine) ∧
      (cookConfig Sample.machine (some ⟨"k.toml"⟩) { noProbe := true } (some 8) true).run
        Sample.disk = (.ok c, d') := by
  obtain ⟨c, d', hlayered, hrun, hiff⟩ := (configured Sample.machine (some ⟨"k.toml"⟩)
    { noProbe := true } (some 8) true).2.2.1 Sample.disk Sample.settings Sample.saidBy
  exact ⟨Sample.saidBy, c, d', hlayered, hrun.trans (by rw [hiff.2 (.inl rfl)])⟩

/-- A file wants build directories kept, the switch is not given, and the cook does not keep
them. -/
theorem setting_ignored :
    SaidBy Sample.disk Sample.settings (some ⟨"k.toml"⟩) ∧
    Sample.settings.keepBuildDirectory = some true ∧ ∃ c d',
      (cookConfig Sample.machine (some ⟨"k.toml"⟩) {} none false).run Sample.disk = (.ok c, d') ∧
      c.keepBuildDirectory = false ∧
      ¬c.LayeredBy (optionLayer {} none false) Sample.settings.layer
        (Config.ofMachine Sample.machine) := by
  obtain ⟨c, d', -, hrun⟩ :=
    run_cookConfig_of_saidBy (m := Sample.machine) Sample.saidBy {} none false
  refine ⟨Sample.saidBy, rfl, _, d', hrun, rfl, fun hlayered => ?_⟩
  have hkept : false = true := layered_iff.1 hlayered.keepBuildDirectory
  exact absurd hkept nofun

end CommandLine

end Formulary
