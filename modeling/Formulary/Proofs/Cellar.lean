import Formulary.Config
import Formulary.Proofs.Destination.Grammar
import Formulary.Proofs.Formula.Release

/-!
# Where formulas are installed by default

The home of a formula has its name and its version behind the cellar. Validation asks of them only
that they are there, so they may lead out again : the home is below every cellar exactly when they
do not (`Config.home_isBelow_iff`). What is installed there is then below the cellar too. A version
that is read off a URL is always a name (`Formula.isName_of_undeclared`).
-/

namespace Formulary

/-! ## Versions that are names -/

theorem Version.IsWhole.isName_append {v more : String} (h : Version.IsWhole v)
    (hmore : '/' ∉ more.toList) : IsName (v ++ more) := by
  obtain ⟨c, hc, hdigit⟩ := h.digit
  have hhead : (v ++ more).toList.head? = some c := by
    obtain ⟨rest, hrest⟩ := List.head?_eq_some_iff.1 hc
    rw [String.toList_append, hrest]
    rfl
  have hne : ∀ s ∈ ["", ".", ".."], v ++ more ≠ s := by
    rintro s hs hsame
    have hall : ∀ s ∈ ["", ".", ".."], s = "" ∨ s.toList.head? = some '.' := by decide
    rcases hall s hs with rfl | hdot
    · rw [hsame] at hhead
      exact absurd hhead nofun
    · obtain rfl : c = '.' := Option.some.inj ((hsame ▸ hhead).symm.trans hdot)
      exact absurd hdigit (by decide)
  refine ⟨hne _ (by decide), hne _ (by decide), hne _ (by decide), fun hslash => ?_⟩
  rw [String.toList_append, List.mem_append] at hslash
  rcases hslash with hslash | hslash
  · exact h.uncut _ hslash (by decide)
  · exact hmore hslash

theorem Text.slash_not_mem_decimal (n : Nat) : '/' ∉ (Text.decimal n).toList := by
  unfold Text.decimal
  rw [String.toList_ofList]
  intro h
  exact absurd (Text.isDigit_of_mem_toDigits h) (by decide)

namespace Formula

variable {f : Formula}

/-- A version that is read off a URL is a name, with the count of rebuilds too. -/
theorem isName_of_undeclared (h : f.Undeclared) {version : String}
    (hversion : f.packageVersion? = some version) : IsName version := by
  obtain ⟨v, hv, rfl⟩ := Option.map_eq_some_iff.1 hversion
  rw [version?_of_undeclared h] at hv
  obtain ⟨n, -, rfl⟩ := Version.ofUrl?_eq_some_iff.1 hv
  have hplain : IsName n.version := by
    have hempty : '/' ∉ "".toList := by decide
    simpa using n.isWhole.isName_append hempty
  split
  · split
    · rw [String.append_assoc]
      refine n.isWhole.isName_append ?_
      rw [String.toList_append, List.mem_append, not_or]
      exact ⟨by decide, Text.slash_not_mem_decimal _⟩
    · exact hplain
  · exact hplain

end Formula

/-! ## Homes -/

/-- Put behind any directory, the name and the version behind it lead to a place below. -/
structure LeadsDown (name version : String) : Prop where
  name_relative : (Path.mk name).isAbsolute = false
  version_relative : (Path.mk version).isAbsolute = false
  descends : ∃ names, names ≠ [] ∧
    Path.descend [] ((Path.mk name).components ++ (Path.mk version).components) = some names

theorem leadsDown_of_isName {name version : String} (h : IsName name) (h' : IsName version) :
    LeadsDown name version where
  name_relative := Path.isAbsolute_of_not_mem h.2.2.2
  version_relative := Path.isAbsolute_of_not_mem h'.2.2.2
  descends := by
    rw [Path.components_of_isName h, Path.components_of_isName h']
    exact ⟨[name, version], List.cons_ne_nil _ _, rfl⟩

namespace Config

variable {f : Formula} {version : String}

theorem home_eq (h : f.packageVersion? = some version) (c : Config) :
    c.home f = (c.cellar.join f.identity.name).join version := by
  rw [home, h]
  rfl

/-- From the cellar, the name and the version lead to the home. -/
theorem reverse_place_home (hname : (Path.mk f.identity.name).isAbsolute = false)
    (hversion : (Path.mk version).isAbsolute = false) (h : f.packageVersion? = some version)
    (c : Config) : (c.home f).place.reverse =
      ((Path.mk f.identity.name).components ++ (Path.mk version).components).foldl Path.onward
        c.cellar.place.reverse := by
  rw [home_eq h, Path.reverse_place_join hversion, Path.reverse_place_join hname,
    List.foldl_append]

theorem root_not_mem {name : String} (hname : (Path.mk name).isAbsolute = false)
    (hversion : (Path.mk version).isAbsolute = false) :
    .root ∉ (Path.mk name).components ++ (Path.mk version).components := by
  rw [List.mem_append, not_or]
  exact ⟨Path.root_not_mem_components hname, Path.root_not_mem_components hversion⟩

theorem place_home (hdown : LeadsDown f.identity.name version)
    (h : f.packageVersion? = some version) {names : List String}
    (hnames : Path.descend [] ((Path.mk f.identity.name).components ++
      (Path.mk version).components) = some names) (c : Config) :
    (c.home f).place = c.cellar.place ++ names.map .name :=
  Path.place_of_descend (root_not_mem hdown.name_relative hdown.version_relative) hnames
    (reverse_place_home hdown.name_relative hdown.version_relative h c)

/-- The cellar is the directory that relative paths are taken from. -/
def here : Config where
  cellar := ⟨""⟩

/-- Only what leads down is below the directory that it is taken from. -/
theorem leadsDown_of_isBelow (h : f.packageVersion? = some version)
    (hbelow : (here.home f).IsBelow here.cellar) : LeadsDown f.identity.name version := by
  obtain ⟨names, hne, hplace⟩ := hbelow
  replace hplace : (here.home f).place = names.map .name := hplace
  have hnot : ∀ c, (∀ s, c ≠ .name s) → c ∉ (here.home f).place := by
    intro c hc hmem
    rw [hplace] at hmem
    obtain ⟨s, -, rfl⟩ := List.mem_map.1 hmem
    exact hc s rfl
  have hroot := hnot .root nofun
  rw [home_eq h] at hroot
  have hversion : (Path.mk version).isAbsolute = false := by
    refine Bool.eq_false_iff.2 fun habsolute => hroot ?_
    rw [Path.join_of_isAbsolute habsolute]
    exact Path.root_mem_place habsolute
  have hname : (Path.mk f.identity.name).isAbsolute = false := by
    refine Bool.eq_false_iff.2 fun habsolute => hroot ?_
    rw [Path.join_of_isAbsolute habsolute, ← List.mem_reverse, Path.reverse_place_join hversion]
    exact Path.root_mem_foldl_onward (List.mem_reverse.2 (Path.root_mem_place habsolute)) _
  have hway := reverse_place_home hname hversion h here
  refine ⟨hname, hversion, ?_⟩
  cases hfound : Path.descend [] ((Path.mk f.identity.name).components ++
      (Path.mk version).components) with
  | none =>
    have hup := Path.up_mem_foldl_onward_of_descend (root_not_mem hname hversion) hfound
    exact absurd (List.mem_reverse.1 (hway ▸ hup)) (hnot .up nofun)
  | some found =>
    refine ⟨found, ?_, rfl⟩
    rintro rfl
    have hempty : (here.home f).place = [] :=
      Path.place_of_descend (p := ⟨""⟩) (root_not_mem hname hversion) hfound hway
    exact hne (List.map_eq_nil_iff.1 (hplace.symm.trans hempty))

/-- The home of an accepted formula is below every cellar, and so is what is installed there,
exactly when its name and its version lead down. Where both are names, they alone lead on from the
cellar. A version that is left to the URL of the source is a name. -/
theorem home_isBelow_iff (h : ∃ warnings, f.validate = .ok warnings) :
    ∃ version, f.packageVersion? = some version ∧
      ((∀ c : Config, (c.home f).IsBelow c.cellar) ↔ LeadsDown f.identity.name version) ∧
      (LeadsDown f.identity.name version →
        ∀ (c : Config) (dest : Destination), (dest.under (c.home f)).IsBelow c.cellar) ∧
      (IsName f.identity.name → IsName version → ∀ c : Config,
        (c.home f).place = c.cellar.place ++ [.name f.identity.name, .name version]) ∧
      (f.Undeclared → IsName version) := by
  obtain ⟨v, hv⟩ := (Formula.exists_validate_iff.1 h).version
  obtain ⟨version, hversion⟩ : ∃ version, f.packageVersion? = some version :=
    ⟨_, congrArg (Option.map _) hv⟩
  have hbelow : LeadsDown f.identity.name version → ∀ c : Config, (c.home f).IsBelow c.cellar := by
    intro hdown c
    obtain ⟨names, hne, hnames⟩ := hdown.descends
    exact ⟨names, hne, place_home hdown hversion hnames c⟩
  refine ⟨version, hversion,
    ⟨fun hall => leadsDown_of_isBelow hversion (hall here), hbelow⟩,
    fun hdown c dest => (dest.isBelow_under _).trans (hbelow hdown c), fun hname hplain c => ?_,
    fun hundeclared => Formula.isName_of_undeclared hundeclared hversion⟩
  have hnames : Path.descend [] ((Path.mk f.identity.name).components ++
      (Path.mk version).components) = some [f.identity.name, version] := by
    rw [Path.components_of_isName hname, Path.components_of_isName hplain]
    rfl
  exact place_home (leadsDown_of_isName hname hplain) hversion hnames c

/-- A formula that is built again, with its version in the URL of its source. -/
theorem home_isBelow_aprilsh :
    let f : Formula := {
      identity := { name := "aprilsh", revision := some 1 }
      source := {
        url := "https://github.com/ericwq/aprilsh/archive/refs/tags/0.6.40.tar.gz"
        checksum := "938876efe036eb149d458c4952a989d0864ea9984a22ef704d02a902d1896826" }
      build := { command := ["go", "build"], output := "apsh" } }
    (∃ warnings, f.validate = .ok warnings) ∧ f.packageVersion? = some "0.6.40_1" ∧
      ∀ c : Config, (c.home f).IsBelow c.cellar ∧
        (c.home f).place = c.cellar.place ++ [.name "aprilsh", .name "0.6.40_1"] := by
  intro f
  have hvalid : f.validate = .ok ["No install artifacts declared", "Missing formula description",
      "Missing formula license", "Missing formula homepage", "No test procedure declared"] := by
    decide +kernel
  have hversion : f.packageVersion? = some "0.6.40_1" := by decide
  obtain ⟨version, hsome, hiff, -, hnames, hplain⟩ := home_isBelow_iff ⟨_, hvalid⟩
  obtain rfl : "0.6.40_1" = version := Option.some.inj (hversion.symm.trans hsome)
  have hname : IsName f.identity.name := by decide
  have hwhole : IsName "0.6.40_1" := hplain nofun
  exact ⟨⟨_, hvalid⟩, hversion, fun c =>
    ⟨hiff.2 (leadsDown_of_isName hname hwhole) c, hnames hname hwhole c⟩⟩

namespace Upward

/-! What follows is a formula whose name is a step up. -/

/-- A formula with a name that is no name of a directory entry. -/
def formula : Formula where
  identity := {
    name := "..", version := some "1.0", description := some "Greets"
    homepage := some "https://example.org", license := some "MIT" }
  source := {
    url := "https://example.org/hello-1.0.tar.gz"
    checksum := "sha256:" ++ String.ofList (List.replicate 64 'a') }
  build := { command := ["make"], output := "hello" }
  install := { bin := ["hello"] }
  test := some { commands := [["%(prefix)s/bin/hello"]] }

/-- A configuration with a cellar. -/
def config : Config where
  cellar := ⟨"/opt/kiln"⟩

end Upward

/-- A formula may be accepted although its home is beside the cellar. -/
theorem home_beside_cellar :
    ¬∀ (c : Config) (f : Formula), (∃ warnings, f.validate = .ok warnings) →
      (c.home f).IsBelow c.cellar := by
  intro h
  have hvalid : Upward.formula.validate = .ok [] := by decide +kernel
  obtain ⟨names, -, hplace⟩ := h Upward.config Upward.formula ⟨_, hvalid⟩
  have hhome : (Upward.config.home Upward.formula).place = [.root, .name "opt", .name "1.0"] := by
    decide
  have hcellar : Upward.config.cellar.place = [.root, .name "opt", .name "kiln"] := by decide
  rw [hhome, hcellar] at hplace
  simp at hplace

end Config

end Formulary
