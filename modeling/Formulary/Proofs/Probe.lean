import Formulary.Proofs.Cook.Journal
import Formulary.Proofs.Depends
import Mathlib.Data.Set.Basic

/-!
# What a passed probe shows

Before anything is fetched, the host's copies are looked at, and then a probe looks for the programs
of what is needed to build and to test. The host's copies are remembered by the names of the
dependencies, and a name may be declared more than once. So when both checks pass, every declaration
that is needed has a program that is there, or shares its name with one that the host meets
(`Probe.passes_iff`). This need not be the declaration itself (`Probe.not_each_provided`).
-/

namespace Formulary

namespace Dependency

/-- The dependency is there before the build. -/
def NeededFirst (d : Dependency) : Prop :=
  d.neededFor .build = true ∨ d.neededFor .test = true

/-- The host provides the dependency : the declaration has a condition, which is about the system
of the host and which its version satisfies. -/
def MetBy (d : Dependency) (host : Host) : Prop :=
  d.provenance = .host ∧ ∃ c, d.condition = some c ∧ host.isOs c.os = true ∧
    ∃ minimum, OsVersion.parse c.since = .ok minimum ∧ host.version.satisfies minimum = true

end Dependency

/-! ## Names that the host provides -/

theorem Classified.requirement?_eq_some_iff {d : Dependency} {r : HostRequirement} :
    requirement? d = some r ↔
      d.provenance = .host ∧ ∃ c, d.condition = some c ∧ r = ⟨d.name, c⟩ := by
  unfold requirement? Dependency.effectiveProvenance
  cases d.provenance <;> cases d.condition <;> simp [eq_comm]

theorem Dependency.metBy_iff {d : Dependency} {host : Host} :
    d.MetBy host ↔ ∃ r, Classified.requirement? d = some r ∧ HostCheck.Meets host r := by
  constructor
  · rintro ⟨hprovenance, c, hcondition, hmeets⟩
    exact ⟨⟨d.name, c⟩, Classified.requirement?_eq_some_iff.2 ⟨hprovenance, c, hcondition, rfl⟩,
      hmeets⟩
  · rintro ⟨r, hrequirement, hmeets⟩
    obtain ⟨hprovenance, c, hcondition, rfl⟩ := Classified.requirement?_eq_some_iff.1 hrequirement
    exact ⟨hprovenance, c, hcondition, hmeets⟩

variable {ds : List Dependency} {host : Host} {check : HostCheck}

/-- The names of some requirements are those of the declarations that make them. -/
theorem Classified.mem_names_iff {p : HostRequirement → Bool} {name : String} :
    name ∈ ((ofDeclarations ds).hostProvided.filter p).map HostRequirement.name ↔
      ∃ d ∈ ds, d.name = name ∧ ∃ r, requirement? d = some r ∧ p r = true := by
  have hname : ∀ {d r}, requirement? d = some r → d.name = r.name := fun h => by
    obtain ⟨-, c, -, rfl⟩ := requirement?_eq_some_iff.1 h
    rfl
  rw [hostProvided_ofDeclarations, List.mem_map]
  constructor
  · rintro ⟨r, hr, rfl⟩
    obtain ⟨hr, hp⟩ := List.mem_filter.1 hr
    obtain ⟨d, hd, hrequirement⟩ := List.mem_filterMap.1 hr
    exact ⟨d, hd, hname hrequirement, r, hrequirement, hp⟩
  · rintro ⟨d, hd, rfl, r, hrequirement, hp⟩
    exact ⟨r, List.mem_filter.2 ⟨List.mem_filterMap.2 ⟨d, hd, hrequirement⟩, hp⟩,
      (hname hrequirement).symm⟩

/-- A name is noted as provided when the host meets a declaration with it. -/
theorem HostCheck.mem_satisfied_iff (h : ofHost (.ofDeclarations ds) host = .ok check)
    {name : String} : name ∈ check.satisfied ↔ ∃ d ∈ ds, d.name = name ∧ d.MetBy host := by
  obtain ⟨hmeets, hsatisfied, -⟩ := ofHost_eq_ok_iff.1 h
  rw [Classified.hostProvided_ofDeclarations] at hmeets
  rw [hsatisfied, Classified.mem_names_iff]
  refine exists_congr fun d => and_congr_right fun hd => and_congr_right fun _ => ?_
  rw [Dependency.metBy_iff]
  refine exists_congr fun r => and_congr_right fun hrequirement => ?_
  exact ⟨hmeets r (List.mem_filterMap.2 ⟨d, hd, hrequirement⟩), And.left⟩

namespace Probe

/-! ## What is asked, and what follows -/

/-- The probe reports exactly those whose programs are not installed. -/
def Finds (probe : Probe) (installed : Set String) : Prop :=
  ∀ asked d, ∃ missing, (probe asked d).1 = .ok missing ∧
    ∀ name, name ∈ missing ↔ ∃ a ∈ asked, a.name = name ∧ a.program ∉ installed

theorem finds_ofPrograms (installed : List String) :
    (ofPrograms installed).Finds {p | p ∈ installed} := by
  refine fun asked d => ⟨missingFrom installed asked, rfl, fun name => ?_⟩
  simp [missingFrom, and_left_comm, and_comm]

theorem mem_wanted {d : Dependency} :
    d ∈ wanted ds check ↔ d ∈ ds ∧ d.NeededFirst ∧ d.name ∉ check.satisfied := by
  simp [wanted, Dependency.NeededFirst, and_comm]

variable {probe : Probe} {installed : Set String}

/-- Nothing is missing when every program that is asked for is installed. -/
theorem run_eq_ok_iff (hfinds : probe.Finds installed) (w : World) :
    (run probe ds check w).1 = .ok () ↔ ∀ d ∈ wanted ds check, d.program ∈ installed := by
  obtain ⟨missing, hanswer, hmem⟩ := hfinds (wanted ds check) w.disk
  have hmissing : missing = [] ↔ ∀ d ∈ wanted ds check, d.program ∈ installed := by
    rw [List.eq_nil_iff_forall_not_mem]
    constructor
    · intro hnone d hd
      by_contra hnot
      exact hnone d.name ((hmem d.name).2 ⟨d, hd, rfl, hnot⟩)
    · rintro hall name hname
      obtain ⟨d, hd, -, hnot⟩ := (hmem name).1 hname
      exact hnot (hall d hd)
  rw [run_eq, ← hmissing]
  cases hnone : (wanted ds check).isEmpty with
  | true =>
    refine iff_of_true rfl (hmissing.2 fun d hd => ?_)
    rw [List.isEmpty_iff.1 hnone] at hd
    exact absurd hd List.not_mem_nil
  | false =>
    simp only [Bool.false_eq_true, if_false, hanswer, ok_bind]
    cases missing <;> simp [judge]

/-- Both checks pass when each declaration that is needed first is provided by the host, under its
name, or installed. It is provided by itself or installed when no other declaration has its name
that the host meets. -/
theorem passes_iff (hcheck : HostCheck.ofHost (.ofDeclarations ds) host = .ok check)
    (hfinds : probe.Finds installed) (w : World) :
    ((run probe ds check w).1 = .ok () ↔ ∀ d ∈ ds, d.NeededFirst →
      (∃ d' ∈ ds, d'.name = d.name ∧ d'.MetBy host) ∨ d.program ∈ installed) ∧
    ((run probe ds check w).1 = .ok () → ∀ d ∈ ds, d.NeededFirst →
      (∀ d' ∈ ds, d'.name = d.name → d'.MetBy host → d.MetBy host) →
        d.MetBy host ∨ d.program ∈ installed) := by
  have hpasses : (run probe ds check w).1 = .ok () ↔ ∀ d ∈ ds, d.NeededFirst →
      (∃ d' ∈ ds, d'.name = d.name ∧ d'.MetBy host) ∨ d.program ∈ installed := by
    rw [run_eq_ok_iff hfinds]
    refine forall_congr' fun d => ?_
    rw [mem_wanted, HostCheck.mem_satisfied_iff hcheck]
    constructor
    · intro h hd hneeded
      exact or_iff_not_imp_left.2 fun hnot => h ⟨hd, hneeded, hnot⟩
    · rintro h ⟨hd, hneeded, hnot⟩
      exact (h hd hneeded).resolve_left hnot
  refine ⟨hpasses, fun h d hd hneeded hown => ?_⟩
  rcases hpasses.1 h d hd hneeded with ⟨d', hd', hname, hmet⟩ | hinstalled
  · exact .inl (hown d' hd' hname hmet)
  · exact .inr hinstalled

namespace Twice

/-! What follows is a name that is declared twice : once the host provides it at run time, and once
it is a tool of the build. -/

/-- The library that the host provides. -/
def library : Dependency where
  name := "zlib"
  provenance := .host
  condition := some ⟨"macos", "12"⟩

/-- The tool of the same name. -/
def tool : Dependency where
  name := "zlib"
  stages := [.build]
  executable := some "zlib-flate"

/-- A tool with a name of its own. -/
def compiler : Dependency where
  name := "cc"
  stages := [.build, .test]

/-- A host that is new enough. -/
def newHost : Host := ⟨"macos", ⟨"14.2"⟩⟩

theorem metBy_library : library.MetBy newHost :=
  ⟨rfl, ⟨"macos", "12"⟩, rfl, by decide, ⟨"12"⟩, by decide, by decide⟩

/-- Only the library is a requirement, and it is met. -/
theorem ofHost_eq {d : Dependency} (h : Classified.requirement? d = none) :
    HostCheck.ofHost (.ofDeclarations [library, d]) newHost = .ok ⟨["zlib"], []⟩ := by
  obtain ⟨r, hrequirement, hmeets⟩ := Dependency.metBy_iff.1 metBy_library
  obtain rfl : r = ⟨"zlib", ⟨"macos", "12"⟩⟩ := Option.some.inj hrequirement.symm
  have hos : newHost.isOs "macos" = true := hmeets.1
  refine HostCheck.ofHost_eq_ok_iff.2 ?_
  rw [Classified.hostProvided_ofDeclarations]
  simp [hrequirement, h, hos, hmeets]

end Twice

open Twice

/-- The library is provided by the host, and the compiler is installed. -/
theorem passes_iff_compiler :
    HostCheck.ofHost (.ofDeclarations [library, compiler]) newHost = .ok ⟨["zlib"], []⟩ ∧
      (ofPrograms ["cc"]).Finds {p | p ∈ ["cc"]} ∧
      (run (ofPrograms ["cc"]) [library, compiler] ⟨["zlib"], []⟩ ⟨{}, []⟩).1 = .ok () ∧
      (compiler.MetBy newHost ∨ compiler.program ∈ {p | p ∈ ["cc"]}) := by
  have hcheck := ofHost_eq (d := compiler) rfl
  have hfinds := finds_ofPrograms ["cc"]
  obtain ⟨hiff, hown⟩ := passes_iff hcheck hfinds ⟨{}, []⟩
  have hpassed : (run (ofPrograms ["cc"]) [library, compiler] ⟨["zlib"], []⟩ ⟨{}, []⟩).1 =
      .ok () := by
    refine hiff.2 fun d hd _ => ?_
    rcases List.mem_pair.1 hd with rfl | rfl
    · exact .inl ⟨library, List.mem_cons_self, rfl, metBy_library⟩
    · exact .inr List.mem_cons_self
  refine ⟨hcheck, hfinds, hpassed, hown hpassed compiler (by simp) (.inl rfl) ?_⟩
  intro d' hd' hname hmet
  rcases List.mem_pair.1 hd' with rfl | rfl
  · exact absurd hname (by decide)
  · exact hmet

/-- A tool whose program is not installed gets through, because the host provides a library of its
name. -/
theorem not_each_provided :
    ¬∀ (ds : List Dependency) (host : Host) (check : HostCheck) (probe : Probe)
      (installed : Set String) (w : World),
      HostCheck.ofHost (.ofDeclarations ds) host = .ok check → probe.Finds installed →
        (run probe ds check w).1 = .ok () → ∀ d ∈ ds, d.NeededFirst →
          d.MetBy host ∨ d.program ∈ installed := by
  intro h
  have hfinds := finds_ofPrograms []
  have hpassed : (run (ofPrograms []) [library, tool] ⟨["zlib"], []⟩ ⟨{}, []⟩).1 = .ok () := rfl
  rcases h [library, tool] newHost _ _ _ _ (ofHost_eq rfl) hfinds hpassed tool (by simp)
    (.inl rfl) with hmet | hinstalled
  · exact absurd hmet.1 nofun
  · exact absurd hinstalled List.not_mem_nil

end Probe

end Formulary
