import Formulary.Proofs.OsVersion
import Formulary.Proofs.Probe
import Mathlib.Data.List.Nodup

/-!
# What is decided about a host

What a host meets, a newer one meets (`HostCheck.Meets.mono`), so it gets the same decision
(`HostCheck.ofHost_mono`). Whether a host will do is told by the requirements one by one, and goes
on to newer hosts (`HostCheck.decides_one_by_one`).

The two lists of a decision hold names, and a name may have a condition for each of several systems.
Then it is noted in both (`HostCheck.decision_of_names`, `HostCheck.not_unambiguous`).
-/

namespace Formulary

namespace HostCheck

variable {c : Classified} {host newer : Host} {check : HostCheck} {r : HostRequirement}

/-! ## Newer hosts -/

theorem isOs_congr (hos : newer.os = host.os) (name : String) :
    newer.isOs name = host.isOs name := by
  unfold Host.isOs
  rw [hos]

/-- What a host meets, a newer one meets. -/
theorem Meets.mono (hos : newer.os = host.os)
    (hnewer : newer.version.satisfies host.version = true) (h : Meets host r) :
    Meets newer r := by
  obtain ⟨hname, minimum, hparse, hsatisfies⟩ := h
  exact ⟨(isOs_congr hos _).trans hname, minimum, hparse,
    OsVersion.satisfies_trans hnewer hsatisfies⟩

/-- A newer host gets the same decision. -/
theorem ofHost_mono (hos : newer.os = host.os)
    (hnewer : newer.version.satisfies host.version = true) (h : ofHost c host = .ok check) :
    ofHost c newer = .ok check := by
  rw [ofHost_eq_ok_iff] at h ⊢
  simp only [isOs_congr hos]
  exact ⟨fun r hr hname => (h.1 r hr hname).mono hos hnewer, h.2⟩

/-! ## The decision -/

/-- A host will do when it meets each requirement about its system; those are then noted as
satisfied, in order, and all others as what must be built. It is refused for the first that it does
not meet. A newer host of the same system gets the same decision. -/
theorem decides_one_by_one (c : Classified) (host : Host) :
    ((∃ check, ofHost c host = .ok check) ↔
      ∀ r ∈ c.hostProvided, host.isOs r.condition.os = true →
        ∃ minimum, OsVersion.parse r.condition.since = .ok minimum ∧
          host.version.satisfies minimum = true) ∧
    (∀ check, ofHost c host = .ok check →
      check.satisfied =
        (c.hostProvided.filter fun r => host.isOs r.condition.os).map HostRequirement.name ∧
      check.mustBuild =
        (c.hostProvided.filter fun r => !host.isOs r.condition.os).map HostRequirement.name ∧
      check.satisfied.length + check.mustBuild.length = c.hostProvided.length) ∧
    (∀ refusal, ofHost c host = .error refusal ↔
      ∃ before r behind, c.hostProvided = before ++ r :: behind ∧
        (∀ b ∈ before, host.isOs b.condition.os = true → Meets host b) ∧
        Refuses host r refusal) ∧
    ∀ newer check, newer.os = host.os → newer.version.satisfies host.version = true →
      ofHost c host = .ok check → ofHost c newer = .ok check := by
  refine ⟨?_, fun check h => ?_, fun refusal => ofHost_eq_error_iff,
    fun newer check hos hnewer h => ofHost_mono hos hnewer h⟩
  · constructor
    · rintro ⟨check, h⟩ r hr hos
      exact ((ofHost_eq_ok_iff.1 h).1 r hr hos).2
    · intro h
      exact ⟨⟨_, _⟩, ofHost_eq_ok_iff.2 ⟨fun r hr hos => ⟨hos, h r hr hos⟩, rfl, rfl⟩⟩
  · obtain ⟨-, hsatisfied, hmustBuild⟩ := ofHost_eq_ok_iff.1 h
    refine ⟨hsatisfied, hmustBuild, ?_⟩
    rw [hsatisfied, hmustBuild, List.length_map, List.length_map,
      ← List.length_eq_length_filter_add]

namespace PerSystem

/-! What follows is a library that may be declared for each of two systems. -/

/-- The copy of the one system. -/
def onMac : Dependency where
  name := "ncurses"
  provenance := .host
  condition := some ⟨"macos", "monterey"⟩

/-- A host of that system. -/
def mac : Host := ⟨"macos", ⟨"14.2"⟩⟩

/-- A host that is only just new enough. -/
def oldMac : Host := ⟨"macos", ⟨"12"⟩⟩

end PerSystem

open PerSystem

theorem decides_one_by_one_newer :
    mac.os = oldMac.os ∧ mac.version.satisfies oldMac.version = true ∧
      ofHost (.ofDeclarations [onMac]) oldMac = .ok ⟨["ncurses"], []⟩ ∧
      ["ncurses"].length + ([] : List String).length =
        (Classified.ofDeclarations [onMac]).hostProvided.length ∧
      ofHost (.ofDeclarations [onMac]) mac = .ok ⟨["ncurses"], []⟩ := by
  have hold : ofHost (.ofDeclarations [onMac]) oldMac = .ok ⟨["ncurses"], []⟩ := by decide
  have hnewer : mac.version.satisfies oldMac.version = true := by decide
  obtain ⟨-, hlists, -, hmono⟩ := decides_one_by_one (.ofDeclarations [onMac]) oldMac
  exact ⟨rfl, hnewer, hold, (hlists _ hold).2.2, hmono mac _ rfl hnewer hold⟩

/-! ## Names with more than one condition -/

end HostCheck

/-- The declaration has a condition, which is about another system than the host's. -/
def Dependency.IsForAnother (d : Dependency) (host : Host) : Prop :=
  d.provenance = .host ∧ ∃ c, d.condition = some c ∧ host.isOs c.os = false

theorem Dependency.isForAnother_iff {d : Dependency} {host : Host} : d.IsForAnother host ↔
    ∃ r, Classified.requirement? d = some r ∧ (!host.isOs r.condition.os) = true := by
  simp only [Classified.requirement?_eq_some_iff, Bool.not_eq_true']
  constructor
  · rintro ⟨hprovenance, c, hcondition, hos⟩
    exact ⟨_, ⟨hprovenance, c, hcondition, rfl⟩, hos⟩
  · rintro ⟨_, ⟨hprovenance, c, hcondition, rfl⟩, hos⟩
    exact ⟨hprovenance, c, hcondition, hos⟩

namespace HostCheck

open PerSystem

variable {ds : List Dependency}

/-- A name is noted as to be built when a declaration with it is about another system. -/
theorem mem_mustBuild_iff (h : ofHost (.ofDeclarations ds) host = .ok check) {name : String} :
    name ∈ check.mustBuild ↔ ∃ d ∈ ds, d.name = name ∧ d.IsForAnother host := by
  obtain ⟨-, -, hmustBuild⟩ := ofHost_eq_ok_iff.1 h
  rw [hmustBuild, Classified.mem_names_iff]
  simp only [Dependency.isForAnother_iff]

/-- A name is in both lists of a decision when the host meets a declaration with it, and another
declaration with it is about another system. So it is in one at most when no name has two
conditions. -/
theorem decision_of_names (h : ofHost (.ofDeclarations ds) host = .ok check) :
    (∀ name, name ∈ check.satisfied ∧ name ∈ check.mustBuild ↔
      ∃ d ∈ ds, ∃ d' ∈ ds, d.name = name ∧ d'.name = name ∧ d.MetBy host ∧
        d'.IsForAnother host) ∧
    (((Classified.ofDeclarations ds).hostProvided.map HostRequirement.name).Nodup →
      check.satisfied.Disjoint check.mustBuild) := by
  refine ⟨fun name => ?_, fun hnodup name hsatisfied hmustBuild => ?_⟩
  · rw [mem_satisfied_iff h, mem_mustBuild_iff h]
    constructor
    · rintro ⟨⟨d, hd, hname, hmet⟩, d', hd', hname', hother⟩
      exact ⟨d, hd, d', hd', hname, hname', hmet, hother⟩
    · rintro ⟨d, hd, d', hd', hname, hname', hmet, hother⟩
      exact ⟨⟨d, hd, hname, hmet⟩, d', hd', hname', hother⟩
  · obtain ⟨-, hs, hm⟩ := ofHost_eq_ok_iff.1 h
    rw [hs, List.mem_map] at hsatisfied
    rw [hm, List.mem_map] at hmustBuild
    obtain ⟨r, hr, rfl⟩ := hsatisfied
    obtain ⟨r', hr', hname⟩ := hmustBuild
    obtain ⟨hr, hos⟩ := List.mem_filter.1 hr
    obtain ⟨hr', hos'⟩ := List.mem_filter.1 hr'
    obtain rfl := List.inj_on_of_nodup_map hnodup hr' hr hname
    rw [hos] at hos'
    exact absurd hos' nofun

namespace PerSystem

/-- The copy of another system, under the same name. -/
def onLinux : Dependency where
  name := "ncurses"
  provenance := .host
  condition := some ⟨"linux", "6"⟩

theorem ofHost_both :
    ofHost (.ofDeclarations [onMac, onLinux]) mac = .ok ⟨["ncurses"], ["ncurses"]⟩ := by decide

/-- Another library, whose copy of the other system would do. -/
def elsewhere : Dependency where
  name := "zlib"
  provenance := .host
  condition := some ⟨"linux", "6"⟩

theorem ofHost_elsewhere :
    ofHost (.ofDeclarations [onMac, elsewhere]) mac = .ok ⟨["ncurses"], ["zlib"]⟩ := by decide

end PerSystem

/-- Of two libraries the host has one, and the other is to be built. -/
theorem decision_of_names_onMac :
    ofHost (.ofDeclarations [onMac, elsewhere]) mac = .ok ⟨["ncurses"], ["zlib"]⟩ ∧
      ((Classified.ofDeclarations [onMac, elsewhere]).hostProvided.map
        HostRequirement.name).Nodup ∧
      ["ncurses"].Disjoint ["zlib"] := by
  have hnodup : ((Classified.ofDeclarations [onMac, elsewhere]).hostProvided.map
      HostRequirement.name).Nodup := by decide
  exact ⟨ofHost_elsewhere, hnodup, (decision_of_names ofHost_elsewhere).2 hnodup⟩

/-- Of a library that is declared for each system, a host uses its own copy, and builds it as
well. -/
theorem not_unambiguous :
    ¬∀ (ds : List Dependency) (host : Host) (check : HostCheck),
      ofHost (.ofDeclarations ds) host = .ok check →
        ∀ name, ¬(name ∈ check.satisfied ∧ name ∈ check.mustBuild) :=
  fun h => h _ _ _ ofHost_both "ncurses" ⟨List.mem_cons_self, List.mem_cons_self⟩

end HostCheck

end Formulary
