import Formulary.Depends
import Formulary.Proofs.Runs

/-!
# Decisions about the host

What is asked of the host are the conditions of the dependencies, in their order
(`Classified.hostProvided_ofDeclarations`). A host that will do meets every condition that is about
its system, and those are the copies that are used (`HostCheck.ofHost_eq_ok_iff`). Any other host is
refused for the first that it does not meet (`HostCheck.ofHost_eq_error_iff`); when the versions in
the conditions can be read, the only thing that speaks against a host is that it is too old
(`HostCheck.tooOld_of_ofHost`).
-/

namespace Formulary

namespace Classified

/-- By induction on the declarations that are still to be sorted. -/
theorem hostProvided_foldl_add (ds : List Dependency) (c : Classified) :
    (ds.foldl add c).hostProvided = c.hostProvided ++ ds.filterMap requirement? := by
  induction ds generalizing c with
  | nil => simp
  | cons d ds ih =>
    have hadd : (c.add d).hostProvided = c.hostProvided ++ (requirement? d).toList := rfl
    rw [List.foldl_cons, ih, hadd, List.append_assoc]
    cases hrequirement : requirement? d <;> simp [hrequirement]

theorem hostProvided_ofDeclarations (ds : List Dependency) :
    (ofDeclarations ds).hostProvided = ds.filterMap requirement? := hostProvided_foldl_add ds {}

/-- A requirement is made by the condition of a dependency. -/
theorem condition_of_requirement? {d : Dependency} {r : HostRequirement}
    (h : requirement? d = some r) : d.condition = some r.condition := by
  unfold requirement? at h
  split at h
  · rename_i hcondition
    obtain rfl := Option.some.inj h
    exact hcondition
  · exact absurd h nofun

end Classified

namespace HostCheck

variable {host : Host}

/-! ## Hosts that will do -/

/-- The host's copy is used : the requirement is about its system, and it is new enough. -/
def Meets (host : Host) (r : HostRequirement) : Prop :=
  host.isOs r.condition.os = true ∧ ∃ minimum, OsVersion.parse r.condition.since = .ok minimum ∧
    host.version.satisfies minimum = true

/-- What is noted of a requirement that does not speak against the host. -/
def note (host : Host) (check : HostCheck) (r : HostRequirement) : HostCheck :=
  if host.isOs r.condition.os then { check with satisfied := check.satisfied ++ [r.name] }
  else { check with mustBuild := check.mustBuild ++ [r.name] }

theorem decideOne_eq_ok_iff {r : HostRequirement} {check check' : HostCheck} :
    decideOne host check r = .ok check' ↔
      (host.isOs r.condition.os = true → Meets host r) ∧ note host check r = check' := by
  unfold decideOne note
  cases hos : host.isOs r.condition.os with
  | false => simp
  | true =>
    cases hparse : OsVersion.parse r.condition.since with
    | error defect => simp [Meets, hparse]
    | ok minimum =>
      cases hsatisfies : host.version.satisfies minimum with
      | false => simp [Meets, hparse, hsatisfies]
      | true => simp [Meets, hos, hparse, hsatisfies]

/-- By induction on the requirements : none of them may speak against the host. -/
theorem foldlM_decideOne_eq_ok_iff {requirements : List HostRequirement}
    {check check' : HostCheck} : requirements.foldlM (decideOne host) check = .ok check' ↔
      (∀ r ∈ requirements, host.isOs r.condition.os = true → Meets host r) ∧
      requirements.foldl (note host) check = check' := by
  induction requirements generalizing check with
  | nil => simp
  | cons r requirements ih =>
    rw [List.foldlM_cons, bind_eq_ok_iff, List.forall_mem_cons, List.foldl_cons, and_assoc]
    constructor
    · rintro ⟨next, hone, hrest⟩
      obtain ⟨hmeets, rfl⟩ := decideOne_eq_ok_iff.1 hone
      exact ⟨hmeets, ih.1 hrest⟩
    · rintro ⟨hmeets, hrest⟩
      exact ⟨_, decideOne_eq_ok_iff.2 ⟨hmeets, rfl⟩, ih.2 hrest⟩

/-- Each requirement adds its name to one of the two lists. -/
theorem foldl_note (requirements : List HostRequirement) (check : HostCheck) :
    requirements.foldl (note host) check = {
      satisfied := check.satisfied ++
        (requirements.filter fun r => host.isOs r.condition.os).map HostRequirement.name
      mustBuild := check.mustBuild ++
        (requirements.filter fun r => !host.isOs r.condition.os).map HostRequirement.name } := by
  induction requirements generalizing check with
  | nil => simp
  | cons r requirements ih =>
    rw [List.foldl_cons, ih]
    cases hos : host.isOs r.condition.os <;> simp [note, hos]

/-- A host will do when it meets every requirement about its system. -/
theorem ofHost_eq_ok_iff {c : Classified} {check : HostCheck} : ofHost c host = .ok check ↔
    (∀ r ∈ c.hostProvided, host.isOs r.condition.os = true → Meets host r) ∧
    check.satisfied =
      (c.hostProvided.filter fun r => host.isOs r.condition.os).map HostRequirement.name ∧
    check.mustBuild =
      (c.hostProvided.filter fun r => !host.isOs r.condition.os).map HostRequirement.name := by
  unfold ofHost
  rw [foldlM_decideOne_eq_ok_iff, foldl_note]
  obtain ⟨satisfied, mustBuild⟩ := check
  rw [HostCheck.mk.injEq]
  exact and_congr Iff.rfl (and_congr eq_comm eq_comm)

/-! ## Hosts that will not do -/

/-- The host has the system of a requirement, but not a version that is new enough. -/
def IsTooOld (host : Host) (r : HostRequirement) (minimum : OsVersion) : Prop :=
  host.isOs r.condition.os = true ∧ OsVersion.parse r.condition.since = .ok minimum ∧
    host.version.satisfies minimum = false

/-- A requirement about the host's system that speaks against the host, and how it is reported. -/
inductive Refuses (host : Host) (r : HostRequirement) : Refusal → Prop
  | unreadable {defect : OsVersion.Defect} (hos : host.isOs r.condition.os = true)
      (hparse : OsVersion.parse r.condition.since = .error defect) :
      Refuses host r (.condition defect)
  | tooOld {minimum : OsVersion} (h : IsTooOld host r minimum) :
      Refuses host r (.tooOld r minimum host.version)

theorem decideOne_eq_error_iff {r : HostRequirement} {check : HostCheck} {refusal : Refusal} :
    decideOne host check r = .error refusal ↔ Refuses host r refusal := by
  constructor
  · intro h
    unfold decideOne at h
    cases hos : host.isOs r.condition.os with
    | false => simp [hos] at h
    | true =>
      cases hparse : OsVersion.parse r.condition.since with
      | error defect =>
        simp only [hos, hparse, Bool.not_true, Bool.false_eq_true, if_false] at h
        cases h
        exact .unreadable hos hparse
      | ok minimum =>
        cases hsatisfies : host.version.satisfies minimum with
        | false =>
          simp only [hos, hparse, hsatisfies, Bool.not_true, Bool.false_eq_true, if_false] at h
          cases h
          exact .tooOld ⟨hos, hparse, hsatisfies⟩
        | true => simp [hos, hparse, hsatisfies] at h
  · intro h
    unfold decideOne
    cases h with
    | unreadable hos hparse => simp [hos, hparse]
    | tooOld h =>
      obtain ⟨hos, hparse, hsatisfies⟩ := h
      simp [hos, hparse, hsatisfies]

/-- A host is refused for the first requirement that speaks against it. -/
theorem ofHost_eq_error_iff {c : Classified} {refusal : Refusal} :
    ofHost c host = .error refusal ↔ ∃ before r behind, c.hostProvided = before ++ r :: behind ∧
      (∀ b ∈ before, host.isOs b.condition.os = true → Meets host b) ∧ Refuses host r refusal := by
  unfold ofHost
  rw [foldlM_eq_error_iff]
  constructor
  · rintro ⟨before, r, behind, t, hall, hbefore, hr⟩
    exact ⟨before, r, behind, hall, (foldlM_decideOne_eq_ok_iff.1 hbefore).1,
      decideOne_eq_error_iff.1 hr⟩
  · rintro ⟨before, r, behind, hall, hbefore, hr⟩
    exact ⟨before, r, behind, _, hall, foldlM_decideOne_eq_ok_iff.2 ⟨hbefore, rfl⟩,
      decideOne_eq_error_iff.2 hr⟩

/-- When the versions can be read, a host is refused only because it is too old. -/
theorem tooOld_of_ofHost {c : Classified}
    (hread : ∀ r ∈ c.hostProvided, ∃ v, OsVersion.parse r.condition.since = .ok v)
    {refusal : Refusal} (h : ofHost c host = .error refusal) :
    ∃ r ∈ c.hostProvided, ∃ minimum, refusal = .tooOld r minimum host.version ∧
      IsTooOld host r minimum := by
  obtain ⟨before, r, behind, hall, -, hrefuses⟩ := ofHost_eq_error_iff.1 h
  have hr : r ∈ c.hostProvided := hall ▸ List.mem_append_right before List.mem_cons_self
  cases hrefuses with
  | unreadable hos hparse =>
    obtain ⟨v, hv⟩ := hread r hr
    exact absurd (hv.symm.trans hparse) nofun
  | tooOld htooOld => exact ⟨r, hr, _, rfl, htooOld⟩

end HostCheck

end Formulary
