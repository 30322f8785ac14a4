import Formulary.Proofs.Probe
import Mathlib.Data.List.Nodup

/-!
# Classified and asked for

The names of a stage are those of the declarations that are needed in it, each where it comes first
(`Classified.inStage_ofDeclarations`). A probe is asked about declarations and not about names, and
chooses them on its own; it asks for the names of the two first stages, less those that the host
satisfies (`Probe.mem_names_wanted`). It is asked once or not at all, and what it reports is the
failure (`Probe.asks_for_classified`).
-/

namespace Formulary

namespace Classified

variable {ds : List Dependency}

/-! ## The names of a stage -/

/-- A name behind others counts when it is not one of them. -/
theorem eraseDups_concat (names : List String) (name : String) :
    (names ++ [name]).eraseDups = record names.eraseDups name := by
  rw [List.eraseDups_append]
  unfold record
  by_cases h : name ∈ names <;> simp [List.removeAll, List.eraseDups_cons, h]

theorem nodup_record {names : List String} (h : names.Nodup) (name : String) :
    (record names name).Nodup := by
  unfold record
  split
  · exact h
  · rename_i hnot
    refine h.append (List.nodup_singleton name) (List.disjoint_singleton.2 ?_)
    simpa using hnot

theorem inStage_add (c : Classified) (d : Dependency) (s : Stage) :
    (c.add d).inStage s = recordIf s d (c.inStage s) := by
  cases s <;> rfl

/-- The names of a stage are those of its declarations, each where it comes first. By induction on
the declarations from the last on, as one more is added behind the others. -/
theorem inStage_ofDeclarations (ds : List Dependency) (s : Stage) :
    (ofDeclarations ds).inStage s =
      ((ds.filter fun d => d.neededFor s).map Dependency.name).eraseDups := by
  induction ds using List.reverseRecOn with
  | nil => cases s <;> rfl
  | append_singleton ds d ih =>
    have hadd : ofDeclarations (ds ++ [d]) = (ofDeclarations ds).add d := by
      unfold ofDeclarations
      rw [List.foldl_append, List.foldl_cons, List.foldl_nil]
    rw [hadd, inStage_add, ih, List.filter_append, List.map_append]
    unfold recordIf
    cases hneeded : d.neededFor s with
    | false => simp [hneeded]
    | true => simp [hneeded, eraseDups_concat]

theorem nodup_inStage (ds : List Dependency) (s : Stage) :
    ((ofDeclarations ds).inStage s).Nodup := by
  rw [inStage_ofDeclarations]
  induction (ds.filter fun d => d.neededFor s).map Dependency.name using List.reverseRecOn with
  | nil => exact List.nodup_nil
  | append_singleton names name ih =>
    rw [eraseDups_concat]
    exact nodup_record ih name

theorem mem_inStage {s : Stage} {name : String} :
    name ∈ (ofDeclarations ds).inStage s ↔ ∃ d ∈ ds, d.neededFor s = true ∧ d.name = name := by
  rw [inStage_ofDeclarations, List.mem_eraseDups, List.mem_map]
  simp only [List.mem_filter, and_assoc]

theorem requirement?_eq (d : Dependency) : requirement? d =
    if d.provenance = .host then d.condition.map fun c => ⟨d.name, c⟩ else none := by
  unfold requirement? Dependency.effectiveProvenance
  cases d.provenance <;> cases d.condition <;> simp

end Classified

namespace Probe

variable {ds : List Dependency} {check : HostCheck}

/-! ## What is asked -/

theorem mem_names_wanted {name : String} : name ∈ (wanted ds check).map Dependency.name ↔
    (name ∈ (Classified.ofDeclarations ds).build ∨ name ∈ (Classified.ofDeclarations ds).test) ∧
      name ∉ check.satisfied := by
  have hbuild := @Classified.mem_inStage ds .build name
  have htest := @Classified.mem_inStage ds .test name
  simp only [Classified.inStage] at hbuild htest
  rw [hbuild, htest, List.mem_map]
  simp only [mem_wanted, Dependency.NeededFirst]
  constructor
  · rintro ⟨d, ⟨hd, hneeded, hnot⟩, rfl⟩
    exact ⟨hneeded.imp (fun h => ⟨d, hd, h, rfl⟩) fun h => ⟨d, hd, h, rfl⟩, hnot⟩
  · rintro ⟨⟨d, hd, hneeded, rfl⟩ | ⟨d, hd, hneeded, rfl⟩, hnot⟩
    · exact ⟨d, ⟨hd, .inl hneeded, hnot⟩, rfl⟩
    · exact ⟨d, ⟨hd, .inr hneeded, hnot⟩, rfl⟩

/-- The two ways to choose by name agree, and a probe is asked once about what was chosen, if
anything was. It fails with what the probe reports. -/
theorem asks_for_classified (ds : List Dependency) :
    (∀ s, (Classified.ofDeclarations ds).inStage s =
        ((ds.filter fun d => d.neededFor s).map Dependency.name).eraseDups ∧
      ((Classified.ofDeclarations ds).inStage s).Nodup) ∧
    (Classified.ofDeclarations ds).hostProvided = (ds.filterMap fun d =>
      if d.provenance = .host then d.condition.map fun c => ⟨d.name, c⟩ else none) ∧
    ∀ check : HostCheck,
      wanted ds check = (ds.filter fun d =>
        (d.neededFor .build || d.neededFor .test) && !check.satisfied.contains d.name) ∧
      (∀ name, name ∈ (wanted ds check).map Dependency.name ↔
        (name ∈ (Classified.ofDeclarations ds).build ∨
          name ∈ (Classified.ofDeclarations ds).test) ∧ name ∉ check.satisfied) ∧
      ∀ (probe : Probe) (w : World),
        (wanted ds check = [] → run probe ds check w = (.ok (), w)) ∧
        (wanted ds check ≠ [] →
          (∃ succeeded, (run probe ds check w).2 = {
            disk := (probe (wanted ds check) w.disk).2
            journal :=
              ⟨.probe ((wanted ds check).map Dependency.program), succeeded⟩ :: w.journal }) ∧
          (∀ e, (probe (wanted ds check) w.disk).1 = .error e →
            (run probe ds check w).1 = .error e) ∧
          ∀ missing, (probe (wanted ds check) w.disk).1 = .ok missing →
            ((run probe ds check w).1 = .ok () ↔ missing = []) ∧
            ((run probe ds check w).1 =
              .error (.dependency ("missing build/test dependencies: " ++
                Text.join ", " missing)) ↔ missing ≠ [])) := by
  refine ⟨fun s => ⟨Classified.inStage_ofDeclarations ds s, Classified.nodup_inStage ds s⟩, ?_,
    fun check => ⟨?_, fun name => mem_names_wanted, fun probe w => ⟨fun hnone => ?_,
      fun hsome => ?_⟩⟩⟩
  · rw [Classified.hostProvided_ofDeclarations]
    exact List.filterMap_congr fun d _ => Classified.requirement?_eq d
  · unfold wanted
    rw [List.filter_filter]
    exact List.filter_congr fun d _ => Bool.and_comm _ _
  · rw [run_eq, if_pos (List.isEmpty_iff.2 hnone)]
  · rw [run_eq, if_neg (by simpa using hsome)]
    refine ⟨⟨_, rfl⟩, fun e he => ?_, fun missing hmissing => ?_⟩
    · dsimp only
      rw [he, error_bind]
    · dsimp only
      rw [hmissing, ok_bind]
      cases missing <;> simp [judge, missingError]

open Twice

/-- Of a library and a compiler, a probe is asked about the compiler, and about none when there is
only the library. -/
theorem asks_for_classified_compiler :
    wanted [library, compiler] ⟨["zlib"], []⟩ ≠ [] ∧
      (ofPrograms [] (wanted [library, compiler] ⟨["zlib"], []⟩) {}).1 = .ok ["cc"] ∧
      (run (ofPrograms []) [library, compiler] ⟨["zlib"], []⟩ ⟨{}, []⟩).1 =
        .error (.dependency "missing build/test dependencies: cc") ∧
      wanted [library] ⟨[], []⟩ = [] ∧
      run (ofPrograms []) [library] ⟨[], []⟩ ⟨{}, []⟩ = (.ok (), ⟨{}, []⟩) := by
  have hsome : wanted [library, compiler] ⟨["zlib"], []⟩ ≠ [] := by decide
  have hnone : wanted [library] ⟨[], []⟩ = [] := by decide
  obtain ⟨-, -, hboth⟩ := asks_for_classified [library, compiler]
  obtain ⟨-, -, hone⟩ := asks_for_classified [library]
  obtain ⟨-, -, hreported⟩ := (hboth ⟨["zlib"], []⟩).2.2 (ofPrograms []) ⟨{}, []⟩ |>.2 hsome
  exact ⟨hsome, rfl, (hreported ["cc"] rfl).2.2 (by decide), hnone,
    ((hone ⟨[], []⟩).2.2 (ofPrograms []) ⟨{}, []⟩).1 hnone⟩

end Probe

end Formulary
