import Formulary.Bindings
import Mathlib.Data.List.Sort

/-!
# Look-ups of named values

The names of a map are in order, so that the names before a given one and those after it are told
by comparison (`exists_entries_eq`), and maps with the same look-ups are equal (`ext_get`). Setting
many values is looking them up first (`get?_foldl_insert`).
-/

namespace Formulary.Bindings

variable {b : Bindings} {name value : String}

theorem contains_iff : b.contains name = true ↔ ∃ value, b.get? name = some value :=
  Option.isSome_iff_exists

theorem exists_lookup_iff {l : List (String × String)} :
    (∃ value, l.lookup name = some value) ↔ name ∈ l.map Prod.fst := by
  induction l with
  | nil => simp
  | cons e l ih =>
    obtain ⟨other, v⟩ := e
    rw [List.map_cons, List.mem_cons, ← ih, lookup_of_cons]
    by_cases h : name = other <;> simp [h]

/-- The names are those that have values. -/
theorem contains_iff_mem_names : b.contains name = true ↔ name ∈ b.names :=
  contains_iff.trans exists_lookup_iff

/-- Before an entry there is no other of its name, and behind it are the greater names. -/
theorem exists_entries_eq (h : b.get? name = some value) :
    ∃ before later, b.entries = before ++ (name, value) :: later ∧
      b.entries.filter (name < ·.1) = later ∧ ∀ e ∈ before, e.1 ≠ name := by
  obtain ⟨before, later, hentries, -⟩ := List.lookup_eq_some_iff.1 h
  have hsorted := b.sorted
  rw [hentries, List.pairwise_append, List.pairwise_cons] at hsorted
  obtain ⟨-, ⟨hlater, -⟩, hbefore⟩ := hsorted
  have hless : ∀ e ∈ before, e.1 < name := fun e he => hbefore e he _ List.mem_cons_self
  have hnone : before.filter (name < ·.1) = [] :=
    List.filter_eq_nil_iff.2 fun e he => by simpa using String.lt_asymm (hless e he)
  have hall : later.filter (name < ·.1) = later :=
    List.filter_eq_self.2 fun e he => by simpa using hlater e he
  refine ⟨before, later, hentries, ?_, fun e he => ?_⟩
  · rw [hentries, List.filter_append, List.filter_cons, hnone, hall]
    simp
  · rintro rfl
    exact String.lt_irrefl _ (hless e he)

theorem nodup_names (b : Bindings) : (b.entries.map Prod.fst).Nodup := by
  rw [List.Nodup, List.pairwise_map]
  refine b.sorted.imp fun {x y} hlt heq => ?_
  exact String.lt_irrefl y.1 (heq ▸ hlt)

/-- Where no name comes twice, the look-up gives the entry with the name. -/
theorem lookup_eq_some_iff_mem {α : Type} {l : List (String × α)} (hl : (l.map Prod.fst).Nodup)
    {value : α} : l.lookup name = some value ↔ (name, value) ∈ l := by
  induction l with
  | nil => simp
  | cons e l ih =>
    obtain ⟨other, v⟩ := e
    rw [List.map_cons, List.nodup_cons] at hl
    obtain ⟨hother, hl⟩ := hl
    rw [List.mem_cons, Prod.mk.injEq]
    by_cases hname : name = other
    · subst hname
      have hnot : (name, value) ∉ l := fun h => hother (List.mem_map.2 ⟨_, h, rfl⟩)
      simp [hnot, eq_comm]
    · rw [List.lookup_cons, beq_false_of_ne hname, ih hl]
      simp [hname]

theorem ext_get {b b' : Bindings} (h : ∀ name, b.get? name = b'.get? name) : b = b' := by
  have hmem : ∀ e, e ∈ b.entries ↔ e ∈ b'.entries := by
    rintro ⟨name, value⟩
    rw [← lookup_eq_some_iff_mem b.nodup_names, ← lookup_eq_some_iff_mem b'.nodup_names]
    exact iff_of_eq (congrArg (· = some value) (h name))
  have hperm : b.entries.Perm b'.entries :=
    (List.perm_ext_iff_of_nodup b.nodup_names.of_map b'.nodup_names.of_map).2 hmem
  have hentries : b.entries = b'.entries := by
    refine hperm.eq_of_pairwise (fun x y _ _ hxy hyx => ?_) b.sorted b'.sorted
    exact absurd hyx (String.lt_asymm hxy)
  cases b
  cases b'
  cases hentries
  rfl

/-- Values of different names that are set are looked up before all others. -/
theorem get?_foldl_insert {l : List (String × String)} (hl : (l.map Prod.fst).Nodup)
    (b : Bindings) (name : String) :
    (l.foldl (fun b e => b.insert e.1 e.2) b).get? name = (l.lookup name).or (b.get? name) := by
  induction l generalizing b with
  | nil => rfl
  | cons e l ih =>
    obtain ⟨other, v⟩ := e
    obtain ⟨hother, hl⟩ := List.nodup_cons.1 hl
    rw [List.foldl_cons, ih hl, get?_insert, lookup_of_cons]
    by_cases hname : name = other
    · have hnone : l.lookup name = none := by
        cases hlookup : l.lookup name with
        | none => rfl
        | some v' => exact absurd (hname ▸ exists_lookup_iff.1 ⟨v', hlookup⟩) hother
      rw [hnone]
      simp [hname]
    · simp [hname]

/-- The entries of a map, set in any order, give the map. -/
theorem foldl_insert_of_perm {l : List (String × String)} (hl : l.Perm b.entries) :
    l.foldl (fun b e => b.insert e.1 e.2) empty = b := by
  have hnodup : (l.map Prod.fst).Nodup := (hl.map Prod.fst).nodup_iff.2 b.nodup_names
  refine ext_get fun name => ?_
  have hlookup : l.lookup name = b.entries.lookup name := by
    refine Option.ext fun value => ?_
    rw [lookup_eq_some_iff_mem hnodup, lookup_eq_some_iff_mem b.nodup_names, hl.mem_iff]
  rw [get?_foldl_insert hnodup, hlookup, get?_empty, Option.or_none]
  rfl

end Formulary.Bindings
