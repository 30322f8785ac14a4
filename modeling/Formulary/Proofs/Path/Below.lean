import Formulary.Proofs.Path

/-!
# Places below others

A path leads to a place by its text alone (`Path.place`) : dots are passed over, and each step up
takes back the name before it. A place is below another one when names lead on from there
(`Path.IsBelow`). Where a path leads behind another one (`Path.reverse_place_join`) is told by
`Path.descend` : the names that it finds lead on from any place (`Path.place_of_descend`), and if it
finds none, a step up is left (`Path.up_mem_foldl_onward_of_descend`).
-/

namespace Formulary.Path

/-! ## Places -/

/-- One more component on the way to a place, which is given with its last component first. A step
up takes back a name and does not leave the root. Where neither is before it, it stays. -/
def onward : List Component → Component → List Component
  | _, .root => [.root]
  | way, .here => way
  | way, .name s => .name s :: way
  | .name _ :: way, .up => way
  | .root :: way, .up => .root :: way
  | way, .up => .up :: way

/-- Where the path leads by its text alone. -/
def place (p : Path) : List Component := (p.components.foldl onward []).reverse

/-- Names lead on from the place of the second path to that of the first. -/
def IsBelow (q p : Path) : Prop :=
  ∃ names : List String, names ≠ [] ∧ q.place = p.place ++ names.map .name

variable {p q r : Path}

theorem reverse_place (p : Path) : p.place.reverse = p.components.foldl onward [] :=
  List.reverse_reverse _

theorem IsBelow.trans (h : r.IsBelow q) (h' : q.IsBelow p) : r.IsBelow p := by
  obtain ⟨lower, -, hr⟩ := h
  obtain ⟨upper, hne, hq⟩ := h'
  refine ⟨upper ++ lower, by simp [hne], ?_⟩
  rw [hr, hq, List.map_append, List.append_assoc]

/-! ## What stays on the way -/

variable {way cs : List Component}

theorem root_mem_onward (h : .root ∈ way) (c : Component) : .root ∈ onward way c := by
  unfold onward
  split <;> simp_all

theorem up_mem_onward (h : .up ∈ way) {c : Component} (hc : c ≠ .root) : .up ∈ onward way c := by
  unfold onward
  split <;> simp_all

theorem root_mem_foldl_onward (h : .root ∈ way) (cs : List Component) :
    .root ∈ cs.foldl onward way := by
  induction cs generalizing way with
  | nil => exact h
  | cons c cs ih => exact ih (root_mem_onward h c)

theorem up_mem_foldl_onward (h : .up ∈ way) (hcs : .root ∉ cs) : .up ∈ cs.foldl onward way := by
  induction cs generalizing way with
  | nil => exact h
  | cons c cs ih =>
    rw [List.mem_cons, not_or] at hcs
    exact ih (up_mem_onward h (Ne.symm hcs.1)) hcs.2

/-- A path from the root leads to a place from the root. -/
theorem root_mem_place (h : p.isAbsolute = true) : .root ∈ p.place := by
  obtain ⟨first, rest, hsegments⟩ := List.exists_cons_of_ne_nil (Text.split_ne_nil (· == '/') _)
  have hstart : Component.root ∈ [Component.root] := List.mem_cons_self
  rw [← List.mem_reverse, reverse_place, components_eq_append hsegments, h]
  exact root_mem_foldl_onward hstart _

/-! ## Going down -/

/-- Names that are found on a descent lead on from any place. -/
theorem foldl_onward_of_descend {names found : List String} (hcs : .root ∉ cs)
    (h : descend names cs = some found) (way : List Component) :
    cs.foldl onward (names.map .name ++ way) = found.reverse.map .name ++ way := by
  induction cs generalizing names with
  | nil =>
    obtain rfl : names.reverse = found := Option.some.inj h
    rw [List.foldl_nil, List.reverse_reverse]
  | cons c cs ih =>
    rw [List.mem_cons, not_or] at hcs
    cases c with
    | root => exact absurd rfl hcs.1
    | here =>
      have hpassed : descend names (.here :: cs) = descend names cs := by cases names <;> rfl
      exact ih hcs.2 (hpassed.symm.trans h)
    | name s => exact ih hcs.2 h
    | up =>
      cases names with
      | nil => exact absurd h nofun
      | cons s names => exact ih hcs.2 h

/-- A descent that has no name to take back begins with a step up. -/
theorem up_mem_foldl_onward_of_descend {names : List String} (hcs : .root ∉ cs)
    (h : descend names cs = none) : .up ∈ cs.foldl onward (names.map .name) := by
  induction cs generalizing names with
  | nil => exact absurd h nofun
  | cons c cs ih =>
    rw [List.mem_cons, not_or] at hcs
    cases c with
    | root => exact absurd rfl hcs.1
    | here =>
      have hpassed : descend names (.here :: cs) = descend names cs := by cases names <;> rfl
      exact ih hcs.2 (hpassed.symm.trans h)
    | name s => exact ih hcs.2 h
    | up =>
      cases names with
      | nil =>
        have hkept : .up ∈ cs.foldl onward [.up] := up_mem_foldl_onward List.mem_cons_self hcs.2
        exact hkept
      | cons s names => exact ih hcs.2 h

theorem descend_names (ns names : List String) :
    descend names (ns.map .name) = some (names.reverse ++ ns) := by
  induction ns generalizing names with
  | nil => rw [List.map_nil, descend, List.append_nil]
  | cons n ns ih => rw [List.map_cons, descend, ih, List.reverse_cons, List.append_assoc]; rfl

/-! ## Paths behind others -/

/-- A dot at the start of a path leads nowhere. -/
theorem foldl_onward_segments (h : q.isAbsolute = false) (way : List Component) :
    (q.segments.filterMap component?).foldl onward way = q.components.foldl onward way := by
  obtain ⟨first, rest, hsegments⟩ := List.exists_cons_of_ne_nil (Text.split_ne_nil (· == '/') _)
  rw [components_eq_append hsegments, show q.segments = first :: rest from hsegments, h, opening]
  by_cases hdot : first = ['.']
  · subst hdot
    rfl
  · cases hfirst : component? first <;> simp [hdot, hfirst]

/-- A path taken from another one leads on from where that one does. -/
theorem reverse_place_join {t : String} (h : (Path.mk t).isAbsolute = false) (p : Path) :
    (p.join t).place.reverse = (Path.mk t).components.foldl onward p.place.reverse := by
  rw [reverse_place, reverse_place]
  by_cases hp : p.text = ""
  · rw [join_of_empty hp h, components_of_empty hp]
    rfl
  · rw [components_join hp h, List.foldl_append, foldl_onward_segments h]

/-- Names that are found on a descent from a place are what leads on from there. -/
theorem place_of_descend (hcs : .root ∉ cs) {names : List String}
    (hdescend : descend [] cs = some names)
    (hplace : q.place.reverse = cs.foldl onward p.place.reverse) :
    q.place = p.place ++ names.map .name := by
  have hway := foldl_onward_of_descend hcs hdescend p.place.reverse
  rw [List.map_nil, List.nil_append, ← hplace, List.map_reverse, ← List.reverse_append] at hway
  exact List.reverse_inj.1 hway

/-- Where no segment steps up, the components behind a path are names. -/
theorem filterMap_component? {segments : List (List Char)} (h : ['.', '.'] ∉ segments) :
    segments.filterMap component? =
      ((segments.map String.ofList).filter fun s => s ≠ "" ∧ s ≠ ".").map .name := by
  induction segments with
  | nil => rfl
  | cons segment segments ih =>
    rw [List.mem_cons, not_or] at h
    have hkept : (String.ofList segment ≠ "" ∧ String.ofList segment ≠ ".") ↔
        ¬(segment = [] ∨ segment = ['.']) := by
      rw [ne_eq, ne_eq, Text.ofList_eq_iff, Text.ofList_eq_iff, not_or]
      rfl
    by_cases hnone : segment = [] ∨ segment = ['.']
    · have hpassed : component? segment = none := if_pos hnone
      rw [List.filterMap_cons_none hpassed, List.map_cons, List.filter_cons_of_neg, ih h.2]
      exact fun hheld => hkept.1 (of_decide_eq_true hheld) hnone
    · have hname : component? segment = some (.name (String.ofList segment)) := by
        rw [component?, if_neg hnone, if_neg (Ne.symm h.1)]
      rw [List.filterMap_cons_some hname, List.map_cons, List.filter_cons_of_pos, ih h.2,
        List.map_cons]
      exact decide_eq_true (hkept.2 hnone)

/-- Behind another path, the names of a path without steps up are where it leads. -/
theorem place_join_of_segments {t : String} (h : (Path.mk t).isAbsolute = false)
    (hup : ".." ∉ Disk.segmentsOf t) (p : Path) :
    (p.join t).place = p.place ++ (Disk.segmentsOf t).map .name := by
  have hsegments : ['.', '.'] ∉ (Path.mk t).segments := by
    intro hmem
    exact hup (List.mem_filter.2 ⟨List.mem_map.2 ⟨_, hmem, rfl⟩, by decide⟩)
  have hnames : (Path.mk t).segments.filterMap component? = (Disk.segmentsOf t).map .name :=
    filterMap_component? hsegments
  have hroot : .root ∉ (Disk.segmentsOf t).map Component.name := by simp
  refine place_of_descend hroot (descend_names _ []) ?_
  rw [reverse_place_join h, ← foldl_onward_segments h, hnames]

end Formulary.Path
