import Formulary.Destination
import Formulary.Proofs.Path.Below
import Formulary.Proofs.Runs

/-!
# When a text is a destination

A text is read as a destination component by component. It is one when none of its segments leads
out and one of them is a name (`Destination.exists_check_iff`). In the directory of programs that is
a matter of two dots alone (`Destination.exists_check_program_iff`). Below a prefix a destination
leads on by its names (`Destination.segmentsOf_under`).
-/

namespace Formulary

/-- Names with slashes between them are the segments of the text. -/
theorem Disk.segmentsOf_joined {names : List String} (h : ∀ s ∈ names, IsName s) :
    segmentsOf (Text.join "/" names) = names := by
  induction names with
  | nil => decide
  | cons s rest ih =>
    obtain ⟨hempty, hdot, -, hslash⟩ := h s List.mem_cons_self
    have hone : segmentsOfChars s.toList = [s] := by
      rw [segmentsOfChars_of_not_mem hslash, if_neg (not_or.2 ⟨hempty, hdot⟩)]
    cases rest with
    | nil => exact hone
    | cons s' rest =>
      have hjoin : (Text.join "/" (s :: s' :: rest)).toList =
          s.toList ++ '/' :: (Text.join "/" (s' :: rest)).toList := by
        simp [Text.join, String.toList_append]
      rw [segmentsOf_eq, hjoin, segmentsOfChars_append, hone, ← segmentsOf_eq,
        ih fun t ht => h t (List.mem_cons_of_mem s ht)]
      rfl

/-- A name is the one component of its path. -/
theorem Path.components_of_isName {s : String} (h : IsName s) :
    (Path.mk s).components = [.name s] := by
  obtain ⟨hempty, hdot, hup, hslash⟩ := h
  have hsegments : (Path.mk s).segments = [s.toList] := Text.split_of_not_mem hslash
  have hempty : s.toList ≠ [] := fun h => hempty (String.toList_inj.1 h)
  have hdot : s.toList ≠ ['.'] := fun h => hdot (String.toList_inj.1 h)
  have hup : s.toList ≠ ['.', '.'] := fun h => hup (String.toList_inj.1 h)
  have hcomponent : component? s.toList = some (.name s) := by
    rw [component?, if_neg (not_or.2 ⟨hempty, hdot⟩), if_neg hup, String.ofList_toList]
  rw [components_eq_append hsegments, isAbsolute_of_not_mem hslash, opening, if_neg (by decide),
    if_neg hdot, hcomponent]
  rfl

namespace Destination

/-! ## What is read -/

/-- The names of a text : its segments without the empty ones and the dots. -/
def namesOf (text : String) : List String :=
  (Text.pieces '/' text).filter fun s => s ≠ "" ∧ s ≠ "."

/-- The text could lead out of the directory it is taken from. -/
def Escapes (text : String) : Prop :=
  (Path.mk text).isAbsolute = true ∨ ".." ∈ Text.pieces '/' text

variable {text : String} {names : List String} {cs : List Component}

theorem up_mem_pieces_iff : ".." ∈ Text.pieces '/' text ↔ ['.', '.'] ∈ (Path.mk text).segments := by
  simp only [Text.pieces, List.mem_map, Text.ofList_eq_iff]
  exact exists_eq_right

/-- A text escapes when a component of it leads upwards or to the root. -/
theorem escapes_iff_mem_components :
    Escapes text ↔ .root ∈ (Path.mk text).components ∨ .up ∈ (Path.mk text).components := by
  rw [Escapes, up_mem_pieces_iff, Path.root_mem_components_iff, Path.up_mem_components_iff]

theorem foldlM_descend_of_mem (h : .root ∈ cs ∨ .up ∈ cs) (names : List String) :
    cs.foldlM (descend text) names = .error (.escapes text) := by
  induction cs generalizing names with
  | nil => simp at h
  | cons c cs ih =>
    rw [List.foldlM_cons]
    cases c with
    | root => rfl
    | up => rfl
    | here => exact ih (by simpa using h) names
    | name s => exact ih (by simpa using h) (names ++ [s])

theorem foldlM_descend_names (more names : List String) :
    (more.map .name).foldlM (descend text) names = .ok (names ++ more) := by
  induction more generalizing names with
  | nil => simp
  | cons s more ih =>
    have hstep : descend text names (.name s) = .ok (names ++ [s]) := rfl
    rw [List.map_cons, List.foldlM_cons, hstep, ok_bind, ih, List.append_assoc,
      List.singleton_append]

/-- What stays inside has the names of the text for components, after a dot maybe. -/
theorem foldlM_descend_components (h : ¬Escapes text) :
    (Path.mk text).components.foldlM (descend text) [] = .ok (namesOf text) := by
  have hrelative : (Path.mk text).isAbsolute = false := by
    rw [← Bool.not_eq_true]
    exact fun habsolute => h (.inl habsolute)
  have hup : ['.', '.'] ∉ (Path.mk text).segments := fun hmem => h (.inr (up_mem_pieces_iff.2 hmem))
  have hnames : (Path.mk text).segments.filterMap Path.component? = (namesOf text).map .name :=
    Path.filterMap_component? hup
  obtain ⟨first, rest, hsegments⟩ :=
    List.exists_cons_of_ne_nil (Text.split_ne_nil (· == '/') text.toList)
  have hsegments : (Path.mk text).segments = first :: rest := hsegments
  rw [Path.components_eq_append hsegments, hrelative, Path.opening, if_neg (by decide)]
  by_cases hdot : first = ['.']
  · subst hdot
    rw [if_pos rfl, List.singleton_append, List.foldlM_cons]
    have hstep : descend text [] .here = .ok [] := rfl
    rw [hsegments, List.filterMap_cons_none (by decide)] at hnames
    rw [hstep, ok_bind, hnames, foldlM_descend_names, List.nil_append]
  · rw [if_neg hdot]
    have happend : (Path.component? first).toList ++ rest.filterMap Path.component? =
        (namesOf text).map .name := by
      rw [← hnames, hsegments, List.filterMap_cons]
      cases Path.component? first <;> rfl
    rw [happend, foldlM_descend_names, List.nil_append]

theorem check_of_escapes (h : Escapes text) : check text = .error (.escapes text) := by
  have hfold : (Path.mk text).components.foldlM (descend text) [] = .error (.escapes text) :=
    foldlM_descend_of_mem (escapes_iff_mem_components.1 h) []
  unfold check
  split
  · rename_i refusal hrefused
    exact congrArg Except.error (Except.error.inj (hrefused.symm.trans hfold))
  · rename_i hread
    exact absurd (hread.symm.trans hfold) nofun

theorem check_of_namesOf_nil (h : ¬Escapes text) (hnone : namesOf text = []) :
    check text = .error (.namesNoFile text) := by
  have hfold := foldlM_descend_components h
  unfold check
  split
  · rename_i hrefused
    exact absurd (hrefused.symm.trans hfold) nofun
  · rename_i names hread
    obtain rfl : names = namesOf text := Except.ok.inj (hread.symm.trans hfold)
    rw [dif_pos hnone]

/-- A text that stays inside and names something is read as its names. -/
theorem check_of_namesOf_ne_nil (h : ¬Escapes text) (hnames : namesOf text ≠ []) :
    ∃ d, check text = .ok d ∧ d.names = namesOf text := by
  have hfold := foldlM_descend_components h
  unfold check
  split
  · rename_i hrefused
    exact absurd (hrefused.symm.trans hfold) nofun
  · rename_i names hread
    obtain rfl : names = namesOf text := Except.ok.inj (hread.symm.trans hfold)
    rw [dif_neg hnames]
    exact ⟨_, rfl, rfl⟩

theorem exists_check_iff : (∃ d, check text = .ok d) ↔ ¬Escapes text ∧ namesOf text ≠ [] := by
  by_cases hescapes : Escapes text
  · simp [check_of_escapes hescapes, hescapes]
  · by_cases hnames : namesOf text = []
    · simp [check_of_namesOf_nil hescapes hnames, hnames]
    · obtain ⟨d, hd, -⟩ := check_of_namesOf_ne_nil hescapes hnames
      exact iff_of_true ⟨d, hd⟩ ⟨hescapes, hnames⟩

/-! ## Places of programs -/

/-- The segments of a text in the directory of programs are that directory and those of the text. -/
theorem pieces_program (s : String) :
    Text.pieces '/' ("bin/" ++ s) = "bin" :: Text.pieces '/' s := by
  have hsplit : Text.split (· == '/') ("bin/" ++ s).toList =
      ['b', 'i', 'n'] :: Text.split (· == '/') s.toList := by
    rw [String.toList_append]
    exact Text.split_append rfl ['b', 'i', 'n'] s.toList
  rw [Text.pieces, hsplit]
  rfl

theorem escapes_program_iff {s : String} : Escapes ("bin/" ++ s) ↔ ".." ∈ Text.pieces '/' s := by
  have hrelative : (Path.mk ("bin/" ++ s)).isAbsolute = false := by
    simp [Path.isAbsolute]
  simp [Escapes, hrelative, pieces_program]

/-- A text is a place below the directory of programs unless it has a segment of two dots. -/
theorem exists_check_program_iff {s : String} :
    (∃ d, check ("bin/" ++ s) = .ok d) ↔ ".." ∉ Text.pieces '/' s := by
  have hnames : namesOf ("bin/" ++ s) ≠ [] := by
    rw [namesOf, pieces_program]
    simp
  rw [exists_check_iff, escapes_program_iff, and_iff_left hnames]

/-! ## Below a prefix -/

theorem segmentsOf_text (dest : Destination) : Disk.segmentsOf dest.text = dest.names :=
  Disk.segmentsOf_joined dest.isName_of_mem

theorem up_not_mem (dest : Destination) : ".." ∉ dest.names :=
  fun h => (dest.isName_of_mem _ h).2.2.1 rfl

theorem isAbsolute_text (dest : Destination) : (Path.mk dest.text).isAbsolute = false := by
  obtain ⟨s, rest, hnames⟩ := List.exists_cons_of_ne_nil dest.names_ne_nil
  obtain ⟨hempty, -, -, hslash⟩ := dest.isName_of_mem s (by simp [hnames])
  obtain ⟨more, hmore⟩ : ∃ more, dest.text.toList = s.toList ++ more := by
    unfold text
    rw [hnames]
    cases rest with
    | nil => exact ⟨[], by simp [Text.join]⟩
    | cons s' rest =>
      exact ⟨'/' :: (Text.join "/" (s' :: rest)).toList, by simp [Text.join, String.toList_append]⟩
  have hrelative := Path.isAbsolute_of_not_mem hslash
  rwa [← Path.isAbsolute_of_prefix (p := ⟨s⟩) hempty (q := ⟨dest.text⟩) hmore] at hrelative

theorem segmentsOf_under (dest : Destination) (w base : Path) :
    Disk.segmentsOf (w.join (dest.under base).text).text =
      Disk.segmentsOf (w.join base.text).text ++ dest.names := by
  rw [under, Path.segmentsOf_join_join dest.isAbsolute_text, dest.segmentsOf_text]

end Destination

end Formulary
