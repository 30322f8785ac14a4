import Formulary.Path

/-!
# Destinations

Where an artifact goes, relative to the prefix. A destination is a list of names, none of
them empty, a dot or two dots, so it can only lead downwards.
-/

namespace Formulary

/-- The text names an entry of a directory. -/
def IsName (s : String) : Prop := s ≠ "" ∧ s ≠ "." ∧ s ≠ ".." ∧ '/' ∉ s.toList

instance (s : String) : Decidable (IsName s) := inferInstanceAs (Decidable (_ ∧ _ ∧ _ ∧ _))

/-- A place below a prefix. -/
structure Destination where
  names : List String
  names_ne_nil : names ≠ []
  isName_of_mem : ∀ s ∈ names, IsName s
deriving DecidableEq

namespace Destination

/-- Why a text is no destination. -/
inductive Refusal where
  /-- The text is absolute or has a segment of two dots. -/
  | escapes (text : String)
  /-- The text has no name in it. -/
  | namesNoFile (text : String)
deriving DecidableEq

/-- The text printed for a refusal. -/
def Refusal.message : Refusal → String
  | escapes text => s!"destination '{text}' escapes the installation prefix"
  | namesNoFile text => s!"destination '{text}' does not name a file"

/-- What a segment stands for as a name is a name. -/
theorem isName_of_component? {segment : List Char} {s : String} (hslash : '/' ∉ segment)
    (h : Path.component? segment = some (.name s)) : IsName s := by
  unfold Path.component? at h
  split at h
  · exact absurd h nofun
  · rename_i hnone
    split at h
    · exact absurd h nofun
    · rename_i hup
      obtain rfl : String.ofList segment = s := Component.name.inj (Option.some.inj h)
      have hchars (cs : List Char) (heq : String.ofList segment = String.ofList cs) :
          segment = cs := by
        rw [← String.toList_ofList (l := segment), heq, String.toList_ofList]
      exact ⟨fun h => hnone (.inl (hchars [] h)), fun h => hnone (.inr (hchars ['.'] h)),
        fun h => hup (hchars ['.', '.'] h), by rwa [String.toList_ofList]⟩

theorem isName_of_mem_components {p : Path} {s : String} (h : .name s ∈ p.components) :
    IsName s := by
  have hslash (segment : List Char) (hmem : segment ∈ p.segments) : '/' ∉ segment := fun hc =>
    absurd (Text.not_mem_of_mem_split hmem hc) (by decide)
  unfold Path.components at h
  cases hsegments : p.segments with
  | nil => simp [hsegments] at h
  | cons first rest =>
    have hbody (hmem : .name s ∈ rest.filterMap Path.component?) : IsName s := by
      obtain ⟨segment, hrest, hname⟩ := List.mem_filterMap.1 hmem
      exact isName_of_component? (hslash _ (hsegments ▸ List.mem_cons_of_mem _ hrest)) hname
    simp only [hsegments] at h
    split at h
    · exact hbody (by simpa using h)
    · split at h
      · exact hbody (by simpa using h)
      · split at h
        · rename_i c hfirst
          rcases List.mem_cons.1 h with rfl | hmem
          · exact isName_of_component? (hslash _ (hsegments ▸ List.mem_cons_self)) hfirst
          · exact hbody hmem
        · exact hbody h

/-- The names after one more component. A name leads downwards and a dot nowhere; nothing may lead
upwards or start at the root. -/
def descend (text : String) (names : List String) : Component → Except Refusal (List String)
  | .name s => .ok (names ++ [s])
  | .here => .ok names
  | .up | .root => .error (.escapes text)

theorem mem_of_foldlM_descend {text : String} {cs : List Component} {names found : List String}
    (h : cs.foldlM (descend text) names = .ok found) :
    ∀ s ∈ found, s ∈ names ∨ .name s ∈ cs := by
  induction cs generalizing names with
  | nil =>
    obtain rfl : names = found := Except.ok.inj h
    exact fun s hs => .inl hs
  | cons c cs ih =>
    rw [List.foldlM_cons] at h
    intro s hs
    cases c with
    | root => exact absurd h nofun
    | up => exact absurd h nofun
    | here => exact (ih h s hs).imp_right (List.mem_cons_of_mem _)
    | name t =>
      rcases ih h s hs with hmem | hmem
      · rcases List.mem_append.1 hmem with hnames | hlast
        · exact .inl hnames
        · exact .inr (List.mem_singleton.1 hlast ▸ List.mem_cons_self)
      · exact .inr (List.mem_cons_of_mem _ hmem)

/-- Read a destination, component by component. -/
def check (text : String) : Except Refusal Destination :=
  match h : (Path.mk text).components.foldlM (descend text) [] with
  | .error refusal => .error refusal
  | .ok names =>
    if hn : names = [] then .error (.namesNoFile text)
    else .ok {
      names
      names_ne_nil := hn
      isName_of_mem := fun s hs => isName_of_mem_components
        ((mem_of_foldlM_descend h s hs).resolve_left List.not_mem_nil) }

/-- The destination as it is written in its normal form. -/
def text (d : Destination) : String := Text.join "/" d.names

/-- The place below a prefix. -/
def under (d : Destination) (base : Path) : Path := base.join d.text

end Destination

end Formulary
