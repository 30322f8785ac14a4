import Formulary.Host

/-!
# By which names a host is known

Two names are names of one system when they differ in case alone, or when both are names of macOS
(`Host.SameSystem`). A host knows itself by every name of its system, except when it was described
by one of the other names of macOS. This name is kept, while a name that is asked for is turned
into `macos`, so such a host goes by no name at all (`Host.known_by`), not even by the one that it
was described by (`Host.unknown_by_own_name`).
-/

namespace Formulary.Host

variable {a b : String}

/-! ## Names of systems -/

/-- The name is one of those that `macos` has besides. -/
def IsOtherName (name : String) : Prop := Text.lower name ∈ ["darwin", "osx", "mac"]

instance (name : String) : Decidable (IsOtherName name) := inferInstanceAs (Decidable (_ ∈ _))

/-- The name is one of macOS. -/
def IsMacos (name : String) : Prop := Text.lower name = "macos" ∨ IsOtherName name

/-- The names are names of one system. -/
def SameSystem (a b : String) : Prop := Text.lower a = Text.lower b ∨ IsMacos a ∧ IsMacos b

theorem isOtherName_iff : IsOtherName a ↔
    Text.lower a = "darwin" ∨ Text.lower a = "osx" ∨ Text.lower a = "mac" := by
  simp [IsOtherName]

theorem canonicalName_of_isOtherName (h : IsOtherName a) : canonicalName a = "macos" :=
  if_pos (isOtherName_iff.1 h)

theorem canonicalName_of_not_isOtherName (h : ¬IsOtherName a) : canonicalName a = Text.lower a :=
  if_neg fun hname => h (isOtherName_iff.2 hname)

theorem canonicalName_eq_macos_iff : canonicalName a = "macos" ↔ IsMacos a := by
  by_cases h : IsOtherName a
  · exact iff_of_true (canonicalName_of_isOtherName h) (.inr h)
  · rw [canonicalName_of_not_isOtherName h, IsMacos, or_iff_left h]

/-- Names of one system have one canonical name. -/
theorem canonicalName_eq_iff : canonicalName a = canonicalName b ↔ SameSystem a b := by
  constructor
  · intro h
    by_cases hmacos : IsMacos a
    · have hb : canonicalName b = "macos" := h.symm.trans (canonicalName_eq_macos_iff.2 hmacos)
      exact .inr ⟨hmacos, canonicalName_eq_macos_iff.1 hb⟩
    · have hmacos' : ¬IsMacos b := fun hb =>
        hmacos (canonicalName_eq_macos_iff.1 (h.trans (canonicalName_eq_macos_iff.2 hb)))
      rw [canonicalName_of_not_isOtherName fun ha => hmacos (.inr ha),
        canonicalName_of_not_isOtherName fun hb => hmacos' (.inr hb)] at h
      exact .inl h
  · rintro (hcase | ⟨ha, hb⟩)
    · unfold canonicalName
      rw [hcase]
    · rw [canonicalName_eq_macos_iff.2 ha, canonicalName_eq_macos_iff.2 hb]

/-- No canonical name is one of the other names of macOS. -/
theorem canonicalName_ne (h : IsOtherName a) (name : String) :
    canonicalName name ≠ Text.lower a := by
  intro heq
  by_cases hname : IsOtherName name
  · rw [canonicalName_of_isOtherName hname] at heq
    rw [IsOtherName, ← heq] at h
    exact absurd h (by decide)
  · rw [canonicalName_of_not_isOtherName hname] at heq
    rw [IsOtherName, ← heq] at h
    exact hname h

/-! ## Hosts -/

theorem isOs_iff {host : Host} (hos : host.os = Text.lower a) :
    host.isOs b = true ↔ ¬IsOtherName a ∧ SameSystem a b := by
  rw [isOs, beq_iff_eq, hos]
  by_cases h : IsOtherName a
  · exact iff_of_false (canonicalName_ne h b) fun hand => hand.1 h
  · rw [and_iff_right h, ← canonicalName_eq_iff, canonicalName_of_not_isOtherName h, eq_comm]

/-- With a version that can be read, a host is described by any name. It is then known by the names
of this system and no others, unless the name is one of the other names of macOS. By such a name it
is described as a host that goes by no name. -/
theorem known_by {version : String} {v : OsVersion} (hv : OsVersion.parse version = .ok v)
    (os : String) :
    ∃ host, describe os version = .ok host ∧ host.version = v ∧
      (∀ name, host.isOs name = true ↔ ¬IsOtherName os ∧ SameSystem os name) ∧
      (host.isOs os = true ↔ ¬IsOtherName os) := by
  refine ⟨⟨Text.lower os, v⟩, ?_, rfl, fun name => isOs_iff rfl, ?_⟩
  · rw [describe, hv]
    rfl
  · rw [isOs_iff rfl, and_iff_left (.inl rfl)]

/-- A host that is described as one of macOS by another name. -/
def darwin : Host := ⟨"darwin", ⟨"14.2"⟩⟩

theorem describe_darwin : describe "Darwin" "14.2" = .ok darwin := rfl

/-- A host is known by the name of its system in any case, and one of macOS by all names of it. -/
theorem known_by_macos :
    OsVersion.parse "14.2" = .ok ⟨"14.2"⟩ ∧
      ∃ host, describe "macOS" "14.2" = .ok host ∧ host.isOs "MacOS" = true ∧
        host.isOs "Darwin" = true ∧ host.isOs "linux" = false := by
  have hv : OsVersion.parse "14.2" = .ok ⟨"14.2"⟩ := rfl
  have hother : ¬IsOtherName "macOS" := by decide
  obtain ⟨host, hhost, -, hnames, -⟩ := known_by hv "macOS"
  refine ⟨hv, host, hhost, (hnames _).2 ⟨hother, .inl (by decide)⟩,
    (hnames _).2 ⟨hother, .inr ⟨.inl (by decide), .inr (by decide)⟩⟩, ?_⟩
  rw [Bool.eq_false_iff, ne_eq, hnames]
  rintro ⟨-, hcase | ⟨-, hlinux⟩⟩
  · exact absurd hcase (by decide)
  · exact hlinux.elim (fun h => absurd h (by decide)) (fun h => absurd h (by decide))

/-- A host that is described as `Darwin` is not known by this name. -/
theorem unknown_by_own_name :
    ¬∀ (os name version : String) (host : Host), describe os version = .ok host →
      (host.isOs name = true ↔ SameSystem os name) := by
  intro h
  have hknown := (h "Darwin" "Darwin" "14.2" darwin describe_darwin).2 (.inl rfl)
  exact absurd hknown (by decide)

end Formulary.Host
