import Formulary.Proofs.Destination
import Formulary.Proofs.Path.Below
import Formulary.Proofs.Validation

/-!
# How destinations are written

`Destination.reads_places` says of the segments of a text when it is read as a destination and as
what, and that what is read is read again as itself (`Destination.check_text`) and lies below any
prefix (`Destination.isBelow_under`). The rule for working directories draws the same line
(`Destination.staysInside_iff_not_escapes`).
-/

namespace Formulary

namespace Destination

variable {text : String}

/-! ## What is read -/

theorem escapes_iff :
    Escapes text ↔ text.toList.head? = some '/' ∨ ".." ∈ Text.pieces '/' text :=
  or_congr_left Path.isAbsolute_iff

theorem eq_of_names {d e : Destination} (h : d.names = e.names) : d = e := by
  cases d
  cases e
  cases h
  rfl

theorem check_eq_ok_iff {d : Destination} :
    check text = .ok d ↔ ¬Escapes text ∧ namesOf text = d.names := by
  constructor
  · intro h
    obtain ⟨hstays, hnames⟩ := exists_check_iff.1 ⟨d, h⟩
    obtain ⟨e, he, hnamed⟩ := check_of_namesOf_ne_nil hstays hnames
    obtain rfl : e = d := Except.ok.inj (he.symm.trans h)
    exact ⟨hstays, hnamed.symm⟩
  · rintro ⟨hstays, hnames⟩
    obtain ⟨e, he, hnamed⟩ := check_of_namesOf_ne_nil hstays (hnames ▸ d.names_ne_nil)
    rw [he, eq_of_names (hnamed.trans hnames)]

theorem check_eq_namesNoFile_iff :
    check text = .error (.namesNoFile text) ↔ ¬Escapes text ∧ namesOf text = [] := by
  by_cases hescapes : Escapes text
  · simp [check_of_escapes hescapes, hescapes]
  · by_cases hnames : namesOf text = []
    · simp [check_of_namesOf_nil hescapes hnames, hescapes, hnames]
    · obtain ⟨d, hd, -⟩ := check_of_namesOf_ne_nil hescapes hnames
      simp [hd, hnames]

theorem namesOf_ne_nil_iff :
    namesOf text ≠ [] ↔ ∃ s ∈ Text.pieces '/' text, s ≠ "" ∧ s ≠ "." := by
  rw [namesOf, ne_eq, List.filter_eq_nil_iff]
  simp only [decide_eq_true_eq, not_forall, not_not, exists_prop]

/-- A text that does not escape names a place, or none at all. -/
theorem not_escapes_iff : ¬Escapes text ↔
    (∃ d, check text = .ok d) ∨ check text = .error (.namesNoFile text) := by
  rw [exists_check_iff, check_eq_namesNoFile_iff, ← and_or_left, and_iff_left (ne_or_eq _ _)]

/-! ## What is written -/

variable (d : Destination)

theorem namesOf_text : namesOf d.text = d.names := d.segmentsOf_text

theorem not_escapes_text : ¬Escapes d.text := by
  rintro (habsolute | hup)
  · exact absurd (habsolute.symm.trans d.isAbsolute_text) nofun
  · exact d.up_not_mem (d.namesOf_text ▸ List.mem_filter.2 ⟨hup, by decide⟩)

/-- The normal form of a destination is read as that destination. -/
theorem check_text : check d.text = .ok d :=
  check_eq_ok_iff.2 ⟨d.not_escapes_text, d.namesOf_text⟩

/-- The names of a destination lead on from any prefix. -/
theorem place_under (base : Path) : (d.under base).place = base.place ++ d.names.map .name := by
  have hnames := d.segmentsOf_text
  have hplace := Path.place_join_of_segments d.isAbsolute_text (hnames ▸ d.up_not_mem) base
  rwa [hnames] at hplace

theorem isBelow_under (base : Path) : (d.under base).IsBelow base :=
  ⟨d.names, d.names_ne_nil, d.place_under base⟩

/-! ## Working directories -/

/-- Components that do not lead out are those of a text that does not escape. -/
theorem staysInside_iff_not_escapes : Formula.staysInside text = true ↔ ¬Escapes text := by
  rw [Formula.staysInside_iff, escapes_iff_mem_components, not_or]
  exact ⟨fun h => ⟨fun hroot => (h _ hroot).1 rfl, fun hup => (h _ hup).2 rfl⟩,
    fun h c hc => ⟨fun hroot => h.1 (hroot ▸ hc), fun hup => h.2 (hup ▸ hc)⟩⟩

theorem staysInside_iff : Formula.staysInside text = true ↔
    (∃ d, check text = .ok d) ∨ check text = .error (.namesNoFile text) :=
  staysInside_iff_not_escapes.trans not_escapes_iff

end Destination

namespace Formula

/-- The formula, to be built in a directory of its source. -/
def builtIn (f : Formula) (dir : String) : Formula :=
  { f with build := { f.build with workdir := some dir } }

/-- Of a working directory, validation asks only that it stays inside. -/
theorem usable_builtIn_iff {f : Formula} (hnone : f.build.workdir = none) (dir : String) :
    (f.builtIn dir).Usable ↔ f.Usable ∧ staysInside dir = true := by
  constructor
  · intro h
    refine ⟨⟨h.name, h.version, h.checksum, h.command, h.output, ?_, h.vars, h.flags, h.stages,
      h.conditions, h.destinations, h.test⟩, h.workdir dir rfl⟩
    rw [hnone]
    nofun
  · rintro ⟨h, hdir⟩
    refine ⟨h.name, h.version, h.checksum, h.command, h.output, ?_, h.vars, h.flags, h.stages,
      h.conditions, h.destinations, h.test⟩
    intro other hother
    obtain rfl : dir = other := Option.some.inj hother
    exact hdir

end Formula

namespace Destination

/-- A text is a destination exactly when it does not start with a slash, none of its segments is two
dots and one of them is a name. The destination is then written by these names with a slash between
each two, which is a relative path, is read as the same destination, and leads to a place below any
prefix. As a working directory, a formula may have the same texts, and those that name nothing. -/
theorem reads_places (text : String) :
    ((∃ d, check text = .ok d) ↔ text.toList.head? ≠ some '/' ∧ ".." ∉ Text.pieces '/' text ∧
      ∃ s ∈ Text.pieces '/' text, s ≠ "" ∧ s ≠ ".") ∧
    (∀ d, check text = .ok d →
      d.text = Text.join "/" ((Text.pieces '/' text).filter fun s => s ≠ "" ∧ s ≠ ".") ∧
      (Path.mk d.text).isAbsolute = false ∧ check d.text = .ok d ∧
      ∀ base, (d.under base).IsBelow base) ∧
    (Formula.staysInside text = true ↔
      (∃ d, check text = .ok d) ∨ check text = .error (.namesNoFile text)) ∧
    ∀ f : Formula, f.build.workdir = none →
      ((∃ warnings, (f.builtIn text).validate = .ok warnings) ↔
        (∃ warnings, f.validate = .ok warnings) ∧
          ((∃ d, check text = .ok d) ∨ check text = .error (.namesNoFile text))) := by
  refine ⟨?_, fun d hd => ⟨?_, d.isAbsolute_text, d.check_text, d.isBelow_under⟩, staysInside_iff,
    fun f hnone => ?_⟩
  · rw [exists_check_iff, escapes_iff, not_or, and_assoc, namesOf_ne_nil_iff]
  · exact congrArg (Text.join "/") (check_eq_ok_iff.1 hd).2.symm
  · rw [Formula.exists_validate_iff, Formula.exists_validate_iff,
      Formula.usable_builtIn_iff hnone, staysInside_iff]

/-- Dots and doubled slashes go, dots in names stay, and a formula is built there as well. -/
theorem reads_places_dotted :
    let text := "./share//.config/./a..b/"
    let f : Formula := {
      identity := { name := "hello", version := some "1.0" }
      source := {
        url := "https://example.org/hello-1.0.tar.gz"
        checksum := "sha256:" ++ String.ofList (List.replicate 64 'a') }
      build := { command := ["make"], output := "hello" } }
    (∃ d, check text = .ok d ∧ d.text = "share/.config/a..b" ∧
      ∀ base, (d.under base).IsBelow base) ∧
      f.build.workdir = none ∧ ∃ warnings, (f.builtIn text).validate = .ok warnings := by
  intro text f
  obtain ⟨hread, hwritten, -, hbuilt⟩ := reads_places text
  obtain ⟨d, hd⟩ := hread.2 ⟨by decide, by decide, "share", by decide⟩
  obtain ⟨htext, -, -, hbelow⟩ := hwritten d hd
  have hvalid : f.validate = .ok ["No install artifacts declared", "Missing formula description",
      "Missing formula license", "Missing formula homepage", "No test procedure declared"] := by
    decide +kernel
  exact ⟨⟨d, hd, htext.trans (by decide), hbelow⟩, rfl,
    (hbuilt f rfl).2 ⟨⟨_, hvalid⟩, .inl ⟨d, hd⟩⟩⟩

end Destination

end Formulary
