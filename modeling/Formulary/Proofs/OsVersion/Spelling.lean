import Formulary.Proofs.OsVersion
import Mathlib.Data.List.Forall2

/-!
# How versions are written

A version is written with one to three numbers, dots between them, and anything behind the last one
that is neither a digit nor has a dot in it (`OsVersion.Spelling`). All of these are read, and they
compare as their numbers do, with zeros for those that are missing (`OsVersion.orders_as_numbers`);
how many zeros stand in front of a number does not show. A release name is written in any case, and
with spaces, dashes or underscores (`OsVersion.Writes`).
-/

namespace Formulary

namespace OsVersion

/-! ## Spellings -/

/-- A number of a version as it is written : in decimal, behind any number of zeros. -/
structure Numeral where
  zeros : Nat
  value : Nat
  value_lt : value < 2 ^ 64

namespace Numeral

/-- The number as it is written. -/
def text (n : Numeral) : String :=
  String.ofList (List.replicate n.zeros '0') ++ Text.decimal n.value

end Numeral

/-- Numbers with dots between them. -/
def dotted (ns : List Numeral) : String := Text.join "." (ns.map Numeral.text)

/-- A version written with numbers, in its parts. -/
structure Spelling where
  lead : String
  numerals : List Numeral
  /-- Nothing, or what does not count. -/
  suffix : String
  trail : String
  lead_blank : Text.isBlankText lead = true
  numerals_ne_nil : numerals ≠ []
  length_numerals_le : numerals.length ≤ 3
  suffix_opens : ∀ c ∈ suffix.toList.head?, Text.isDigit c = false
  suffix_undotted : '.' ∉ suffix.toList
  trail_blank : Text.isBlankText trail = true

namespace Spelling

/-- The version as it is written. -/
def text (s : Spelling) : String := s.lead ++ dotted s.numerals ++ s.suffix ++ s.trail

/-- The three numbers, with zeros for those that are missing. -/
def padded (s : Spelling) : List Nat := (s.numerals.map Numeral.value).rightpad 3 0

end Spelling

/-! ## Numbers -/

namespace Numeral

variable (n : Numeral)

theorem toList_text :
    n.text.toList = List.replicate n.zeros '0' ++ Nat.toDigits 10 n.value := by
  simp [text, Text.decimal]

theorem text_ne_nil : n.text.toList ≠ [] := by
  rw [toList_text]
  exact List.append_ne_nil_of_right_ne_nil _ Nat.toDigits_ne_nil

theorem isDigit_of_mem_text {c : Char} (h : c ∈ n.text.toList) : Text.isDigit c = true := by
  rw [toList_text, List.mem_append] at h
  rcases h with h | h
  · rw [List.eq_of_mem_replicate h]
    rfl
  · exact Text.isDigit_of_mem_toDigits h

theorem undotted : ∀ c ∈ n.text.toList, (c == '.') = false := fun c hc => by
  rw [beq_eq_false_iff_ne]
  rintro rfl
  exact absurd (n.isDigit_of_mem_text hc) (by decide)

/-- A number is read off the digits that a component starts with. -/
theorem component_append {rest : List Char} (hrest : ∀ c ∈ rest.head?, Text.isDigit c = false) :
    component (n.text.toList ++ rest) = n.value := by
  have hvalue : Nat.ofDigitChars 10 n.text.toList 0 = n.value := by
    rw [toList_text, Nat.ofDigitChars_append, Nat.ofDigitChars_replicate_zero, Nat.mul_zero,
      Nat.ofDigitChars_ten_toDigits]
  unfold component
  rw [List.takeWhile_append_of_pos fun c => n.isDigit_of_mem_text,
    Text.takeWhile_of_head hrest, List.append_nil,
    Text.number?_of_forall n.text_ne_nil fun c => n.isDigit_of_mem_text, hvalue]
  exact if_pos n.value_lt

end Numeral

section

variable (n m : Numeral) (ns : List Numeral)

theorem dotted_singleton : dotted [n] = n.text := rfl

theorem toList_dotted_cons : (dotted (n :: m :: ns)).toList =
    n.text.toList ++ '.' :: (dotted (m :: ns)).toList := by
  simp [dotted, Text.join]

theorem exists_toList_dotted : ∃ more, (dotted (n :: ns)).toList = n.text.toList ++ more := by
  cases ns with
  | nil => exact ⟨[], (List.append_nil _).symm⟩
  | cons m ns => exact ⟨_, toList_dotted_cons n m ns⟩

theorem isBlank_of_mem_dotted {c : Char} (h : c ∈ (dotted ns).toList) : Text.isBlank c = false := by
  induction ns with
  | nil => exact absurd h List.not_mem_nil
  | cons n ns ih =>
    cases ns with
    | nil => exact Text.isBlank_of_isDigit (n.isDigit_of_mem_text h)
    | cons m ns =>
      rw [toList_dotted_cons, List.mem_append, List.mem_cons] at h
      rcases h with h | rfl | h
      · exact Text.isBlank_of_isDigit (n.isDigit_of_mem_text h)
      · rfl
      · exact ih h

/-- The components of numbers with dots between them are the numbers. By induction on the numbers
behind the first. -/
theorem map_component_dotted {rest : List Char}
    (hrest : ∀ c ∈ rest.head?, Text.isDigit c = false) (hdot : '.' ∉ rest) :
    (Text.split (· == '.') ((dotted (n :: ns)).toList ++ rest)).map component =
      (n :: ns).map Numeral.value := by
  induction ns generalizing n with
  | nil =>
    have hundotted : ∀ c ∈ n.text.toList ++ rest, (c == '.') = false := fun c hc =>
      (List.mem_append.1 hc).elim (n.undotted c) fun hc =>
        beq_false_of_ne fun h => hdot (h ▸ hc)
    rw [dotted_singleton, Text.split_of_forall hundotted]
    exact congrArg (· :: []) (n.component_append hrest)
  | cons m ns ih =>
    have hone : component n.text.toList = n.value := by
      have hnone : ∀ c ∈ ([] : List Char).head?, Text.isDigit c = false := nofun
      simpa using n.component_append hnone
    rw [toList_dotted_cons, List.append_assoc, List.cons_append,
      @Text.split_append (· == '.') '.' rfl, Text.split_of_forall n.undotted, List.map_append,
      ih m]
    exact congrArg (· :: (m :: ns).map Numeral.value) hone

end

theorem getD_eq_rightpad {l : List Nat} (h : l.length ≤ 3) :
    [l.getD 0 0, l.getD 1 0, l.getD 2 0] = l.rightpad 3 0 := by
  match l with
  | [] | [_] | [_, _] | [_, _, _] => rfl
  | _ :: _ :: _ :: _ :: _ =>
    simp only [List.length_cons] at h
    omega

namespace Spelling

variable (s : Spelling)

/-- What is left of the suffix when the text is trimmed. -/
def tail : List Char := (s.suffix.toList ++ s.trail.toList).rdropWhile Text.isBlank

theorem tail_prefix : s.tail <+: s.suffix.toList ++ s.trail.toList := List.rdropWhile_prefix _ _

theorem isDigit_of_head?_tail {c : Char} (h : c ∈ s.tail.head?) : Text.isDigit c = false := by
  obtain ⟨rest, hrest⟩ := List.head?_eq_some_iff.1 h
  obtain ⟨more, hmore⟩ := s.tail_prefix
  rw [hrest] at hmore
  cases hsuffix : s.suffix.toList with
  | nil =>
    rw [hsuffix, List.nil_append] at hmore
    have hblank := List.all_eq_true.1 s.trail_blank c (hmore ▸ List.mem_cons_self)
    by_contra hdigit
    rw [Bool.not_eq_false] at hdigit
    exact absurd (hblank.symm.trans (Text.isBlank_of_isDigit hdigit)) nofun
  | cons d suffix =>
    rw [hsuffix] at hmore
    obtain rfl : c = d := (List.cons.inj hmore).1
    exact s.suffix_opens c (by rw [hsuffix]; rfl)

theorem dot_not_mem_tail : '.' ∉ s.tail := fun h => by
  rcases List.mem_append.1 (s.tail_prefix.subset h) with h | h
  · exact s.suffix_undotted h
  · exact absurd (List.all_eq_true.1 s.trail_blank '.' h) (by decide)

theorem trim_text :
    Text.trim s.text = String.ofList ((dotted s.numerals).toList ++ s.tail) := by
  obtain ⟨n, ns, hnumerals⟩ := List.exists_cons_of_ne_nil s.numerals_ne_nil
  have hne : (dotted s.numerals).toList ≠ [] := by
    obtain ⟨more, hmore⟩ := exists_toList_dotted n ns
    rw [hnumerals, hmore]
    exact List.append_ne_nil_of_left_ne_nil n.text_ne_nil more
  have htext : s.text.toList =
      s.lead.toList ++ (dotted s.numerals).toList ++ (s.suffix.toList ++ s.trail.toList) := by
    simp [text]
  unfold Text.trim
  rw [htext, Text.trimChars_append (List.all_eq_true.1 s.lead_blank) hne
    (fun c hc => isBlank_of_mem_dotted _ (List.mem_of_mem_head? hc))
    (fun c hc => isBlank_of_mem_dotted _ (List.mem_of_mem_getLast? hc))]
  rfl

theorem isNumeric_trim_text : IsNumeric (Text.trim s.text) := by
  obtain ⟨n, ns, hnumerals⟩ := List.exists_cons_of_ne_nil s.numerals_ne_nil
  obtain ⟨more, hmore⟩ := exists_toList_dotted n ns
  obtain ⟨d, ds, hd⟩ := List.exists_cons_of_ne_nil n.text_ne_nil
  refine isNumeric_iff.2 ⟨d, ds ++ more ++ s.tail, ?_, n.isDigit_of_mem_text (by simp [hd])⟩
  rw [s.trim_text, String.toList_ofList, hnumerals, hmore, hd]
  simp

/-- A version written with numbers is read, and has the numbers that are written. -/
theorem exists_parse_text : ∃ v, parse s.text = .ok v ∧ v.numbers = s.padded := by
  refine ⟨_, parse_of_isNumeric s.isNumeric_trim_text, ?_⟩
  obtain ⟨n, ns, hnumerals⟩ := List.exists_cons_of_ne_nil s.numerals_ne_nil
  have hparts : (Text.split (· == '.') (Text.trim s.text).toList).map component =
      s.numerals.map Numeral.value := by
    rw [s.trim_text, String.toList_ofList, hnumerals]
    exact map_component_dotted n ns (fun c => s.isDigit_of_head?_tail) s.dot_not_mem_tail
  unfold numbers components
  dsimp only
  rw [hparts]
  exact getD_eq_rightpad (by simpa using s.length_numerals_le)

end Spelling

/-! ## Release names -/

/-- A character of a release name as it may be written : a letter in either case, and what stands
between two words as an underscore, a space or a dash. -/
def WritesChar (c d : Char) : Prop := if c = '_' then d ∈ ['_', ' ', '-'] else d.toLower = c

instance (c d : Char) : Decidable (WritesChar c d) :=
  inferInstanceAs (Decidable (if c = '_' then d ∈ ['_', ' ', '-'] else d.toLower = c))

/-- The text writes a release name. -/
def Writes (release written : String) : Prop :=
  List.Forall₂ WritesChar release.toList written.toList

/-- What release names are made of. -/
def IsNameChar (c : Char) : Prop := c = '_' ∨ c.isLower = true

instance (c : Char) : Decidable (IsNameChar c) := inferInstanceAs (Decidable (_ ∨ _))

theorem ascii_of_isLower_toLower {d : Char} (h : d.toLower.isLower = true) : d.toNat < 128 := by
  by_contra hnot
  have hsame : d.toLower = d := dif_neg fun hupper => by
    have hZ : d.toNat ≤ 90 := hupper.2
    omega
  rw [hsame] at h
  have hz : d.toNat ≤ 122 :=
    UInt32.le_iff_toNat_le.1 (of_decide_eq_true (Bool.and_eq_true_iff.1 h).2)
  omega

/-- A character that stands for one of a release name is ASCII, becomes that one in the key, and is
blank only where there may be a space. -/
theorem WritesChar.spec {c d : Char} (hc : IsNameChar c) (h : WritesChar c d) : d.toNat < 128 ∧
    (if d.toLower = ' ' ∨ d.toLower = '-' then '_' else d.toLower) = c ∧
    (c ≠ '_' → Text.isBlank d = false) := by
  unfold WritesChar at h
  split at h
  · rename_i hgap
    subst hgap
    rw [List.mem_cons, List.mem_pair] at h
    rcases h with rfl | rfl | rfl <;>
      exact ⟨by decide, by decide, fun hne => absurd rfl hne⟩
  · rename_i hletter
    subst h
    have hlower := hc.resolve_left hletter
    have hascii := ascii_of_isLower_toLower hlower
    have hall : ∀ n < 128, (Char.ofNat n).toLower.isLower = true → (Char.ofNat n).toLower ≠ ' ' ∧
        (Char.ofNat n).toLower ≠ '-' ∧ Text.isBlank (Char.ofNat n) = false := by decide
    have hfacts := hall d.toNat hascii
    rw [Char.ofNat_toNat] at hfacts
    obtain ⟨hspace, hdash, hblank⟩ := hfacts hlower
    exact ⟨hascii, if_neg (not_or.2 ⟨hspace, hdash⟩), fun _ => hblank⟩

/-- The key of a name that is written in some way is the name. By induction along the two. -/
theorem map_lowerFrom_of_writes {cs ds : List Char} (h : List.Forall₂ WritesChar cs ds)
    (hcs : ∀ c ∈ cs, IsNameChar c) (passed : List Char) :
    (Text.lowerFrom passed ds).map (fun d => if d = ' ' ∨ d = '-' then '_' else d) = cs := by
  induction h generalizing passed with
  | nil => rfl
  | @cons c d cs ds hone _ ih =>
    obtain ⟨hascii, hkey, -⟩ := hone.spec (hcs c List.mem_cons_self)
    rw [Text.lowerFrom_of_ascii hascii, List.map_cons, hkey,
      ih fun c' hc' => hcs c' (List.mem_cons_of_mem c hc')]

/-- The characters of a release name, with no gap at either end. -/
structure IsReleaseName (s : String) : Prop where
  isNameChar : ∀ c ∈ s.toList, IsNameChar c
  ne_nil : s.toList ≠ []
  head : s.toList.head? ≠ some '_'
  last : s.toList.getLast? ≠ some '_'

theorem isReleaseName_of_mem {release : String × String} (h : release ∈ macosReleases) :
    IsReleaseName release.1 := by
  have hall : ∀ release ∈ macosReleases,
      release.1.toList.all (fun c => decide (IsNameChar c)) = true ∧ release.1.toList ≠ [] ∧
        release.1.toList.head? ≠ some '_' ∧ release.1.toList.getLast? ≠ some '_' := by decide
  obtain ⟨hchars, hne, hhead, hlast⟩ := hall release h
  exact ⟨fun c hc => of_decide_eq_true (List.all_eq_true.1 hchars c hc), hne, hhead, hlast⟩

theorem isBlank_of_mem_head? {cs ds : List Char} (h : List.Forall₂ WritesChar cs ds)
    (hcs : ∀ c ∈ cs, IsNameChar c) (hgap : cs.head? ≠ some '_') {d : Char} (hd : d ∈ ds.head?) :
    Text.isBlank d = false := by
  cases h with
  | nil => exact absurd hd nofun
  | @cons c d' cs ds hone _ =>
    obtain rfl : d' = d := Option.some.inj hd
    exact (hone.spec (hcs c List.mem_cons_self)).2.2 fun h => hgap (congrArg some h)

namespace Writes

variable {release written : String} (hname : IsReleaseName release) (h : Writes release written)

include hname h

theorem trim_append {lead trail : String} (hlead : Text.isBlankText lead = true)
    (htrail : Text.isBlankText trail = true) :
    Text.trim (lead ++ written ++ trail) = written := by
  have hne : written.toList ≠ [] := fun hnil => by
    unfold Writes at h
    rw [hnil, List.forall₂_nil_right_iff] at h
    exact hname.ne_nil h
  have hlast : ∀ d ∈ written.toList.getLast?, Text.isBlank d = false := fun d hd => by
    rw [List.getLast?_eq_head?_reverse] at hd
    refine isBlank_of_mem_head? (List.rel_reverse h)
      (fun c hc => hname.isNameChar c (List.mem_reverse.1 hc)) ?_ hd
    rw [← List.getLast?_eq_head?_reverse]
    exact hname.last
  have hend : trail.toList.rdropWhile Text.isBlank = [] :=
    List.rdropWhile_eq_nil_iff.2 (List.all_eq_true.1 htrail)
  unfold Text.trim
  rw [String.toList_append, String.toList_append,
    Text.trimChars_append (List.all_eq_true.1 hlead) hne
      (fun d => isBlank_of_mem_head? h hname.isNameChar hname.head) hlast,
    hend, List.append_nil, String.ofList_toList]

theorem releaseKey_eq : releaseKey written = release := by
  have htrim : Text.trim written = written := by
    simpa using @trim_append _ _ hname h "" "" rfl rfl
  unfold releaseKey Text.lower
  rw [htrim, String.toList_ofList, map_lowerFrom_of_writes h hname.isNameChar,
    String.ofList_toList]

end Writes

/-- A release name is read as its number. -/
theorem parse_of_writes {release : String × String} (hrelease : release ∈ macosReleases)
    {lead written trail : String} (hlead : Text.isBlankText lead = true)
    (h : Writes release.1 written) (htrail : Text.isBlankText trail = true) :
    parse (lead ++ written ++ trail) = .ok ⟨release.2⟩ := by
  have hall : ∀ release ∈ macosReleases,
      macosReleases.lookup release.1 = some release.2 ∧ IsNumeric release.2 := by decide
  obtain ⟨hlookup, hnumeric⟩ := hall release hrelease
  have hname := isReleaseName_of_mem hrelease
  rw [parse_eq_ok_iff, h.trim_append hname hlead htrail]
  unfold macosRelease?
  rw [h.releaseKey_eq hname, hlookup]
  exact ⟨rfl, hnumeric⟩

/-! ## What is read, and how it compares -/

/-- Versions that are written with numbers are read, and compare as the lists of their numbers do,
with zeros for those that are missing. What is displayed of a version is read as that version. A
release name is read as the version of its number. -/
theorem orders_as_numbers :
    (∀ s t : Spelling, ∃ v w, parse s.text = .ok v ∧ parse t.text = .ok w ∧
      (v.compare w = .lt ↔ s.padded < t.padded) ∧ (v.compare w = .gt ↔ t.padded < s.padded) ∧
      (v.same w = true ↔ s.padded = t.padded) ∧ (v.satisfies w = true ↔ t.padded ≤ s.padded)) ∧
    (∀ text v, parse text = .ok v →
      ∃ v', parse v.display = .ok v' ∧ v'.raw = v.raw ∧ v'.same v = true) ∧
    ∀ release ∈ macosReleases, ∀ lead written trail, Text.isBlankText lead = true →
      Writes release.1 written → Text.isBlankText trail = true →
        parse (lead ++ written ++ trail) = parse release.2 ∧
          parse release.2 = .ok ⟨release.2⟩ := by
  refine ⟨fun s t => ?_, fun text v h => ?_, ?_⟩
  · obtain ⟨v, hv, hs⟩ := s.exists_parse_text
    obtain ⟨w, hw, ht⟩ := t.exists_parse_text
    rw [← hs, ← ht]
    exact ⟨v, w, hv, hw, compare_eq_lt_iff, compare_eq_gt_iff, same_iff, satisfies_iff⟩
  · exact ⟨v, parse_display h, rfl, same_iff.2 rfl⟩
  · intro release hrelease lead written trail hlead h htrail
    have hall : ∀ release ∈ macosReleases, parse release.2 = .ok ⟨release.2⟩ := by decide
    rw [parse_of_writes hrelease hlead h htrail]
    exact ⟨(hall release hrelease).symm, hall release hrelease⟩

namespace Spelling

/-- A version of a kernel. -/
def kernel : Spelling where
  lead := " "
  numerals := [⟨1, 5, by decide⟩, ⟨0, 15, by decide⟩, ⟨0, 0, by decide⟩]
  suffix := "-91-generic"
  trail := ""
  lead_blank := rfl
  numerals_ne_nil := nofun
  length_numerals_le := by decide
  suffix_opens := fun c hc => by
    obtain rfl : '-' = c := Option.some.inj hc
    rfl
  suffix_undotted := by decide
  trail_blank := rfl

/-- The same version with what counts alone. -/
def short : Spelling where
  lead := ""
  numerals := [⟨0, 5, by decide⟩, ⟨0, 15, by decide⟩]
  suffix := ""
  trail := ""
  lead_blank := rfl
  numerals_ne_nil := nofun
  length_numerals_le := by decide
  suffix_opens := nofun
  suffix_undotted := nofun
  trail_blank := rfl

end Spelling

theorem orders_as_numbers_kernel :
    Spelling.kernel.text = " 05.15.0-91-generic" ∧ Spelling.short.text = "5.15" ∧
      (∃ v w, parse Spelling.kernel.text = .ok v ∧ parse Spelling.short.text = .ok w ∧
        v.same w = true) ∧
      parse "22.04" = .ok ⟨"22.04"⟩ ∧ (∃ v, parse (display ⟨"22.04"⟩) = .ok v ∧ v.raw = "22.04") ∧
      ("big_sur", "11") ∈ macosReleases ∧ Text.isBlankText " " = true ∧
      Writes "big_sur" "Big-Sur" ∧ Text.isBlankText "" = true ∧
      parse (" " ++ "Big-Sur" ++ "") = parse "11" := by
  obtain ⟨hnumbers, hdisplay, hnames⟩ := orders_as_numbers
  obtain ⟨v, w, hv, hw, -, -, hsame, -⟩ := hnumbers .kernel .short
  have hread : parse "22.04" = .ok ⟨"22.04"⟩ := by decide
  obtain ⟨v', hv', hraw, -⟩ := hdisplay _ _ hread
  have hrelease : ("big_sur", "11") ∈ macosReleases := by decide
  have hwrites : Writes "big_sur" "Big-Sur" := by
    unfold Writes
    decide
  exact ⟨by decide, by decide, ⟨v, w, hv, hw, hsame.2 (by decide)⟩, hread, ⟨v', hv', hraw⟩,
    hrelease, rfl, hwrites, rfl, (hnames _ hrelease " " _ "" rfl hwrites rfl).1⟩

end OsVersion

end Formulary
