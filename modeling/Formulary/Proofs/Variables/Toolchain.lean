import Formulary.Proofs.Text.Words
import Formulary.Variables

/-!
# Versions in banners

The banner of a tool has a version when its first line that is not blank has a digit, and then the
version is a word of this line : the leftmost one like `go1.22`, else the leftmost one that starts
with a digit, else the leftmost one with a digit in it (`Variables.Names`). No later line of the
banner changes it (`Variables.toolchainVersion?_names`).
-/

namespace Formulary.Variables

open Text

variable {line token : List Char}

/-! ## Tokens with digits -/

/-- The token is `go` with a digit behind it, and whatever follows. -/
def IsMarked (token : List Char) : Prop :=
  ∃ d rest, token = 'g' :: 'o' :: d :: rest ∧ isDigit d = true

/-- The token starts with a digit. -/
def IsNumbered (token : List Char) : Prop := ∃ d rest, token = d :: rest ∧ isDigit d = true

/-- The token has a digit. -/
def HasDigit (token : List Char) : Prop := ∃ d ∈ token, isDigit d = true

theorem startsWithDigit_iff : startsWithDigit token = true ↔ IsNumbered token := by
  cases token with
  | nil => simp [startsWithDigit, IsNumbered]
  | cons d rest => simp [startsWithDigit, IsNumbered]

theorem isGoVersion_iff : isGoVersion token = true ↔ IsMarked token := by
  constructor
  · intro h
    unfold isGoVersion at h
    split at h
    next rest =>
      obtain ⟨d, rest, rfl, hd⟩ := startsWithDigit_iff.1 h
      exact ⟨d, rest, rfl, hd⟩
    next => exact absurd h nofun
  · rintro ⟨d, rest, rfl, hd⟩
    exact hd

theorem any_isDigit_iff : token.any isDigit = true ↔ HasDigit token := List.any_eq_true

theorem IsMarked.hasDigit (h : IsMarked token) : HasDigit token := by
  obtain ⟨d, rest, rfl, hd⟩ := h
  exact ⟨d, by simp, hd⟩

theorem IsNumbered.hasDigit (h : IsNumbered token) : HasDigit token := by
  obtain ⟨d, rest, rfl, hd⟩ := h
  exact ⟨d, List.mem_cons_self, hd⟩

/-! ## The version that a line names -/

/-- The version that a line names. -/
inductive Names (line : List Char) : List Char → Prop
  | marked {t : List Char} : FirstToken IsMarked line t → Names line t
  | numbered {t : List Char} : (∀ s, HasToken line s → ¬IsMarked s) →
      FirstToken IsNumbered line t → Names line t
  | other {t : List Char} : (∀ s, HasToken line s → ¬IsMarked s) →
      (∀ s, HasToken line s → ¬IsNumbered s) → FirstToken HasDigit line t → Names line t

theorem Names.hasToken (h : Names line token) : HasToken line token := by
  cases h with
  | marked h => exact h.hasToken
  | numbered _ h => exact h.hasToken
  | other _ _ h => exact h.hasToken

/-- The search among the words of a line. -/
def versionIn (line : List Char) : Option (List Char) :=
  ((words line).find? isGoVersion).or
    (((words line).find? startsWithDigit).or ((words line).find? (·.any isDigit)))

theorem find?_isGoVersion_eq_some_iff :
    (words line).find? isGoVersion = some token ↔ FirstToken IsMarked line token := by
  simp only [find?_words_eq_some_iff, isGoVersion_iff]

theorem find?_startsWithDigit_eq_some_iff :
    (words line).find? startsWithDigit = some token ↔ FirstToken IsNumbered line token := by
  simp only [find?_words_eq_some_iff, startsWithDigit_iff]

theorem find?_any_isDigit_eq_some_iff :
    (words line).find? (·.any isDigit) = some token ↔ FirstToken HasDigit line token := by
  simp only [find?_words_eq_some_iff, any_isDigit_iff]

theorem versionIn_eq_some_iff : versionIn line = some token ↔ Names line token := by
  have hmarked : (words line).find? isGoVersion = none ↔ ∀ s, HasToken line s → ¬IsMarked s := by
    simp only [find?_words_eq_none_iff, isGoVersion_iff]
  have hnumbered : (words line).find? startsWithDigit = none ↔
      ∀ s, HasToken line s → ¬IsNumbered s := by
    simp only [find?_words_eq_none_iff, startsWithDigit_iff]
  rw [versionIn, Option.or_eq_some_iff, Option.or_eq_some_iff, find?_isGoVersion_eq_some_iff,
    find?_startsWithDigit_eq_some_iff, find?_any_isDigit_eq_some_iff, hmarked, hnumbered]
  constructor
  · rintro (h | ⟨hnone, h | ⟨hnone', h⟩⟩)
    exacts [.marked h, .numbered hnone h, .other hnone hnone' h]
  · rintro (h | ⟨hnone, h⟩ | ⟨hnone, hnone', h⟩)
    exacts [.inl h, .inr ⟨hnone, .inl h⟩, .inr ⟨hnone, .inr ⟨hnone', h⟩⟩]

/-- A line names a version when it has a digit. -/
theorem versionIn_isSome_iff : (versionIn line).isSome ↔ ∃ c ∈ line, isDigit c = true := by
  constructor
  · intro h
    obtain ⟨token, htoken⟩ := Option.isSome_iff_exists.1 h
    have hnames := versionIn_eq_some_iff.1 htoken
    have hdigit : HasDigit token := by
      cases hnames with
      | marked h => exact h.holds.hasDigit
      | numbered _ h => exact h.holds.hasDigit
      | other _ _ h => exact h.holds
    obtain ⟨d, hd, hdigit⟩ := hdigit
    exact ⟨d, hnames.hasToken.mem hd, hdigit⟩
  · rintro ⟨c, hc, hdigit⟩
    obtain ⟨token, htoken, hmem⟩ := exists_hasToken hc (isBlank_of_isDigit hdigit)
    have hfound : ((words line).find? (·.any isDigit)).isSome := by
      rw [List.find?_isSome]
      exact ⟨token, mem_words_iff.2 htoken, any_isDigit_iff.2 ⟨c, hmem, hdigit⟩⟩
    simp only [versionIn, Option.isSome_or, hfound, Bool.or_true]

/-! ## The line that is searched -/

/-- The carriage return at the end of a line is blank, and belongs to none of its words. -/
theorem words_dropReturn (piece : List Char) : words (dropReturn piece) = words piece := by
  unfold dropReturn
  split
  next rest h =>
    have hpiece : piece = rest.reverse ++ ['\r'] := by
      rw [← List.reverse_reverse piece, h, List.reverse_cons]
    rw [hpiece, words_append_cons (by decide), words_nil, List.append_nil]
  next => rfl

theorem all_isBlank_dropReturn (piece : List Char) :
    (dropReturn piece).all isBlank = piece.all isBlank := by
  unfold dropReturn
  split
  next rest h =>
    have hpiece : piece = rest.reverse ++ ['\r'] := by
      rw [← List.reverse_reverse piece, h, List.reverse_cons]
    rw [hpiece, List.all_append]
    simp [show isBlank '\r' = true from by decide]
  next => rfl

/-- Whether line feeds end lines or part them, the search ends in the same line. -/
theorem bind_find?_linesOf (pieces : List (List Char)) :
    ((linesOf pieces).find? fun line => !line.all isBlank).bind versionIn =
      (pieces.find? fun line => !line.all isBlank).bind versionIn := by
  induction pieces with
  | nil => rfl
  | cons piece rest ih =>
    cases rest with
    | nil =>
      rw [linesOf]
      split
      next h => rw [h]; rfl
      next => rfl
    | cons next rest =>
      rw [linesOf, List.find?_cons, List.find?_cons, all_isBlank_dropReturn]
      · cases piece.all isBlank with
        | true => exact ih
        | false =>
          simp only [Bool.not_false, Option.bind_some, versionIn, words_dropReturn]
      · exact List.cons_ne_nil next rest

theorem toolchainVersion?_eq (banner : String) :
    toolchainVersion? banner = (((split (· == '\n') banner.toList).find? fun line =>
      !line.all isBlank).bind versionIn).map String.ofList := by
  rw [← bind_find?_linesOf, Option.map_bind]
  rfl

/-- The version of a banner is that of its first line that is not blank. -/
theorem toolchainVersion?_of_firstLine {banner : String} (h : FirstLine banner.toList line) :
    toolchainVersion? banner = (versionIn line).map String.ofList := by
  obtain ⟨before, behind, h⟩ := h
  rw [toolchainVersion?_eq, find?_split_of_isFirstLine h, Option.bind_some]

/-- A blank banner has no version. -/
theorem exists_firstLine_of_toolchainVersion? {banner v : String}
    (h : toolchainVersion? banner = some v) : ∃ line, FirstLine banner.toList line := by
  rw [toolchainVersion?_eq] at h
  obtain ⟨token, htoken, -⟩ := Option.map_eq_some_iff.1 h
  obtain ⟨piece, hpiece, -⟩ := Option.bind_eq_some_iff.1 htoken
  obtain ⟨d, hd, hplain⟩ : ∃ d ∈ piece, isBlank d = false := by
    simpa using List.find?_some hpiece
  exact exists_firstLine _ ⟨d, mem_of_mem_split hd (List.mem_of_find?_eq_some hpiece), hplain⟩

/-- A banner has a version when its first line that is not blank has a digit. The version is the
token that this line names, a word without blank characters, and no later line changes it. -/
theorem toolchainVersion?_names (banner : String) :
    ((toolchainVersion? banner).isSome ↔
      ∃ line, FirstLine banner.toList line ∧ ∃ c ∈ line, isDigit c = true) ∧
    (∀ v, toolchainVersion? banner = some v ↔
      ∃ line, FirstLine banner.toList line ∧ Names line v.toList) ∧
    (∀ v, toolchainVersion? banner = some v → v ≠ "" ∧ ∀ c ∈ v.toList, isBlank c = false) ∧
    ∀ later, isBlankText banner = false →
      toolchainVersion? (banner ++ "\n" ++ later) = toolchainVersion? banner := by
  have hversion (v : String) : toolchainVersion? banner = some v ↔
      ∃ line, FirstLine banner.toList line ∧ Names line v.toList := by
    constructor
    · intro h
      obtain ⟨line, hline⟩ := exists_firstLine_of_toolchainVersion? h
      rw [toolchainVersion?_of_firstLine hline] at h
      obtain ⟨token, htoken, rfl⟩ := Option.map_eq_some_iff.1 h
      exact ⟨line, hline, by rw [String.toList_ofList]; exact versionIn_eq_some_iff.1 htoken⟩
    · rintro ⟨line, hline, hnames⟩
      rw [toolchainVersion?_of_firstLine hline, versionIn_eq_some_iff.2 hnames, Option.map_some,
        String.ofList_toList]
  refine ⟨⟨fun h => ?_, ?_⟩, hversion, fun v h => ?_, fun later h => ?_⟩
  · obtain ⟨v, hv⟩ := Option.isSome_iff_exists.1 h
    obtain ⟨line, hline⟩ := exists_firstLine_of_toolchainVersion? hv
    rw [toolchainVersion?_of_firstLine hline, Option.isSome_map] at h
    exact ⟨line, hline, versionIn_isSome_iff.1 h⟩
  · rintro ⟨line, hline, hdigit⟩
    rw [toolchainVersion?_of_firstLine hline, Option.isSome_map]
    exact versionIn_isSome_iff.2 hdigit
  · obtain ⟨line, -, hnames⟩ := (hversion v).1 h
    obtain ⟨before, behind, htoken⟩ := hnames.hasToken
    exact ⟨fun hv => htoken.ne_nil (by rw [hv]; rfl), htoken.plain⟩
  · obtain ⟨line, hline⟩ : ∃ line, FirstLine banner.toList line :=
      exists_firstLine _ (by simpa [isBlankText] using h)
    have hlater : FirstLine (banner ++ "\n" ++ later).toList line := by
      have happend : (banner ++ "\n" ++ later).toList = banner.toList ++ '\n' :: later.toList := by
        simp
      rw [happend]
      exact hline.append later.toList
    rw [toolchainVersion?_of_firstLine hlater, toolchainVersion?_of_firstLine hline]

/-- The banner of `go version`, with blank lines before it and another version behind it. -/
theorem toolchainVersion?_names_go :
    isBlankText "\r\n \ngo version go1.22.3 linux/amd64" = false ∧
      toolchainVersion? ("\r\n \ngo version go1.22.3 linux/amd64" ++ "\n" ++ "go1.23") =
        toolchainVersion? "\r\n \ngo version go1.22.3 linux/amd64" ∧
      ∃ line, FirstLine "\r\n \ngo version go1.22.3 linux/amd64".toList line ∧
        Names line "go1.22.3".toList := by
  have hblank : isBlankText "\r\n \ngo version go1.22.3 linux/amd64" = false := by decide
  obtain ⟨-, hversion, -, hlater⟩ :=
    toolchainVersion?_names "\r\n \ngo version go1.22.3 linux/amd64"
  exact ⟨hblank, hlater "go1.23" hblank, (hversion "go1.22.3").1 (by decide)⟩

example : toolchainVersion? "rustc 1.79.0 (129f3b996 2024-06-10)" = some "1.79.0" := by decide

end Formulary.Variables
