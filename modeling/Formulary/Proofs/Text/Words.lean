import Formulary.Proofs.Text

/-!
# Words and lines where they stand

A word stands somewhere in its line : its characters are not blank, and the line ends on either side
of it or goes on with a blank character (`Text.IsToken`). The words of a line are what stands so in
it, from the left (`Text.mem_words_iff`), and to find one is to find the leftmost
(`Text.find?_words_eq_some_iff`). Likewise the first line of a text that is not blank has only blank
lines before it (`Text.IsFirstLine`), and to look for a line that is not blank is to find it
(`Text.find?_split_of_isFirstLine`).
-/

namespace Formulary.Text

variable {sep : Char → Bool} {c : Char} {cs ds line before token behind : List Char}

/-! ## Words of parts -/

theorem words_nil : words [] = [] := rfl

/-- A blank character parts the words before it from those after it. -/
theorem words_append_cons (hc : isBlank c = true) (cs ds : List Char) :
    words (cs ++ c :: ds) = words cs ++ words ds := by
  rw [words, split_append hc, List.filter_append, words, words]

theorem words_cons_of_isBlank (hc : isBlank c = true) (cs : List Char) :
    words (c :: cs) = words cs := words_append_cons hc [] cs

theorem words_append_of_head? (h : ∀ d ∈ ds.head?, isBlank d = true) (cs : List Char) :
    words (cs ++ ds) = words cs ++ words ds := by
  cases ds with
  | nil => rw [List.append_nil, words_nil, List.append_nil]
  | cons d ds => rw [words_append_cons (h d rfl), words_cons_of_isBlank (h d rfl)]

theorem words_append_of_getLast? (h : ∀ d ∈ cs.getLast?, isBlank d = true) (ds : List Char) :
    words (cs ++ ds) = words cs ++ words ds := by
  rcases List.eq_nil_or_concat cs with rfl | ⟨cs, d, rfl⟩
  · rfl
  · have hd : isBlank d = true := h d (by simp)
    rw [List.concat_eq_append, List.append_assoc, List.singleton_append, words_append_cons hd,
      words_append_cons hd, words_nil, List.append_nil]

theorem words_of_blank (h : ∀ d ∈ cs, isBlank d = true) : words cs = [] := by
  induction cs with
  | nil => rfl
  | cons d cs ih =>
    rw [words_cons_of_isBlank (h d List.mem_cons_self),
      ih fun e he => h e (List.mem_cons_of_mem d he)]

theorem words_of_plain (hne : cs ≠ []) (h : ∀ d ∈ cs, isBlank d = false) : words cs = [cs] := by
  rw [words, split_of_forall h]
  simp [hne]

/-- A character that separates nothing is in some piece. -/
theorem exists_mem_split (hc : c ∈ cs) (hsep : sep c = false) :
    ∃ piece ∈ split sep cs, c ∈ piece := by
  induction cs with
  | nil => exact absurd hc List.not_mem_nil
  | cons d cs ih =>
    cases hd : sep d with
    | true =>
      have hcs : c ∈ cs := (List.mem_cons.1 hc).resolve_left fun h => by
        rw [h, hd] at hsep
        exact absurd hsep nofun
      obtain ⟨piece, hpiece, hmem⟩ := ih hcs
      exact ⟨piece, by simp [split, hd, hpiece], hmem⟩
    | false =>
      obtain ⟨first, pieces, hcs, hall⟩ := split_cons_of_not hd cs
      rw [hall]
      rcases List.mem_cons.1 hc with rfl | hc
      · exact ⟨c :: first, List.mem_cons_self, List.mem_cons_self⟩
      · obtain ⟨piece, hpiece, hmem⟩ := ih hc
        rw [hcs] at hpiece
        rcases List.mem_cons.1 hpiece with rfl | hpiece
        · exact ⟨d :: piece, List.mem_cons_self, List.mem_cons_of_mem d hmem⟩
        · exact ⟨piece, List.mem_cons_of_mem _ hpiece, hmem⟩

/-- The pieces of a text have only its characters. -/
theorem mem_of_mem_split {piece : List Char} (hc : c ∈ piece) (h : piece ∈ split sep cs) :
    c ∈ cs := by
  induction cs generalizing piece with
  | nil => rwa [List.mem_singleton.1 h] at hc
  | cons d cs ih =>
    cases hd : sep d with
    | true =>
      have hpieces : split sep (d :: cs) = [] :: split sep cs := by simp [split, hd]
      rw [hpieces] at h
      rcases List.mem_cons.1 h with rfl | h
      · exact absurd hc List.not_mem_nil
      · exact List.mem_cons_of_mem d (ih hc h)
    | false =>
      obtain ⟨first, pieces, hcs, hall⟩ := split_cons_of_not hd cs
      rw [hcs] at ih
      rw [hall] at h
      rcases List.mem_cons.1 h with rfl | h
      · rcases List.mem_cons.1 hc with rfl | hc
        · exact List.mem_cons_self
        · exact List.mem_cons_of_mem d (ih hc List.mem_cons_self)
      · exact List.mem_cons_of_mem d (ih hc (List.mem_cons_of_mem first h))

/-! ## Where words stand -/

/-- The token stands in the line between what is before it and what is behind it. -/
structure IsToken (line before token behind : List Char) : Prop where
  line_eq : line = before ++ token ++ behind
  ne_nil : token ≠ []
  plain : ∀ d ∈ token, isBlank d = false
  opened : ∀ d ∈ before.getLast?, isBlank d = true
  closed : ∀ d ∈ behind.head?, isBlank d = true

/-- The token stands somewhere in the line. -/
def HasToken (line token : List Char) : Prop := ∃ before behind, IsToken line before token behind

/-- The token is the leftmost one of the line that has the property. -/
def FirstToken (p : List Char → Prop) (line token : List Char) : Prop :=
  ∃ before behind, IsToken line before token behind ∧ p token ∧ ∀ s, HasToken before s → ¬p s

theorem HasToken.mem (h : HasToken line token) (hc : c ∈ token) : c ∈ line := by
  obtain ⟨before, behind, h⟩ := h
  rw [h.line_eq]
  exact List.mem_append_left _ (List.mem_append_right _ hc)

theorem FirstToken.hasToken {p : List Char → Prop} (h : FirstToken p line token) :
    HasToken line token := by
  obtain ⟨before, behind, h, -⟩ := h
  exact ⟨before, behind, h⟩

theorem FirstToken.holds {p : List Char → Prop} (h : FirstToken p line token) : p token := by
  obtain ⟨-, -, -, h, -⟩ := h
  exact h

/-- The words of a line are those before a token, the token, and those behind it. -/
theorem IsToken.words_eq (h : IsToken line before token behind) :
    words line = words before ++ token :: words behind := by
  rw [h.line_eq, words_append_of_head? h.closed, words_append_of_getLast? h.opened,
    words_of_plain h.ne_nil h.plain, List.append_assoc, List.singleton_append]

/-- A line with words has a token with none before it. -/
theorem exists_isToken_of_words_ne_nil (h : words line ≠ []) :
    ∃ before token behind, IsToken line before token behind ∧ words before = [] := by
  have hlead : ∀ d ∈ line.takeWhile isBlank, isBlank d = true :=
    fun d hd => List.mem_takeWhile_imp hd
  have hline := List.takeWhile_append_dropWhile (p := isBlank) (l := line)
  cases hrest : line.dropWhile isBlank with
  | nil =>
    rw [hrest, List.append_nil] at hline
    exact absurd (words_of_blank (hline ▸ hlead)) h
  | cons c rest =>
    have hc : isBlank c = false := by
      have hhead := List.head_dropWhile_not isBlank (l := line) (by simp [hrest])
      simpa [hrest] using hhead
    refine ⟨_, (c :: rest).takeWhile fun d => !isBlank d, (c :: rest).dropWhile fun d => !isBlank d,
      ⟨?_, by simp [hc], fun d hd => ?_, fun d hd => hlead d (List.mem_of_getLast? hd),
        fun d hd => ?_⟩, words_of_blank hlead⟩
    · rw [List.append_assoc, List.takeWhile_append_dropWhile, ← hrest, hline]
    · simpa using List.mem_takeWhile_imp hd
    · have hhead := List.head?_dropWhile_not (fun d => !isBlank d) (c :: rest)
      rw [Option.mem_def.1 hd] at hhead
      simpa using hhead

/-- A token behind another one stands in the line, too. -/
theorem IsToken.later {before' token' behind' : List Char} (h : IsToken line before token behind)
    (h' : IsToken behind before' token' behind') :
    IsToken line (before ++ token ++ before') token' behind' ∧
      IsToken (before ++ token ++ before') before token before' := by
  have hhead : ∀ d ∈ before'.head?, isBlank d = true := fun d hd => by
    refine h.closed d ?_
    rw [h'.line_eq, List.append_assoc, List.head?_append, Option.mem_def.1 hd]
    rfl
  have hne : before' ≠ [] := by
    rintro rfl
    obtain ⟨d, ds, rfl⟩ := List.exists_cons_of_ne_nil h'.ne_nil
    have hblank := h.closed d (by simp [h'.line_eq])
    exact absurd (hblank.symm.trans (h'.plain d List.mem_cons_self)) nofun
  refine ⟨⟨?_, h'.ne_nil, h'.plain, fun d hd => h'.opened d ?_, h'.closed⟩,
    ⟨rfl, h.ne_nil, h.plain, h.opened, hhead⟩⟩
  · rw [h.line_eq, h'.line_eq]
    simp only [List.append_assoc]
  · rwa [List.getLast?_append_of_ne_nil _ hne] at hd

/-- Each of the words stands in the line, behind those that come before it. -/
theorem exists_isToken_of_words_eq {ws ws' : List (List Char)}
    (h : words line = ws ++ token :: ws') :
    ∃ before behind, IsToken line before token behind ∧ words before = ws := by
  induction ws generalizing line with
  | nil =>
    have hne : words line ≠ [] := by simp [h]
    obtain ⟨before, t, behind, ht, hbefore⟩ := exists_isToken_of_words_ne_nil hne
    rw [ht.words_eq, hbefore] at h
    obtain ⟨rfl, -⟩ := List.cons.inj h
    exact ⟨before, behind, ht, hbefore⟩
  | cons w ws ih =>
    have hne : words line ≠ [] := by simp [h]
    obtain ⟨before, t, behind, ht, hbefore⟩ := exists_isToken_of_words_ne_nil hne
    rw [ht.words_eq, hbefore] at h
    obtain ⟨rfl, hbehind⟩ := List.cons.inj h
    obtain ⟨before', behind', htoken, hws⟩ := ih hbehind
    obtain ⟨hstands, hfirst⟩ := ht.later htoken
    exact ⟨_, behind', hstands, by rw [hfirst.words_eq, hbefore, hws, List.nil_append]⟩

theorem mem_words_iff : token ∈ words line ↔ HasToken line token := by
  constructor
  · intro h
    obtain ⟨ws, ws', hws⟩ := List.append_of_mem h
    obtain ⟨before, behind, htoken, -⟩ := exists_isToken_of_words_eq hws
    exact ⟨before, behind, htoken⟩
  · rintro ⟨before, behind, h⟩
    rw [h.words_eq]
    exact List.mem_append_right _ List.mem_cons_self

/-- To look for a word is to find the leftmost one. -/
theorem find?_words_eq_some_iff {p : List Char → Bool} :
    (words line).find? p = some token ↔ FirstToken (p · = true) line token := by
  rw [List.find?_eq_some_iff_append]
  constructor
  · rintro ⟨hp, ws, ws', hws, hnone⟩
    obtain ⟨before, behind, htoken, rfl⟩ := exists_isToken_of_words_eq hws
    refine ⟨before, behind, htoken, hp, fun s hs => ?_⟩
    simpa using hnone s (mem_words_iff.2 hs)
  · rintro ⟨before, behind, htoken, hp, hnone⟩
    refine ⟨hp, _, _, htoken.words_eq, fun s hs => ?_⟩
    simpa using hnone s (mem_words_iff.1 hs)

theorem find?_words_eq_none_iff {p : List Char → Bool} :
    (words line).find? p = none ↔ ∀ s, HasToken line s → ¬p s = true := by
  simp only [List.find?_eq_none, mem_words_iff]

/-- A character that is not blank is in some word. -/
theorem exists_hasToken (hc : c ∈ line) (hblank : isBlank c = false) :
    ∃ t, HasToken line t ∧ c ∈ t := by
  obtain ⟨piece, hpiece, hmem⟩ := exists_mem_split hc hblank
  refine ⟨piece, mem_words_iff.1 (List.mem_filter.2 ⟨hpiece, ?_⟩), hmem⟩
  simpa using List.ne_nil_of_mem hmem

/-! ## Lines -/

/-- The line is the first of the text that is not blank, and stands between what is before it and
what is behind it. A carriage return at its end belongs to it. -/
structure IsFirstLine (text before line behind : List Char) : Prop where
  text_eq : text = before ++ line ++ behind
  blank_before : ∀ d ∈ before, isBlank d = true
  opened : ∀ d ∈ before.getLast?, d = '\n'
  feedless : ∀ d ∈ line, d ≠ '\n'
  not_blank : ∃ d ∈ line, isBlank d = false
  closed : ∀ d ∈ behind.head?, d = '\n'

/-- The line is the first of the text that is not blank. -/
def FirstLine (text line : List Char) : Prop := ∃ before behind, IsFirstLine text before line behind

/-- What is behind the line does not matter. -/
theorem FirstLine.append {text : List Char} (h : FirstLine text line) (later : List Char) :
    FirstLine (text ++ '\n' :: later) line := by
  obtain ⟨before, behind, h⟩ := h
  refine ⟨before, behind ++ '\n' :: later, { h with text_eq := ?_, closed := fun d hd => ?_ }⟩
  · rw [h.text_eq]
    simp only [List.append_assoc]
  · cases behind with
    | nil => exact (Option.some.inj hd).symm
    | cons e behind => exact h.closed d hd

/-- A text that is not blank has a first line that is not, by recursion over its lines. -/
theorem exists_firstLine (text : List Char) (h : ∃ d ∈ text, isBlank d = false) :
    ∃ line, FirstLine text line := by
  have htext := List.takeWhile_append_dropWhile (p := (· != '\n')) (l := text)
  have hfeedless : ∀ d ∈ text.takeWhile (· != '\n'), d ≠ '\n' := fun d hd => by
    simpa using List.mem_takeWhile_imp hd
  by_cases hblank : ∃ d ∈ text.takeWhile (· != '\n'), isBlank d = false
  · refine ⟨_, [], _, htext.symm, nofun, nofun, hfeedless, hblank, fun d hd => ?_⟩
    have hhead := List.head?_dropWhile_not (· != '\n') text
    rw [Option.mem_def.1 hd] at hhead
    simpa using hhead
  · cases hrest : text.dropWhile (· != '\n') with
    | nil =>
      rw [hrest, List.append_nil] at htext
      exact absurd (htext.symm ▸ h) hblank
    | cons c rest =>
      have hc : c = '\n' := by
        have hhead := List.head?_dropWhile_not (· != '\n') text
        rw [hrest] at hhead
        simpa using hhead
      subst hc
      rw [hrest] at htext
      have hblank : ∀ d ∈ text.takeWhile (· != '\n'), isBlank d = true := by simpa using hblank
      have hlater : ∃ d ∈ rest, isBlank d = false := by
        obtain ⟨d, hd, hplain⟩ := h
        rw [← htext, List.mem_append, List.mem_cons] at hd
        rcases hd with hd | rfl | hd
        · exact absurd ((hblank d hd).symm.trans hplain) nofun
        · exact absurd hplain (by decide)
        · exact ⟨d, hd, hplain⟩
      have hlt : rest.length < text.length := by
        have hlength := congrArg List.length htext
        simp only [List.length_append, List.length_cons] at hlength
        omega
      obtain ⟨line, before, behind, hline⟩ := exists_firstLine rest hlater
      refine ⟨line, text.takeWhile (· != '\n') ++ '\n' :: before, behind, { hline with
        text_eq := ?_, blank_before := fun d hd => ?_, opened := fun d hd => ?_ }⟩
      · have hrest := hline.text_eq
        rw [hrest] at htext
        simpa using htext.symm
      · rcases List.mem_append.1 hd with hd | hd
        · exact hblank d hd
        · rcases List.mem_cons.1 hd with rfl | hd
          · decide
          · exact hline.blank_before d hd
      · rw [List.getLast?_append, List.getLast?_cons] at hd
        cases hlast : before.getLast? with
        | none => simpa [hlast, eq_comm] using hd
        | some e =>
          obtain rfl : e = '\n' := hline.opened e hlast
          simpa [hlast, eq_comm] using hd
termination_by text.length

/-- Among the pieces between line feeds, the first that is not blank is that line. -/
theorem find?_split_of_isFirstLine {text : List Char} (h : IsFirstLine text before line behind) :
    (split (· == '\n') text).find? (fun piece => !piece.all isBlank) = some line := by
  have hline : split (· == '\n') line = [line] :=
    split_of_forall fun d hd => beq_false_of_ne (h.feedless d hd)
  have hfound (pieces : List (List Char)) :
      (line :: pieces).find? (fun piece => !piece.all isBlank) = some line := by
    refine List.find?_cons_of_pos ?_
    simpa using h.not_blank
  have hbehind : ∃ pieces, split (· == '\n') (line ++ behind) = line :: pieces := by
    cases hb : behind with
    | nil => exact ⟨[], by rw [List.append_nil, hline]⟩
    | cons d behind =>
      obtain rfl := h.closed d (by simp [hb])
      exact ⟨_, by rw [split_append (by decide), hline]; rfl⟩
  obtain ⟨pieces, hpieces⟩ := hbehind
  rw [h.text_eq, List.append_assoc]
  rcases List.eq_nil_or_concat before with rfl | ⟨lead, d, hlead⟩
  · rw [List.nil_append, hpieces, hfound]
  · rw [List.concat_eq_append] at hlead
    obtain rfl := h.opened d (by simp [hlead])
    have hnone : (split (· == '\n') lead).find? (fun piece => !piece.all isBlank) = none := by
      rw [List.find?_eq_none]
      intro piece hpiece
      have hblank : ∀ e ∈ piece, isBlank e = true := fun e he =>
        h.blank_before e (hlead ▸ List.mem_append_left _ (mem_of_mem_split he hpiece))
      simpa using hblank
    rw [hlead, List.append_assoc, List.singleton_append, split_append (by decide), hpieces,
      List.find?_append, hnone, hfound, Option.none_or]

end Formulary.Text
