import Formulary.Flags
import Formulary.Proofs.Runs
import Formulary.Proofs.Text
import Mathlib.Data.List.Forall2
import Mathlib.Data.List.TakeWhile

/-!
# What the linker reads

The linker splits the flags, joined to one text, into fields (`fields`) : white space separates
them, and two quotes hold white space together, without escapes. What counts as white space there
is up to the linker, as long as a space does and nothing does that is not white space for Unicode.

A text carries some fields when these are read from it wherever it stands (`Carries`). Each flag
carries its own, so the flags joined carry those of all (`carries_joined`), which leads to the main
statement, `fields_of_render` : every flag reaches the linker with its value as it was.
-/

namespace Formulary.Flags

/-! ## Fields -/

/-- A quote that the linker knows. -/
def isQuote (c : Char) : Bool := c == '\'' || c == '"'

/-- The fields of a text. One that starts with a quote runs to the next same quote, which must be
there; any other runs to the next white space. -/
def fields (ws : Char → Bool) : List Char → Option (List String)
  | [] => some []
  | c :: cs =>
    if ws c then fields ws cs
    else if isQuote c then
      match _h : cs.dropWhile (· != c) with
      | [] => none
      | _ :: rest => (fields ws rest).map (String.ofList (cs.takeWhile (· != c)) :: ·)
    else
      (fields ws (cs.dropWhile fun d => !ws d)).map
        (String.ofList (c :: cs.takeWhile fun d => !ws d) :: ·)
termination_by cs => cs.length
decreasing_by
  · simp
  · have hle := cs.length_dropWhile_le (· != c)
    rw [_h] at hle
    simp only [List.length_cons] at hle ⊢
    omega
  · have hle := cs.length_dropWhile_le fun d => !ws d
    simp only [List.length_cons]
    omega

/-- What the linker splits a text into. -/
def linkerFields (ws : Char → Bool) (s : String) : Option (List String) := fields ws s.toList

section

variable {ws : Char → Bool} {c : Char} {cs ds rest : List Char}

@[simp]
theorem fields_nil : fields ws [] = some [] := by rw [fields]

theorem fields_blank (hc : ws c = true) (cs : List Char) : fields ws (c :: cs) = fields ws cs := by
  rw [fields, if_pos hc]

/-- Nothing is left, or white space. -/
def Ends (ws : Char → Bool) (rest : List Char) : Prop := ∀ c ∈ rest.head?, ws c = true

theorem ends_nil : Ends ws [] := fun _ h => absurd h (by simp)

theorem ends_cons (hc : ws c = true) (cs : List Char) : Ends ws (c :: cs) := by
  intro d hd
  obtain rfl : c = d := by simpa using hd
  exact hc

theorem takeWhile_of_ends (hcs : ∀ d ∈ cs, ws d = false) (hrest : Ends ws rest) :
    ((cs ++ rest).takeWhile fun d => !ws d) = cs ∧
      ((cs ++ rest).dropWhile fun d => !ws d) = rest := by
  have hall : ∀ d ∈ cs, (!ws d) = true := fun d hd => by simp [hcs d hd]
  rw [List.takeWhile_append_of_pos hall, List.dropWhile_append_of_pos hall]
  cases rest with
  | nil => simp
  | cons r rest =>
    have hr : ws r = true := hrest r rfl
    simp [hr]

theorem fields_bare (hc : isQuote c = false) (hcs : ∀ d ∈ c :: cs, ws d = false)
    (hrest : Ends ws rest) :
    fields ws (c :: cs ++ rest) = (fields ws rest).map (String.ofList (c :: cs) :: ·) := by
  have hws : ws c = false := hcs c List.mem_cons_self
  obtain ⟨htake, hdrop⟩ :=
    takeWhile_of_ends (fun d hd => hcs d (List.mem_cons_of_mem c hd)) hrest
  rw [List.cons_append, fields, if_neg (by simp [hws]), if_neg (by simp [hc]), htake, hdrop]

theorem fields_quoted (hc : isQuote c = true) (hws : ws c = false) (hcs : c ∉ cs)
    (rest : List Char) :
    fields ws (c :: (cs ++ c :: rest)) = (fields ws rest).map (String.ofList cs :: ·) := by
  have hall : ∀ d ∈ cs, (d != c) = true := fun d hd => by
    rw [bne_iff_ne]
    rintro rfl
    exact hcs hd
  have hdrop : (cs ++ c :: rest).dropWhile (· != c) = c :: rest := by
    rw [List.dropWhile_append_of_pos hall]
    simp
  have htake : (cs ++ c :: rest).takeWhile (· != c) = cs := by
    rw [List.takeWhile_append_of_pos hall]
    simp
  rw [fields, if_neg (by simp [hws]), if_pos hc, htake]
  split
  · rename_i h
    exact absurd (hdrop.symm.trans h) (by simp)
  · rename_i h
    obtain ⟨-, rfl⟩ := List.cons.inj (hdrop.symm.trans h)
    rfl

/-! ## Texts that carry fields -/

/-- What a linker may take for white space. -/
structure IsWhiteSpace (ws : Char → Bool) : Prop where
  space : ws ' ' = true
  blank : ∀ c, ws c = true → Text.isBlank c = true

theorem isWhiteSpace_isBlank : IsWhiteSpace Text.isBlank := ⟨by decide, fun _ h => h⟩

theorem IsWhiteSpace.not (h : IsWhiteSpace ws) (hc : Text.isBlank c = false) : ws c = false :=
  Bool.eq_false_iff.2 fun hws => absurd (hc.symm.trans (h.blank c hws)) (by simp)

/-- A text without white space. -/
def IsWord (s : String) : Prop := ∀ c ∈ s.toList, Text.isBlank c = false

instance (s : String) : Decidable (IsWord s) :=
  decidable_of_iff (s.toList.any Text.isBlank = false) (by simp [IsWord])

/-- Wherever nothing or white space follows the text, these fields are read from it. -/
def Carries (ws : Char → Bool) (cs : List Char) (fs : List String) : Prop :=
  ∀ rest, Ends ws rest → fields ws (cs ++ rest) = (fields ws rest).map (fs ++ ·)

variable {es fs : List String} {s : String}

theorem Carries.fields_eq (h : Carries ws cs fs) : fields ws cs = some fs := by
  have hnil := h [] ends_nil
  simpa using hnil

theorem carries_nil : Carries ws [] [] := by
  intro rest _
  simp

theorem carries_bare (hws : IsWhiteSpace ws) (hs : IsWord s) (hne : s ≠ "")
    (hc : s.toList.head?.any isQuote = false) : Carries ws s.toList [s] := by
  intro rest hrest
  have hnone : ∀ d ∈ s.toList, ws d = false := fun d hd => hws.not (hs d hd)
  cases h : s.toList with
  | nil => exact absurd (String.toList_eq_nil_iff.1 h) hne
  | cons c cs =>
    have hs' : String.ofList (c :: cs) = s := by rw [← h, String.ofList_toList]
    rw [h] at hc hnone
    rw [fields_bare (by simpa using hc) hnone hrest, hs']
    rfl

theorem carries_quoted (hc : isQuote c = true) (hws : ws c = false) (hs : c ∉ s.toList) :
    Carries ws (c :: (s.toList ++ [c])) [s] := by
  intro rest _
  rw [List.cons_append, List.append_assoc, List.singleton_append, fields_quoted hc hws hs,
    String.ofList_toList]
  rfl

/-- White space between two texts keeps their fields apart. -/
theorem Carries.append (hcs : Carries ws cs es) (hds : Carries ws ds fs) (hc : ws c = true) :
    Carries ws (cs ++ c :: ds) (es ++ fs) := by
  intro rest hrest
  rw [List.append_assoc, List.cons_append, hcs _ (ends_cons hc _), fields_blank hc, hds rest hrest,
    Option.map_map]
  congr 1
  funext l
  simp

/-- By induction on the texts : joined by spaces they carry the fields of all. -/
theorem carries_joined (hws : IsWhiteSpace ws) {flags : List String} {fss : List (List String)}
    (h : List.Forall₂ (fun s fs => Carries ws s.toList fs) flags fss) :
    Carries ws (joined flags).toList fss.flatten := by
  unfold joined
  induction h with
  | nil => exact carries_nil
  | @cons s fs flags fss hs hflags ih =>
    cases flags with
    | nil =>
      cases hflags
      simpa [Text.join] using hs
    | cons s' flags =>
      have happend := hs.append ih hws.space
      simpa [Text.join, String.toList_append] using happend

end

/-! ## Texts that no quoting carries -/

/-- The text has white space and both quotes. -/
def Unquotable (s : String) : Prop :=
  s.toList.any Text.isBlank = true ∧ '\'' ∈ s.toList ∧ '"' ∈ s.toList

instance (s : String) : Decidable (Unquotable s) := inferInstanceAs (Decidable (_ ∧ _ ∧ _))

theorem Unquotable.mem {s : String} (hs : Unquotable s) {c : Char} (hc : isQuote c = true) :
    c ∈ s.toList := by
  simp only [isQuote, Bool.or_eq_true, beq_iff_eq] at hc
  rcases hc with rfl | rfl
  · exact hs.2.1
  · exact hs.2.2

theorem Unquotable.exists_blank {s : String} (hs : Unquotable s) :
    ∃ c ∈ s.toList, Text.isBlank c = true :=
  List.any_eq_true.1 hs.1

/-- A field that was quoted lacks a quote, and any other has no white space. -/
theorem lacks_of_mem_fields {ws : Char → Bool} {cs : List Char} {fs : List String}
    (h : fields ws cs = some fs) {s : String} (hs : s ∈ fs) :
    (∃ c, isQuote c = true ∧ c ∉ s.toList) ∨ ∀ c ∈ s.toList, ws c = false := by
  fun_induction fields ws cs generalizing fs with
  | case1 =>
    obtain rfl := Option.some.inj h
    exact absurd hs (by simp)
  | case2 c cs hws ih => exact ih h hs
  | case3 c cs hws hc hnone => exact absurd h nofun
  | case4 c cs hws hc d rest hdrop ih =>
    obtain ⟨fs', hrest, rfl⟩ := Option.map_eq_some_iff.1 h
    rcases List.mem_cons.1 hs with rfl | hs
    · refine .inl ⟨c, hc, fun hmem => ?_⟩
      rw [String.toList_ofList] at hmem
      simpa using List.mem_takeWhile_imp hmem
    · exact ih hrest hs
  | case5 c cs hws hc ih =>
    obtain ⟨fs', hrest, rfl⟩ := Option.map_eq_some_iff.1 h
    rcases List.mem_cons.1 hs with rfl | hs
    · refine .inr fun d hd => ?_
      rw [String.toList_ofList] at hd
      rcases List.mem_cons.1 hd with rfl | hd
      · simpa using hws
      · simpa using List.mem_takeWhile_imp hd
    · exact ih hrest hs

/-- What the widest white space and both quotes are in is no field of any text. -/
theorem Unquotable.not_mem {s : String} (hs : Unquotable s) {cs : List Char} {fs : List String}
    (h : fields Text.isBlank cs = some fs) : s ∉ fs := by
  intro hmem
  rcases lacks_of_mem_fields h hmem with ⟨c, hc, hlacks⟩ | hbare
  · exact hlacks (hs.mem hc)
  · obtain ⟨c, hc, hc'⟩ := hs.exists_blank
    exact absurd ((hbare c hc).symm.trans hc') (by simp)

/-! ## Assignments -/

/-- How an assignment is written : as it is, in a quote that it does not have, or not at all. -/
inductive Assigns (symbol value : String) : Except Refusal String → Prop
  | bare : IsWord (symbol ++ "=" ++ value) →
      Assigns symbol value (.ok (symbol ++ "=" ++ value))
  | quoted {c : Char} {s : String} : isQuote c = true → c ∉ (symbol ++ "=" ++ value).toList →
      s.toList = c :: ((symbol ++ "=" ++ value).toList ++ [c]) → Assigns symbol value (.ok s)
  | refused : Unquotable (symbol ++ "=" ++ value) →
      Assigns symbol value (.error (.unquotable symbol value))

theorem assigns (symbol value : String) : Assigns symbol value (assignment symbol value) := by
  have hcontains : ∀ (c : Char) (cs : List Char), (!cs.contains c) = true ↔ c ∉ cs :=
    fun c cs => by simp
  unfold assignment
  dsimp only
  split
  · rename_i h
    rw [Bool.not_eq_true', List.any_eq_false] at h
    exact .bare fun c hc => Bool.eq_false_iff.2 (h c hc)
  · split
    · rename_i h
      exact .quoted (c := '\'') rfl ((hcontains _ _).1 h) (by simp [String.toList_append])
    · split
      · rename_i h
        exact .quoted (c := '"') rfl ((hcontains _ _).1 h) (by simp [String.toList_append])
      · rename_i hblank hsingle hdouble
        rw [Bool.not_eq_true', Bool.not_eq_false] at hblank
        rw [hcontains, not_not] at hsingle hdouble
        exact .refused ⟨hblank, hsingle, hdouble⟩

/-- Without white space an assignment is written as it is. -/
theorem assignment_of_isWord {symbol value : String} (h : IsWord (symbol ++ "=" ++ value)) :
    assignment symbol value = .ok (symbol ++ "=" ++ value) := by
  have hnone : (symbol ++ "=" ++ value).toList.any Text.isBlank = false :=
    List.any_eq_false.2 fun c hc => Bool.eq_false_iff.1 (h c hc)
  unfold assignment
  exact if_pos (by rw [hnone]; rfl)

theorem exists_assignment_iff {symbol value : String} :
    (∃ s, assignment symbol value = .ok s) ↔ ¬Unquotable (symbol ++ "=" ++ value) := by
  have hassigns := assigns symbol value
  generalize assignment symbol value = result at hassigns ⊢
  cases hassigns with
  | bare hbare =>
    refine iff_of_true ⟨_, rfl⟩ fun h => ?_
    obtain ⟨c, hc, hblank⟩ := h.exists_blank
    exact absurd ((hbare c hc).symm.trans hblank) (by simp)
  | quoted hc hlacks _ => exact iff_of_true ⟨_, rfl⟩ fun h => hlacks (h.mem hc)
  | refused h => exact iff_of_false nofun (not_not_intro h)

/-- A symbol that starts with no quote. -/
def StartsBare (symbol : String) : Prop := symbol.toList.head?.any isQuote = false

instance (symbol : String) : Decidable (StartsBare symbol) := inferInstanceAs (Decidable (_ = _))

theorem isBlank_of_isQuote {c : Char} (hc : isQuote c = true) : Text.isBlank c = false := by
  simp only [isQuote, Bool.or_eq_true, beq_iff_eq] at hc
  rcases hc with rfl | rfl <;> decide

theorem assignment_ne_empty (symbol value : String) : symbol ++ "=" ++ value ≠ "" := by
  intro h
  have hlength := congrArg (fun s => s.toList.length) h
  simp [String.toList_append] at hlength

theorem StartsBare.assignment {symbol : String} (h : StartsBare symbol) (value : String) :
    (symbol ++ "=" ++ value).toList.head?.any isQuote = false := by
  unfold StartsBare at h
  rw [String.toList_append, String.toList_append]
  cases hs : symbol.toList with
  | nil => simp [isQuote]
  | cons c cs =>
    rw [hs] at h
    simpa using h

/-- An assignment that can be written is one field. -/
theorem carries_of_assignment {ws : Char → Bool} (hws : IsWhiteSpace ws)
    {symbol value s : String} (hsymbol : StartsBare symbol) (h : assignment symbol value = .ok s) :
    Carries ws s.toList [symbol ++ "=" ++ value] := by
  have hassigns := assigns symbol value
  rw [h] at hassigns
  cases hassigns with
  | bare hbare =>
    exact carries_bare hws hbare (assignment_ne_empty symbol value) (hsymbol.assignment value)
  | quoted hc hlacks hs =>
    rw [hs]
    exact carries_quoted hc (hws.not (isBlank_of_isQuote hc)) hlacks

/-- An assignment cannot be written exactly when no text has it as a field, where all that is white
space for Unicode keeps fields apart. -/
theorem unquotable_iff {symbol : String} (hsymbol : StartsBare symbol) (value : String) :
    Unquotable (symbol ++ "=" ++ value) ↔ ∀ s fs, linkerFields Text.isBlank s = some fs →
      symbol ++ "=" ++ value ∉ fs := by
  refine ⟨fun h s fs hfs => h.not_mem hfs, fun h => ?_⟩
  by_contra hquotable
  obtain ⟨s, hs⟩ := exists_assignment_iff.2 hquotable
  have hcarries := carries_of_assignment isWhiteSpace_isBlank hsymbol hs
  exact h _ _ hcarries.fields_eq List.mem_cons_self

/-! ## Rendering -/

section

variable {vars : Bindings} {entries : List FlagEntry}

theorem renderOne_eq_ok_iff {e : FlagEntry} {flag : String} :
    renderOne vars e = .ok flag ↔ ∃ value s, vars.get? e.source = some value ∧
      assignment e.symbol value = .ok s ∧ flag = "-X " ++ s := by
  unfold renderOne
  cases vars.get? e.source with
  | none => exact ⟨nofun, fun ⟨_, _, h, _⟩ => absurd h nofun⟩
  | some value =>
    dsimp only
    cases hs : assignment e.symbol value with
    | error refusal =>
      refine ⟨nofun, fun ⟨_, _, hvalue, h, _⟩ => ?_⟩
      obtain rfl := Option.some.inj hvalue
      exact absurd (hs.symm.trans h) nofun
    | ok s =>
      constructor
      · exact fun h => ⟨value, s, rfl, hs, (Except.ok.inj h).symm⟩
      · rintro ⟨_, s', hvalue, h, rfl⟩
        obtain rfl := Option.some.inj hvalue
        obtain rfl := Except.ok.inj (hs.symm.trans h)
        rfl

/-- An entry has a flag exactly when its variable has a value that can be written. -/
theorem exists_renderOne_iff {e : FlagEntry} :
    (∃ flag, renderOne vars e = .ok flag) ↔
      ∃ value, vars.get? e.source = some value ∧ ¬Unquotable (e.symbol ++ "=" ++ value) := by
  simp only [renderOne_eq_ok_iff, ← exists_assignment_iff]
  constructor
  · rintro ⟨_, value, s, hvalue, hs, -⟩
    exact ⟨value, hvalue, s, hs⟩
  · rintro ⟨value, hvalue, s, hs⟩
    exact ⟨_, value, s, hvalue, hs, rfl⟩

theorem render_eq_ok_iff {flags : List String} :
    render entries vars = .ok flags ↔ ∃ rendered, flags = strip ++ rendered ∧
      List.Forall₂ (fun e flag => renderOne vars e = .ok flag) entries rendered := by
  simp only [← mapM_eq_ok_iff]
  unfold render
  cases entries.mapM (renderOne vars) with
  | error refusal => exact ⟨nofun, fun ⟨_, _, h⟩ => absurd h nofun⟩
  | ok rendered =>
    constructor
    · exact fun h => ⟨rendered, (Except.ok.inj h).symm, rfl⟩
    · rintro ⟨_, rfl, h⟩
      obtain rfl := Except.ok.inj h
      rfl

/-- The flags that are missing are those of entries without a value. -/
theorem get?_of_render_eq_error {e : FlagEntry} (h : render entries vars = .error (.unresolved e)) :
    e ∈ entries ∧ vars.get? e.source = none := by
  unfold render at h
  cases hall : entries.mapM (renderOne vars) with
  | ok rendered =>
    rw [hall] at h
    exact absurd h nofun
  | error refusal =>
    rw [hall] at h
    obtain ⟨e', he', hone⟩ := exists_of_mapM_eq_error hall
    obtain rfl : refusal = .unresolved e := Except.error.inj h
    unfold renderOne at hone
    cases hvalue : vars.get? e'.source with
    | none =>
      rw [hvalue] at hone
      obtain rfl := Refusal.unresolved.inj (Except.error.inj hone)
      exact ⟨he', hvalue⟩
    | some value =>
      rw [hvalue] at hone
      have hassigns := assigns e'.symbol value
      dsimp only at hone
      cases hassignment : assignment e'.symbol value with
      | ok s =>
        rw [hassignment] at hone
        exact absurd hone nofun
      | error refusal =>
        rw [hassignment] at hone hassigns
        cases hassigns
        exact absurd hone nofun

/-- The flags of an entry with a value, as the linker is to read them. -/
def injected (e : FlagEntry) (value : String) : List String := ["-X", e.symbol ++ "=" ++ value]

theorem carries_of_renderOne {ws : Char → Bool} (hws : IsWhiteSpace ws) {e : FlagEntry}
    (hsymbol : StartsBare e.symbol) {value s : String} (h : assignment e.symbol value = .ok s) :
    Carries ws ("-X " ++ s).toList (injected e value) := by
  have hoption : Carries ws "-X".toList ["-X"] :=
    carries_bare hws (by decide) (by decide) (by decide)
  have happend := hoption.append (carries_of_assignment hws hsymbol h) hws.space
  rw [String.toList_append]
  exact happend

/-- Rendered flags carry their symbols and values, by induction on the entries. -/
theorem exists_carries (hsymbols : ∀ e ∈ entries, StartsBare e.symbol) {rendered : List String}
    (h : List.Forall₂ (fun e flag => renderOne vars e = .ok flag) entries rendered) :
    ∃ values, List.Forall₂ (fun e value => vars.get? e.source = some value) entries values ∧
      ∀ ws, IsWhiteSpace ws → List.Forall₂ (fun s fs => Carries ws s.toList fs) rendered
        (List.zipWith injected entries values) := by
  induction h with
  | nil => exact ⟨[], .nil, fun _ _ => .nil⟩
  | @cons e flag entries rendered he _ ih =>
    obtain ⟨value, s, hvalue, hs, rfl⟩ := renderOne_eq_ok_iff.1 he
    obtain ⟨values, hvalues, hcarries⟩ :=
      ih fun e' he' => hsymbols e' (List.mem_cons_of_mem e he')
    have hsymbol := hsymbols e List.mem_cons_self
    exact ⟨value :: values, .cons hvalue hvalues, fun ws hws =>
      .cons (carries_of_renderOne hws hsymbol hs) (hcarries ws hws)⟩

theorem injectionCount_of_rendered {rendered : List String}
    (h : List.Forall₂ (fun e flag => renderOne vars e = .ok flag) entries rendered) :
    injectionCount (strip ++ rendered) = entries.length := by
  have hstrip : strip.filter (Text.startsWith · "-X ") = [] := by decide
  unfold injectionCount
  rw [List.filter_append, hstrip, List.nil_append]
  induction h with
  | nil => rfl
  | @cons e flag entries rendered he _ ih =>
    obtain ⟨_, s, -, -, rfl⟩ := renderOne_eq_ok_iff.1 he
    have hflag : Text.startsWith ("-X " ++ s) "-X " = true := Text.startsWith_append _ _
    rw [List.filter_cons, if_pos hflag, List.length_cons, ih, List.length_cons]

theorem carries_strip {ws : Char → Bool} (hws : IsWhiteSpace ws) :
    List.Forall₂ (fun s fs => Carries ws s.toList fs) strip [["-s"], ["-w"]] := by
  have hcarries : ∀ s ∈ strip, Carries ws s.toList [s] := by
    intro s hs
    have hword : IsWord s ∧ s ≠ "" ∧ s.toList.head?.any isQuote = false := by
      revert s
      decide
    exact carries_bare hws hword.1 hword.2.1 hword.2.2
  exact .cons (hcarries _ (by decide)) (.cons (hcarries _ (by decide)) .nil)

/-- Flags are rendered exactly when each entry has a variable with a value, and none of the
assignments has white space and both quotes, which is to say that no text carries it. From the flags
joined the linker then reads, whatever it takes for white space, the two that always come first, and
for each entry, in order, `-X` and the assignment with the value as it was. -/
theorem fields_of_render (entries : List FlagEntry) (vars : Bindings)
    (hsymbols : ∀ e ∈ entries, StartsBare e.symbol) :
    ((∃ flags, render entries vars = .ok flags) ↔ ∀ e ∈ entries, ∃ value,
      vars.get? e.source = some value ∧ ¬Unquotable (e.symbol ++ "=" ++ value)) ∧
    (∀ e ∈ entries, ∀ value, Unquotable (e.symbol ++ "=" ++ value) ↔
      ∀ s fs, linkerFields Text.isBlank s = some fs → e.symbol ++ "=" ++ value ∉ fs) ∧
    ∀ flags, render entries vars = .ok flags →
      flags.length = 2 + entries.length ∧ injectionCount flags = entries.length ∧
      ∃ values, List.Forall₂ (fun e value => vars.get? e.source = some value) entries values ∧
        ∀ ws, IsWhiteSpace ws → linkerFields ws (joined flags) =
          some ("-s" :: "-w" :: (List.zipWith injected entries values).flatten) := by
  refine ⟨?_, fun e he value => unquotable_iff (hsymbols e he) value, fun flags hflags => ?_⟩
  · have hexists : (∃ flags, render entries vars = .ok flags) ↔
        ∃ rendered, entries.mapM (renderOne vars) = .ok rendered := by
      simp only [render_eq_ok_iff, mapM_eq_ok_iff]
      exact ⟨fun ⟨_, rendered, _, h⟩ => ⟨rendered, h⟩, fun ⟨_, h⟩ => ⟨_, _, rfl, h⟩⟩
    rw [hexists, exists_mapM_eq_ok_iff]
    exact forall₂_congr fun e _ => exists_renderOne_iff
  · obtain ⟨rendered, rfl, hrendered⟩ := render_eq_ok_iff.1 hflags
    obtain ⟨values, hvalues, hcarries⟩ := exists_carries hsymbols hrendered
    refine ⟨?_, injectionCount_of_rendered hrendered, values, hvalues, fun ws hws => ?_⟩
    · rw [List.length_append, hrendered.length_eq]
      rfl
    · have hall := List.rel_append (carries_strip hws) (hcarries ws hws)
      exact (carries_joined hws hall).fields_eq

/-- A value with blanks and an apostrophe arrives in one piece. -/
theorem fields_of_render_apostrophe :
    let entries : List FlagEntry := [⟨"main.Vendor", "vendor"⟩]
    let vars := Bindings.ofList [("vendor", "Kiln's \t Builders")]
    (∀ e ∈ entries, StartsBare e.symbol) ∧ ∃ flags, render entries vars = .ok flags ∧
      linkerFields (· == ' ') (joined flags) =
        some ["-s", "-w", "-X", "main.Vendor=Kiln's \t Builders"] := by
  intro entries vars
  have hsymbols : ∀ e ∈ entries, StartsBare e.symbol := by decide
  have hvalue : vars.get? "vendor" = some "Kiln's \t Builders" := by decide
  have hws : IsWhiteSpace (· == ' ') := ⟨rfl, fun c hc => by rw [beq_iff_eq.1 hc]; decide⟩
  obtain ⟨hiff, -, hread⟩ := fields_of_render entries vars hsymbols
  obtain ⟨flags, hflags⟩ := hiff.2 fun e he => by
    obtain rfl := List.mem_singleton.1 he
    exact ⟨_, hvalue, by decide⟩
  obtain ⟨-, -, values, hvalues, hfields⟩ := hread flags hflags
  obtain ⟨value, values, he, hnil, rfl⟩ := List.forall₂_cons_left_iff.1 hvalues
  obtain rfl := List.forall₂_nil_left_iff.1 hnil
  obtain rfl := Option.some.inj (hvalue.symm.trans he)
  exact ⟨hsymbols, flags, hflags, hfields _ hws⟩

end

end Formulary.Flags
