import Formulary.Formula.Template
import Formulary.Proofs.Bindings
import Formulary.Proofs.Text

/-!
# Templates and substitution

A template is put together from pieces : literal text, and slots, each of them the placeholder of a
name. Names are replaced one after the other, each throughout the whole text, so that a value which
was put in could complete a placeholder or hold one. When no value has a percent sign in it none
does, and the outcome is that of filling all slots at once (`substitute_template`), whatever the
order of the names.
-/

namespace Formulary

/-! ## Pieces -/

/-- A text that can be the name in a placeholder. -/
structure IsKey (s : String) : Prop where
  percent : '%' ∉ s.toList
  closing : ')' ∉ s.toList

instance (s : String) : Decidable (IsKey s) :=
  decidable_of_iff ('%' ∉ s.toList ∧ ')' ∉ s.toList) ⟨fun h => ⟨h.1, h.2⟩, fun h => ⟨h.1, h.2⟩⟩

/-- A part of a template. -/
inductive Piece where
  | literal (text : String)
  | slot (name : String)
deriving DecidableEq

namespace Piece

/-- How the piece is written. -/
def text : Piece → String
  | literal s => s
  | slot name => placeholder name

/-- No placeholder starts in a literal, not even with the last character. -/
def IsProper : Piece → Prop
  | literal s => Text.contains s "%(" = false ∧ Text.endsWith s "%" = false
  | slot name => IsKey name

instance (p : Piece) : Decidable p.IsProper :=
  match p with
  | literal _ => inferInstanceAs (Decidable (_ ∧ _))
  | slot name => inferInstanceAs (Decidable (IsKey name))

/-- The piece with its slot filled, if the name has a value. -/
def fill (value? : String → Option String) : Piece → Piece
  | literal s => literal s
  | slot name => ((value? name).map literal).getD (slot name)

end Piece

theorem Piece.fill_single (name : String) (entry : String × String) :
    (slot name).fill (List.lookup · [entry]) =
      if name = entry.1 then literal entry.2 else slot name := by
  obtain ⟨other, value⟩ := entry
  simp only [fill, Bindings.lookup_of_cons]
  split <;> rfl

/-- The template that is written by these pieces. -/
def template (pieces : List Piece) : String := String.join (pieces.map Piece.text)

theorem template_cons (p : Piece) (pieces : List Piece) :
    template (p :: pieces) = p.text ++ template pieces := by
  simp [template]

/-! ## Placeholders -/

theorem toList_placeholder (name : String) :
    (placeholder name).toList = '%' :: '(' :: (name.toList ++ [')', 's']) := by
  simp [placeholder, String.toList_append]

/-- Where a placeholder is written, one of another name is not found. -/
theorem eq_of_prefix_placeholder {name other : String} (hname : IsKey name) (hother : IsKey other)
    {rest : List Char} (h : (placeholder name).toList <+: (placeholder other).toList ++ rest) :
    name = other := by
  have hall : ∀ s, IsKey s → ∀ c ∈ s.toList, (c != ')') = true := fun s hs c hc => by
    rw [bne_iff_ne]
    rintro rfl
    exact hs.closing hc
  simp only [toList_placeholder, List.cons_append, List.cons_prefix_cons, true_and] at h
  obtain ⟨more, hmore⟩ := h
  -- both names are what comes before the first closing bracket
  have htake := congrArg (List.takeWhile (· != ')')) hmore
  simp only [List.append_assoc, List.takeWhile_append_of_pos (hall name hname),
    List.takeWhile_append_of_pos (hall other hother)] at htake
  simpa [String.toList_inj] using htake

/-- When nothing follows, that goes for any text in place of the name. -/
theorem eq_of_prefix_placeholder_end {name other : String} (hother : IsKey other)
    (h : (placeholder name).toList <+: (placeholder other).toList) : name = other := by
  simp only [toList_placeholder, List.cons_prefix_cons, true_and] at h
  have hle := h.length_le
  simp only [List.length_append, List.length_cons, List.length_nil] at hle
  obtain ⟨left, hleft⟩ : name.toList <+: other.toList :=
    List.prefix_of_prefix_length_le ((List.prefix_append _ _).trans h) (List.prefix_append _ _)
      (by omega)
  cases left with
  | nil => simpa [String.toList_inj] using hleft
  | cons c left =>
    rw [← hleft, List.append_assoc, List.prefix_append_right_inj, List.cons_append,
      List.cons_prefix_cons] at h
    refine absurd ?_ hother.closing
    rw [← hleft, h.1]
    simp

/-! ## Replacing one name -/

/-- The template with the placeholder of one name replaced, as characters. -/
theorem toList_fillOne (s : String) (entry : String × String) :
    (fillOne s entry).toList =
      Text.replaceChars (placeholder entry.1).toList entry.2.toList s.toList := by
  simp [fillOne, Text.replace]

/-- No placeholder is found in a literal, nor across its end. -/
theorem replaceChars_literal {pat new cs : List Char} (hopen : Text.occursIn ['%', '('] cs = false)
    (hlast : cs.getLast? ≠ some '%') (rest : List Char) :
    Text.replaceChars ('%' :: '(' :: pat) new (cs ++ rest) =
      cs ++ Text.replaceChars ('%' :: '(' :: pat) new rest := by
  induction cs with
  | nil => rfl
  | cons c cs ih =>
    rw [Text.occursIn, Bool.or_eq_false_iff] at hopen
    have hnot : ¬('%' :: '(' :: pat <+: c :: (cs ++ rest)) := by
      intro h
      obtain ⟨hc, h⟩ := List.cons_prefix_cons.1 h
      cases cs with
      | nil => exact hlast (by rw [← hc]; rfl)
      | cons d cs =>
        have hd := (List.cons_prefix_cons.1 h).1
        simp [← hc, ← hd] at hopen
    have hlast' : cs.getLast? ≠ some '%' := by
      cases cs with
      | nil => simp
      | cons d cs => simpa using hlast
    rw [List.cons_append, Text.replaceChars_cons hnot, ih hopen.2 hlast', List.cons_append]

/-- The placeholder of another name is passed over. -/
theorem replaceChars_slot {name other : String} (hother : IsKey other) (new : List Char)
    {rest : List Char}
    (h : ¬(placeholder name).toList <+: (placeholder other).toList ++ rest) :
    Text.replaceChars (placeholder name).toList new ((placeholder other).toList ++ rest) =
      (placeholder other).toList ++ Text.replaceChars (placeholder name).toList new rest := by
  have htail : '%' ∉ '(' :: (other.toList ++ [')', 's']) := by simp [hother.percent]
  rw [toList_placeholder other, List.cons_append] at h ⊢
  rw [Text.replaceChars_cons h, toList_placeholder name, Text.replaceChars_append_of_not_mem htail]
  rfl

/-- Replacing one name in a template fills its slots, by induction on the pieces. -/
theorem fillOne_template {entry : String × String} (hname : IsKey entry.1) {pieces : List Piece}
    (h : ∀ p ∈ pieces, p.IsProper) :
    fillOne (template pieces) entry =
      template (pieces.map (Piece.fill (List.lookup · [entry]))) := by
  rw [← String.toList_inj, toList_fillOne]
  induction pieces with
  | nil => rfl
  | cons p pieces ih =>
    have ih := ih fun q hq => h q (List.mem_cons_of_mem p hq)
    have hp := h p List.mem_cons_self
    rw [template_cons, List.map_cons, template_cons, String.toList_append, String.toList_append,
      ← ih]
    cases p with
    | literal s =>
      have hlast : s.toList.getLast? ≠ some '%' := fun hs =>
        absurd ((Text.endsWith_singleton s '%').2 hs) (by simpa using hp.2)
      rw [toList_placeholder]
      exact replaceChars_literal hp.1 hlast _
    | slot other =>
      rw [Piece.fill_single]
      by_cases hother : other = entry.1
      · rw [if_pos hother, hother]
        exact Text.replaceChars_append (by simp [toList_placeholder]) _ _
      · rw [if_neg hother]
        exact replaceChars_slot hp _ fun hfound =>
          hother (eq_of_prefix_placeholder hname hp hfound).symm

/-! ## A placeholder alone -/

theorem fillOne_placeholder (name value : String) :
    fillOne (placeholder name) (name, value) = value := by
  have hpat : (placeholder name).toList ≠ [] := by simp [toList_placeholder]
  have happend := Text.replaceChars_append hpat value.toList []
  simpa [← String.toList_inj, toList_fillOne] using happend

theorem fillOne_placeholder_of_ne {name : String} (hname : IsKey name) {entry : String × String}
    (h : entry.1 ≠ name) : fillOne (placeholder name) entry = placeholder name := by
  have hnot : ¬(placeholder entry.1).toList <+: (placeholder name).toList ++ [] :=
    fun hfound => h (eq_of_prefix_placeholder_end hname (by simpa using hfound))
  have hslot := replaceChars_slot hname entry.2.toList hnot
  simpa [← String.toList_inj, toList_fillOne] using hslot

/-- A name whose placeholder is not in the text changes nothing. -/
theorem fillOne_of_not_contains {s : String} {entry : String × String}
    (h : Text.contains s (placeholder entry.1) = false) : fillOne s entry = s := by
  rw [← String.toList_inj, toList_fillOne]
  exact Text.replaceChars_of_not_occursIn h

theorem not_contains_placeholder {s : String} (h : '%' ∉ s.toList) (name : String) :
    Text.contains s (placeholder name) = false := by
  rw [Text.contains, toList_placeholder]
  exact Text.occursIn_of_not_mem h

theorem foldl_fillOne_of_forall {s : String} {entries : List (String × String)}
    (h : ∀ e ∈ entries, fillOne s e = s) : entries.foldl fillOne s = s := by
  induction entries with
  | nil => rfl
  | cons e entries ih =>
    rw [List.foldl_cons, h e List.mem_cons_self]
    exact ih fun e' he' => h e' (List.mem_cons_of_mem e he')

/-- What is replaced after a value at hand was put in : the greater names at hand, and the variables
of the formula. -/
def Formula.replacedAfter (f : Formula) (extra : Bindings) (name : String) :
    List (String × String) :=
  extra.entries.filter (name < ·.1) ++ f.vars.entries

/-- The placeholder of a name at hand becomes its value, in which the names that come later are
replaced. -/
theorem substitute_placeholder (f : Formula) {extra : Bindings} {name value : String}
    (hkey : IsKey name) (hname : name ≠ "name") (hversion : name ≠ "version")
    (h : extra.get? name = some value) :
    f.substitute (placeholder name) extra = (f.replacedAfter extra name).foldl fillOne value := by
  obtain ⟨before, later, hentries, hlater, hbefore⟩ := Bindings.exists_entries_eq h
  have hsubstitutions : f.substitutions extra =
      (("name", f.identity.name) :: (f.version?.map fun v => ("version", v)).toList ++ before) ++
        (name, value) :: f.replacedAfter extra name := by
    rw [Formula.substitutions, Formula.replacedAfter, hlater, hentries]
    simp
  have hstays : ∀ e ∈ ("name", f.identity.name) ::
      (f.version?.map fun v => ("version", v)).toList ++ before,
      fillOne (placeholder name) e = placeholder name := by
    intro e he
    refine fillOne_placeholder_of_ne hkey ?_
    simp only [List.cons_append, List.mem_cons, List.mem_append, Option.mem_toList,
      Option.map_eq_some_iff] at he
    rcases he with rfl | ⟨v, -, rfl⟩ | he
    · exact hname.symm
    · exact hversion.symm
    · exact hbefore e he
  unfold Formula.substitute
  rw [hsubstitutions, List.foldl_append, foldl_fillOne_of_forall hstays, List.foldl_cons,
    fillOne_placeholder]

/-! ## Replacing many names -/

theorem Piece.isProper_literal {s : String} (h : '%' ∉ s.toList) : (literal s).IsProper := by
  refine ⟨Text.occursIn_of_not_mem h, Bool.eq_false_iff.2 fun hends => h ?_⟩
  exact List.mem_of_getLast? ((Text.endsWith_singleton s '%').1 hends)

theorem Piece.IsProper.fill {p : Piece} (hp : p.IsProper) {value? : String → Option String}
    (h : ∀ name value, value? name = some value → '%' ∉ value.toList) :
    (p.fill value?).IsProper := by
  cases p with
  | literal s => exact hp
  | slot name =>
    cases hvalue : value? name with
    | none => simpa [Piece.fill, hvalue] using hp
    | some value => simpa [Piece.fill, hvalue] using isProper_literal (h name value hvalue)

/-- What is left unfilled by some values may be filled by others. -/
theorem Piece.fill_fill (p : Piece) (first? second? : String → Option String) :
    (p.fill first?).fill second? = p.fill fun name => (first? name).or (second? name) := by
  cases p with
  | literal s => rfl
  | slot name => cases hfirst : first? name <;> simp [Piece.fill, hfirst]

/-- Replacing names without percent signs in their values fills the slots of all of them, each with
its first value. The pieces stay proper, which carries the induction on the names. -/
theorem foldl_fillOne_template {entries : List (String × String)}
    (hentries : ∀ e ∈ entries, IsKey e.1 ∧ '%' ∉ e.2.toList) {pieces : List Piece}
    (h : ∀ p ∈ pieces, p.IsProper) :
    entries.foldl fillOne (template pieces) =
      template (pieces.map (Piece.fill (List.lookup · entries))) := by
  induction entries generalizing pieces with
  | nil =>
    have hfill : (Piece.fill fun name => List.lookup name ([] : List (String × String))) = id := by
      funext p
      cases p <;> rfl
    rw [hfill, List.map_id]
    rfl
  | cons entry entries ih =>
    obtain ⟨hname, hvalue⟩ := hentries entry List.mem_cons_self
    have hproper : ∀ p ∈ pieces.map (Piece.fill (List.lookup · [entry])), p.IsProper := by
      intro q hq
      obtain ⟨p, hp, rfl⟩ := List.mem_map.1 hq
      refine (h p hp).fill fun name value hlookup => ?_
      rw [Bindings.lookup_of_cons] at hlookup
      split at hlookup
      · exact Option.some.inj hlookup ▸ hvalue
      · cases hlookup
    have happend : ∀ name, List.lookup name (entry :: entries) =
        (List.lookup name [entry]).or (List.lookup name entries) :=
      fun name => (List.lookup_append : List.lookup name ([entry] ++ entries) = _)
    rw [List.foldl_cons, fillOne_template hname h,
      ih (fun e he => hentries e (List.mem_cons_of_mem entry he)) hproper, List.map_map]
    congr 2
    funext p
    simp only [Function.comp_apply, Piece.fill_fill, happend]

/-! ## The values of a formula -/

namespace Formula

/-- The value that a name has in templates : name and version are those of the formula, the values
at hand come next, and the variables of the formula last. -/
def valueOf? (f : Formula) (extra : Bindings) (name : String) : Option String :=
  if name = "name" then some f.identity.name
  else ((if name = "version" then f.version? else none).or (extra.get? name)).or (f.vars.get? name)

theorem lookup_substitutions (f : Formula) (extra : Bindings) (name : String) :
    (f.substitutions extra).lookup name = f.valueOf? extra name := by
  have hversion : (f.version?.map fun v => ("version", v)).toList.lookup name =
      if name = "version" then f.version? else none := by
    cases f.version? with
    | none => simp
    | some v => exact Bindings.lookup_of_cons name "version" v []
  unfold substitutions valueOf?
  rw [Bindings.lookup_of_cons, List.lookup_append, List.lookup_append, hversion]
  rfl

/-- A placeholder alone becomes the value of its name, when that has no percent sign in it. -/
theorem substitute_placeholder_of_valueOf? {f : Formula} {extra : Bindings} {name value : String}
    (hkey : IsKey name) (h : f.valueOf? extra name = some value) (hvalue : '%' ∉ value.toList) :
    f.substitute (placeholder name) extra = value := by
  rw [← lookup_substitutions, List.lookup_eq_some_iff] at h
  obtain ⟨before, later, hsubstitutions, hbefore⟩ := h
  have hstays : ∀ e ∈ before, fillOne (placeholder name) e = placeholder name :=
    fun e he => fillOne_placeholder_of_ne hkey (Ne.symm (by simpa using hbefore e he))
  unfold substitute
  rw [hsubstitutions, List.foldl_append, foldl_fillOne_of_forall hstays, List.foldl_cons,
    fillOne_placeholder]
  exact foldl_fillOne_of_forall fun e _ =>
    fillOne_of_not_contains (not_contains_placeholder hvalue e.1)

/-- All names can be told in placeholders, and no value has a percent sign in it. -/
structure IsPlain (f : Formula) (extra : Bindings) : Prop where
  name : '%' ∉ f.identity.name.toList
  version : ∀ v ∈ f.version?, '%' ∉ v.toList
  entries : ∀ e ∈ extra.entries ++ f.vars.entries, IsKey e.1 ∧ '%' ∉ e.2.toList

theorem IsPlain.substitutions {f : Formula} {extra : Bindings} (h : f.IsPlain extra) :
    ∀ e ∈ f.substitutions extra, IsKey e.1 ∧ '%' ∉ e.2.toList := by
  intro e he
  rw [Formula.substitutions, List.append_assoc, List.mem_cons, List.mem_append] at he
  have hkeys : IsKey "name" ∧ IsKey "version" := by decide
  rcases he with rfl | he | he
  · exact ⟨hkeys.1, h.name⟩
  · obtain ⟨v, hv, rfl⟩ : ∃ v ∈ f.version?, ("version", v) = e := by simpa using he
    exact ⟨hkeys.2, h.version v hv⟩
  · exact h.entries e he

/-- Replacing the names one after the other is replacing all of them at once : literals stay, each
slot is filled with the value of its name, and one without a value is left as it is written. So
the names can be replaced in any order in which each keeps its first value. -/
theorem substitute_template (f : Formula) (extra : Bindings) (hplain : f.IsPlain extra)
    (pieces : List Piece) (h : ∀ p ∈ pieces, p.IsProper) :
    f.substitute (template pieces) extra = template (pieces.map (Piece.fill (f.valueOf? extra))) ∧
    ∀ order : List (String × String), order ⊆ f.substitutions extra →
      (∀ name, order.lookup name = (f.substitutions extra).lookup name) →
      order.foldl fillOne (template pieces) = f.substitute (template pieces) extra := by
  have hall : f.substitute (template pieces) extra =
      template (pieces.map (Piece.fill (f.valueOf? extra))) := by
    unfold substitute
    rw [foldl_fillOne_template hplain.substitutions h]
    simp only [lookup_substitutions]
  refine ⟨hall, fun order hsubset hlookup => ?_⟩
  rw [hall, foldl_fillOne_template (fun e he => hplain.substitutions e (hsubset he)) h]
  simp only [hlookup, lookup_substitutions]

/-- A percent sign alone, a bracket after a value, a version that is shadowed, and a name without a
value. -/
theorem substitute_template_hello :
    let f : Formula := {
      identity := { name := "hello", version := some "1.0" }
      source := { url := "hello.tar", checksum := "" }
      build := { command := [], output := "hello" }
      vars := .ofList [("greeting", "hi")] }
    let extra := Bindings.ofList [("jobs", "4"), ("version", "9")]
    let pieces : List Piece := [.literal "100% ", .slot "name", .literal "-", .slot "version",
      .literal "(", .slot "greeting", .literal ")s", .slot "other"]
    let order := [("greeting", "hi"), ("version", "1.0"), ("jobs", "4"), ("name", "hello")]
    (f.IsPlain extra ∧ ∀ p ∈ pieces, p.IsProper) ∧
    (order ⊆ f.substitutions extra ∧
      ∀ name, order.lookup name = (f.substitutions extra).lookup name) ∧
    f.substitute (template pieces) extra = "100% hello-1.0(hi)s%(other)s" ∧
    order.foldl fillOne (template pieces) = "100% hello-1.0(hi)s%(other)s" := by
  intro f extra pieces order
  have hplain : f.IsPlain extra := ⟨by decide, by decide +kernel, by decide⟩
  have hproper : ∀ p ∈ pieces, p.IsProper := by decide
  have hsubset : order ⊆ f.substitutions extra := by decide +kernel
  have hlookup : ∀ name, order.lookup name = (f.substitutions extra).lookup name := by
    intro name
    have hsubstitutions : f.substitutions extra = [("name", "hello"), ("version", "1.0"),
        ("jobs", "4"), ("version", "9"), ("greeting", "hi")] := rfl
    simp only [hsubstitutions, order, Bindings.lookup_of_cons]
    grind
  have hfilled : template (pieces.map (Piece.fill (f.valueOf? extra))) =
      "100% hello-1.0(hi)s%(other)s" := rfl
  obtain ⟨hall, horder⟩ := substitute_template f extra hplain pieces hproper
  rw [hfilled] at hall
  exact ⟨⟨hplain, hproper⟩, ⟨hsubset, hlookup⟩, hall, (horder order hsubset hlookup).trans hall⟩

end Formula

end Formulary
