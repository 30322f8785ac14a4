import Mathlib.Algebra.GroupWithZero.Nat
import Mathlib.Data.List.DropRight
import Mathlib.Data.List.TakeWhile
import Formulary.Text.Utf8

/-!
# Splitting, searching and measuring text

A text is split at a separator as its two parts are (`split_append`), or at its first one
(`splitOnce_eq_some_iff`). A text without blank characters is its own trimming
(`trimChars_of_forall`), and so is every trimmed text (`trim_trim`). Decimal digits are read as the
number that they write (`number?_of_forall`). The length of a text in bytes is that of its parts
together (`byteLength_append`). A pattern is replaced where it is found (`replaceChars_append`), and
a character stays where it is not (`replaceChars_cons`). That a text avoids some characters
(`Text.Avoids`) is said of its parts (`avoids_append_iff`).
-/

namespace Formulary.Text

variable {sep : Char → Bool} {c : Char} {cs ds : List Char}

theorem ofList_eq_iff {s : String} : String.ofList cs = s ↔ cs = s.toList := by
  rw [← String.toList_inj, String.toList_ofList]

/-! ## Ends -/

/-- None of the characters is in the text. -/
def Avoids (s : String) (cut : List Char) : Prop := ∀ c ∈ s.toList, c ∉ cut

instance (s : String) (cut : List Char) : Decidable (Avoids s cut) :=
  decidable_of_iff ((s.toList.all fun c => !cut.contains c) = true) (by simp [Avoids])

theorem Avoids.mono {s : String} {cut cut' : List Char} (h : Avoids s cut') (hsub : cut ⊆ cut') :
    Avoids s cut :=
  fun c hc hmem => h c hc (hsub hmem)

theorem avoids_append_iff {s t : String} {cut : List Char} :
    Avoids (s ++ t) cut ↔ Avoids s cut ∧ Avoids t cut := by
  simp only [Avoids, String.toList_append, List.forall_mem_append]

theorem ends_iff {s : String} {c : Char} :
    (s = "" ∨ s.toList.getLast? = some c) ↔ ∀ d ∈ s.toList.getLast?, d = c := by
  rw [← String.toList_eq_nil_iff, ← List.getLast?_eq_none_iff]
  cases s.toList.getLast? <;> simp

theorem opens_iff {s : String} {c d : Char} :
    (s = "" ∨ s.toList.head? = some c ∨ s.toList.head? = some d) ↔
      ∀ e ∈ s.toList.head?, e ∈ [c, d] := by
  rw [← String.toList_eq_nil_iff, ← List.head?_eq_none_iff]
  cases s.toList.head? <;> simp

theorem takeWhile_of_head {p : Char → Bool} (h : ∀ d ∈ cs.head?, p d = false) :
    cs.takeWhile p = [] := by
  cases cs with
  | nil => rfl
  | cons d cs => exact List.takeWhile_cons_of_neg (by simp [h d rfl])

theorem dropWhile_of_head {p : Char → Bool} (h : ∀ d ∈ cs.head?, p d = false) :
    cs.dropWhile p = cs := by
  cases cs with
  | nil => rfl
  | cons d cs => exact List.dropWhile_cons_of_neg (by simp [h d rfl])

/-! ## Splitting -/

theorem split_cons_of_not (hc : sep c = false) (cs : List Char) :
    ∃ piece pieces, split sep cs = piece :: pieces ∧
      split sep (c :: cs) = (c :: piece) :: pieces := by
  cases hcs : split sep cs with
  | nil => exact absurd hcs (split_ne_nil sep cs)
  | cons piece pieces => exact ⟨piece, pieces, rfl, by simp [split, hc, hcs]⟩

/-- A separator splits what is before it from what is after it. -/
theorem split_append (hc : sep c = true) (cs ds : List Char) :
    split sep (cs ++ c :: ds) = split sep cs ++ split sep ds := by
  induction cs with
  | nil => simp [split, hc]
  | cons d cs ih =>
    by_cases hd : sep d = true
    · simp [split, hd, ih]
    · rw [Bool.not_eq_true] at hd
      obtain ⟨piece, pieces, hcs, hdcs⟩ := split_cons_of_not hd cs
      obtain ⟨piece', pieces', hall, hdall⟩ := split_cons_of_not hd (cs ++ c :: ds)
      rw [List.cons_append, hdall, hdcs]
      rw [ih, hcs, List.cons_append] at hall
      obtain ⟨rfl, rfl⟩ := List.cons.inj hall
      rfl

/-- A text without separators is one piece. -/
theorem split_of_forall (h : ∀ d ∈ cs, sep d = false) : split sep cs = [cs] := by
  induction cs with
  | nil => rfl
  | cons d cs ih =>
    have hd := h d List.mem_cons_self
    simp [split, hd, ih fun e he => h e (List.mem_cons_of_mem d he)]

theorem split_of_not_mem {sep : Char} (h : sep ∉ cs) : split (· == sep) cs = [cs] :=
  split_of_forall fun _ hd => beq_eq_false_iff_ne.2 fun hsep => h (hsep ▸ hd)

/-- Where there is no separator, nothing is split. -/
theorem splitOnce_of_not_mem {sep : Char} {s : String} (h : sep ∉ s.toList) :
    splitOnce sep s = none := by
  have hall : s.toList.dropWhile (· != sep) = [] :=
    List.dropWhile_eq_nil_iff.2 fun d hd => bne_iff_ne.2 fun hsep => h (hsep ▸ hd)
  unfold splitOnce
  rw [hall]

/-- A text is split at its first separator. -/
theorem splitOnce_of_append {sep : Char} {s : String} (hs : s.toList = cs ++ sep :: ds)
    (hcs : sep ∉ cs) : splitOnce sep s = some (String.ofList cs, String.ofList ds) := by
  have hall : ∀ d ∈ cs, (d != sep) = true := fun d hd => bne_iff_ne.2 fun hsep => hcs (hsep ▸ hd)
  unfold splitOnce
  rw [hs, List.takeWhile_append_of_pos hall, List.dropWhile_append_of_pos hall]
  simp

theorem splitOnce_eq_some_iff {sep : Char} {s before after : String} :
    splitOnce sep s = some (before, after) ↔
      s.toList = before.toList ++ sep :: after.toList ∧ sep ∉ before.toList := by
  constructor
  · intro h
    by_cases hsep : sep ∈ s.toList
    · obtain ⟨cs, ds, hs, hcs⟩ := List.eq_append_cons_of_mem hsep
      obtain ⟨rfl, rfl⟩ := Prod.mk.inj (Option.some.inj ((splitOnce_of_append hs hcs).symm.trans h))
      rw [String.toList_ofList, String.toList_ofList]
      exact ⟨hs, hcs⟩
    · exact absurd ((splitOnce_of_not_mem hsep).symm.trans h) nofun
  · rintro ⟨hs, hbefore⟩
    rw [splitOnce_of_append hs hbefore, String.ofList_toList, String.ofList_toList]

/-! ## Trimming -/

theorem trimChars_eq_rdropWhile (cs : List Char) :
    trimChars cs = (cs.dropWhile isBlank).rdropWhile isBlank := rfl

theorem trimChars_of_forall (h : ∀ d ∈ cs, isBlank d = false) : trimChars cs = cs := by
  have hback : ∀ d ∈ cs.reverse.head?, isBlank d = false := fun d hd =>
    h d (List.mem_reverse.1 (List.mem_of_mem_head? hd))
  unfold trimChars
  rw [dropWhile_of_head fun d hd => h d (List.mem_of_mem_head? hd), dropWhile_of_head hback,
    List.reverse_reverse]

/-- Blank characters in front of a text are taken away, and those at the end of what is behind
it. -/
theorem trimChars_append {lead : List Char} (hlead : ∀ d ∈ lead, isBlank d = true) (hne : cs ≠ [])
    (hhead : ∀ d ∈ cs.head?, isBlank d = false) (hlast : ∀ d ∈ cs.getLast?, isBlank d = false)
    (ds : List Char) : trimChars (lead ++ cs ++ ds) = cs ++ ds.rdropWhile isBlank := by
  have hfront : (lead ++ cs ++ ds).dropWhile isBlank = cs ++ ds := by
    rw [List.append_assoc, List.dropWhile_append_of_pos hlead]
    exact dropWhile_of_head (by rwa [List.head?_append_of_ne_nil _ hne])
  have hback : cs.reverse.dropWhile isBlank = cs.reverse :=
    dropWhile_of_head (by rwa [List.head?_reverse])
  rw [trimChars_eq_rdropWhile, hfront, List.rdropWhile, List.reverse_append, List.dropWhile_append]
  split
  · rename_i hall
    rw [hback, List.reverse_reverse, List.rdropWhile, List.isEmpty_iff.1 hall]
    exact (List.append_nil cs).symm
  · rw [List.reverse_append, List.reverse_reverse, List.rdropWhile]

theorem head?_trimChars {d : Char} (hd : d ∈ (trimChars cs).head?) : isBlank d = false := by
  have hnot := List.head?_dropWhile_not isBlank cs
  obtain ⟨rest, hrest⟩ := List.head?_eq_some_iff.1 hd
  obtain ⟨more, hmore⟩ := List.rdropWhile_prefix isBlank (cs.dropWhile isBlank)
  rw [← trimChars_eq_rdropWhile, hrest] at hmore
  rwa [← hmore] at hnot

theorem trimChars_trimChars (cs : List Char) : trimChars (trimChars cs) = trimChars cs := by
  rw [trimChars_eq_rdropWhile (trimChars cs), dropWhile_of_head fun d => head?_trimChars,
    trimChars_eq_rdropWhile, List.rdropWhile_idempotent]

theorem trim_trim (s : String) : trim (trim s) = trim s := by
  unfold trim
  rw [String.toList_ofList, trimChars_trimChars]

/-! ## Search -/

theorem after?_append (pat cs : List Char) : after? pat (pat ++ cs) = some cs := by
  induction pat with
  | nil => rfl
  | cons p pat ih => simp [after?, ih]

theorem after?_eq_some_iff {pat rest : List Char} :
    after? pat cs = some rest ↔ cs = pat ++ rest := by
  constructor
  · intro h
    fun_induction after? pat cs with
    | case1 => exact Option.some.inj h
    | case2 => exact absurd h nofun
    | case3 p pat cs ih => rw [ih h, List.cons_append]
    | case4 => exact absurd h nofun
  · rintro rfl
    exact after?_append pat rest

theorem before?_eq_some_iff {pat rest : List Char} :
    before? pat cs = some rest ↔ cs = rest ++ pat := by
  unfold before?
  rw [Option.map_eq_some_iff]
  simp only [after?_eq_some_iff, List.reverse_eq_iff, exists_eq_right]
  rw [List.reverse_append, List.reverse_reverse, List.reverse_reverse]

theorem startsWith_append (s t : String) : startsWith (s ++ t) s = true := by
  unfold startsWith
  rw [String.toList_append, after?_append]
  rfl

theorem occursIn_iff {pat : List Char} : occursIn pat cs = true ↔ pat <:+: cs := by
  induction cs with
  | nil => rw [occursIn, List.isEmpty_iff, List.infix_nil]
  | cons c cs ih =>
    rw [occursIn, Bool.or_eq_true, List.isPrefixOf_iff_prefix, ih, List.infix_cons_iff]

theorem contains_iff {s pat : String} : contains s pat = true ↔ pat.toList <:+: s.toList :=
  occursIn_iff

theorem occursIn_of_not_mem {p : Char} {pat : List Char} (h : p ∉ cs) :
    occursIn (p :: pat) cs = false := by
  induction cs with
  | nil => rfl
  | cons c cs ih =>
    rw [List.mem_cons, not_or] at h
    simp [occursIn, List.isPrefixOf, h.1, ih h.2]

/-- The last character of a text ends it. -/
theorem endsWith_singleton (s : String) (c : Char) :
    endsWith s (String.singleton c) = true ↔ s.toList.getLast? = some c := by
  unfold endsWith before?
  rw [List.getLast?_eq_head?_reverse, String.toList_singleton, List.reverse_singleton]
  cases s.toList.reverse with
  | nil => simp [after?]
  | cons d ds => by_cases h : c = d <;> simp [after?, h, Ne.symm]

/-! ## Replacement -/

section

variable {pat new : List Char}

theorem replaceFrom_length (pat new ds cs : List Char) :
    replaceFrom pat new ds.length (ds ++ cs) = replaceChars pat new cs := by
  induction ds with
  | nil => rfl
  | cons d ds ih => exact ih

@[simp]
theorem replaceChars_nil : replaceChars pat new [] = [] := rfl

/-- The pattern is replaced where it is found. -/
theorem replaceChars_append (hpat : pat ≠ []) (new cs : List Char) :
    replaceChars pat new (pat ++ cs) = new ++ replaceChars pat new cs := by
  obtain ⟨p, ps, rfl⟩ := List.exists_cons_of_ne_nil hpat
  have hfound : (p :: ps).isPrefixOf (p :: (ps ++ cs)) = true :=
    List.isPrefixOf_iff_prefix.2 (List.prefix_append (p :: ps) cs)
  show replaceFrom (p :: ps) new 0 (p :: (ps ++ cs)) = _
  rw [replaceFrom, if_pos hfound, List.length_cons, Nat.add_sub_cancel, replaceFrom_length]

/-- A character stays where the pattern is not found. -/
theorem replaceChars_cons (h : ¬pat <+: c :: cs) :
    replaceChars pat new (c :: cs) = c :: replaceChars pat new cs := by
  unfold replaceChars
  rw [replaceFrom, if_neg fun hfound => h (List.isPrefixOf_iff_prefix.1 hfound)]

/-- A text that the pattern does not occur in stays. -/
theorem replaceChars_of_not_occursIn (h : occursIn pat cs = false) :
    replaceChars pat new cs = cs := by
  induction cs with
  | nil => rfl
  | cons c cs ih =>
    rw [occursIn, Bool.or_eq_false_iff] at h
    have hnot : ¬pat <+: c :: cs := fun hfound => by
      simp [List.isPrefixOf_iff_prefix.2 hfound] at h
    rw [replaceChars_cons hnot, ih h.2]

/-- Characters other than the first of the pattern stay. -/
theorem replaceChars_append_of_not_mem {p : Char} (h : p ∉ cs) (ds : List Char) :
    replaceChars (p :: pat) new (cs ++ ds) = cs ++ replaceChars (p :: pat) new ds := by
  induction cs with
  | nil => rfl
  | cons c cs ih =>
    rw [List.mem_cons, not_or] at h
    rw [List.cons_append, replaceChars_cons (by simp [h.1]), ih h.2, List.cons_append]

end

/-! ## Numbers -/

theorem isDigit_of_mem_toDigits {n : Nat} (h : c ∈ Nat.toDigits 10 n) : isDigit c = true :=
  Nat.isDigit_of_mem_toDigits (by decide) (by decide) h

theorem toNat_of_isDigit (h : isDigit c = true) : 48 ≤ c.toNat ∧ c.toNat ≤ 57 := by
  simpa [isDigit, Char.le_def, UInt32.le_iff_toNat_le] using h

theorem isBlank_of_isDigit (h : isDigit c = true) : isBlank c = false := by
  have hrange := toNat_of_isDigit h
  simp [isBlank]
  omega

theorem digitValue?_of_isDigit (h : isDigit c = true) :
    digitValue? 10 c = some (c.toNat - '0'.toNat) := by
  have hrange := toNat_of_isDigit h
  have hlt : c.toNat - 48 < 10 := by omega
  unfold isDigit at h
  unfold digitValue?
  rw [if_pos h]
  simp [hlt]

theorem foldlM_digitValue? (h : ∀ d ∈ cs, isDigit d = true) (n : Nat) :
    cs.foldlM (fun n d => (digitValue? 10 d).map (n * 10 + ·)) n =
      some (Nat.ofDigitChars 10 cs n) := by
  induction cs generalizing n with
  | nil => rfl
  | cons d cs ih =>
    rw [List.foldlM_cons, digitValue?_of_isDigit (h d List.mem_cons_self), Nat.ofDigitChars_cons,
      Nat.mul_comm 10 n]
    exact ih (fun e he => h e (List.mem_cons_of_mem d he)) _

/-- Decimal digits are read as the number that they write. -/
theorem number?_of_forall (hne : cs ≠ []) (h : ∀ d ∈ cs, isDigit d = true) :
    number? 10 cs = some (Nat.ofDigitChars 10 cs 0) := by
  unfold number?
  rw [if_neg (by simpa using hne), foldlM_digitValue? h]

/-! ## Bytes -/

/-- How many bytes a character has in a text that keeps every byte. -/
def width (c : Char) : Nat := if (charByte? c).isSome then 1 else c.utf8Size

theorem utf8Size_of_ascii (h : c.toNat < 128) : c.utf8Size = 1 :=
  Char.utf8Size_eq_one_iff.2 (UInt32.le_iff_toNat_le.2 (Nat.le_of_lt_succ h))

theorem width_of_ascii (h : c.toNat < 128) : width c = 1 := by
  have hnone : charByte? c = none := by
    unfold charByte?
    rw [if_neg (by omega)]
  simp only [width, hnone, Option.isSome_none, Bool.false_eq_true, if_false]
  exact utf8Size_of_ascii h

theorem length_charBytes (c : Char) : (charBytes c).length = c.utf8Size :=
  String.length_utf8EncodeChar c

theorem size_utf8Encode (cs : List Char) : cs.utf8Encode.size = (cs.map Char.utf8Size).sum := by
  induction cs with
  | nil => rw [List.utf8Encode_nil]; rfl
  | cons c cs ih =>
    rw [List.utf8Encode_cons, ByteArray.size_append, ih, List.utf8Encode_singleton]
    simp

theorem byteLength_eq_sum (s : String) : byteLength s = (s.toList.map width).sum := by
  unfold byteLength toBytes
  split
  · show (List.flatMap _ s.toList).toArray.size = _
    rw [List.size_toArray]
    induction s.toList with
    | nil => rfl
    | cons c cs ih =>
      rw [List.flatMap_cons, List.length_append, ih, List.map_cons, List.sum_cons]
      congr 1
      unfold width
      cases charByte? c with
      | none => exact length_charBytes c
      | some b => rfl
  · rename_i hnone
    rw [String.toUTF8_eq_toByteArray, ← String.utf8Encode_toList, size_utf8Encode]
    congr 1
    refine List.map_congr_left fun c hc => ?_
    have hc' : (charByte? c).isSome = false := by
      simpa using fun h => hnone (List.any_eq_true.2 ⟨c, hc, h⟩)
    simp [width, hc']

theorem byteLength_append (s t : String) : byteLength (s ++ t) = byteLength s + byteLength t := by
  simp only [byteLength_eq_sum, String.toList_append, List.map_append, List.sum_append]

theorem utf8ByteSize_of_ascii {s : String} (h : ∀ c ∈ s.toList, c.toNat < 128) :
    s.utf8ByteSize = s.toList.length := by
  have hmap : s.toList.map Char.utf8Size = s.toList.map fun _ => 1 :=
    List.map_congr_left fun c hc => utf8Size_of_ascii (h c hc)
  rw [← String.size_toByteArray, ← String.utf8Encode_toList, size_utf8Encode, hmap,
    List.map_const', List.sum_replicate_nat, Nat.mul_one]

theorem byteLength_of_ascii {s : String} (h : ∀ c ∈ s.toList, c.toNat < 128) :
    byteLength s = s.toList.length := by
  have hmap : s.toList.map width = s.toList.map fun _ => 1 :=
    List.map_congr_left fun c hc => width_of_ascii (h c hc)
  rw [byteLength_eq_sum, hmap, List.map_const', List.sum_replicate_nat, Nat.mul_one]

end Formulary.Text
