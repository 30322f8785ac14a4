import Formulary.Disk.Operations
import Formulary.Proofs.Path
import Formulary.Text.Printable

/-!
# Names exchanged in paths

Two paths may differ in names alone : where the one has a name, the other has the name that it is
exchanged for (`Path.Exchanged`). What is done with paths does not tell them apart. They are joined
(`Path.Exchanged.join`), have parents (`Path.Exchanged.parent?`) and segments
(`Path.Exchanged.segmentsOf`) that differ in the same way, are as long and end alike.

An exchange leaves slashes, empty segments and dots where they are, so each step along the
characters of the one text is one along those of the other (`Text.Swapped`), from either end
(`Text.Swapped.reverse`).
-/

namespace Formulary

/-! ## Between slashes -/

namespace Text

/-- What stands between slashes is exchanged, and back. What says nothing stays as it is. -/
structure Swap (τ : List Char → List Char) : Prop where
  back : ∀ s, τ (τ s) = s
  nil : τ [] = []
  dot : τ ['.'] = ['.']
  slash : ∀ s, '/' ∉ s → '/' ∉ τ s

/-- The second text has what the segments of the first one are exchanged for. -/
inductive Swapped (τ : List Char → List Char) : List Char → List Char → Prop
  | last {s : List Char} : '/' ∉ s → Swapped τ s (τ s)
  | cons {s cs cs' : List Char} :
    '/' ∉ s → Swapped τ cs cs' → Swapped τ (s ++ '/' :: cs) (τ s ++ '/' :: cs')

variable {τ : List Char → List Char} {cs cs' ds ds' : List Char}

theorem Swapped.symm (hτ : Swap τ) (h : Swapped τ cs cs') : Swapped τ cs' cs := by
  induction h with
  | @last s hs =>
    have hback := Swapped.last (τ := τ) (hτ.slash s hs)
    rwa [hτ.back] at hback
  | @cons s cs cs' hs _ ih =>
    have hback := ih.cons (hτ.slash s hs)
    rwa [hτ.back] at hback

theorem Swapped.append (h : Swapped τ cs cs') (h' : Swapped τ ds ds') :
    Swapped τ (cs ++ '/' :: ds) (cs' ++ '/' :: ds') := by
  induction h with
  | last hs => exact h'.cons hs
  | cons hs _ ih =>
    rw [List.append_assoc, List.append_assoc]
    exact ih.cons hs

/-- Segments written backwards are exchanged backwards. -/
def mirrored (τ : List Char → List Char) (s : List Char) : List Char := (τ s.reverse).reverse

theorem mirrored_mirrored (τ : List Char → List Char) : mirrored (mirrored τ) = τ := by
  funext s
  simp [mirrored]

theorem Swap.mirrored (hτ : Swap τ) : Swap (mirrored τ) where
  back s := by simp [Text.mirrored, hτ.back]
  nil := by simp [Text.mirrored, hτ.nil]
  dot := by simp [Text.mirrored, hτ.dot]
  slash s hs := by simpa [Text.mirrored] using hτ.slash s.reverse (by simpa using hs)

theorem Swapped.reverse (h : Swapped τ cs cs') : Swapped (mirrored τ) cs.reverse cs'.reverse := by
  have hlast : ∀ {s : List Char}, '/' ∉ s → Swapped (mirrored τ) s.reverse (τ s).reverse := by
    intro s hs
    have h : Swapped (mirrored τ) s.reverse (mirrored τ s.reverse) := .last (by simpa using hs)
    rwa [mirrored, List.reverse_reverse] at h
  induction h with
  | last hs => exact hlast hs
  | cons hs _ ih => simpa using ih.append (hlast hs)

theorem Swapped.of_not_mem (h : Swapped τ cs cs') (hcs : '/' ∉ cs) : cs' = τ cs := by
  cases h with
  | last => rfl
  | cons => exact absurd (by simp) hcs

/-- A slash at the start is there in both. -/
theorem Swapped.of_slash (hτ : Swap τ) (h : Swapped τ ('/' :: cs) cs') :
    ∃ rest, cs' = '/' :: rest ∧ Swapped τ cs rest := by
  generalize hall : '/' :: cs = all at h
  cases h with
  | last hs => exact absurd (by simp [← hall]) hs
  | @cons s rest rest' hs h =>
    cases s with
    | nil =>
      obtain rfl : cs = rest := by simpa using hall
      exact ⟨rest', by rw [hτ.nil]; rfl, h⟩
    | cons c s => exact absurd (by simp [← (List.cons.inj hall).1]) hs

/-- So is a lone dot. -/
theorem Swapped.of_dot_slash (hτ : Swap τ) (h : Swapped τ ('.' :: '/' :: cs) cs') :
    ∃ rest, cs' = '.' :: '/' :: rest ∧ Swapped τ cs rest := by
  generalize hall : '.' :: '/' :: cs = all at h
  cases h with
  | last hs => exact absurd (by simp [← hall]) hs
  | @cons s rest rest' hs h =>
    cases s with
    | nil => exact absurd (List.cons.inj hall).1 (by decide)
    | cons c s =>
      obtain ⟨rfl, hrest⟩ := List.cons.inj hall
      cases s with
      | nil =>
        obtain rfl : cs = rest := by simpa using hrest
        exact ⟨rest', by rw [hτ.dot]; rfl, h⟩
      | cons c s => exact absurd (by simp [← (List.cons.inj hrest).1]) hs

theorem Swapped.nil_iff (hτ : Swap τ) (h : Swapped τ cs cs') : cs' = [] ↔ cs = [] := by
  have hnil : ∀ {cs cs'}, Swapped τ cs cs' → cs = [] → cs' = [] := by
    rintro _ _ (hs | ⟨hs, h⟩) hnil
    · rw [hnil, hτ.nil]
    · exact absurd hnil (by simp)
  exact ⟨hnil (h.symm hτ), hnil h⟩

theorem Swapped.slash (hτ : Swap τ) (h : Swapped τ cs cs') :
    Swapped τ ('/' :: cs) ('/' :: cs') := by
  have hcons : Swapped τ ([] ++ '/' :: cs) (τ [] ++ '/' :: cs') := h.cons nofun
  rwa [hτ.nil] at hcons

theorem swapped_nil (hτ : Swap τ) : Swapped τ [] [] := by
  have hnil : Swapped τ [] (τ []) := .last nofun
  rwa [hτ.nil] at hnil

/-- A text is left as it is when each of its segments is. -/
theorem swapped_self (h : ∀ s ∈ split (· == '/') cs, τ s = s) : Swapped τ cs cs := by
  induction hn : cs.length using Nat.strong_induction_on generalizing cs with
  | _ n ih =>
    by_cases hslash : '/' ∈ cs
    · obtain ⟨s, rest, rfl, hs⟩ := List.eq_append_cons_of_mem hslash
      rw [split_append (by decide), split_of_not_mem hs] at h
      have hrest := ih rest.length (by simp [← hn]; omega) (fun s' hs' => h s' (by simp [hs'])) rfl
      have hself := hrest.cons hs
      rwa [h s (by simp)] at hself
    · have hself := Swapped.last (τ := τ) hslash
      rwa [h cs (by simp [split_of_not_mem hslash])] at hself

theorem Swapped.split (hτ : Swap τ) (h : Swapped τ cs cs') :
    split (· == '/') cs' = (split (· == '/') cs).map τ := by
  induction h with
  | @last s hs =>
    rw [split_of_not_mem hs, split_of_not_mem (hτ.slash s hs), List.map_singleton]
  | @cons s _ _ hs _ ih =>
    rw [split_append (by decide), split_append (by decide), split_of_not_mem hs,
      split_of_not_mem (hτ.slash s hs), ih, List.map_append, List.map_singleton]

theorem Swapped.trimEnd (hτ : Swap τ) (h : Swapped τ cs cs') :
    Swapped τ (Path.trimEnd cs) (Path.trimEnd cs') := by
  fun_induction Path.trimEnd cs generalizing cs' with
  | case1 =>
    obtain ⟨rest, rfl, hrest⟩ := h.of_slash hτ
    obtain rfl := (hrest.nil_iff hτ).2 rfl
    exact h
  | case2 cs hcs ih =>
    obtain ⟨rest, rfl, hrest⟩ := h.of_slash hτ
    rw [Path.trimEnd, if_neg fun hnil => hcs ((hrest.nil_iff hτ).1 hnil)]
    exact ih hrest
  | case3 cs ih =>
    obtain ⟨rest, rfl, hrest⟩ := h.of_dot_slash hτ
    have htrim : Path.trimEnd ('.' :: '/' :: rest) = Path.trimEnd ('/' :: rest) := by
      conv_lhs => rw [Path.trimEnd]
    rw [htrim]
    exact ih (hrest.slash hτ)
  | case4 cs hslash hdot =>
    -- the other text begins in neither way, since this one would then too
    have hcs' : Path.trimEnd cs' = cs' := by
      unfold Path.trimEnd
      split
      · obtain ⟨rest, hrest, -⟩ := (h.symm hτ).of_slash hτ
        exact absurd hrest (hslash rest)
      · obtain ⟨rest, hrest, -⟩ := (h.symm hτ).of_dot_slash hτ
        exact absurd hrest (hdot rest)
      · rfl
    rwa [hcs']

theorem Swapped.dropWhile (hτ : Swap τ) (h : Swapped τ cs cs') :
    Swapped τ (cs.dropWhile (· != '/')) (cs'.dropWhile (· != '/')) := by
  have hall : ∀ {s : List Char}, '/' ∉ s → ∀ d ∈ s, (d != '/') = true := fun hs d hd =>
    bne_iff_ne.2 fun hd' => hs (hd' ▸ hd)
  cases h with
  | last hs =>
    rw [List.dropWhile_eq_nil_iff.2 (hall hs), List.dropWhile_eq_nil_iff.2 (hall (hτ.slash _ hs))]
    exact swapped_nil hτ
  | cons hs h =>
    rw [List.dropWhile_append_of_pos (hall hs), List.dropWhile_append_of_pos (hall (hτ.slash _ hs))]
    exact h.slash hτ

/-- A slash at the end is there in both. -/
theorem Swapped.of_concat_slash (hτ : Swap τ) (h : Swapped τ (cs ++ ['/']) cs') :
    ∃ init, cs' = init ++ ['/'] ∧ Swapped τ cs init := by
  have hreverse := h.reverse
  rw [List.reverse_concat] at hreverse
  obtain ⟨rest, hrest, hswapped⟩ := hreverse.of_slash hτ.mirrored
  have hback := hswapped.reverse
  rw [mirrored_mirrored, List.reverse_reverse] at hback
  refine ⟨rest.reverse, ?_, hback⟩
  rw [← List.reverse_reverse cs', hrest, List.reverse_cons]

/-- So is a lone dot. -/
theorem Swapped.of_concat_slash_dot (hτ : Swap τ) (h : Swapped τ (cs ++ ['/', '.']) cs') :
    ∃ init, cs' = init ++ ['/', '.'] := by
  have hreverse := h.reverse
  rw [List.reverse_append] at hreverse
  obtain ⟨rest, hrest, -⟩ := hreverse.of_dot_slash hτ.mirrored
  exact ⟨rest.reverse, by rw [← List.reverse_reverse cs', hrest]; simp⟩

end Text

/-! ## Names -/

/-- Names are exchanged for others that are as long, and back. Only plain names are. -/
structure Exchange (σ : String → String) : Prop where
  back : ∀ s, σ (σ s) = s
  plain : ∀ s, σ s ≠ s → Disk.Plain s
  byteLength : ∀ s, Text.byteLength (σ s) = Text.byteLength s

/-- An exchange of names as one of characters. -/
def inChars (σ : String → String) (cs : List Char) : List Char := (σ (String.ofList cs)).toList

namespace Exchange

variable {σ : String → String} {s : String}

theorem of_not_plain (hσ : Exchange σ) (h : ¬Disk.Plain s) : σ s = s := by
  by_contra hne
  exact h (hσ.plain s hne)

theorem empty (hσ : Exchange σ) : σ "" = "" := hσ.of_not_plain fun h => h.ne_empty rfl

theorem dot (hσ : Exchange σ) : σ "." = "." := hσ.of_not_plain fun h => h.ne_of_dot [] rfl rfl

theorem up (hσ : Exchange σ) : σ ".." = ".." := hσ.of_not_plain fun h => h.ne_of_dot ['.'] rfl rfl

theorem injective (hσ : Exchange σ) : Function.Injective σ :=
  Function.LeftInverse.injective hσ.back

theorem eq_iff (hσ : Exchange σ) {t : String} (h : σ t = t) : σ s = t ↔ s = t := by
  constructor
  · rintro rfl
    exact hσ.injective h.symm
  · rintro rfl
    exact h

/-- What is exchanged is plain, and so is what it is exchanged for. -/
theorem eq_or_plain (hσ : Exchange σ) (s : String) :
    σ s = s ∨ Disk.Plain s ∧ Disk.Plain (σ s) := by
  by_cases h : σ s = s
  · exact .inl h
  · exact .inr ⟨hσ.plain s h, hσ.plain (σ s) fun hback => h (hσ.injective hback)⟩

theorem slash_not_mem (hσ : Exchange σ) (h : '/' ∉ s.toList) : '/' ∉ (σ s).toList := by
  rcases hσ.eq_or_plain s with hs | ⟨-, hplain⟩
  · rwa [hs]
  · exact hplain.slash_not_mem

theorem zero_mem_iff (hσ : Exchange σ) (s : String) :
    '\x00' ∈ (σ s).toList ↔ '\x00' ∈ s.toList := by
  rcases hσ.eq_or_plain s with hs | ⟨hplain, hplain'⟩
  · rw [hs]
  · exact iff_of_false hplain'.zero_not_mem hplain.zero_not_mem

theorem inChars (hσ : Exchange σ) : Text.Swap (inChars σ) where
  back s := by simp [Formulary.inChars, hσ.back]
  nil := congrArg String.toList hσ.empty
  dot := congrArg String.toList hσ.dot
  slash s hs := hσ.slash_not_mem (by simpa using hs)

end Exchange

/-! ## Paths -/

variable {σ : String → String} {cs cs' : List Char}

/-- The segments that lead somewhere are exchanged one by one. -/
theorem segmentsOfChars_of_swapped (hσ : Exchange σ) (h : Text.Swapped (inChars σ) cs cs') :
    Disk.segmentsOfChars cs' = (Disk.segmentsOfChars cs).map σ := by
  have hsays : (fun s : String => decide (s ≠ "" ∧ s ≠ ".")) ∘ σ =
      fun s => decide (s ≠ "" ∧ s ≠ ".") := by
    funext s
    simp [hσ.eq_iff hσ.empty, hσ.eq_iff hσ.dot]
  have hpieces : ((Text.split (· == '/') cs).map (inChars σ)).map String.ofList =
      ((Text.split (· == '/') cs).map String.ofList).map σ := by
    simp only [List.map_map]
    refine List.map_congr_left fun s _ => ?_
    simp [inChars]
  unfold Disk.segmentsOfChars
  rw [h.split hσ.inChars, hpieces, List.filter_map, hsays]

namespace Path

/-- The second path has names of the first one exchanged. -/
def Exchanged (σ : String → String) (p p' : Path) : Prop :=
  Text.Swapped (inChars σ) p.text.toList p'.text.toList

variable {p p' q q' : Path}

theorem Exchanged.symm (hσ : Exchange σ) (h : Exchanged σ p p') : Exchanged σ p' p :=
  Text.Swapped.symm hσ.inChars h

theorem Exchanged.segmentsOf (hσ : Exchange σ) (h : Exchanged σ p p') :
    Disk.segmentsOf p'.text = (Disk.segmentsOf p.text).map σ :=
  segmentsOfChars_of_swapped hσ h

theorem Exchanged.text_eq_empty_iff (hσ : Exchange σ) (h : Exchanged σ p p') :
    p'.text = "" ↔ p.text = "" := by
  rw [← String.toList_eq_nil_iff, ← String.toList_eq_nil_iff]
  exact Text.Swapped.nil_iff hσ.inChars h

theorem Exchanged.zero_mem_iff (hσ : Exchange σ) (h : Exchanged σ p p') :
    '\x00' ∈ p'.text.toList ↔ '\x00' ∈ p.text.toList := by
  unfold Exchanged at h
  generalize p.text.toList = cs at h
  generalize p'.text.toList = cs' at h
  have hsegment : ∀ s, '\x00' ∈ inChars σ s ↔ '\x00' ∈ s := fun s => by
    have hs := hσ.zero_mem_iff (String.ofList s)
    rwa [String.toList_ofList] at hs
  induction h with
  | last => exact hsegment _
  | cons _ _ ih => simp [hsegment, ih]

theorem Exchanged.byteLength (hσ : Exchange σ) (h : Exchanged σ p p') :
    Text.byteLength p'.text = Text.byteLength p.text := by
  rw [Text.byteLength_eq_sum, Text.byteLength_eq_sum]
  unfold Exchanged at h
  generalize p.text.toList = cs at h
  generalize p'.text.toList = cs' at h
  have hsegment : ∀ s, ((inChars σ s).map Text.width).sum = (s.map Text.width).sum := fun s => by
    have hs := hσ.byteLength (String.ofList s)
    rwa [Text.byteLength_eq_sum, Text.byteLength_eq_sum, String.toList_ofList] at hs
  induction h with
  | last => exact hsegment _
  | cons _ _ ih => simp [hsegment, ih]

theorem Exchanged.isAbsolute (hσ : Exchange σ) (h : Exchanged σ p p') :
    p'.isAbsolute = p.isAbsolute := by
  have hstarts : ∀ {p p'}, Exchanged σ p p' → p.isAbsolute = true → p'.isAbsolute = true := by
    intro p p' h habsolute
    obtain ⟨cs, hcs⟩ := List.head?_eq_some_iff.1 (isAbsolute_iff.1 habsolute)
    unfold Exchanged at h
    rw [hcs] at h
    obtain ⟨rest, hrest, -⟩ := h.of_slash hσ.inChars
    exact isAbsolute_iff.2 (by rw [hrest]; rfl)
  exact Bool.eq_iff_iff.2 ⟨hstarts (h.symm hσ), hstarts h⟩

theorem Exchanged.endsInDirectory (hσ : Exchange σ) (h : Exchanged σ p p') :
    Disk.endsInDirectory p'.text = Disk.endsInDirectory p.text := by
  have hends : ∀ {p p'}, Exchanged σ p p' → Disk.endsInDirectory p.text = true →
      Disk.endsInDirectory p'.text = true := by
    intro p p' h hends
    unfold Exchanged at h
    unfold Disk.endsInDirectory Text.endsWith at hends ⊢
    simp only [Bool.or_eq_true, Option.isSome_iff_exists, Text.before?_eq_some_iff, beq_iff_eq]
      at hends ⊢
    rcases hends with (⟨cs, hcs⟩ | ⟨cs, hcs⟩) | hdot
    · rw [hcs] at h
      obtain ⟨init, hinit, -⟩ := h.of_concat_slash hσ.inChars
      exact .inl (.inl ⟨init, hinit⟩)
    · rw [hcs] at h
      obtain ⟨init, hinit⟩ := h.of_concat_slash_dot hσ.inChars
      exact .inl (.inr ⟨init, hinit⟩)
    · rw [hdot] at h
      refine .inr (String.toList_inj.1 ((h.of_not_mem (by decide)).trans ?_))
      exact hσ.inChars.dot
  exact Bool.eq_iff_iff.2 ⟨hends (h.symm hσ), hends h⟩

theorem Exchanged.stalk (hσ : Exchange σ) (h : Exchanged σ p p') :
    Text.Swapped (inChars σ) p.stalk p'.stalk := by
  have hends : ∀ {p p'}, Exchanged σ p p' → p.text.toList.getLast? = some '/' →
      ∃ init init', p.text.toList = init ++ ['/'] ∧ p'.text.toList = init' ++ ['/'] ∧
        Text.Swapped (inChars σ) init init' := by
    intro p p' h hlast
    obtain ⟨init, hinit⟩ := List.getLast?_eq_some_iff.1 hlast
    unfold Exchanged at h
    rw [hinit] at h
    obtain ⟨init', hinit', hswapped⟩ := h.of_concat_slash hσ.inChars
    exact ⟨init, init', hinit, hinit', hswapped⟩
  unfold Path.stalk
  by_cases hlast : p.text.toList.getLast? = some '/'
  · obtain ⟨init, init', hinit, hinit', hswapped⟩ := hends h hlast
    rw [hinit, hinit']
    simpa using hswapped
  · have hlast' : p'.text.toList.getLast? ≠ some '/' := by
      intro hlast'
      obtain ⟨_, _, -, hinit, -⟩ := hends (h.symm hσ) hlast'
      exact hlast (by rw [hinit, List.getLast?_concat])
    rw [if_neg hlast, if_neg hlast']
    exact h

theorem Exchanged.join (hσ : Exchange σ) (hp : Exchanged σ p p') (hq : Exchanged σ q q') :
    Exchanged σ (p.join q.text) (p'.join q'.text) := by
  cases habsolute : q.isAbsolute with
  | true =>
    rw [join_of_isAbsolute habsolute, join_of_isAbsolute ((hq.isAbsolute hσ).trans habsolute)]
    exact hq
  | false =>
    have hrelative' : q'.isAbsolute = false := (hq.isAbsolute hσ).trans habsolute
    by_cases hempty : p.text = ""
    · rw [join_of_empty hempty habsolute,
        join_of_empty ((hp.text_eq_empty_iff hσ).2 hempty) hrelative']
      exact hq
    · unfold Exchanged
      rw [toList_join_of_relative hempty habsolute,
        toList_join_of_relative (fun h => hempty ((hp.text_eq_empty_iff hσ).1 h)) hrelative']
      exact (hp.stalk hσ).append hq

/-- Where nothing is exchanged, the paths are the same. -/
theorem Exchanged.eq (h : ∀ s, σ s = s) (hp : Exchanged σ p p') : p' = p := by
  have hchars : ∀ s, inChars σ s = s := fun s => by rw [inChars, h, String.toList_ofList]
  have hcs : p'.text.toList = p.text.toList := by
    unfold Exchanged at hp
    generalize p.text.toList = cs at hp
    generalize p'.text.toList = cs' at hp
    induction hp with
    | last => exact hchars _
    | cons _ _ ih => rw [hchars, ih]
  exact congrArg Path.mk (String.toList_inj.1 hcs)

/-- A name of its own is exchanged as a path. -/
theorem exchanged_name {s : String} (h : '/' ∉ s.toList) : Exchanged σ ⟨s⟩ ⟨σ s⟩ := by
  have hlast := Text.Swapped.last (τ := inChars σ) h
  rwa [inChars, String.ofList_toList] at hlast

/-- A path that has none of the names is left as it is. -/
theorem exchanged_self (h : ∀ s ∈ Text.pieces '/' p.text, σ s = s) : Exchanged σ p p := by
  refine Text.swapped_self fun s hs => ?_
  rw [inChars, h _ (List.mem_map_of_mem hs), String.toList_ofList]

theorem exchanged_pathOf (hσ : Exchange σ) {place : Place}
    (h : ∀ s ∈ place, Exchanged σ ⟨s⟩ ⟨σ s⟩) :
    Exchanged σ (Disk.pathOf place) (Disk.pathOf (place.map σ)) := by
  have hjoin : Text.Swapped (inChars σ) (Text.join "/" place).toList
      (Text.join "/" (place.map σ)).toList := by
    fun_induction Text.join "/" place with
    | case1 => exact Text.swapped_nil hσ.inChars
    | case2 s => exact h s List.mem_cons_self
    | case3 s rest hrest ih =>
      obtain ⟨t, rest, rfl⟩ := List.exists_cons_of_ne_nil hrest
      have hcons := Text.Swapped.append (h s List.mem_cons_self)
        (ih fun s hs => h s (List.mem_cons_of_mem _ hs))
      simpa [Text.join, String.toList_append] using hcons
  unfold Exchanged Disk.pathOf
  rw [String.toList_append, String.toList_append]
  exact hjoin.slash hσ.inChars

end Path

/-! ## Components and parents -/

/-- A component with its name exchanged. -/
def Component.exchange (σ : String → String) : Component → Component
  | .name s => .name (σ s)
  | c => c

namespace Path

variable {p p' : Path}

theorem component?_inChars (hσ : Exchange σ) (segment : List Char) :
    component? (inChars σ segment) = (component? segment).map (Component.exchange σ) := by
  have heq : ∀ t : String, σ t = t → (inChars σ segment = t.toList ↔ segment = t.toList) := by
    intro t ht
    rw [inChars, String.toList_inj, hσ.eq_iff ht, Text.ofList_eq_iff]
  have hnil : inChars σ segment = [] ↔ segment = [] := heq "" hσ.empty
  have hdot : inChars σ segment = ['.'] ↔ segment = ['.'] := heq "." hσ.dot
  have hup : inChars σ segment = ['.', '.'] ↔ segment = ['.', '.'] := heq ".." hσ.up
  unfold component?
  simp only [hnil, hdot, hup]
  split
  · rfl
  · split
    · rfl
    · simp [Component.exchange, inChars]

theorem Exchanged.components (hσ : Exchange σ) (h : Exchanged σ p p') :
    p'.components = p.components.map (Component.exchange σ) := by
  obtain ⟨first, rest, hsegments⟩ := List.exists_cons_of_ne_nil (Text.split_ne_nil (· == '/') _)
  have hsegments : p.segments = first :: rest := hsegments
  have hsegments' : p'.segments = inChars σ first :: rest.map (inChars σ) := by
    have hsplit : p'.segments = p.segments.map (inChars σ) := Text.Swapped.split hσ.inChars h
    rw [hsplit, hsegments, List.map_cons]
  have hrest : (rest.map (inChars σ)).filterMap component? =
      (rest.filterMap component?).map (Component.exchange σ) := by
    rw [List.filterMap_map, List.map_filterMap]
    exact congrArg (List.filterMap · rest) (funext (component?_inChars hσ))
  have hopening : opening p'.isAbsolute (inChars σ first) =
      (opening p.isAbsolute first).map (Component.exchange σ) := by
    have hdot : inChars σ first = ['.'] ↔ first = ['.'] := by
      rw [inChars, show ['.'] = ".".toList from rfl, String.toList_inj, hσ.eq_iff hσ.dot,
        Text.ofList_eq_iff]
    unfold opening
    rw [h.isAbsolute hσ, component?_inChars hσ]
    simp only [hdot]
    split
    · rfl
    · split
      · rfl
      · cases component? first <;> rfl
  rw [components_eq_append hsegments, components_eq_append hsegments', hrest, hopening,
    List.map_append]

/-- Parents differ as their paths do. -/
theorem Exchanged.parent? (hσ : Exchange σ) (h : Exchanged σ p p') :
    Option.Rel (Exchanged σ) p.parent? p'.parent? := by
  have hτ := hσ.inChars.mirrored
  have hrest := (((Text.Swapped.reverse h).trimEnd hτ).dropWhile hτ).trimEnd hτ |>.reverse
  rw [Text.mirrored_mirrored] at hrest
  unfold Path.parent?
  rw [h.components hσ, List.getLast?_map]
  rcases p.components.getLast? with _ | _ | _ | _ | _
  · exact .none
  · exact .none
  all_goals
    refine .some ?_
    unfold Exchanged
    rwa [String.toList_ofList, String.toList_ofList]

/-! ## Messages -/

/-- The one text is the other, told of paths that have names of its own exchanged. -/
inductive Retold (σ : String → String) : String → String → Prop
  | same (s : String) : Retold σ s s
  | display {p p' : Path} : Exchanged σ p p' → Retold σ p.display p'.display
  | quoted {p p' : Path} : Exchanged σ p p' → Retold σ (Text.quoted p.text) (Text.quoted p'.text)
  | append {s s' t t' : String} : Retold σ s s' → Retold σ t t' → Retold σ (s ++ t) (s' ++ t')

/-- Where nothing is exchanged, the texts are the same. -/
theorem Retold.eq (h : ∀ s, σ s = s) {s s' : String} (hs : Retold σ s s') : s' = s := by
  induction hs with
  | same => rfl
  | display hp => rw [hp.eq h]
  | quoted hp => rw [hp.eq h]
  | append _ _ ih ih' => rw [ih, ih']

theorem Retold.after {s s' : String} (h : Retold σ s s') (front : String) :
    Retold σ (front ++ s) (front ++ s') := (Retold.same front).append h

theorem Retold.before {s s' : String} (h : Retold σ s s') (tail : String) :
    Retold σ (s ++ tail) (s' ++ tail) := h.append (Retold.same tail)

end Path

end Formulary
