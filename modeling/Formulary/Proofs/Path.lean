import Formulary.Disk.Walk
import Formulary.Proofs.Text
import Mathlib.Data.List.TakeWhile

/-!
# Names in paths

A relative path behind another one has its segments behind those of the other
(`Path.segmentsOf_join_join`), and a parent has the first segments of its path
(`Path.segmentsOf_parent?`). The parent of a path with one more name behind it is the path before
it, but for slashes and dots at its end, which say nothing (`Path.before`) : the segments are the
same. A relative path without steps up leads on from where any path it is put behind leads
(`Path.encloses_join`).
-/

namespace Formulary

namespace Disk

/-! ## Segments -/

/-- The segments of a text as characters. -/
def segmentsOfChars (cs : List Char) : List String :=
  ((Text.split (· == '/') cs).map String.ofList).filter fun s => s ≠ "" ∧ s ≠ "."

theorem segmentsOf_eq (text : String) : segmentsOf text = segmentsOfChars text.toList := rfl

theorem segmentsOfChars_append (cs ds : List Char) :
    segmentsOfChars (cs ++ '/' :: ds) = segmentsOfChars cs ++ segmentsOfChars ds := by
  unfold segmentsOfChars
  rw [Text.split_append (by decide), List.map_append, List.filter_append]

@[simp]
theorem segmentsOfChars_nil : segmentsOfChars [] = [] := by decide

@[simp]
theorem segmentsOfChars_dot : segmentsOfChars ['.'] = [] := by decide

/-- A slash at the end adds no segment. -/
theorem segmentsOfChars_slash (cs : List Char) :
    segmentsOfChars (cs ++ ['/']) = segmentsOfChars cs := by
  rw [segmentsOfChars_append, segmentsOfChars_nil, List.append_nil]

/-- The name is one segment, and a path that ends in it may lead to anything. -/
structure Plain (name : String) : Prop where
  slash_not_mem : '/' ∉ name.toList
  zero_not_mem : '\x00' ∉ name.toList
  last : ∃ cs c, name.toList = cs ++ [c] ∧ c ≠ '.'
  length : Text.byteLength name ≤ maxName

variable {name : String}

theorem Plain.ne_nil (h : Plain name) : name.toList ≠ [] := by
  obtain ⟨cs, c, hname, -⟩ := h.last
  rw [hname]
  simp

theorem Plain.ne_empty (h : Plain name) : name ≠ "" := by
  rintro rfl
  exact h.ne_nil rfl

theorem Plain.ne_of_dot (h : Plain name) {s : String} (cs : List Char)
    (hs : s.toList = cs ++ ['.']) : name ≠ s := by
  rintro rfl
  obtain ⟨ds, c, hname, hc⟩ := h.last
  rw [hname] at hs
  exact hc (List.cons.inj (List.append_inj' hs rfl).2).1

theorem Plain.last_ne (h : Plain name) :
    ∃ cs c, name.toList = cs ++ [c] ∧ c ≠ '/' ∧ c ≠ '.' := by
  obtain ⟨cs, c, hlast, hdot⟩ := h.last
  refine ⟨cs, c, hlast, ?_, hdot⟩
  rintro rfl
  exact h.slash_not_mem (by simp [hlast])

/-- What has no slash is a segment, or says nothing. -/
theorem segmentsOfChars_of_not_mem (h : '/' ∉ name.toList) :
    segmentsOfChars name.toList = if name = "" ∨ name = "." then [] else [name] := by
  unfold segmentsOfChars
  rw [Text.split_of_not_mem h]
  by_cases hnone : name = "" ∨ name = "."
  · rcases hnone with rfl | rfl <;> rfl
  · rw [if_neg hnone]
    rw [not_or] at hnone
    simp [hnone.1, hnone.2]

theorem Plain.segments (h : Plain name) : segmentsOfChars name.toList = [name] := by
  rw [segmentsOfChars_of_not_mem h.slash_not_mem,
    if_neg (not_or.2 ⟨h.ne_empty, h.ne_of_dot [] rfl⟩)]

/-- A text that ends in a name may lead to anything. -/
theorem endsInDirectory_append (h : Plain name) (cs : List Char) {text : String}
    (htext : text.toList = cs ++ name.toList) : endsInDirectory text = false := by
  obtain ⟨ds, c, hname, hslash, hc⟩ := h.last_ne
  have hreverse : text.toList.reverse = c :: (cs ++ ds).reverse := by
    rw [htext, hname, ← List.append_assoc]
    simp
  have hafter : ∀ pat ds, pat ≠ c → Text.after? (pat :: ds) text.toList.reverse = none := by
    intro pat ds hpat
    rw [hreverse, Text.after?, if_neg hpat]
  have hdot : text ≠ "." := by
    rintro rfl
    have := List.cons.inj (hreverse.symm.trans (rfl : _ = ['.']))
    exact hc this.1
  unfold endsInDirectory Text.endsWith Text.before?
  rw [show ("/".toList.reverse : List Char) = ['/'] from rfl,
    show ("/.".toList.reverse : List Char) = ['.', '/'] from rfl, hafter _ _ (Ne.symm hslash),
    hafter _ _ (Ne.symm hc)]
  simpa using hdot

end Disk

namespace Path

/-! ## One more name -/

variable {p w : Path} {name : String}

/-- What stands before the last slash of a path with one more name. -/
def stalk (p : Path) : List Char :=
  if p.text.toList.getLast? = some '/' then p.text.toList.dropLast else p.text.toList

theorem stalk_spec (p : Path) :
    p.text.toList = p.stalk ++ ['/'] ∨ p.text.toList = p.stalk := by
  unfold stalk
  split
  · rename_i h
    obtain ⟨cs, hcs⟩ := List.getLast?_eq_some_iff.1 h
    exact .inl (by rw [hcs, List.dropLast_concat])
  · exact .inr rfl

theorem isAbsolute_of_prefix {p q : Path} (hp : p.text ≠ "") {ds : List Char}
    (hq : q.text.toList = p.text.toList ++ ds) : q.isAbsolute = p.isAbsolute := by
  unfold isAbsolute
  rw [hq]
  cases h : p.text.toList with
  | nil => exact absurd (String.toList_eq_nil_iff.1 h) hp
  | cons c cs => rfl

theorem toList_join_of_relative (hp : p.text ≠ "") {q : String}
    (hrelative : (Path.mk q).isAbsolute = false) :
    (p.join q).text.toList = p.stalk ++ '/' :: q.toList := by
  unfold join stalk
  rw [hrelative, if_neg (by decide)]
  cases hlast : p.text.toList.getLast? with
  | none => exact absurd (String.toList_eq_nil_iff.1 (List.getLast?_eq_none_iff.1 hlast)) hp
  | some c =>
    split
    · rename_i h
      exact absurd h nofun
    · rename_i h
      obtain ⟨cs, hcs⟩ := List.getLast?_eq_some_iff.1 (hlast.trans h)
      rw [if_pos h]
      dsimp only
      rw [String.toList_append, hcs, List.dropLast_concat, List.append_assoc]
      rfl
    · rename_i hslash hc
      rw [if_neg (fun h => hslash (Option.some.inj (hc.symm.trans h)))]
      simp [String.toList_append]

theorem isAbsolute_of_not_mem (h : '/' ∉ name.toList) : (Path.mk name).isAbsolute = false := by
  unfold isAbsolute
  cases hname : name.toList with
  | nil => rfl
  | cons c cs =>
    dsimp only
    rw [beq_eq_false_iff_ne]
    rintro rfl
    exact h (by simp [hname])

theorem toList_join (hp : p.text ≠ "") (hname : Disk.Plain name) :
    (p.join name).text.toList = p.stalk ++ '/' :: name.toList :=
  toList_join_of_relative hp (isAbsolute_of_not_mem hname.slash_not_mem)

/-- What is put before a relative path is put before the path with a name too. -/
theorem exists_join_eq (hp : p.text ≠ "") {q : Path} {ds : List Char}
    (hq : q.text.toList = p.text.toList ++ ds) (w : Path) :
    ∃ cs, (w.join p.text).text.toList = cs ++ p.text.toList ∧
      (w.join q.text).text.toList = cs ++ q.text.toList := by
  have habsolute := isAbsolute_of_prefix hp hq
  unfold join
  rw [show (Path.mk q.text).isAbsolute = (Path.mk p.text).isAbsolute from habsolute]
  split
  · exact ⟨[], rfl, rfl⟩
  · split
    · exact ⟨[], rfl, rfl⟩
    · exact ⟨w.text.toList, String.toList_append .., String.toList_append ..⟩
    · refine ⟨w.text.toList ++ ['/'], ?_, ?_⟩ <;> simp [String.toList_append]

theorem isAbsolute_join (hp : p.text ≠ "") {q : String}
    (h : (Path.mk q).isAbsolute = false) : (p.join q).isAbsolute = p.isAbsolute := by
  have hjoin := toList_join_of_relative hp h
  rcases stalk_spec p with htext | htext
  · exact isAbsolute_of_prefix hp (hjoin.trans (by rw [htext, List.append_assoc]; rfl))
  · exact isAbsolute_of_prefix hp (hjoin.trans (by rw [htext]))

theorem join_of_isAbsolute (h : p.isAbsolute = true) (w : Path) :
    w.join p.text = p := if_pos h

theorem join_of_empty {q : String} (hp : p.text = "") (hrelative : (Path.mk q).isAbsolute = false) :
    p.join q = ⟨q⟩ := by
  unfold join
  rw [hrelative, hp]
  rfl

theorem byteLength_join_le (hp : p.text ≠ "") (hname : Disk.Plain name) :
    Text.byteLength (p.join name).text ≤ Text.byteLength p.text + 1 + Text.byteLength name := by
  have hslash : Text.width '/' = 1 := Text.width_of_ascii (by decide)
  have hstalk : (p.stalk.map Text.width).sum ≤ Text.byteLength p.text := by
    rw [Text.byteLength_eq_sum]
    rcases stalk_spec p with h | h <;> rw [h]
    simp
  rw [Text.byteLength_eq_sum (p.join name).text, Text.byteLength_eq_sum name, toList_join hp hname,
    List.map_append, List.map_cons, List.sum_append, List.sum_cons, hslash]
  omega

theorem endsInDirectory_join (hname : Disk.Plain name) (p : Path) :
    Disk.endsInDirectory (p.join name).text = false := by
  by_cases hp : p.text = ""
  · rw [join_of_empty hp (isAbsolute_of_not_mem hname.slash_not_mem)]
    exact Disk.endsInDirectory_append hname [] rfl
  · refine Disk.endsInDirectory_append hname (p.stalk ++ ['/']) ?_
    rw [toList_join hp hname, List.append_assoc]
    rfl

/-- A relative path behind another one has its segments behind those of the other. -/
theorem segmentsOf_join_relative {q : String} (h : (Path.mk q).isAbsolute = false) (w : Path) :
    Disk.segmentsOf (w.join q).text = Disk.segmentsOf w.text ++ Disk.segmentsOf q := by
  by_cases hw : w.text = ""
  · rw [join_of_empty hw h, hw]
    rfl
  · rw [Disk.segmentsOf_eq, toList_join_of_relative hw h, Disk.segmentsOfChars_append,
      Disk.segmentsOf_eq, Disk.segmentsOf_eq]
    rcases stalk_spec w with hstalk | hstalk
    · rw [hstalk, Disk.segmentsOfChars_slash]
    · rw [hstalk]

/-- Likewise where the other leads on from a working directory. -/
theorem segmentsOf_join_join {q : String} (h : (Path.mk q).isAbsolute = false) (w p : Path) :
    Disk.segmentsOf (w.join (p.join q).text).text =
      Disk.segmentsOf (w.join p.text).text ++ Disk.segmentsOf q := by
  by_cases hp : p.text = ""
  · have hempty : Disk.segmentsOf "" = [] := by decide
    rw [join_of_empty hp h, hp, segmentsOf_join_relative h, segmentsOf_join_relative rfl, hempty,
      List.append_nil]
  · have habsolute := isAbsolute_join hp h
    cases hp' : p.isAbsolute with
    | true =>
      rw [join_of_isAbsolute (habsolute.trans hp'), join_of_isAbsolute hp',
        segmentsOf_join_relative h]
    | false =>
      rw [segmentsOf_join_relative (q := (p.join q).text) (habsolute.trans hp'),
        segmentsOf_join_relative hp',
        segmentsOf_join_relative h, List.append_assoc]

theorem segmentsOf_join_of_not_mem (hname : '/' ∉ name.toList) (w p : Path) :
    Disk.segmentsOf (w.join (p.join name).text).text =
      Disk.segmentsOf (w.join p.text).text ++ Disk.segmentsOfChars name.toList :=
  segmentsOf_join_join (isAbsolute_of_not_mem hname) w p

theorem segmentsOf_join (hname : Disk.Plain name) (w p : Path) :
    Disk.segmentsOf (w.join (p.join name).text).text =
      Disk.segmentsOf (w.join p.text).text ++ [name] := by
  rw [segmentsOf_join_of_not_mem hname.slash_not_mem, hname.segments]

/-! ## Parents -/

theorem trimEnd_cons {c : Char} (hslash : c ≠ '/') (hdot : c ≠ '.') (cs : List Char) :
    trimEnd (c :: cs) = c :: cs := by
  unfold trimEnd
  split
  · rename_i h
    exact absurd (List.cons.inj h).1 hslash
  · rename_i h
    exact absurd (List.cons.inj h).1 hdot
  · rfl

theorem trimEnd_ne_nil {cs : List Char} (h : cs ≠ []) : trimEnd cs ≠ [] := by
  fun_induction trimEnd cs with
  | case1 => simp
  | case2 rest hrest ih => exact ih hrest
  | case3 rest ih => exact ih (by simp)
  | case4 => exact h

theorem trimEnd_suffix (cs : List Char) : trimEnd cs <:+ cs := by
  fun_induction trimEnd cs with
  | case1 => exact List.suffix_refl _
  | case2 rest hrest ih => exact ih.trans (List.suffix_cons '/' rest)
  | case3 rest ih => exact ih.trans (List.suffix_cons '.' ('/' :: rest))
  | case4 => exact List.suffix_refl _

/-- What is trimmed off the end of a path adds no segment. -/
theorem segmentsOfChars_trimEnd (cs ds : List Char) :
    Disk.segmentsOfChars (ds ++ (trimEnd cs).reverse) =
      Disk.segmentsOfChars (ds ++ cs.reverse) := by
  fun_induction trimEnd cs with
  | case1 => rfl
  | case2 rest hrest ih =>
    rw [ih, List.reverse_cons, ← List.append_assoc, Disk.segmentsOfChars_slash]
  | case3 rest ih =>
    rw [ih, List.reverse_cons, List.reverse_cons, List.reverse_cons, List.append_assoc,
      ← List.append_assoc, ← List.append_assoc, Disk.segmentsOfChars_slash,
      List.cons_append, Disk.segmentsOfChars_append]
    simp
  | case4 => rfl

theorem component?_of_plain (hname : Disk.Plain name) :
    component? name.toList = some (.name name) := by
  have hdot : name.toList ≠ ['.'] := fun h => hname.ne_of_dot [] h rfl
  have hup : name.toList ≠ ['.', '.'] := fun h => hname.ne_of_dot ['.'] h rfl
  simp [component?, hname.ne_nil, hdot, hup]

theorem getLast?_components_join (hp : p.text ≠ "") (hname : Disk.Plain name) :
    (p.join name).components.getLast? = some (.name name) := by
  have hsegments : (p.join name).segments = Text.split (· == '/') p.stalk ++ [name.toList] := by
    unfold segments
    rw [toList_join hp hname, Text.split_append (by decide),
      Text.split_of_not_mem hname.slash_not_mem]
  have hlast : ∀ (c : Component) (cs : List Component),
      (c :: (cs ++ [.name name])).getLast? = some (.name name) := by
    intro c cs
    rw [← List.cons_append, List.getLast?_concat]
  unfold components
  rw [hsegments]
  cases hstalk : Text.split (· == '/') p.stalk with
  | nil => exact absurd hstalk (Text.split_ne_nil _ _)
  | cons first rest =>
    rw [List.cons_append]
    dsimp only
    rw [List.filterMap_append, List.filterMap_cons_some (component?_of_plain hname)]
    split
    · exact hlast _ _
    · split
      · exact hlast _ _
      · split
        · exact hlast _ _
        · exact List.getLast?_concat

/-- The path before a name, without what says nothing at its end. -/
def before (p : Path) : Path := ⟨String.ofList (trimEnd ('/' :: p.stalk.reverse)).reverse⟩

theorem parent?_join (hp : p.text ≠ "") (hname : Disk.Plain name) :
    (p.join name).parent? = some p.before := by
  obtain ⟨ds, c, hlast, hslash, hc⟩ := hname.last_ne
  have hreverse : (p.join name).text.toList.reverse =
      name.toList.reverse ++ '/' :: p.stalk.reverse := by
    rw [toList_join hp hname]
    simp
  have htrim : trimEnd (name.toList.reverse ++ '/' :: p.stalk.reverse) =
      name.toList.reverse ++ '/' :: p.stalk.reverse := by
    rw [hlast, List.reverse_append, List.reverse_singleton, List.singleton_append,
      List.cons_append, trimEnd_cons hslash hc]
  have hdrop : (name.toList.reverse ++ '/' :: p.stalk.reverse).dropWhile (· != '/') =
      '/' :: p.stalk.reverse := by
    rw [List.dropWhile_append_of_pos]
    · rfl
    · intro d hd
      rw [bne_iff_ne]
      rintro rfl
      exact hname.slash_not_mem (List.mem_reverse.1 hd)
  unfold parent?
  rw [getLast?_components_join hp hname]
  dsimp only
  rw [hreverse, htrim, hdrop]
  rfl

theorem toList_before (p : Path) :
    p.before.text.toList = (trimEnd ('/' :: p.stalk.reverse)).reverse :=
  String.toList_ofList

/-- The path that a name was put behind another one for ends in nothing that is left out. -/
theorem before_join (hp : p.text ≠ "") (hname : Disk.Plain name) :
    (p.join name).before = p.join name := by
  obtain ⟨ds, c, hlast, hslash, hc⟩ := hname.last_ne
  have htext : (p.join name).text.toList = p.stalk ++ '/' :: ds ++ [c] := by
    rw [toList_join hp hname, hlast]
    simp
  have hstalk : (p.join name).stalk = (p.join name).text.toList := by
    unfold stalk
    rw [htext, List.getLast?_concat, if_neg fun h => hslash (Option.some.inj h)]
  have hlist : (p.join name).before.text.toList = (p.join name).text.toList := by
    rw [toList_before, hstalk, htext, List.reverse_append, List.reverse_singleton,
      List.singleton_append, trimEnd, if_neg (List.cons_ne_nil _ _), trimEnd_cons hslash hc]
    simp
  exact congrArg Path.mk (String.toList_inj.1 hlist)

theorem before_text_ne : p.before.text ≠ "" := by
  intro h
  have hnil := (toList_before p).symm.trans (congrArg String.toList h)
  exact trimEnd_ne_nil (by simp) (List.reverse_eq_nil_iff.1 hnil)

theorem before_prefix (hp : p.text ≠ "") : p.before.text.toList <+: p.text.toList := by
  rw [toList_before]
  rcases stalk_spec p with h | h
  · have hsuffix := trimEnd_suffix ('/' :: p.stalk.reverse)
    rw [← List.reverse_prefix] at hsuffix
    rw [h]
    simpa using hsuffix
  · have hne : p.stalk.reverse ≠ [] := by
      rw [List.reverse_ne_nil_iff, ← h]
      exact fun hnil => hp (String.toList_eq_nil_iff.1 hnil)
    have hsuffix := trimEnd_suffix p.stalk.reverse
    rw [← List.reverse_prefix, List.reverse_reverse] at hsuffix
    rw [h, trimEnd, if_neg hne]
    exact hsuffix

theorem segmentsOf_before (hp : p.text ≠ "") (w : Path) :
    Disk.segmentsOf (w.join p.before.text).text = Disk.segmentsOf (w.join p.text).text := by
  obtain ⟨ds, hds⟩ := before_prefix hp
  obtain ⟨cs, hbefore, hafter⟩ := exists_join_eq before_text_ne hds.symm w
  rw [Disk.segmentsOf_eq, Disk.segmentsOf_eq, hbefore, hafter, toList_before,
    segmentsOfChars_trimEnd, List.reverse_cons, List.reverse_reverse]
  rcases stalk_spec p with h | h
  · rw [h]
  · rw [← List.append_assoc, Disk.segmentsOfChars_slash, h]

/-- The segments of what comes up to the last slash of a path, but for the end that says nothing,
are the first ones of the path. -/
theorem segmentsOfChars_dropWhile {cs : List Char} (hcs : '/' ∈ trimEnd cs) (ds : List Char) :
    Disk.segmentsOfChars (ds ++ (trimEnd ((trimEnd cs).dropWhile (· != '/'))).reverse) <+:
      Disk.segmentsOfChars (ds ++ cs.reverse) := by
  obtain ⟨last, rest, hparts, hlast⟩ := List.eq_append_cons_of_mem hcs
  have hall : ∀ c ∈ last, (c != '/') = true :=
    fun c hc => bne_iff_ne.2 fun h => hlast (h ▸ hc)
  have hdrop : (trimEnd cs).dropWhile (· != '/') = '/' :: rest := by
    rw [hparts, List.dropWhile_append_of_pos hall]
    rfl
  have hbefore : ds ++ ('/' :: rest).reverse = (ds ++ rest.reverse) ++ ['/'] := by simp
  have hwhole : ds ++ (last ++ '/' :: rest).reverse =
      (ds ++ rest.reverse) ++ '/' :: last.reverse := by simp
  rw [segmentsOfChars_trimEnd, ← segmentsOfChars_trimEnd cs, hdrop, hparts, hbefore, hwhole,
    Disk.segmentsOfChars_slash, Disk.segmentsOfChars_append]
  exact List.prefix_append _ _

theorem getLast?_trimEnd {cs : List Char} (h : cs.getLast? = some '/') :
    (trimEnd cs).getLast? = some '/' := by
  fun_induction trimEnd cs with
  | case1 => rfl
  | case2 rest hrest ih =>
    rw [List.getLast?_cons_of_ne_nil hrest] at h
    exact ih h
  | case3 rest ih => exact ih h
  | case4 => exact h

theorem getLast?_reverse_of_isAbsolute (h : p.isAbsolute = true) :
    p.text.toList.reverse.getLast? = some '/' := by
  unfold isAbsolute at h
  rw [List.getLast?_reverse]
  cases htext : p.text.toList with
  | nil => simp [htext] at h
  | cons c cs =>
    rw [htext] at h
    simpa using h

/-- A parent has the first segments of its path. -/
theorem segmentsOf_parent? {above : Path} (h : p.parent? = some above) (w : Path) :
    Disk.segmentsOf (w.join above.text).text <+: Disk.segmentsOf (w.join p.text).text := by
  unfold parent? at h
  split at h
  · exact absurd h nofun
  · exact absurd h nofun
  · dsimp only at h
    have habove : above.text.toList =
        (trimEnd ((trimEnd p.text.toList.reverse).dropWhile (· != '/'))).reverse := by
      rw [← Option.some.inj h, String.toList_ofList]
    by_cases hslash : '/' ∈ trimEnd p.text.toList.reverse
    · have hne : above.text ≠ "" := by
        intro hempty
        rw [hempty, eq_comm, String.toList_empty, List.reverse_eq_nil_iff] at habove
        refine trimEnd_ne_nil (fun hnil => ?_) habove
        exact absurd (List.dropWhile_eq_nil_iff.1 hnil '/' hslash) (by decide)
      obtain ⟨ds, hds⟩ : above.text.toList <+: p.text.toList := by
        rw [habove, ← List.reverse_suffix, List.reverse_reverse]
        exact ((trimEnd_suffix _).trans (List.dropWhile_suffix _)).trans (trimEnd_suffix _)
      obtain ⟨cs, hjoin, hjoin'⟩ := exists_join_eq hne hds.symm w
      have hprefix := segmentsOfChars_dropWhile hslash cs
      rwa [← habove, List.reverse_reverse, ← hjoin, ← hjoin'] at hprefix
    · -- a path of one name leads on from the working directory
      have hrelative : p.isAbsolute = false := Bool.eq_false_iff.2 fun habsolute =>
        hslash (List.mem_of_getLast? (getLast?_trimEnd (getLast?_reverse_of_isAbsolute habsolute)))
      have hempty : above.text = "" := by
        have hnil : (trimEnd p.text.toList.reverse).dropWhile (· != '/') = [] :=
          List.dropWhile_eq_nil_iff.2 fun c hc => bne_iff_ne.2 fun h => hslash (h ▸ hc)
        rw [hnil] at habove
        exact String.toList_eq_nil_iff.1 habove
      rw [hempty, segmentsOf_join_relative rfl, segmentsOf_join_relative hrelative]
      exact List.prefix_append_right_inj _ |>.2 List.nil_prefix

/-! ## Extensions -/

theorem stem_of_not_mem (hdot : '.' ∉ name.toList) : stem name.toList = name.toList := by
  have hnone : name.toList.reverse.dropWhile (· != '.') = [] := by
    rw [List.dropWhile_eq_nil_iff]
    intro d hd
    rw [bne_iff_ne]
    rintro rfl
    exact hdot (List.mem_reverse.1 hd)
  unfold stem
  rw [hnone]

/-- A name without a dot takes an extension at its end. -/
theorem withExtension_join (hp : p.text ≠ "") (hname : Disk.Plain name)
    (hdot : '.' ∉ name.toList) (extension : String) :
    (p.join name).withExtension extension = p.before.join (name ++ "." ++ extension) := by
  unfold withExtension fileName?
  rw [getLast?_components_join hp hname, parent?_join hp hname]
  dsimp only
  rw [stem_of_not_mem hdot, String.ofList_toList]

/-- So does one that stands alone. -/
theorem withExtension_name (hname : Disk.Plain name) (hdot : '.' ∉ name.toList)
    (extension : String) :
    (Path.mk name).withExtension extension = (Path.mk "").join (name ++ "." ++ extension) := by
  have hcomponents : (Path.mk name).components = [.name name] := by
    have hfirst : name.toList ≠ ['.'] := fun h => hdot (h ▸ List.mem_singleton_self _)
    have hsegments : (Path.mk name).segments = [name.toList] :=
      Text.split_of_not_mem hname.slash_not_mem
    unfold components
    rw [hsegments, isAbsolute_of_not_mem hname.slash_not_mem]
    simp only [Bool.false_eq_true, if_false, if_neg hfirst, component?_of_plain hname,
      List.filterMap_nil]
  have hparent : (Path.mk name).parent? = some ⟨""⟩ := by
    have hdrop : (trimEnd name.toList.reverse).dropWhile (· != '/') = [] := by
      rw [List.dropWhile_eq_nil_iff]
      intro d hd
      rw [bne_iff_ne]
      rintro rfl
      exact hname.slash_not_mem (List.mem_reverse.1 ((trimEnd_suffix _).mem hd))
    unfold parent?
    rw [hcomponents]
    dsimp only [List.getLast?_singleton]
    rw [hdrop]
    rfl
  unfold withExtension fileName?
  rw [hcomponents, hparent]
  dsimp only [List.getLast?_singleton]
  rw [stem_of_not_mem hdot, String.ofList_toList]

/-! ## Paths inside others -/

/-- The second path leads on from where the first does, and never up. -/
def Encloses (p q : Path) : Prop :=
  ∃ down, q.components = p.components ++ down ∧ ∀ c ∈ down, c ≠ .root ∧ c ≠ .up

theorem encloses_refl (p : Path) : p.Encloses p := ⟨[], (List.append_nil _).symm, nofun⟩

theorem component?_ne_root (segment : List Char) : component? segment ≠ some .root := by
  unfold component?
  split
  · nofun
  · split <;> nofun

/-- What the first segment stands for, in a path that starts at the root or not. -/
def opening (absolute : Bool) (first : List Char) : List Component :=
  if absolute then [.root]
  else if first = ['.'] then [.here]
  else (component? first).toList

/-- Segments behind the first are read without regard to what is before them. -/
theorem components_eq_append {first : List Char} {rest : List (List Char)}
    (h : p.segments = first :: rest) :
    p.components = opening p.isAbsolute first ++ rest.filterMap component? := by
  unfold components opening
  rw [h]
  dsimp only
  split
  · rfl
  · split
    · rfl
    · cases component? first <;> rfl

/-- A path that does not start at the root is relative. -/
theorem isAbsolute_eq_false (h : .root ∉ p.components) : p.isAbsolute = false := by
  cases hsegments : p.segments with
  | nil => exact absurd hsegments (Text.split_ne_nil _ _)
  | cons first rest =>
    rw [components_eq_append hsegments] at h
    cases habsolute : p.isAbsolute with
    | false => rfl
    | true => exact absurd (by simp [opening, habsolute]) h

theorem mem_components_of_segments {q : Path} (hrelative : q.isAbsolute = false) {c : Component}
    (hc : c ∈ q.segments.filterMap component?) : c ∈ q.components := by
  cases hsegments : q.segments with
  | nil => exact absurd hsegments (Text.split_ne_nil _ _)
  | cons first rest =>
    rw [components_eq_append hsegments, hrelative, List.mem_append]
    rw [hsegments, List.filterMap_cons] at hc
    unfold opening
    cases hfirst : component? first with
    | none =>
      rw [hfirst] at hc
      exact .inr hc
    | some d =>
      have hdot : first ≠ ['.'] := by
        rintro rfl
        exact absurd hfirst (by simp [component?])
      rw [hfirst] at hc
      rcases List.mem_cons.1 hc with rfl | hc
      · simp [hdot]
      · exact .inr hc

theorem root_not_mem_components {q : Path} (hrelative : q.isAbsolute = false) :
    .root ∉ q.components := by
  intro hroot
  cases hsegments : q.segments with
  | nil => exact absurd hsegments (Text.split_ne_nil _ _)
  | cons first rest =>
    rw [components_eq_append hsegments, hrelative, List.mem_append, List.mem_filterMap] at hroot
    rcases hroot with hroot | ⟨segment, -, hroot⟩
    · unfold opening at hroot
      split at hroot
      · contradiction
      · split at hroot
        · simp at hroot
        · exact component?_ne_root first (by simpa using hroot)
    · exact component?_ne_root segment hroot

theorem component?_eq_up_iff {segment : List Char} :
    component? segment = some .up ↔ segment = ['.', '.'] := by
  unfold component?
  constructor
  · intro h
    split at h
    · exact absurd h nofun
    · split at h
      · assumption
      · exact absurd h nofun
  · rintro rfl
    rfl

theorem isAbsolute_iff : p.isAbsolute = true ↔ p.text.toList.head? = some '/' := by
  unfold isAbsolute
  cases p.text.toList with
  | nil => simp
  | cons c cs => simp

/-- Before the slash at the start of a path is an empty segment. -/
theorem up_mem_opening_iff {first : List Char} {rest : List (List Char)}
    (h : p.segments = first :: rest) : .up ∈ opening p.isAbsolute first ↔ first = ['.', '.'] := by
  cases habsolute : p.isAbsolute with
  | true =>
    have hfirst : first = [] := by
      obtain ⟨cs, hcs⟩ := List.head?_eq_some_iff.1 (isAbsolute_iff.1 habsolute)
      unfold segments at h
      rw [hcs] at h
      exact (List.cons.inj h).1.symm
    simp [opening, hfirst]
  | false =>
    by_cases hdot : first = ['.']
    · simp [opening, hdot]
    · simp [opening, hdot, Option.mem_toList, component?_eq_up_iff]

theorem up_mem_components_iff : .up ∈ p.components ↔ ['.', '.'] ∈ p.segments := by
  obtain ⟨first, rest, hsegments⟩ := List.exists_cons_of_ne_nil (Text.split_ne_nil (· == '/') _)
  have hsegments : p.segments = first :: rest := hsegments
  rw [components_eq_append hsegments, hsegments, List.mem_append, up_mem_opening_iff hsegments,
    List.mem_filterMap, List.mem_cons, eq_comm]
  simp only [component?_eq_up_iff, exists_eq_right]

theorem root_mem_components_iff : .root ∈ p.components ↔ p.isAbsolute = true := by
  constructor
  · intro h
    by_contra hrelative
    exact root_not_mem_components (Bool.eq_false_iff.2 hrelative) h
  · intro h
    by_contra hroot
    exact absurd (h.symm.trans (isAbsolute_eq_false hroot)) nofun

/-- A slash at the end of a path adds no component. -/
theorem components_eq_stalk {first : List Char} {rest : List (List Char)}
    (h : Text.split (· == '/') p.stalk = first :: rest) :
    p.components = opening p.isAbsolute first ++ rest.filterMap component? := by
  rcases stalk_spec p with htext | htext
  · have hsegments : p.segments = first :: (rest ++ [[]]) := by
      unfold segments
      rw [htext, Text.split_append (by decide), h]
      rfl
    rw [components_eq_append hsegments, List.filterMap_append]
    simp [component?]
  · refine components_eq_append ?_
    unfold segments
    rw [htext, h]

theorem components_of_empty (hp : p.text = "") : p.components = [] := by
  obtain rfl : p = ⟨""⟩ := by rw [← hp]
  decide

/-- A relative path has its components behind those of the path that it is put behind. A dot at its
start is none of them. -/
theorem components_join (hp : p.text ≠ "") {q : String}
    (hrelative : (Path.mk q).isAbsolute = false) :
    (p.join q).components =
      p.components ++ (Path.mk q).segments.filterMap component? := by
  have hsegments : (p.join q).segments =
      Text.split (· == '/') p.stalk ++ (Path.mk q).segments := by
    unfold segments
    rw [toList_join_of_relative hp hrelative, Text.split_append (by decide)]
  cases hstalk : Text.split (· == '/') p.stalk with
  | nil => exact absurd hstalk (Text.split_ne_nil _ _)
  | cons first rest =>
    rw [hstalk, List.cons_append] at hsegments
    rw [components_eq_append hsegments, components_eq_stalk hstalk, isAbsolute_join hp hrelative,
      List.filterMap_append, ← List.append_assoc]

/-- A relative path without steps up leads on from any path it is put behind. -/
theorem encloses_join {q : String} (hrelative : (Path.mk q).isAbsolute = false)
    (hup : .up ∉ (Path.mk q).components) (p : Path) : p.Encloses (p.join q) := by
  by_cases hp : p.text = ""
  · refine ⟨(Path.mk q).components, ?_, fun c hc => ⟨?_, ?_⟩⟩
    · rw [join_of_empty hp hrelative, components_of_empty hp, List.nil_append]
    · rintro rfl
      exact root_not_mem_components hrelative hc
    · rintro rfl
      exact hup hc
  · refine ⟨_, components_join hp hrelative, fun c hc => ⟨?_, ?_⟩⟩
    · obtain ⟨segment, -, hsegment⟩ := List.mem_filterMap.1 hc
      rintro rfl
      exact component?_ne_root segment hsegment
    · rintro rfl
      exact hup (mem_components_of_segments hrelative hc)

end Path

end Formulary
