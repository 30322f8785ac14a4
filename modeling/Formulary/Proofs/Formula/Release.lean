import Formulary.Formula.Validation
import Formulary.Proofs.Text
import Mathlib.Data.List.DropRight

/-!
# Versions in the URLs of releases

How a release is named (`ReleaseName`) and where it lies (`ReleaseUrl`), apart from the function
that reads versions off URLs. That function looks at what stands before any query or fragment, from
the last slash on that is not at the end (`Version.lastSegment`), and there reads exactly the
versions in the names of releases (`Version.ofUrl?_eq_some_iff`), so it reads exactly the URLs of
releases (`Version.reads_releases`). When the path of a URL is empty, this is the host, which is
read as if it were a file (`Version.reads_host`).
-/

namespace Formulary

/-! ## Releases -/

/-- The text starts with a digit, and has nothing in it at which a URL or a name is cut. -/
structure Version.IsWhole (s : String) : Prop where
  digit : ∃ c ∈ s.toList.head?, Text.isDigit c = true
  uncut : Text.Avoids s ['/', '?', '#', '-']

/-- The file name of a release, in its parts. -/
structure ReleaseName where
  /-- Nothing, or what ends in a dash. -/
  lead : String
  /-- Nothing, or a letter for the word version. -/
  mark : String
  version : String
  /-- Nothing, or the extension of an archive. -/
  extension : String
  lead_uncut : Text.Avoids lead ['/', '?', '#']
  lead_dash : lead = "" ∨ lead.toList.getLast? = some '-'
  mark_mem : mark ∈ ["", "v", "V"]
  isWhole : Version.IsWhole version
  extension_mem : extension ∈ "" :: archiveExtensions
  /-- Where there is no extension, the version does not end in one either. -/
  extension_unread : extension = "" → ∀ e ∈ archiveExtensions, ¬e.toList <:+ version.toList

namespace ReleaseName

/-- The name as it is written. -/
def text (n : ReleaseName) : String := n.lead ++ n.mark ++ n.version ++ n.extension

end ReleaseName

/-- The URL of a release, in its parts. -/
structure ReleaseUrl where
  /-- Nothing, or what ends in a slash. -/
  directory : String
  name : ReleaseName
  /-- How many slashes stand behind the name. -/
  slashes : Nat
  /-- Nothing, or a query or a fragment. -/
  tail : String
  directory_uncut : Text.Avoids directory ['?', '#']
  directory_slash : directory = "" ∨ directory.toList.getLast? = some '/'
  tail_cut : tail = "" ∨ tail.toList.head? = some '?' ∨ tail.toList.head? = some '#'

namespace ReleaseUrl

/-- The URL as it is written. -/
def text (r : ReleaseUrl) : String :=
  r.directory ++ r.name.text ++ String.ofList (List.replicate r.slashes '/') ++ r.tail

end ReleaseUrl

namespace Version

variable {cs : List Char}

/-! ## After the last -/

theorem afterLast_eq_rtakeWhile (p : Char → Bool) (cs : List Char) :
    afterLast p cs = cs.rtakeWhile fun c => !p c := rfl

theorem afterLast_append {p : Char → Bool} {lead : List Char}
    (hlead : ∀ c ∈ lead.getLast?, p c = true) (hcs : ∀ c ∈ cs, p c = false) :
    afterLast p (lead ++ cs) = cs := by
  have hall : ∀ c ∈ cs.reverse, (!p c) = true := fun c hc => by
    rw [hcs c (List.mem_reverse.1 hc), Bool.not_false]
  have hnone : (lead.reverse.takeWhile fun c => !p c) = [] :=
    Text.takeWhile_of_head fun c hc => by
      rw [hlead c (by rwa [List.getLast?_eq_head?_reverse]), Bool.not_true]
  unfold afterLast
  rw [List.reverse_append, List.takeWhile_append_of_pos hall, hnone, List.append_nil,
    List.reverse_reverse]

theorem not_of_mem_afterLast {p : Char → Bool} {c : Char} (h : c ∈ afterLast p cs) :
    p c = false := by
  simpa using List.mem_rtakeWhile_imp h

/-- What is before ends where it is cut. -/
theorem exists_afterLast (p : Char → Bool) (cs : List Char) :
    ∃ lead, cs = lead ++ afterLast p cs ∧ ∀ c ∈ lead.getLast?, p c = true := by
  refine ⟨cs.rdropWhile fun c => !p c, List.rdropWhile_append_rtakeWhile.symm, fun c hc => ?_⟩
  obtain ⟨hne, rfl⟩ := List.mem_getLast?_eq_getLast hc
  simpa using List.rdropWhile_last_not (fun c => !p c) cs hne

/-! ## The last segment -/

/-- What stands before any query or fragment. -/
def beforeTail (url : List Char) : List Char := url.takeWhile fun c => c != '?' && c != '#'

theorem lastSegment_eq_afterLast (url : List Char) :
    lastSegment url = afterLast (· == '/') ((beforeTail url).rdropWhile (· == '/')) := rfl

theorem beforeTail_append {tail : List Char} (hcs : ∀ c ∈ cs, c ∉ ['?', '#'])
    (htail : ∀ c ∈ tail.head?, c ∈ ['?', '#']) : beforeTail (cs ++ tail) = cs := by
  have hall : ∀ c ∈ cs, (c != '?' && c != '#') = true := fun c hc => by simpa using hcs c hc
  have hnone : (tail.takeWhile fun c => c != '?' && c != '#') = [] :=
    Text.takeWhile_of_head fun c hc => by simpa [or_iff_not_imp_left] using htail c hc
  rw [beforeTail, List.takeWhile_append_of_pos hall, hnone, List.append_nil]

theorem not_mem_of_mem_beforeTail {url : List Char} {c : Char} (h : c ∈ beforeTail url) :
    c ∉ ['?', '#'] := by
  simpa using List.mem_takeWhile_imp h

theorem exists_beforeTail (url : List Char) :
    ∃ tail, url = beforeTail url ++ tail ∧ ∀ c ∈ tail.head?, c ∈ ['?', '#'] := by
  refine ⟨_, List.takeWhile_append_dropWhile.symm, fun c hc => ?_⟩
  have hnot := List.head?_dropWhile_not (fun c => c != '?' && c != '#') url
  rw [Option.mem_def.1 hc] at hnot
  simpa [or_iff_not_imp_left] using hnot

theorem lastSegment_eq {directory segment tail : List Char}
    (hdirectory : ∀ c ∈ directory, c ∉ ['?', '#'])
    (hslash : ∀ c ∈ directory.getLast?, c = '/') (hsegment : ∀ c ∈ segment, c ∉ ['/', '?', '#'])
    (hne : segment ≠ []) (htail : ∀ c ∈ tail.head?, c ∈ ['?', '#']) (n : Nat) :
    lastSegment (directory ++ segment ++ List.replicate n '/' ++ tail) = segment := by
  have hbefore : ∀ c ∈ directory ++ segment ++ List.replicate n '/', c ∉ ['?', '#'] := by
    intro c hc
    rcases List.mem_append.1 hc with hc | hc
    · rcases List.mem_append.1 hc with hc | hc
      · exact hdirectory c hc
      · exact fun hmem => hsegment c hc (List.mem_cons_of_mem _ hmem)
    · rw [List.eq_of_mem_replicate hc]
      decide
  have hslashes : ∀ c ∈ (List.replicate n '/').reverse, (c == '/') = true := fun c hc => by
    rw [List.eq_of_mem_replicate (List.mem_reverse.1 hc), beq_self_eq_true]
  have hend : (directory ++ segment ++ List.replicate n '/').rdropWhile (· == '/') =
      directory ++ segment := by
    rw [List.rdropWhile, List.reverse_append, List.dropWhile_append_of_pos hslashes,
      ← List.rdropWhile, List.rdropWhile_eq_self_iff]
    intro _
    rw [List.getLast_append_of_ne_nil _ hne, beq_iff_eq]
    exact fun hlast => hsegment _ (List.getLast_mem hne) (by rw [hlast]; exact List.mem_cons_self)
  rw [lastSegment_eq_afterLast, beforeTail_append hbefore htail, hend]
  refine afterLast_append (fun c hc => by rw [hslash c hc]; rfl) fun c hc => ?_
  rw [beq_eq_false_iff_ne]
  rintro rfl
  exact hsegment _ hc List.mem_cons_self

theorem lastSegment_infix (url : List Char) : lastSegment url <:+: beforeTail url := by
  rw [lastSegment_eq_afterLast, afterLast_eq_rtakeWhile]
  exact (List.rtakeWhile_suffix _ _).isInfix.trans (List.rdropWhile_prefix _ _).isInfix

/-- A URL in the parts that its last segment is found by. -/
theorem exists_lastSegment (url : List Char) :
    ∃ directory n tail, url = directory ++ lastSegment url ++ List.replicate n '/' ++ tail ∧
      (∀ c ∈ directory, c ∉ ['?', '#']) ∧ (∀ c ∈ directory.getLast?, c = '/') ∧
      (∀ c ∈ lastSegment url, c ∉ ['/', '?', '#']) ∧ (lastSegment url = [] → directory = []) ∧
      ∀ c ∈ tail.head?, c ∈ ['?', '#'] := by
  obtain ⟨tail, hurl, htail⟩ := exists_beforeTail url
  obtain ⟨directory, hbody, hslash⟩ :=
    exists_afterLast (· == '/') ((beforeTail url).rdropWhile (· == '/'))
  obtain ⟨n, hslashes⟩ : ∃ n, (beforeTail url).rtakeWhile (· == '/') = List.replicate n '/' :=
    ⟨_, List.eq_replicate_of_mem fun c hc => by simpa using List.mem_rtakeWhile_imp hc⟩
  have hbefore : beforeTail url = directory ++ lastSegment url ++ List.replicate n '/' := by
    rw [← hslashes, lastSegment_eq_afterLast, ← hbody, List.rdropWhile_append_rtakeWhile]
  have hmem : ∀ c ∈ directory ++ lastSegment url, c ∉ ['?', '#'] := fun c hc =>
    not_mem_of_mem_beforeTail (hbefore ▸ List.mem_append_left _ hc)
  refine ⟨directory, n, tail, hbefore ▸ hurl, fun c hc => hmem c (List.mem_append_left _ hc),
    fun c hc => eq_of_beq (hslash c hc), fun c hc hcut => ?_, fun hnone => ?_, htail⟩
  · rcases List.mem_cons.1 hcut with rfl | hcut
    · exact absurd (not_of_mem_afterLast hc) (by decide)
    · exact hmem c (List.mem_append_right _ hc) hcut
  · -- what is before would end in a slash, and slashes at the end are taken off
    by_contra hne
    have hlast := List.rdropWhile_last_not (· == '/') (beforeTail url)
    rw [lastSegment_eq_afterLast] at hnone
    rw [hnone, List.append_nil] at hbody
    rw [hbody] at hlast
    exact hlast hne (hslash _ (List.getLast_mem_getLast? hne))

/-! ## The parts of a name -/

theorem eq_of_suffix {e e' : String} (he : e ∈ archiveExtensions) (he' : e' ∈ archiveExtensions)
    (h : e.toList <:+ cs) (h' : e'.toList <:+ cs) : e = e' := by
  have hall : ∀ e ∈ archiveExtensions, ∀ e' ∈ archiveExtensions, e.toList <:+ e'.toList →
      e = e' := by decide
  rcases List.suffix_or_suffix_of_suffix h h' with hsuffix | hsuffix
  · exact hall e he e' he' hsuffix
  · exact (hall e' he' e he hsuffix).symm

theorem dropExtension_append {e : String} (he : e ∈ archiveExtensions) (stem : List Char) :
    dropExtension (stem ++ e.toList) = stem := by
  unfold dropExtension
  cases hfound :
      archiveExtensions.findSome? fun e' => Text.before? e'.toList (stem ++ e.toList) with
  | none =>
    have hnone := List.findSome?_eq_none_iff.1 hfound e he
    exact absurd (hnone.symm.trans (Text.before?_eq_some_iff.2 rfl)) nofun
  | some stem' =>
    obtain ⟨e', he', hbefore⟩ := List.exists_of_findSome?_eq_some hfound
    rw [Text.before?_eq_some_iff] at hbefore
    obtain rfl := eq_of_suffix he he' ⟨stem, rfl⟩ ⟨stem', hbefore.symm⟩
    exact (List.append_cancel_right hbefore).symm

theorem dropExtension_of_forall (h : ∀ e ∈ archiveExtensions, ¬e.toList <:+ cs) :
    dropExtension cs = cs := by
  have hnone : (archiveExtensions.findSome? fun e => Text.before? e.toList cs) = none := by
    rw [List.findSome?_eq_none_iff]
    intro e he
    rw [Option.eq_none_iff_forall_not_mem]
    exact fun stem hstem => h e he ⟨stem, (Text.before?_eq_some_iff.1 hstem).symm⟩
  unfold dropExtension
  rw [hnone]
  rfl

theorem exists_dropExtension (cs : List Char) :
    ∃ e ∈ "" :: archiveExtensions, cs = dropExtension cs ++ e.toList ∧
      (e = "" → ∀ e' ∈ archiveExtensions, ¬e'.toList <:+ cs) := by
  by_cases h : ∃ e ∈ archiveExtensions, e.toList <:+ cs
  · obtain ⟨e, he, stem, rfl⟩ := h
    refine ⟨e, List.mem_cons_of_mem _ he, by rw [dropExtension_append he], ?_⟩
    rintro rfl
    exact absurd he (by decide)
  · have hnone : ∀ e ∈ archiveExtensions, ¬e.toList <:+ cs :=
      fun e he hsuffix => h ⟨e, he, hsuffix⟩
    refine ⟨"", List.mem_cons_self, ?_, fun _ => hnone⟩
    rw [dropExtension_of_forall hnone]
    exact (List.append_nil cs).symm

theorem dropMark_append {mark : String} (hmark : mark ∈ ["", "v", "V"])
    (h : ∃ c ∈ cs.head?, Text.isDigit c = true) : dropMark (mark.toList ++ cs) = cs := by
  obtain ⟨c, hc, hdigit⟩ := h
  obtain ⟨rest, rfl⟩ := List.head?_eq_some_iff.1 hc
  simp only [List.mem_cons, List.not_mem_nil, or_false] at hmark
  rcases hmark with rfl | rfl | rfl
  · show dropMark (c :: rest) = c :: rest
    unfold dropMark
    split
    · rename_i h
      obtain ⟨rfl, -⟩ := List.cons.inj h
      exact absurd hdigit (by decide)
    · rename_i h
      obtain ⟨rfl, -⟩ := List.cons.inj h
      exact absurd hdigit (by decide)
    · rfl
  · rfl
  · rfl

theorem exists_dropMark (cs : List Char) :
    ∃ mark ∈ ["", "v", "V"], cs = mark.toList ++ dropMark cs := by
  unfold dropMark
  split
  · exact ⟨"v", by decide, rfl⟩
  · exact ⟨"V", by decide, rfl⟩
  · exact ⟨"", by decide, rfl⟩

/-! ## Names -/

/-- What is looked at for a version in a segment. -/
def candidate (segment : List Char) : List Char :=
  dropMark (afterLast (· == '-') (dropExtension segment))

theorem ofUrl?_eq_some_iff_candidate {url version : String} :
    ofUrl? url = some version ↔ version.toList = candidate (lastSegment url.toList) ∧
      ∃ c ∈ version.toList.head?, Text.isDigit c = true := by
  unfold ofUrl? candidate
  dsimp only
  generalize dropMark (afterLast (· == '-') (dropExtension (lastSegment url.toList))) = found
  constructor
  · intro h
    cases found with
    | nil => exact absurd h nofun
    | cons c rest =>
      dsimp only at h
      split at h
      · rename_i hdigit
        obtain rfl := Option.some.inj h
        rw [String.toList_ofList]
        exact ⟨rfl, c, rfl, hdigit⟩
      · exact absurd h nofun
  · rintro ⟨rfl, c, hc, hdigit⟩
    obtain ⟨rest, hrest⟩ := List.head?_eq_some_iff.1 hc
    rw [hrest]
    dsimp only
    rw [if_pos hdigit, ← hrest, String.ofList_toList]

end Version

namespace ReleaseName

open Version

variable (n : ReleaseName)

theorem toList_text :
    n.text.toList = n.lead.toList ++ n.mark.toList ++ n.version.toList ++ n.extension.toList := by
  simp [text, String.toList_append]

/-- What stands before the version ends in a dash or a mark. -/
theorem mem_of_getLast? {c : Char} (h : c ∈ (n.lead.toList ++ n.mark.toList).getLast?) :
    c ∈ ['-', 'v', 'V'] := by
  have hmark := n.mark_mem
  simp only [List.mem_cons, List.not_mem_nil, or_false] at hmark
  rcases hmark with hmark | hmark | hmark
  · rw [hmark, String.toList_empty, List.append_nil] at h
    rw [Text.ends_iff.1 n.lead_dash c h]
    decide
  · rw [hmark, List.getLast?_append_of_ne_nil _ (by decide)] at h
    obtain rfl := Option.some.inj h
    decide
  · rw [hmark, List.getLast?_append_of_ne_nil _ (by decide)] at h
    obtain rfl := Option.some.inj h
    decide

/-- What ends the name before its extension, and could be taken for one, ends the version. -/
theorem suffix_version {e : String} (he : e ∈ archiveExtensions)
    (h : e.toList <:+ n.lead.toList ++ n.mark.toList ++ n.version.toList) :
    e.toList <:+ n.version.toList := by
  have hall : ∀ e ∈ archiveExtensions, Text.Avoids e ['-', 'v', 'V'] := by decide
  rcases List.suffix_or_suffix_of_suffix h ⟨_, rfl⟩ with hsuffix | ⟨before, hbefore⟩
  · exact hsuffix
  · rcases List.eq_nil_or_concat' before with rfl | ⟨rest, c, rfl⟩
    · exact ⟨[], hbefore.symm⟩
    · rw [← hbefore, List.suffix_append_self_iff] at h
      obtain ⟨more, hmore⟩ := h
      have hlast : c ∈ (n.lead.toList ++ n.mark.toList).getLast? := by
        rw [← hmore, ← List.append_assoc]
        exact List.getLast?_concat
      exact absurd (n.mem_of_getLast? hlast) (hall e he c (hbefore ▸ by simp))

theorem candidate_text : candidate n.text.toList = n.version.toList := by
  have hstem : dropExtension n.text.toList =
      n.lead.toList ++ (n.mark.toList ++ n.version.toList) := by
    rw [toList_text, ← List.append_assoc]
    rcases List.mem_cons.1 n.extension_mem with hnone | hmem
    · rw [hnone, String.toList_empty, List.append_nil]
      exact dropExtension_of_forall fun e he h =>
        n.extension_unread hnone e he (n.suffix_version he h)
    · exact dropExtension_append hmem _
  have hdash : ∀ c ∈ n.mark.toList ++ n.version.toList, (c == '-') = false := by
    have hall : ∀ mark ∈ ["", "v", "V"], '-' ∉ mark.toList := by decide
    intro c hc
    rw [beq_eq_false_iff_ne]
    rintro rfl
    rcases List.mem_append.1 hc with hc | hc
    · exact hall _ n.mark_mem hc
    · exact n.isWhole.uncut _ hc (by decide)
  have hlead : ∀ c ∈ n.lead.toList.getLast?, (c == '-') = true :=
    fun c hc => by rw [Text.ends_iff.1 n.lead_dash c hc, beq_self_eq_true]
  rw [candidate, hstem, afterLast_append hlead hdash, dropMark_append n.mark_mem n.isWhole.digit]

end ReleaseName

namespace Version

/-- A segment that a version is found in is the name of a release. -/
theorem exists_name {segment : List Char} {version : String}
    (hsegment : ∀ c ∈ segment, c ∉ ['/', '?', '#'])
    (hversion : version.toList = candidate segment)
    (hdigit : ∃ c ∈ version.toList.head?, Text.isDigit c = true) :
    ∃ n : ReleaseName, n.text.toList = segment ∧ n.version = version := by
  obtain ⟨e, he, hstem, hunread⟩ := exists_dropExtension segment
  obtain ⟨before, hbefore, hdash⟩ := exists_afterLast (· == '-') (dropExtension segment)
  obtain ⟨lead, rfl⟩ : ∃ lead : String, lead.toList = before :=
    ⟨String.ofList before, String.toList_ofList⟩
  obtain ⟨mark, hmark, hafter⟩ := exists_dropMark (afterLast (· == '-') (dropExtension segment))
  replace hafter : afterLast (· == '-') (dropExtension segment) = mark.toList ++ version.toList :=
    hversion ▸ hafter
  have hparts : segment = lead.toList ++ mark.toList ++ version.toList ++ e.toList := by
    rw [List.append_assoc lead.toList, ← hafter, ← hbefore, ← hstem]
  have hcut : ∀ c, c ∈ lead.toList ∨ c ∈ version.toList → c ∉ ['/', '?', '#'] := fun c hc =>
    hsegment c (by rw [hparts]; rcases hc with hc | hc <;> simp [hc])
  refine ⟨{
    lead, mark, version, extension := e
    lead_uncut := fun c hc => hcut c (.inl hc)
    lead_dash := Text.ends_iff.2 fun c hc => eq_of_beq (hdash c hc)
    mark_mem := hmark
    isWhole := ⟨hdigit, fun c hc hmem => ?_⟩
    extension_mem := he
    extension_unread := fun hnone e' he' hsuffix => hunread hnone e' he' ?_ }, ?_, rfl⟩
  · have hlast : c ∈ afterLast (· == '-') (dropExtension segment) :=
      hafter ▸ List.mem_append_right _ hc
    have hnot : c ≠ '-' := by simpa using not_of_mem_afterLast hlast
    exact hcut c (.inr hc) (by simpa [hnot] using hmem)
  · rw [hnone, String.toList_empty, List.append_nil] at hparts
    exact hparts ▸ hsuffix.trans (List.suffix_append _ _)
  · rw [ReleaseName.toList_text]
    exact hparts.symm

theorem ofUrl?_congr {url url' : String} (h : lastSegment url.toList = lastSegment url'.toList) :
    ofUrl? url = ofUrl? url' := by
  unfold ofUrl?
  rw [h]

/-- The versions that are read are those in the names of releases. -/
theorem ofUrl?_eq_some_iff {url version : String} : ofUrl? url = some version ↔
    ∃ n : ReleaseName, n.text.toList = lastSegment url.toList ∧ n.version = version := by
  rw [ofUrl?_eq_some_iff_candidate]
  constructor
  · rintro ⟨hversion, hdigit⟩
    obtain ⟨-, -, -, -, -, -, hsegment, -, -⟩ := exists_lastSegment url.toList
    exact exists_name hsegment hversion hdigit
  · rintro ⟨n, hname, rfl⟩
    exact ⟨by rw [← hname, n.candidate_text], n.isWhole.digit⟩

end Version

/-! ## URLs -/

namespace ReleaseName

variable (n : ReleaseName)

theorem text_ne_nil : n.text.toList ≠ [] := by
  obtain ⟨c, hc, -⟩ := n.isWhole.digit
  have hversion := List.mem_of_mem_head? hc
  exact List.ne_nil_of_mem (a := c) (by rw [toList_text]; simp [hversion])

theorem version_infix : n.version.toList <:+: n.text.toList :=
  ⟨n.lead.toList ++ n.mark.toList, n.extension.toList, n.toList_text.symm⟩

theorem text_uncut : Text.Avoids n.text ['/', '?', '#'] := by
  have hmark : ∀ mark ∈ ["", "v", "V"], Text.Avoids mark ['/', '?', '#'] := by decide
  have hextension : ∀ e ∈ "" :: archiveExtensions, Text.Avoids e ['/', '?', '#'] := by decide
  rw [text, Text.avoids_append_iff, Text.avoids_append_iff, Text.avoids_append_iff]
  exact ⟨⟨⟨n.lead_uncut, hmark _ n.mark_mem⟩,
    n.isWhole.uncut.mono (List.subset_append_left _ ['-'])⟩, hextension _ n.extension_mem⟩

end ReleaseName

namespace ReleaseUrl

variable (r : ReleaseUrl)

theorem toList_text : r.text.toList =
    r.directory.toList ++ r.name.text.toList ++ List.replicate r.slashes '/' ++ r.tail.toList := by
  simp [text, String.toList_append]

theorem lastSegment_text : Version.lastSegment r.text.toList = r.name.text.toList := by
  rw [toList_text]
  exact Version.lastSegment_eq r.directory_uncut (Text.ends_iff.1 r.directory_slash)
    r.name.text_uncut r.name.text_ne_nil (Text.opens_iff.1 r.tail_cut) r.slashes

/-- Where the last segment is the name of a release, the URL is that of the release. -/
theorem exists_of_lastSegment {n : ReleaseName} {url : String}
    (h : n.text.toList = Version.lastSegment url.toList) :
    ∃ r : ReleaseUrl, r.text = url ∧ r.name.version = n.version := by
  obtain ⟨front, slashes, back, hurl, hfront, hslash, -, -, hback⟩ :=
    Version.exists_lastSegment url.toList
  obtain ⟨directory, rfl⟩ : ∃ s : String, s.toList = front :=
    ⟨String.ofList front, String.toList_ofList⟩
  obtain ⟨tail, rfl⟩ : ∃ s : String, s.toList = back := ⟨String.ofList back, String.toList_ofList⟩
  refine ⟨⟨directory, n, slashes, tail, hfront, Text.ends_iff.2 hslash, Text.opens_iff.2 hback⟩,
    ?_, rfl⟩
  rw [← String.toList_inj, toList_text, hurl, h]

end ReleaseUrl

namespace Version

/-- The version of a release is read off its URL, and nothing else is read : where a version is
found, the URL is that of a release. It starts with a digit, is not cut by anything, and is part of
what stands before any query or fragment. -/
theorem reads_releases :
    (∀ r : ReleaseUrl, ofUrl? r.text = some r.name.version) ∧
    ∀ url version, ofUrl? url = some version →
      (∃ r : ReleaseUrl, r.text = url ∧ r.name.version = version) ∧
      IsWhole version ∧ version.toList <:+: beforeTail url.toList := by
  refine ⟨fun r => ofUrl?_eq_some_iff.2 ⟨r.name, r.lastSegment_text.symm, rfl⟩,
    fun url version h => ?_⟩
  obtain ⟨n, hname, rfl⟩ := ofUrl?_eq_some_iff.1 h
  refine ⟨ReleaseUrl.exists_of_lastSegment hname, n.isWhole, ?_⟩
  exact n.version_infix.trans (hname ▸ lastSegment_infix url.toList)

/-- A name with dashes and numbers of its own, a mark, and two slashes before a fragment. -/
theorem reads_releases_marked :
    let name : ReleaseName := {
      lead := "x-2-lib-", mark := "v", version := "1.0.tar_3", extension := ".tar.gz"
      lead_uncut := by decide, lead_dash := by decide, mark_mem := by decide
      isWhole := ⟨⟨'1', by decide⟩, by decide⟩
      extension_mem := by decide, extension_unread := by decide }
    let r : ReleaseUrl := {
      directory := "https://example.org/v2/", name, slashes := 2, tail := "#a/b-3?c"
      directory_uncut := by decide, directory_slash := by decide, tail_cut := by decide }
    r.text = "https://example.org/v2/x-2-lib-v1.0.tar_3.tar.gz//#a/b-3?c" ∧
      ofUrl? r.text = some "1.0.tar_3" := by
  intro name r
  exact ⟨by decide, reads_releases.1 r⟩

end Version

/-! ## URLs without a path -/

/-- A URL with an empty path, in its parts. -/
structure HostUrl where
  scheme : String
  /-- A host, or an address, and a port if there is one. -/
  authority : String
  slashes : Nat
  /-- Nothing, or a query or a fragment. -/
  tail : String
  scheme_uncut : Text.Avoids scheme ['?', '#']
  authority_uncut : Text.Avoids authority ['/', '?', '#']
  authority_ne : authority ≠ ""
  tail_cut : tail = "" ∨ tail.toList.head? = some '?' ∨ tail.toList.head? = some '#'

namespace HostUrl

variable (u : HostUrl)

/-- The URL up to its host. -/
def root : String := u.scheme ++ "://" ++ u.authority

/-- The URL as it is written. -/
def text : String := u.root ++ String.ofList (List.replicate u.slashes '/') ++ u.tail

theorem front_uncut : Text.Avoids (u.scheme ++ "://") ['?', '#'] :=
  Text.avoids_append_iff.2 ⟨u.scheme_uncut, by decide⟩

theorem root_uncut : Text.Avoids u.root ['?', '#'] :=
  Text.avoids_append_iff.2 ⟨u.front_uncut, u.authority_uncut.mono (List.subset_cons_self _ _)⟩

/-- The host is where a last segment would be. -/
theorem lastSegment_text : Version.lastSegment u.text.toList = u.authority.toList := by
  have hparts : u.text.toList = (u.scheme ++ "://").toList ++ u.authority.toList ++
      List.replicate u.slashes '/' ++ u.tail.toList := by
    simp [text, root, String.toList_append]
  have hslash : ∀ c ∈ (u.scheme ++ "://").toList.getLast?, c = '/' := fun c hc => by
    rw [String.toList_append, List.getLast?_append_of_ne_nil _ (by decide)] at hc
    exact (Option.some.inj hc).symm
  rw [hparts]
  exact Version.lastSegment_eq u.front_uncut hslash u.authority_uncut
    (String.toList_eq_nil_iff.not.2 u.authority_ne) (Text.opens_iff.1 u.tail_cut) u.slashes

/-- In a path with a segment, the last segment is that of the path. -/
theorem lastSegment_path {path : String} (hpath : Text.Avoids path ['?', '#'])
    (hnamed : ∃ c ∈ path.toList, c ≠ '/') :
    Version.lastSegment (u.root ++ "/" ++ path ++ u.tail).toList =
      Version.lastSegment path.toList := by
  obtain ⟨front, n, back, hparts, -, hslash, hsegment, hempty, hback⟩ :=
    Version.exists_lastSegment path.toList
  obtain rfl : back = [] := by
    cases back with
    | nil => rfl
    | cons c rest => exact absurd (hback c rfl) (hpath c (by rw [hparts]; simp))
  have hne : Version.lastSegment path.toList ≠ [] := by
    intro hnone
    obtain ⟨c, hc, hnot⟩ := hnamed
    rw [hparts, hnone, hempty hnone, List.append_nil] at hc
    exact hnot (List.eq_of_mem_replicate hc)
  have hall : (u.root ++ "/" ++ path ++ u.tail).toList =
      (u.root.toList ++ '/' :: front) ++ Version.lastSegment path.toList ++
        List.replicate n '/' ++ u.tail.toList := by
    simp only [String.toList_append]
    conv_lhs => rw [hparts]
    simp
  rw [hall]
  refine Version.lastSegment_eq (fun c hc => ?_) (fun c hc => ?_) hsegment hne
    (Text.opens_iff.1 u.tail_cut) n
  · rcases List.mem_append.1 hc with hc | hc
    · exact u.root_uncut c hc
    · rcases List.mem_cons.1 hc with rfl | hc
      · decide
      · exact hpath c (by rw [hparts]; simp [hc])
  · rw [List.getLast?_append_of_ne_nil _ (List.cons_ne_nil _ _)] at hc
    cases front with
    | nil => exact (Option.some.inj hc).symm
    | cons d rest => exact hslash c (by rwa [List.getLast?_cons_cons] at hc)

end HostUrl

namespace Formula

/-- The formula leaves its version to the URL of its source. -/
def Undeclared (f : Formula) : Prop := ∀ v ∈ f.identity.version, Text.trim v = ""

theorem version?_of_undeclared {f : Formula} (h : f.Undeclared) :
    f.version? = Version.ofUrl? f.source.url := by
  unfold version?
  cases hversion : f.identity.version with
  | none => rfl
  | some v =>
    dsimp only
    rw [if_neg (not_not_intro (h v hversion))]

theorem validate_of_version? {f : Formula} (h : f.version? = none) :
    f.validate = .error (if Text.isBlankText f.identity.name then .emptyName
      else .noVersion f.identity.name f.source.url) := by
  unfold validate checkSource
  rw [h]
  cases Text.isBlankText f.identity.name <;> rfl

end Formula

namespace Version

/-- Where a URL has a path, a version is derived from the path alone. Where the path is empty, none
is derived, and a formula that declares none is refused, unless the host reads like the name of a
release : then the version in it is taken. -/
theorem reads_host (u : HostUrl) :
    (∀ path : String, Text.Avoids path ['?', '#'] → (∃ c ∈ path.toList, c ≠ '/') →
      ofUrl? (u.root ++ "/" ++ path ++ u.tail) = ofUrl? path) ∧
    ((∀ n : ReleaseName, n.text ≠ u.authority) → ofUrl? u.text = none ∧
      ∀ f : Formula, f.Undeclared → f.source.url = u.text → f.validate = .error
        (if Text.isBlankText f.identity.name then .emptyName
          else .noVersion f.identity.name u.text)) ∧
    ∀ n : ReleaseName, n.text = u.authority → ofUrl? u.text = some n.version := by
  have hread : ∀ version, ofUrl? u.text = some version ↔
      ∃ n : ReleaseName, n.text = u.authority ∧ n.version = version := fun version => by
    rw [ofUrl?_eq_some_iff, u.lastSegment_text]
    simp only [String.toList_inj]
  refine ⟨fun path hpath hnamed => ofUrl?_congr (u.lastSegment_path hpath hnamed),
    fun hnone => ?_, fun n hn => (hread _).2 ⟨n, hn, rfl⟩⟩
  have hunread : ofUrl? u.text = none := by
    rw [Option.eq_none_iff_forall_ne_some]
    rintro version hversion
    obtain ⟨n, hn, -⟩ := (hread version).1 hversion
    exact hnone n hn
  refine ⟨hunread, fun f hundeclared hurl => ?_⟩
  rw [← hurl] at hunread ⊢
  exact Formula.validate_of_version? ((Formula.version?_of_undeclared hundeclared).trans hunread)

/-- A host with a dash and digits, a port, and a version in the query. -/
theorem reads_host_named :
    let u : HostUrl := {
      scheme := "https", authority := "files2.my-host.org:8080", slashes := 2, tail := "?v=1.0"
      scheme_uncut := by decide, authority_uncut := by decide, authority_ne := by decide
      tail_cut := by decide }
    u.text = "https://files2.my-host.org:8080//?v=1.0" ∧
      (∀ n : ReleaseName, n.text ≠ u.authority) ∧ ofUrl? u.text = none ∧
      ofUrl? (u.root ++ "/" ++ "v3/x-2.0.zip/" ++ u.tail) = some "2.0" := by
  intro u
  obtain ⟨hpath, hunread, hread⟩ := reads_host u
  have hnot : ∀ n : ReleaseName, n.text ≠ u.authority := fun n hn =>
    absurd ((by decide : ofUrl? u.text = none).symm.trans (hread n hn)) nofun
  refine ⟨by decide, hnot, (hunread hnot).1, ?_⟩
  rw [hpath "v3/x-2.0.zip/" (by decide) ⟨'v', by decide⟩]
  decide

namespace Address

/-! What follows is a source that is named by the address of its host alone. -/

/-- An address, which starts with a digit. -/
def url : HostUrl where
  scheme := "https"
  authority := "10.0.0.1"
  slashes := 1
  tail := ""
  scheme_uncut := by decide
  authority_uncut := by decide
  authority_ne := by decide
  tail_cut := by decide

/-- A formula that leaves its version to the address. -/
def formula : Formula where
  identity := {
    name := "hello", description := some "Greets", homepage := some "https://example.org"
    license := some "MIT" }
  source := {
    url := "https://10.0.0.1/", checksum := "sha256:" ++ String.ofList (List.replicate 64 'a') }
  build := { command := ["make"], output := "hello" }
  install := { bin := ["hello"] }
  test := some { commands := [["%(prefix)s/bin/hello"]] }

end Address

/-- The address of a host is taken for a version, and the formula is accepted with it. -/
theorem address_taken :
    (¬∀ u : HostUrl, ofUrl? u.text = none) ∧
      ¬∀ (u : HostUrl) (f : Formula), f.Undeclared → f.source.url = u.text →
        ∃ defect, f.validate = .error defect := by
  refine ⟨fun h => ?_, fun h => ?_⟩
  · have hread : ofUrl? Address.url.text = some "10.0.0.1" := by decide
    exact absurd (hread.symm.trans (h Address.url)) nofun
  · have hvalid : Address.formula.validate = .ok [] := by decide +kernel
    obtain ⟨defect, hdefect⟩ := h Address.url Address.formula nofun (by decide)
    exact absurd (hvalid.symm.trans hdefect) nofun

end Version

end Formulary
