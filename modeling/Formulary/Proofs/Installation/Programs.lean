import Formulary.Proofs.Destination.Grammar
import Formulary.Proofs.Disk.Member
import Formulary.Proofs.Formula.Release
import Formulary.Proofs.Installation.Delivery

/-!
# Where programs are installed

A program goes to `bin` under what is written behind the last slash of its path, which need not be
its file name : a slash or a dot at the end says nothing in a path. But such a path only leads to
directories (`Disk.endsInDirectory_of_found`), so no program passes that has one, and every program
that passes goes to `bin` under its file name (`Installation.Passes.exists_fileName?`).
-/

namespace Formulary

/-! ## What is written last -/

/-- The text ends in a piece with a slash before it, or is that piece. -/
structure EndsInPiece (cs lead : List Char) (last : String) : Prop where
  eq_append : cs = lead ++ last.toList
  cut : ∀ c ∈ lead.getLast?, c = '/'
  slash_not_mem : '/' ∉ last.toList

namespace EndsInPiece

variable {s last : String} {cs lead : List Char}

theorem exists_of_text (s : String) : ∃ lead last, EndsInPiece s.toList lead last := by
  obtain ⟨lead, hs, hlead⟩ := Version.exists_afterLast (· == '/') s.toList
  refine ⟨lead, String.ofList (Version.afterLast (· == '/') s.toList), ?_, fun c hc => ?_, ?_⟩
  · rwa [String.toList_ofList]
  · simpa using hlead c hc
  · rw [String.toList_ofList]
    exact fun hmem => absurd (Version.not_of_mem_afterLast hmem) (by decide)

/-- The pieces are split from what is before. -/
theorem split (h : EndsInPiece cs lead last) :
    Text.split (· == '/') cs = [last.toList] ∧ lead = [] ∨ ∃ first rest,
      Text.split (· == '/') cs = first :: (rest ++ [last.toList]) := by
  have hlast : Text.split (· == '/') last.toList = [last.toList] :=
    Text.split_of_not_mem h.slash_not_mem
  rcases List.eq_nil_or_concat lead with rfl | ⟨before, c, rfl⟩
  · exact .inl ⟨by rw [h.eq_append, List.nil_append, hlast], rfl⟩
  · obtain rfl : c = '/' := h.cut c (by simp)
    obtain ⟨first, rest, hbefore⟩ :=
      List.exists_cons_of_ne_nil (Text.split_ne_nil (· == '/') before)
    refine .inr ⟨first, rest, ?_⟩
    rw [h.eq_append, List.concat_eq_append, List.append_assoc, List.singleton_append,
      Text.split_append (by decide), hlast, hbefore, List.cons_append]

theorem getLast?_pieces (h : EndsInPiece s.toList lead last) :
    (Text.pieces '/' s).getLast? = some last := by
  rw [Text.pieces, List.getLast?_map]
  rcases h.split with ⟨hsplit, -⟩ | ⟨first, rest, hsplit⟩
  · rw [hsplit, List.getLast?_singleton, Option.map_some, String.ofList_toList]
  · rw [hsplit, ← List.cons_append, List.getLast?_concat, Option.map_some, String.ofList_toList]

/-- A name at the end of a path is its file name. -/
theorem fileName? (h : EndsInPiece s.toList lead last) (hname : IsName last) :
    (Path.mk s).fileName? = some last := by
  have hlast : (Path.mk s).components.getLast? = some (.name last) := by
    rcases h.split with ⟨-, rfl⟩ | ⟨first, rest, hsplit⟩
    · obtain rfl : s = last := String.toList_inj.1 h.eq_append
      rw [Path.components_of_isName hname, List.getLast?_singleton]
    · obtain ⟨hempty, hdot, hup, -⟩ := hname
      have hempty : last.toList ≠ [] := fun h => hempty (String.toList_inj.1 h)
      have hdot : last.toList ≠ ['.'] := fun h => hdot (String.toList_inj.1 h)
      have hup : last.toList ≠ ['.', '.'] := fun h => hup (String.toList_inj.1 h)
      have hcomponent : Path.component? last.toList = some (.name last) := by
        rw [Path.component?, if_neg (not_or.2 ⟨hempty, hdot⟩), if_neg hup, String.ofList_toList]
      rw [Path.components_eq_append hsplit, List.filterMap_append,
        List.filterMap_cons_some hcomponent, List.filterMap_nil, ← List.append_assoc,
        List.getLast?_concat]
  rw [Path.fileName?, hlast]

/-- What is written last in a path is so, too, when the path is put behind another one. -/
theorem join (h : EndsInPiece s.toList lead last) (p : Path) :
    ∃ lead, EndsInPiece (p.join s).text.toList lead last := by
  cases habsolute : (Path.mk s).isAbsolute with
  | true =>
    rw [Path.join_of_isAbsolute habsolute]
    exact ⟨lead, h⟩
  | false =>
    by_cases hp : p.text = ""
    · rw [Path.join_of_empty hp habsolute]
      exact ⟨lead, h⟩
    · refine ⟨p.stalk ++ '/' :: lead, ?_, fun c hc => ?_, h.slash_not_mem⟩
      · rw [Path.toList_join_of_relative hp habsolute, h.eq_append, List.append_assoc,
          List.cons_append]
      · rw [List.getLast?_append, List.getLast?_cons] at hc
        cases hlead : lead.getLast? with
        | none => simpa [hlead, eq_comm] using hc
        | some e =>
          obtain rfl := h.cut e hlead
          simpa [hlead, eq_comm] using hc

/-- Nothing and a dot are written last only where a directory is meant. -/
theorem endsInDirectory (h : EndsInPiece s.toList lead last) (hs : s ≠ "")
    (hlast : last = "" ∨ last = ".") : Disk.endsInDirectory s = true := by
  rcases List.eq_nil_or_concat lead with rfl | ⟨before, c, rfl⟩
  · obtain rfl : s = last := String.toList_inj.1 h.eq_append
    obtain rfl := hlast.resolve_left hs
    decide
  · obtain rfl : c = '/' := h.cut c (by simp)
    have heq := h.eq_append
    rw [List.concat_eq_append, List.append_assoc] at heq
    rw [Disk.endsInDirectory, Bool.or_eq_true, Bool.or_eq_true]
    rcases hlast with rfl | rfl
    · have hslash : Text.before? "/".toList s.toList = some before :=
        Text.before?_eq_some_iff.2 (heq.trans rfl)
      exact .inl (.inl (by rw [Text.endsWith, hslash, Option.isSome_some]))
    · have hslash : Text.before? "/.".toList s.toList = some before :=
        Text.before?_eq_some_iff.2 (heq.trans rfl)
      exact .inl (.inr (by rw [Text.endsWith, hslash, Option.isSome_some]))

end EndsInPiece

/-! ## Paths to files -/

/-- A path that ends like one of a directory leads to no file. -/
theorem Disk.endsInDirectory_of_found {d : Disk} {follow : Bool} {p : Path} {q : Place} {n : Nat}
    (h : d.found follow p = .ok (q, .file n)) : p.text ≠ "" ∧ endsInDirectory p.text = false := by
  obtain ⟨⟨needs, htarget⟩, hentry⟩ := found_eq_ok_iff.1 h
  obtain ⟨husable, hwalk, hfile⟩ := target_eq_ok_iff.1 htarget
  refine ⟨husable.text_ne, Bool.eq_false_iff.2 fun hends => ?_⟩
  have hneeds := (walk_eq_ok_iff.1 hwalk).needsDirectory hends
  exact absurd (hneeds.symm.trans (hfile n hentry)) nofun

namespace Installation

/-! ## Programs -/

/-- Names are taken from a directory together or one after the other. -/
theorem join_program {p : Path} (hp : p.text ≠ "") {name : String} (hname : '/' ∉ name.toList) :
    p.join ("bin/" ++ name) = (p.join "bin").join name := by
  have hbin : (p.join "bin").text.toList = p.stalk ++ '/' :: "bin".toList :=
    Path.toList_join_of_relative hp (by decide)
  have hne : (p.join "bin").text ≠ "" := by
    intro hempty
    rw [hempty] at hbin
    exact absurd (congrArg List.length hbin) (by simp)
  have hstalk : (p.join "bin").stalk = (p.join "bin").text.toList := by
    rw [Path.stalk, if_neg]
    rw [hbin]
    simp
  have hrelative : (Path.mk ("bin/" ++ name)).isAbsolute = false := by
    simp [Path.isAbsolute]
  have htext : (p.join ("bin/" ++ name)).text.toList =
      ((p.join "bin").join name).text.toList := by
    rw [Path.toList_join_of_relative hp hrelative,
      Path.toList_join_of_relative hne (Path.isAbsolute_of_not_mem hname), hstalk, hbin]
    simp
  have hsame := String.toList_inj.1 htext
  cases hleft : p.join ("bin/" ++ name)
  cases hright : (p.join "bin").join name
  rw [hleft, hright] at hsame
  exact congrArg Path.mk hsame

/-- What passes as a program has a file name, and goes to the directory of programs under it. -/
theorem Passes.exists_fileName? {workdir : Path} {d : Disk} {s : String}
    (h : Passes workdir d (.ofProgram s)) : ∃ name, (Path.mk s).fileName? = some name ∧
      ∀ dest, Destination.check (Artifact.ofProgram s).dest = .ok dest →
        ∀ base : Path, base.text ≠ "" → dest.under base = (base.join "bin").join name := by
  obtain ⟨lead, last, hpiece⟩ := EndsInPiece.exists_of_text s
  obtain ⟨q, n, hfound⟩ := h.produced
  obtain ⟨hne, hends⟩ := Disk.endsInDirectory_of_found hfound
  obtain ⟨lead', hjoined⟩ := hpiece.join workdir
  have hdots : last ≠ "" ∧ last ≠ "." := not_or.1 fun hlast =>
    absurd ((hjoined.endsInDirectory hne hlast).symm.trans hends) nofun
  have hdest : (Artifact.ofProgram s).dest = "bin/" ++ last := by
    rw [Artifact.ofProgram, hpiece.getLast?_pieces, Option.getD_some]
  have hpieces : Text.pieces '/' last = [last] := by
    rw [Text.pieces, Text.split_of_not_mem hpiece.slash_not_mem, List.map_singleton,
      String.ofList_toList]
  have hup : last ≠ ".." := by
    rintro rfl
    obtain ⟨dest, hcheck⟩ := h.destination
    rw [hdest] at hcheck
    exact Destination.exists_check_program_iff.1 ⟨dest, hcheck⟩ (by decide)
  refine ⟨last, hpiece.fileName? ⟨hdots.1, hdots.2, hup, hpiece.slash_not_mem⟩,
    fun dest hcheck base hbase => ?_⟩
  rw [hdest] at hcheck
  obtain ⟨-, hnames⟩ := Destination.check_eq_ok_iff.1 hcheck
  have htwo : dest.names = ["bin", last] := by
    rw [← hnames, Destination.namesOf, Destination.pieces_program, hpieces]
    simp [hdots]
  have htext : dest.text = "bin/" ++ last := by
    rw [Destination.text, htwo]
    simp [Text.join]
  rw [Destination.under, htext, join_program hbase hpiece.slash_not_mem]

end Installation

end Formulary
