import Formulary.Archive.Tar

/-!
# Archives of one block

The header at the start of an archive is the list of its first bytes (`Header.ofData_ofList`). An
archive that is one sound header of an empty file has that one member (`read_block`).
-/

namespace Formulary

theorem Bytes.size_ofList (l : List UInt8) : (Bytes.ofList l).size = l.length :=
  List.size_toArray

theorem Bytes.byte_ofList (l : List UInt8) (i : Nat) :
    Bytes.byte (Bytes.ofList l) i = l.getD i 0 := by
  unfold Bytes.byte
  rw [List.getD_eq_getElem?_getD]
  by_cases h : i < l.length
  · rw [dif_pos (by rwa [Bytes.size_ofList]), List.getElem?_eq_getElem h, Option.getD_some]
    exact List.getElem_toArray _
  · rw [dif_neg (by rwa [Bytes.size_ofList]), List.getElem?_eq_none (by omega), Option.getD_none]

namespace Tar

theorem Header.ofData_ofList {l : List UInt8} (h : l.length = blockSize) :
    Header.ofData (Bytes.ofList l) 0 = ⟨l⟩ := by
  refine congrArg Header.mk (List.ext_getElem ?_ fun i hi hi' => ?_)
  · rw [List.length_map, List.length_range, h]
  · rw [List.getElem_map, List.getElem_range, Bytes.byte_ofList, Nat.zero_add,
      List.getD_eq_getElem?_getD, List.getElem?_eq_getElem hi', Option.getD_some]

/-- The header says that the member is an empty file. -/
structure Header.OfEmptyFile (h : Header) : Prop where
  notZero : h.isZero = false
  sound : h.isSound = true
  size : h.number? 124 12 = some 0
  letter : h.letter = '0'

/-- An archive may end where its data ends. -/
theorem find_size (data : ByteArray) (ahead : Ahead) :
    find (.whole data) data.size ahead = .ended ahead.isEmpty := by
  unfold find
  exact if_pos ⟨rfl, rfl⟩

theorem foundAt_of_emptyFile {data : ByteArray} {h : Header} (hh : h.OfEmptyFile) {body : Nat}
    (hbody : body ≤ data.size) (hsmall : body < UInt64.size) :
    foundAt data h {} body 0 = .member (memberOf h {} (some (Bytes.slice data body 0))) body := by
  unfold foundAt
  rw [hh.letter, show body + wholeBlocks 0 = body from rfl, if_neg (Nat.not_le.2 hsmall)]
  simp [Nat.not_lt.2 hbody]

theorem read_block {l : List UInt8} (hlength : l.length = blockSize)
    (hheader : (Header.mk l).OfEmptyFile) :
    read (.whole (Bytes.ofList l)) =
      ⟨[memberOf ⟨l⟩ {} (some (Bytes.slice (Bytes.ofList l) blockSize 0))], true⟩ := by
  have hsize : (Bytes.ofList l).size = blockSize := (Bytes.size_ofList l).trans hlength
  have hfirst : find (.whole (Bytes.ofList l)) 0 {} =
      .member (memberOf ⟨l⟩ {} (some (Bytes.slice (Bytes.ofList l) blockSize 0))) blockSize := by
    unfold find Codec.Stream.whole
    dsimp only
    rw [hsize, Header.ofData_ofList hlength, hheader.notZero, hheader.sound, hheader.size]
    have hsmall : blockSize < UInt64.size := by decide
    exact foundAt_of_emptyFile hheader (Nat.le_of_eq hsize.symm) hsmall
  have hlast := find_size (Bytes.ofList l) {}
  rw [hsize] at hlast
  have hfuel : (Codec.Stream.whole (Bytes.ofList l)).bytes.size / blockSize + 1 = 2 := by
    show (Bytes.ofList l).size / blockSize + 1 = 2
    rw [hsize]
    rfl
  unfold read
  rw [hfuel, membersFrom, hfirst]
  dsimp only
  rw [membersFrom, hlast]
  rfl

end Tar

end Formulary
