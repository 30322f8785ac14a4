import Formulary.Proofs.Toml.Rendering
import Formulary.Toml.Document

/-!
# The keys of a document

No key comes twice at the top of a well-formed document (`distinctKeys_of_document`). A line adds a
key only where there is none yet, and a header changes what stands under a key in its place, so that
no line takes away that the keys are distinct (`State.Distinct`).
-/

namespace Formulary.Toml

namespace Entries

variable {entries entries' : Entries}

/-- No key comes twice. -/
def Distinct (entries : Entries) : Prop := (entries.map Prod.fst).Nodup

theorem distinct_nil : Distinct [] := List.nodup_nil

theorem Distinct.append (h : entries.Distinct) {k : String} (hk : entries.lookup k = none)
    (n : Node) : Distinct (entries ++ [(k, n)]) := by
  have hnew : k ∉ entries.map Prod.fst := by
    intro hmem
    obtain ⟨e, he, rfl⟩ := List.mem_map.1 hmem
    exact bne_iff_ne.1 (List.lookup_eq_none_iff.1 hk e he) rfl
  unfold Distinct
  rw [List.map_append, List.nodup_append]
  refine ⟨h, List.nodup_singleton k, fun a ha b hb hab => hnew ?_⟩
  have hb : b = k := List.mem_singleton.1 hb
  exact hb ▸ hab ▸ ha

theorem map_fst_set (entries : Entries) (k : String) (n : Node) :
    (entries.set k n).map Prod.fst = entries.map Prod.fst := by
  unfold set
  rw [List.map_map]
  refine List.map_congr_left fun e _ => ?_
  rw [Function.comp_apply]
  split
  · exact Eq.symm ‹e.1 = k›
  · rfl

theorem Distinct.set (h : entries.Distinct) (k : String) (n : Node) :
    Distinct (Entries.set entries k n) := by
  unfold Distinct
  rw [map_fst_set]
  exact h

theorem Distinct.filter (h : entries.Distinct) (p : String × Node → Bool) :
    Distinct (entries.filter p) := h.sublist (List.filter_sublist.map _)

end Entries

open Entries

variable {entries entries' : Entries}

/-- Of the path only the first key is looked at : what lies deeper has keys of its own. -/
theorem Entries.Distinct.descend {viaDots : Bool} {change : Origin → Entries → Option Entries}
    (hchange : ∀ o e e', Distinct e → change o e = some e' → Distinct e') {path : List String}
    {origin : Origin} (h : entries.Distinct)
    (hd : descend viaDots change path origin entries = some entries') : entries'.Distinct := by
  cases path with
  | nil => exact hchange origin entries entries' h hd
  | cons k rest =>
    unfold Toml.descend at hd
    split at hd
    · rename_i hk
      obtain ⟨sub, -, rfl⟩ := Option.map_eq_some_iff.1 hd
      exact h.append hk _
    · cases hd
    · obtain ⟨sub, -, rfl⟩ := Option.map_eq_some_iff.1 hd
      exact h.set k _
    · split at hd
      · cases hd
      · obtain ⟨sub, -, rfl⟩ := Option.map_eq_some_iff.1 hd
        exact h.set k _

theorem Entries.Distinct.addValue {keys : List String} {v : Value} {origin : Origin}
    (h : entries.Distinct) (ha : addValue keys v origin entries = some entries') :
    entries'.Distinct := by
  unfold Toml.addValue at ha
  split at ha
  · cases ha
  · rename_i last _ _
    refine h.descend (fun o e e' he hchange => ?_) ha
    split at hchange
    · cases hchange
    · split at hchange
      · cases hchange
      · rename_i hnone
        obtain rfl := Option.some.inj hchange
        exact he.append (Option.not_isSome_iff_eq_none.1 hnone) _

theorem Entries.Distinct.takeImplied {last : String} {sub rest : Entries} (h : entries.Distinct)
    (ht : takeImplied last entries = some (sub, rest)) : rest.Distinct := by
  unfold Toml.takeImplied at ht
  split at ht
  · obtain ⟨-, rfl⟩ := Prod.mk.inj (Option.some.inj ht)
    exact h
  · obtain ⟨-, rfl⟩ := Prod.mk.inj (Option.some.inj ht)
    exact h.filter _
  · cases ht

/-! ## Lines -/

namespace State

variable {s s' : State}

/-- The keys at the top are distinct. Before the first header they are those of the current
table. -/
structure Distinct (s : State) : Prop where
  root : s.root.Distinct
  current : s.path = none → s.current.Distinct

theorem distinct_start : Distinct {} := ⟨distinct_nil, fun _ => distinct_nil⟩

theorem Distinct.close (h : s.Distinct) (hc : s.close = some entries) : entries.Distinct := by
  unfold State.close at hc
  split at hc
  · rename_i hpath
    obtain rfl := Option.some.inj hc
    exact h.current hpath
  · split at hc
    · cases hc
    · refine h.root.descend (fun o e e' he hchange => ?_) hc
      split at hchange
      · rename_i hnone
        obtain rfl := Option.some.inj hchange
        exact he.append hnone _
      · split at hchange
        · obtain rfl := Option.some.inj hchange
          exact he.set _ _
        · cases hchange
      · cases hchange

theorem Distinct.header (h : s.Distinct) {path : List String} {isList : Bool}
    (hh : s.header path isList = some s') : s'.Distinct := by
  unfold State.header at hh
  obtain ⟨root, hroot, hh⟩ := Option.bind_eq_some_iff.1 hh
  have hdistinct := h.close hroot
  split at hh
  · cases hh
  · obtain ⟨parent, -, hh⟩ := Option.bind_eq_some_iff.1 hh
    split at hh
    · split at hh
      · cases hh
      · cases hh
      · obtain ⟨root', hroot', hh⟩ := Option.bind_eq_some_iff.1 hh
        obtain rfl := Option.some.inj hh
        refine ⟨hdistinct.descend (fun o e e' he hchange => ?_) hroot', nofun⟩
        exact Option.some.inj hchange ▸ he
    · obtain ⟨implied, -, hh⟩ := Option.bind_eq_some_iff.1 hh
      obtain ⟨root', hroot', hh⟩ := Option.bind_eq_some_iff.1 hh
      obtain rfl := Option.some.inj hh
      refine ⟨hdistinct.descend (fun o e e' he hchange => ?_) hroot', nofun⟩
      obtain ⟨taken, htaken, rfl⟩ := Option.map_eq_some_iff.1 hchange
      exact he.takeImplied htaken

/-- The end of a header, behind its brackets. -/
theorem Distinct.headerEnd (h : s.Distinct) {path : List String} {isList : Bool}
    {cs rest : List Char}
    (hl : ((closeLine? cs).bind fun rest => (s.header path isList).map (·, rest)) =
      some (s', rest)) : s'.Distinct := by
  obtain ⟨rest₁, -, hl⟩ := Option.bind_eq_some_iff.1 hl
  obtain ⟨s₁, hs₁, hl⟩ := Option.map_eq_some_iff.1 hl
  obtain ⟨rfl, -⟩ := Prod.mk.inj hl
  exact h.header hs₁

theorem Distinct.headerLine (h : s.Distinct) {cs rest : List Char}
    (hl : headerLine s cs = some (s', rest)) : s'.Distinct := by
  unfold Toml.headerLine at hl
  split at hl
  · obtain ⟨⟨path, rest₁⟩, -, hl⟩ := Option.bind_eq_some_iff.1 hl
    dsimp only at hl
    split at hl
    · exact h.headerEnd hl
    · cases hl
  · obtain ⟨⟨path, rest₁⟩, -, hl⟩ := Option.bind_eq_some_iff.1 hl
    dsimp only at hl
    split at hl
    · exact h.headerEnd hl
    · cases hl
  · cases hl

theorem Distinct.keyLine (h : s.Distinct) {cs rest : List Char}
    (hl : keyLine s cs = some (s', rest)) : s'.Distinct := by
  unfold Toml.keyLine at hl
  obtain ⟨⟨keys, rest₁⟩, -, hl⟩ := Option.bind_eq_some_iff.1 hl
  obtain ⟨rest₂, -, hl⟩ := Option.bind_eq_some_iff.1 hl
  obtain ⟨⟨v, rest₃⟩, -, hl⟩ := Option.bind_eq_some_iff.1 hl
  obtain ⟨rest₄, -, hl⟩ := Option.bind_eq_some_iff.1 hl
  obtain ⟨current, hcurrent, hl⟩ := Option.map_eq_some_iff.1 hl
  obtain ⟨rfl, -⟩ := Prod.mk.inj hl
  exact ⟨h.root, fun hpath => (h.current hpath).addValue hcurrent⟩

/-- By induction on the number of lines. -/
theorem Distinct.documentLines {fuel : Nat} (h : s.Distinct) {cs : List Char}
    (hl : documentLines fuel s cs = some s') : s'.Distinct := by
  induction fuel generalizing s cs with
  | zero => cases hl
  | succ fuel ih =>
    unfold Toml.documentLines at hl
    split at hl
    · exact Option.some.inj hl ▸ h
    · obtain ⟨⟨s₁, rest⟩, hs₁, hl⟩ := Option.bind_eq_some_iff.1 hl
      exact ih (h.headerLine hs₁) hl
    · obtain ⟨⟨s₁, rest⟩, hs₁, hl⟩ := Option.bind_eq_some_iff.1 hl
      exact ih (h.keyLine hs₁) hl

end State

/-! ## Whole documents -/

theorem map_fst_values (entries : Entries) :
    (Node.values entries).map Prod.fst = entries.map Prod.fst := by
  induction entries with
  | nil =>
    unfold Node.values
    rfl
  | cons e rest ih =>
    unfold Node.values
    rw [List.map_cons, List.map_cons, ih]

/-- No key comes twice at the top of a document. -/
theorem distinctKeys_of_document {text : String} {t : Table} (h : document text = some t) :
    t.DistinctKeys := by
  unfold document at h
  obtain ⟨s, hs, h⟩ := Option.bind_eq_some_iff.1 h
  obtain ⟨root, hroot, h⟩ := Option.bind_eq_some_iff.1 h
  obtain rfl := Option.some.inj h
  unfold Table.DistinctKeys
  rw [map_fst_values]
  exact (State.distinct_start.documentLines hs).close hroot

end Formulary.Toml
