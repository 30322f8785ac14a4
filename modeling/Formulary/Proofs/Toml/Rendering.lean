import Formulary.Proofs.Bindings
import Formulary.Proofs.Runs
import Formulary.Toml.Decode

/-!
# How values are written in documents

Which values of a document stand for a text, a number, a list and so on, said apart from how they
are read (`Rendering`). A table writes a field under its name, wherever among its keys, or leaves it
out when it has the value that it has anyway (`Table.Gives`, `Table.GivesOption`,
`Table.GivesDefault`). What a rendering writes, the decoder reads (`Reads`), and it reads nothing else
(`Writes`).
-/

namespace Formulary.Toml

/-- Which values of a document stand for a value of a domain type. -/
abbrev Rendering (α : Type) := α → Value → Prop

namespace Rendering

variable {α : Type}

def text : Rendering String := fun s v => v = .text s

def boolean : Rendering Bool := fun b v => v = .boolean b

def word : Rendering UInt32 := fun n v => v = .integer n.toNat

def list (item : Rendering α) : Rendering (List α) := fun as v =>
  ∃ items, v = .array items ∧ List.Forall₂ item as items

/-- A table with an entry for each name, in any order, and no other. -/
def bindings : Rendering Bindings := fun b v =>
  ∃ l : List (String × String), l.Perm b.entries ∧ v = .table (l.map fun e => (e.1, .text e.2))

/-- The name of the value. -/
def named (name : α → String) : Rendering α := fun a v => v = .text (name a)

/-- A table that describes the value. -/
def record (describes : α → Table → Prop) : Rendering α := fun a v =>
  ∃ t, v = .table t ∧ describes a t

end Rendering

/-! ## Fields of a table -/

namespace Table

variable {α : Type}

/-- No key comes twice. -/
def DistinctKeys (t : Table) : Prop := (t.map Prod.fst).Nodup

instance (t : Table) : Decidable t.DistinctKeys := inferInstanceAs (Decidable (List.Nodup _))

/-- Under the name stands the value. -/
def Gives (t : Table) (r : Rendering α) (name : String) (a : α) : Prop :=
  ∃ v, t.lookup name = some v ∧ r a v

/-- Under the name stands the value, if there is one. -/
def GivesOption (t : Table) (r : Rendering α) (name : String) : Option α → Prop
  | none => t.lookup name = none
  | some a => t.Gives r name a

/-- Under the name stands the value, or nothing if it is the default. -/
def GivesDefault (t : Table) (r : Rendering α) (name : String) (default a : α) : Prop :=
  t.Gives r name a ∨ t.lookup name = none ∧ a = default

end Table

/-! ## Reading -/

variable {α : Type}

/-- What the rendering writes, the decoder reads. -/
def Reads (decode : Decoder α) (r : Rendering α) : Prop := ∀ a v, r a v → decode v = .ok a

theorem reads_text : Reads decodeText .text := by
  rintro s _ rfl
  rfl

theorem reads_path : Reads decodePath .text := by
  rintro s _ rfl
  rfl

theorem reads_boolean : Reads decodeBoolean .boolean := by
  rintro b _ rfl
  rfl

theorem reads_word : Reads decodeWord .word := by
  rintro n _ rfl
  have hsize : (n.toNat : Int) < (UInt32.size : Int) := Int.ofNat_lt.2 n.toNat_lt
  unfold decodeWord
  dsimp only
  rw [if_pos ⟨Int.natCast_nonneg _, hsize⟩, Int.toNat_natCast, UInt32.ofNat_toNat]

theorem reads_list {decode : Decoder α} {item : Rendering α} (h : Reads decode item) :
    Reads (decodeList decode) (.list item) := by
  rintro as _ ⟨items, rfl, hitems⟩
  exact mapM_eq_ok_iff.2 (hitems.flip.imp fun v a hav => h a v hav)

theorem reads_variant {variants : List (String × α)} {name : α → String}
    (h : ∀ a, variants.lookup (name a) = some a) :
    Reads (decodeVariant variants) (.named name) := by
  rintro a _ rfl
  unfold decodeVariant decodeVariant.named
  dsimp only
  rw [h]

/-- Entries that are texts are set one after the other. -/
theorem decodeEntries_texts (l : List (String × String)) :
    decodeBindings.decodeEntries (l.map fun e => (e.1, .text e.2)) =
      .ok (l.foldl (fun b e => b.insert e.1 e.2) .empty) := by
  have hfold : ∀ b : Bindings, (l.map fun e => (e.1, Value.text e.2)).foldlM
      (fun b e => (decodeText e.2).map (b.insert e.1)) b =
        (.ok (l.foldl (fun b e => b.insert e.1 e.2) b) : Except ShapeError Bindings) := by
    induction l with
    | nil => exact fun _ => rfl
    | cons e l ih => exact fun b => ih (b.insert e.1 e.2)
  exact hfold .empty

theorem reads_bindings : Reads decodeBindings .bindings := by
  rintro b _ ⟨l, hl, rfl⟩
  unfold decodeBindings
  dsimp only
  rw [decodeEntries_texts, Bindings.foldl_insert_of_perm hl]

theorem reads_record {describes : α → Table → Prop} {decode : Decoder α}
    (h : ∀ a t, describes a t → decode (.table t) = .ok a) :
    Reads decode (.record describes) := by
  rintro a _ ⟨t, rfl, ht⟩
  exact h a t ht

/-! ## What is read -/

/-- What the decoder reads, the rendering writes. -/
def Writes (decode : Decoder α) (r : Rendering α) : Prop := ∀ v a, decode v = .ok a → r a v

theorem writes_text : Writes decodeText .text := by
  intro v s h
  unfold decodeText wrong at h
  split at h <;> cases h
  rfl

theorem writes_path : Writes decodePath .text := by
  intro v s h
  unfold decodePath wrong at h
  split at h <;> cases h
  rfl

theorem writes_boolean : Writes decodeBoolean .boolean := by
  intro v b h
  unfold decodeBoolean wrong at h
  split at h <;> cases h
  rfl

theorem writes_word : Writes decodeWord .word := by
  intro v n h
  unfold decodeWord wrong at h
  split at h
  · rename_i k
    split at h
    · rename_i hk
      obtain ⟨hzero, hsize⟩ := hk
      obtain rfl := Except.ok.inj h
      have hlt : k.toNat < UInt32.size := by omega
      show Value.integer k = .integer (UInt32.ofNat k.toNat).toNat
      rw [UInt32.toNat_ofNat_of_lt' hlt, Int.toNat_of_nonneg hzero]
    · cases h
  · cases h

end Formulary.Toml
