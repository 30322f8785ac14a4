import Formulary.Proofs.Toml.Rendering
import Mathlib.Logic.Function.Basic

/-!
# Reading records

The entries of a table come in an order of their own, not in that of the fields. For fields that do
not get in each other's way (`RecordShape.Orderless`) this makes no difference : what the fields
give when they are read as they are declared, each from what stands under its name, the entries give
as well (`RecordShape.ofEntries_of_readFields`).

Nothing is read without a field that must be there (`RecordShape.Requires.refuses`), nor with a field
that holds what is refused (`RecordShape.refuses_of_holds`). What was read is what the table gives
(`RecordShape.givesOption_of_foldlM`).
-/

namespace Formulary.Toml

/-- The decoder does not read the value. -/
def Refuses {α : Type} (decode : Decoder α) (v : Value) : Prop := ∃ e, decode v = .error e

/-- A list is refused for one of its items. -/
theorem refuses_list {α : Type} {decode : Decoder α} {items : List Value} {v : Value}
    (hv : v ∈ items) (h : Refuses decode v) : Refuses (decodeList decode) (.array items) := by
  show ∃ e, items.mapM decode = .error e
  cases hitems : items.mapM decode with
  | error e => exact ⟨e, rfl⟩
  | ok as =>
    obtain ⟨e, he⟩ := h
    obtain ⟨a, ha⟩ := exists_mapM_eq_ok_iff.1 ⟨as, hitems⟩ v hv
    exact absurd (he.symm.trans ha) nofun

namespace RecordShape

variable {σ α β : Type}

/-- A field : its name, and how its value adds to what is known of the record. -/
abbrev Field (σ : Type) := String × (Value → σ → Except ShapeError σ)

/-! ## Field by field -/

/-- Read fields in their order, each from what stands under its name. -/
def readFields : List (Field σ) → (String → Option Value) → σ → Except ShapeError σ
  | [], _, s => .ok s
  | f :: fs, under, s =>
    match under f.1 with
    | none => readFields fs under s
    | some v => f.2 v s >>= readFields fs under

section Steps

variable {f : Field σ} {fs : List (Field σ)} {under : String → Option Value}

theorem readFields_cons_of_none (h : under f.1 = none) (s : σ) :
    readFields (f :: fs) under s = readFields fs under s := by
  conv in readFields (f :: fs) under s => unfold readFields
  rw [h]

theorem readFields_cons_of_some {v : Value} (h : under f.1 = some v) (s : σ) :
    readFields (f :: fs) under s = f.2 v s >>= readFields fs under := by
  conv in readFields (f :: fs) under s => unfold readFields
  rw [h]

theorem readFields_of_none (h : ∀ f ∈ fs, under f.1 = none) (s : σ) :
    readFields fs under s = .ok s := by
  induction fs with
  | nil => rfl
  | cons f fs ih =>
    rw [readFields_cons_of_none (h f List.mem_cons_self)]
    exact ih fun g hg => h g (List.mem_cons_of_mem f hg)

theorem readFields_congr {under' : String → Option Value} (h : ∀ f ∈ fs, under f.1 = under' f.1)
    (s : σ) : readFields fs under s = readFields fs under' s := by
  induction fs generalizing s with
  | nil => rfl
  | cons f fs ih =>
    have hf := h f List.mem_cons_self
    have hfs := ih fun g hg => h g (List.mem_cons_of_mem f hg)
    cases hunder : under f.1 with
    | none =>
      rw [readFields_cons_of_none hunder, readFields_cons_of_none (hf ▸ hunder), hfs]
    | some v =>
      rw [readFields_cons_of_some hunder, readFields_cons_of_some (hf ▸ hunder)]
      exact congrArg (f.2 v s >>= ·) (funext hfs)

end Steps

@[simp]
theorem fst_field {name : String} {decode : Decoder β} {put : β → σ → σ} :
    (field name decode put).1 = name := rfl

theorem field_eq_ok_iff {name : String} {decode : Decoder β} {put : β → σ → σ} {v : Value}
    {s s' : σ} : (field name decode put).2 v s = .ok s' ↔ ∃ b, decode v = .ok b ∧ put b s = s' := by
  unfold field
  dsimp only
  cases decode v with
  | error e => exact ⟨nofun, nofun⟩
  | ok b => simp [Except.map]

section Given

variable {decode : Decoder β} {r : Rendering β} {name : String} {put : β → σ → σ}
  {fs : List (Field σ)} {t : Table}

theorem readFields_gives (hdecode : Reads decode r) {b : β} (h : t.Gives r name b) (s : σ) :
    readFields (field name decode put :: fs) (t.lookup ·) s =
      readFields fs (t.lookup ·) (put b s) := by
  obtain ⟨v, hv, hr⟩ := h
  have hread : (field name decode put).2 v s = .ok (put b s) :=
    field_eq_ok_iff.2 ⟨b, hdecode b v hr, rfl⟩
  rw [readFields_cons_of_some hv, hread]
  rfl

theorem readFields_givesDefault (hdecode : Reads decode r) {default b : β}
    (h : t.GivesDefault r name default b) {s : σ} (hs : put default s = s) :
    readFields (field name decode put :: fs) (t.lookup ·) s =
      readFields fs (t.lookup ·) (put b s) := by
  rcases h with h | ⟨h, rfl⟩
  · exact readFields_gives hdecode h s
  · rw [readFields_cons_of_none h, hs]

/-- The field is put as one that may be absent. -/
theorem readFields_givesOption (place : Option β → σ → σ) (hdecode : Reads decode r)
    {b? : Option β} (h : t.GivesOption r name b?) {s : σ} (hs : place none s = s) :
    readFields (field name decode (fun b => place (some b)) :: fs) (t.lookup ·) s =
      readFields fs (t.lookup ·) (place b? s) := by
  cases b? with
  | none =>
    have hnone : t.lookup name = none := h
    rw [readFields_cons_of_none hnone, hs]
  | some b => exact readFields_gives hdecode h s

end Given

/-! ## In any order -/

/-- The two fields may be read in the other order. -/
def Commutes (f g : Field σ) : Prop :=
  ∀ v w s s₁ s₂, f.2 v s = .ok s₁ → g.2 w s₁ = .ok s₂ → ∃ s₃, g.2 w s = .ok s₃ ∧ f.2 v s₃ = .ok s₂

theorem commutes_field {γ : Type} {name name' : String} {decode : Decoder β} {decode' : Decoder γ}
    {put : β → σ → σ} {put' : γ → σ → σ} (h : ∀ b c s, put' c (put b s) = put b (put' c s)) :
    Commutes (field name decode put) (field name' decode' put') := by
  intro v w s s₁ s₂ hv hw
  obtain ⟨b, hb, rfl⟩ := field_eq_ok_iff.1 hv
  obtain ⟨c, hc, rfl⟩ := field_eq_ok_iff.1 hw
  exact ⟨put' c s, field_eq_ok_iff.2 ⟨c, hc, rfl⟩, field_eq_ok_iff.2 ⟨b, hb, (h b c s).symm⟩⟩

/-- No two fields have one name or get in each other's way. -/
structure Orderless (shape : RecordShape σ α) : Prop where
  names : (shape.fields.map Prod.fst).Nodup
  commutes : shape.fields.Pairwise Commutes

/-- One field may be read before all others, by induction on those that are declared before it. -/
theorem exists_of_readFields {fs : List (Field σ)} (hnames : (fs.map Prod.fst).Nodup)
    (hcommutes : fs.Pairwise Commutes) {name : String} {read : Value → σ → Except ShapeError σ}
    (hread : (name, read) ∈ fs) {under : String → Option Value} {v : Value}
    (hv : under name = some v) {s s' : σ} (h : readFields fs under s = .ok s') :
    ∃ s₁, read v s = .ok s₁ ∧ readFields fs (Function.update under name none) s₁ = .ok s' := by
  induction fs generalizing s with
  | nil => cases hread
  | cons f fs ih =>
    rw [List.map_cons, List.nodup_cons] at hnames
    rw [List.pairwise_cons] at hcommutes
    rcases List.mem_cons.1 hread with rfl | hread
    · rw [readFields_cons_of_some hv] at h
      obtain ⟨s₁, hs₁, h⟩ := bind_eq_ok_iff.1 h
      refine ⟨s₁, hs₁, ?_⟩
      rw [readFields_cons_of_none (Function.update_self ..)]
      refine (readFields_congr (fun g hg => Function.update_of_ne ?_ _ _) s₁).trans h
      intro heq
      exact hnames.1 (List.mem_map.2 ⟨g, hg, heq⟩)
    · have hne : f.1 ≠ name := fun heq => hnames.1 (heq ▸ List.mem_map_of_mem hread)
      have hupdate : Function.update under name none f.1 = under f.1 := Function.update_of_ne hne ..
      cases hf : under f.1 with
      | none =>
        rw [readFields_cons_of_none hf] at h
        obtain ⟨s₁, hs₁, h⟩ := ih hnames.2 hcommutes.2 hread h
        exact ⟨s₁, hs₁, (readFields_cons_of_none (hupdate.trans hf) s₁).trans h⟩
      | some w =>
        rw [readFields_cons_of_some hf] at h
        obtain ⟨s₂, hs₂, h⟩ := bind_eq_ok_iff.1 h
        obtain ⟨s₃, hs₃, h⟩ := ih hnames.2 hcommutes.2 hread h
        obtain ⟨s₁, hs₁, hs₁₃⟩ := hcommutes.1 _ hread w v s s₂ s₃ hs₂ hs₃
        refine ⟨s₁, hs₁, ?_⟩
        rw [readFields_cons_of_some (hupdate.trans hf)]
        exact bind_eq_ok_iff.2 ⟨s₃, hs₁₃, h⟩

theorem lookup_eq_none_of_not_mem {t : Table} {name : String} (h : name ∉ t.map Prod.fst) :
    t.lookup name = none := by
  rw [List.lookup_eq_none_iff]
  intro e he
  refine bne_iff_ne.2 fun heq => ?_
  exact h (List.mem_map.2 ⟨e, he, heq.symm⟩)

/-- The entries give what the fields give, by induction on the entries. -/
theorem foldlM_step_of_readFields {shape : RecordShape σ α} (hshape : shape.Orderless) {t : Table}
    (ht : t.DistinctKeys) {s s' : σ} (h : readFields shape.fields (t.lookup ·) s = .ok s') :
    t.foldlM shape.step s = .ok s' := by
  induction t generalizing s with
  | nil => rwa [readFields_of_none (fun _ _ => rfl)] at h
  | cons e t ih =>
    obtain ⟨key, v⟩ := e
    obtain ⟨hkey, ht⟩ := List.nodup_cons.1 ht
    rw [List.foldlM_cons]
    unfold step
    dsimp only
    cases hread : shape.fields.lookup key with
    | none =>
      refine ih ht ((readFields_congr (fun f hf => ?_) s).symm.trans h)
      have hne : f.1 ≠ key := by
        rintro rfl
        have hsome := (Bindings.lookup_eq_some_iff_mem hshape.names).2 hf
        exact absurd (hread.symm.trans hsome) nofun
      rw [List.lookup_cons, beq_false_of_ne hne]
    | some read =>
      have hmem := (Bindings.lookup_eq_some_iff_mem hshape.names).1 hread
      obtain ⟨s₁, hs₁, h⟩ := exists_of_readFields hshape.names hshape.commutes hmem
        (List.lookup_cons_self : ((key, v) :: t).lookup key = some v) h
      refine bind_eq_ok_iff.2 ⟨s₁, hs₁, ih ht ((readFields_congr (fun f _ => ?_) s₁).trans h)⟩
      by_cases hname : f.1 = key
      · rw [hname, Function.update_self]
        exact lookup_eq_none_of_not_mem hkey
      · rw [Function.update_of_ne hname, List.lookup_cons, beq_false_of_ne hname]

theorem ofEntries_of_readFields {shape : RecordShape σ α} (hshape : shape.Orderless) {t : Table}
    (ht : t.DistinctKeys) {s : σ} {a : α}
    (h : readFields shape.fields (t.lookup ·) shape.start = .ok s)
    (hfinish : shape.finish s = .ok a) : shape.ofEntries t = .ok a :=
  bind_eq_ok_iff.2 ⟨s, foldlM_step_of_readFields hshape ht h, hfinish⟩

/-! ## Refusals -/

/-- What the field adds does not take the property away. -/
def Keeps (p : σ → Prop) (f : Field σ) : Prop := ∀ v s s', p s → f.2 v s = .ok s' → p s'

theorem keeps_field {p : σ → Prop} {name : String} {decode : Decoder β} {put : β → σ → σ}
    (h : ∀ b s, p s → p (put b s)) : Keeps p (field name decode put) := by
  intro v s s' hs hread
  obtain ⟨b, -, rfl⟩ := field_eq_ok_iff.1 hread
  exact h b s hs

/-- There is no record without the field : what is known has a property that no other field takes
away, and with which the record does not come about. -/
def Requires (shape : RecordShape σ α) (name : String) : Prop :=
  ∃ p : σ → Prop, p shape.start ∧ (∀ f ∈ shape.fields, f.1 ≠ name → Keeps p f) ∧
    ∀ s, p s → ∃ e, shape.finish s = .error e

theorem exists_required_eq_error {name : String} {b? : Option β} (h : b? = none)
    (g : β → Except ShapeError α) : ∃ e, (required name b? >>= g) = .error e := by
  subst h
  exact ⟨.missing name, rfl⟩

variable {shape : RecordShape σ α} {name : String}

theorem keeps_step {p : σ → Prop} (hkeeps : ∀ f ∈ shape.fields, f.1 ≠ name → Keeps p f)
    {e : String × Value} (he : e.1 ≠ name) {s s' : σ} (hs : p s)
    (h : shape.step s e = .ok s') : p s' := by
  unfold step at h
  cases hread : shape.fields.lookup e.1 with
  | none =>
    rw [hread] at h
    obtain rfl := Except.ok.inj h
    exact hs
  | some read =>
    rw [hread] at h
    obtain ⟨before, later, hfields, -⟩ := List.lookup_eq_some_iff.1 hread
    exact hkeeps (e.1, read) (by simp [hfields]) he e.2 s s' hs h

theorem Requires.refuses (h : shape.Requires name) {t : Table} (ht : t.lookup name = none) :
    Refuses shape.decode (.table t) := by
  obtain ⟨p, hstart, hkeeps, hfinish⟩ := h
  have hne : ∀ e ∈ t, e.1 ≠ name := fun e he =>
    (bne_iff_ne.1 (List.lookup_eq_none_iff.1 ht e he)).symm
  have hread : ∀ s s', p s → t.foldlM shape.step s = .ok s' → p s' := by
    clear ht
    induction t with
    | nil =>
      rintro s _ hs ⟨⟩
      exact hs
    | cons e t ih =>
      intro s s' hs hfold
      rw [List.foldlM_cons] at hfold
      obtain ⟨s₁, hs₁, hfold⟩ := bind_eq_ok_iff.1 hfold
      have hp₁ := keeps_step hkeeps (hne e List.mem_cons_self) hs hs₁
      exact ih (fun e' he' => hne e' (List.mem_cons_of_mem e he')) s₁ s' hp₁ hfold
  show ∃ e, shape.ofEntries t = .error e
  unfold ofEntries
  cases hfold : t.foldlM shape.step shape.start with
  | error e => exact ⟨e, rfl⟩
  | ok s => exact hfinish s (hread _ s hstart hfold)

/-- The value, read as a record with fields of these names, holds another one under a name : as the
entry of a table, or as the item at the place of the field. -/
inductive Holds (names : List String) : Value → String → Value → Prop
  | entry {t : Table} {name : String} {w : Value} : (name, w) ∈ t →
    Holds names (.table t) name w
  | item {items : List Value} {i : Nat} {name : String} {w : Value} : names[i]? = some name →
    items[i]? = some w → Holds names (.array items) name w

/-- A record is refused for what a field of it holds. -/
theorem refuses_of_holds (hshape : shape.Orderless) {decode : Decoder β} {put : β → σ → σ}
    (hfield : field name decode put ∈ shape.fields) {v w : Value}
    (h : Holds (shape.fields.map Prod.fst) v name w) (hw : Refuses decode w) :
    Refuses shape.decode v := by
  have hread : ∀ s, ∃ e, (field name decode put).2 w s = .error e := by
    obtain ⟨e, he⟩ := hw
    intro s
    refine ⟨e, ?_⟩
    unfold field
    dsimp only
    rw [he]
    rfl
  have hlookup : shape.fields.lookup name = some (field name decode put).2 :=
    (Bindings.lookup_eq_some_iff_mem hshape.names).2 hfield
  cases h with
  | @entry t _ _ hmem =>
    have hstep : ∀ s, ∃ e, shape.step s (name, w) = .error e := by
      intro s
      unfold step
      dsimp only
      rw [hlookup]
      exact hread s
    obtain ⟨e, he⟩ := exists_foldlM_eq_error shape.step hmem hstep shape.start
    refine ⟨e, ?_⟩
    show shape.ofEntries t = .error e
    unfold ofEntries
    rw [he]
    rfl
  | @item items i _ _ hname hitem =>
    rw [List.getElem?_map, Option.map_eq_some_iff] at hname
    obtain ⟨f, hf, rfl⟩ := hname
    have hf₂ : f.2 = (field f.1 decode put).2 := by
      have h := (Bindings.lookup_eq_some_iff_mem hshape.names).2 (List.mem_of_getElem? hf)
      exact Option.some.inj (h.symm.trans hlookup)
    have hmem : (f, w) ∈ shape.fields.zip items :=
      List.mem_of_getElem? (List.getElem?_zip_eq_some.2 ⟨hf, hitem⟩)
    rw [← hf₂] at hread
    obtain ⟨e, he⟩ := exists_foldlM_eq_error (fun s (x : Field σ × Value) => x.1.2 x.2 s) hmem
      hread shape.start
    refine ⟨e, ?_⟩
    show shape.ofItems items = .error e
    unfold ofItems
    rw [he]
    rfl

/-! ## What was read -/

/-- What is known of a field at the end is what stands under its name, or else what was known before,
by induction on the entries. No other field takes it away. -/
theorem known_of_foldlM {decode : Decoder β} {put : β → σ → σ} {get : σ → Option β}
    (hread : shape.fields.lookup name = some (field name decode put).2)
    (hput : ∀ b s, get (put b s) = some b)
    (hkeeps : ∀ known, ∀ f ∈ shape.fields, f.1 ≠ name → Keeps (get · = known) f) {t : Table}
    (ht : t.DistinctKeys) {s s' : σ} (h : t.foldlM shape.step s = .ok s') :
    t.lookup name = none ∧ get s' = get s ∨
      ∃ v b, t.lookup name = some v ∧ decode v = .ok b ∧ get s' = some b := by
  induction t generalizing s with
  | nil =>
    obtain rfl := Except.ok.inj h
    exact .inl ⟨rfl, rfl⟩
  | cons e t ih =>
    obtain ⟨key, v⟩ := e
    obtain ⟨hkey, ht⟩ := List.nodup_cons.1 ht
    rw [List.foldlM_cons] at h
    obtain ⟨s₁, hs₁, h⟩ := bind_eq_ok_iff.1 h
    by_cases hname : key = name
    · subst hname
      unfold step at hs₁
      dsimp only at hs₁
      rw [hread] at hs₁
      obtain ⟨b, hb, rfl⟩ := field_eq_ok_iff.1 hs₁
      have hnone : t.lookup key = none := lookup_eq_none_of_not_mem hkey
      rcases ih ht h with ⟨-, hget⟩ | ⟨w, -, hw, -⟩
      · exact .inr ⟨v, b, List.lookup_cons_self, hb, hget.trans (hput b s)⟩
      · exact absurd (hnone.symm.trans hw) nofun
    · have hget : get s₁ = get s := keeps_step (hkeeps (get s)) hname rfl hs₁
      rw [List.lookup_cons, beq_false_of_ne (Ne.symm hname), ← hget]
      exact ih ht h

/-- A field of which nothing is known at first is given by the table as it is known at the end. -/
theorem givesOption_of_foldlM (get : σ → Option β) {decode : Decoder β} {put : β → σ → σ}
    {r : Rendering β} (hwrites : Writes decode r)
    (hread : shape.fields.lookup name = some (field name decode put).2)
    (hput : ∀ b s, get (put b s) = some b)
    (hkeeps : ∀ known, ∀ f ∈ shape.fields, f.1 ≠ name → Keeps (get · = known) f) {t : Table}
    (ht : t.DistinctKeys) {s s' : σ} (hs : get s = none) (h : t.foldlM shape.step s = .ok s') :
    t.GivesOption r name (get s') := by
  rcases known_of_foldlM hread hput hkeeps ht h with ⟨hnone, hget⟩ | ⟨v, b, hv, hb, hget⟩
  · rw [hget, hs]
    exact hnone
  · rw [hget]
    exact ⟨v, hv, hwrites v b hb⟩

end RecordShape

end Formulary.Toml
