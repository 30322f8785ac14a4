import Formulary.Disk.Basic
import Mathlib.Data.List.Forall2

/-!
# Runs of steps that may fail

What a sequence of steps does follows from what its parts do (`run_bind`). When every part obeys a
relation between the states before and after it, and the relation can be chained, so does the
sequence (`Obeys.bind`), and so does a loop over a list (`Obeys.forIn`). A step that leads from one
property of the state to another, or fails with a third, is put before others by `Meets.bind`, and
by `Ensures.bind` where the failure does not matter; a loop keeps an invariant about the items that
it has gone through (`Meets.forIn`). Steps along a list that fail have succeeded up to one of them
(`exists_of_run_mapM_eq_error`). Two runs go side by side when their steps come to related results
and related states (`Abreast.bind`).
Without a state, steps along a list succeed together (`mapM_eq_ok_iff`) or fail where one of them
does (`exists_of_mapM_eq_error`, `foldlM_eq_error_iff`).
-/

namespace Formulary

variable {σ ε α β : Type}

/-! ## Running -/

theorem bind_apply (x : StateM σ α) (g : α → StateM σ β) (s : σ) :
    (x >>= g) s = g (x s).1 (x s).2 := rfl

theorem modify_apply (change : σ → σ) (s : σ) :
    (modify change : StateM σ PUnit) s = (⟨⟩, change s) := rfl

@[simp]
theorem run_pure (a : α) (s : σ) : (pure a : ExceptT ε (StateM σ) α).run s = (.ok a, s) := rfl

@[simp]
theorem run_throw (e : ε) (s : σ) : (throw e : ExceptT ε (StateM σ) α).run s = (.error e, s) := rfl

@[simp]
theorem run_get (s : σ) : (get : ExceptT ε (StateM σ) σ).run s = (.ok s, s) := rfl

@[simp]
theorem run_set (s t : σ) : (set t : ExceptT ε (StateM σ) PUnit).run s = (.ok ⟨⟩, t) := rfl

@[simp]
theorem run_modify (change : σ → σ) (s : σ) :
    (modify change : ExceptT ε (StateM σ) PUnit).run s = (.ok ⟨⟩, change s) := rfl

theorem run_liftM (x : StateM σ α) (s : σ) :
    (liftM x : ExceptT ε (StateM σ) α).run s = (.ok (x s).1, (x s).2) := rfl

/-- A sequence goes on with the value of its first part, or ends with its failure. -/
theorem run_bind (x : ExceptT ε (StateM σ) α) (g : α → ExceptT ε (StateM σ) β) (s : σ) :
    (x >>= g).run s = match x.run s with
      | (.ok a, s') => (g a).run s'
      | (.error e, s') => (.error e, s') := by
  show ExceptT.bindCont g (x.run s).1 (x.run s).2 = _
  obtain ⟨_ | _, _⟩ := x.run s <;> rfl

/-- Of a sequence that succeeds both parts do. -/
theorem exists_of_run_bind {x : ExceptT ε (StateM σ) α} {g : α → ExceptT ε (StateM σ) β} {s s' : σ}
    {b : β} (h : (x >>= g).run s = (.ok b, s')) :
    ∃ a t, x.run s = (.ok a, t) ∧ (g a).run t = (.ok b, s') := by
  rw [run_bind] at h
  rcases hx : x.run s with ⟨e | a, t⟩
  · rw [hx] at h
    cases h
  · rw [hx] at h
    exact ⟨a, t, rfl, h⟩

/-- Steps along two lists that succeed do so along the first and then along the second. -/
theorem exists_of_run_mapM_append {g : α → ExceptT ε (StateM σ) β} {l l' : List α} {bs : List β}
    {s s' : σ} (h : ((l ++ l').mapM g).run s = (.ok bs, s')) :
    ∃ cs cs' t, (l.mapM g).run s = (.ok cs, t) ∧ (l'.mapM g).run t = (.ok cs', s') := by
  rw [List.mapM_append] at h
  obtain ⟨cs, t, hl, h⟩ := exists_of_run_bind h
  obtain ⟨cs', t', hl', h⟩ := exists_of_run_bind h
  cases h
  exact ⟨cs, cs', t, hl, hl'⟩

/-- Steps along a list that fail have succeeded up to the one that does. -/
theorem exists_of_run_mapM_eq_error {g : α → ExceptT ε (StateM σ) β} {l : List α} {e : ε} {s s' : σ}
    (h : (l.mapM g).run s = (.error e, s')) :
    ∃ before a behind bs t, l = before ++ a :: behind ∧ (before.mapM g).run s = (.ok bs, t) ∧
      (g a).run t = (.error e, s') := by
  induction l generalizing s with
  | nil =>
    rw [List.mapM_nil] at h
    cases h
  | cons a l ih =>
    rw [List.mapM_cons, run_bind] at h
    rcases ha : (g a).run s with ⟨_ | b, t⟩
    · rw [ha] at h
      cases h
      exact ⟨[], a, l, [], s, rfl, rfl, ha⟩
    · rw [ha] at h
      dsimp only at h
      rw [run_bind] at h
      rcases hl : (l.mapM g).run t with ⟨_ | bs, t'⟩
      · rw [hl] at h
        cases h
        obtain ⟨before, c, behind, bs, u, rfl, hbefore, hc⟩ := ih hl
        refine ⟨a :: before, c, behind, b :: bs, u, rfl, ?_, hc⟩
        rw [List.mapM_cons, run_bind, ha]
        dsimp only
        rw [run_bind, hbefore]
        rfl
      · rw [hl] at h
        cases h

/-! ## Values and failures -/

@[simp]
theorem pure_eq_ok (a : α) : (pure a : Except ε α) = .ok a := rfl

@[simp]
theorem throw_eq_error (e : ε) : (throw e : Except ε α) = .error e := rfl

@[simp]
theorem ok_bind (a : α) (g : α → Except ε β) : (Except.ok a >>= g) = g a := rfl

@[simp]
theorem error_bind (e : ε) (g : α → Except ε β) : (Except.error e >>= g) = .error e := rfl

theorem bind_eq_ok_iff {x : Except ε α} {g : α → Except ε β} {b : β} :
    (x >>= g) = .ok b ↔ ∃ a, x = .ok a ∧ g a = .ok b := by
  cases x <;> simp

theorem mapError_eq_ok_iff {ε' : Type} {x : Except ε α} {f : ε → ε'} {a : α} :
    x.mapError f = .ok a ↔ x = .ok a := by
  cases x <;> simp [Except.mapError]

theorem mapError_eq_error_iff {ε' : Type} {x : Except ε α} {f : ε → ε'} {e' : ε'} :
    x.mapError f = .error e' ↔ ∃ e, x = .error e ∧ f e = e' := by
  cases x <;> simp [Except.mapError]

theorem exists_bind_eq_error {x : Except ε α} {g : α → Except ε β} (h : ∀ a, ∃ e, g a = .error e) :
    ∃ e, (x >>= g) = .error e := by
  cases x with
  | error e => exact ⟨e, rfl⟩
  | ok a => exact h a

/-- Steps along a list succeed when each does, and give the values in order. -/
theorem mapM_eq_ok_iff {g : α → Except ε β} {l : List α} {bs : List β} :
    l.mapM g = .ok bs ↔ List.Forall₂ (fun a b => g a = .ok b) l bs := by
  induction l generalizing bs with
  | nil =>
    rw [List.mapM_nil, List.forall₂_nil_left_iff]
    exact ⟨fun h => (Except.ok.inj h).symm, fun h => congrArg Except.ok h.symm⟩
  | cons a l ih =>
    rw [List.mapM_cons, List.forall₂_cons_left_iff]
    cases ha : g a with
    | error e => exact ⟨nofun, fun ⟨_, _, h, _⟩ => absurd h (by simp)⟩
    | ok b =>
      cases hl : l.mapM g with
      | error e =>
        refine ⟨nofun, fun ⟨_, bs', _, h, _⟩ => ?_⟩
        exact absurd (hl.symm.trans (ih.2 h)) nofun
      | ok bs' =>
        constructor
        · intro h
          exact ⟨b, bs', rfl, ih.1 hl, (Except.ok.inj h).symm⟩
        · rintro ⟨b', bs'', hb, h, rfl⟩
          obtain rfl := Except.ok.inj hb
          obtain rfl := Except.ok.inj (hl.symm.trans (ih.2 h))
          rfl

theorem exists_mapM_eq_ok_iff {g : α → Except ε β} {l : List α} :
    (∃ bs, l.mapM g = .ok bs) ↔ ∀ a ∈ l, ∃ b, g a = .ok b := by
  simp only [mapM_eq_ok_iff]
  induction l with
  | nil => simp
  | cons a l ih => simp [List.forall₂_cons_left_iff, ← ih]

/-- Steps along a list fail where one of them does. -/
theorem exists_of_mapM_eq_error {g : α → Except ε β} {l : List α} {e : ε}
    (h : l.mapM g = .error e) : ∃ a ∈ l, g a = .error e := by
  induction l with
  | nil => exact absurd h nofun
  | cons a l ih =>
    rw [List.mapM_cons] at h
    cases ha : g a with
    | error e' =>
      rw [ha] at h
      exact ⟨a, List.mem_cons_self, ha.trans (congrArg _ (Except.error.inj h))⟩
    | ok b =>
      rw [ha] at h
      cases hl : l.mapM g with
      | error e' =>
        rw [hl] at h
        obtain ⟨a', ha', hg⟩ := ih (hl.trans (congrArg _ (Except.error.inj h)))
        exact ⟨a', List.mem_cons_of_mem a ha', hg⟩
      | ok bs =>
        rw [hl] at h
        exact absurd h nofun

/-- A loop over a list fails if one of its steps does from every state. -/
theorem exists_foldlM_eq_error (f : σ → α → Except ε σ) {l : List α} {a : α} (ha : a ∈ l)
    (h : ∀ s, ∃ e, f s a = .error e) (s : σ) : ∃ e, l.foldlM f s = .error e := by
  induction l generalizing s with
  | nil => cases ha
  | cons b l ih =>
    rw [List.foldlM_cons]
    cases hb : f s b with
    | error e => exact ⟨e, rfl⟩
    | ok s' =>
      rcases List.mem_cons.1 ha with rfl | ha
      · obtain ⟨e, he⟩ := h s
        exact absurd (hb.symm.trans he) nofun
      · exact ih ha s'

/-- A loop over a list fails when it succeeds up to an item, and the step for that one fails. -/
theorem foldlM_eq_error_iff {f : σ → α → Except ε σ} {l : List α} {s : σ} {e : ε} :
    l.foldlM f s = .error e ↔ ∃ before a behind t, l = before ++ a :: behind ∧
      before.foldlM f s = .ok t ∧ f t a = .error e := by
  constructor
  · intro h
    induction l generalizing s with
    | nil => exact absurd h nofun
    | cons a l ih =>
      rw [List.foldlM_cons] at h
      cases ha : f s a with
      | error e' =>
        rw [ha] at h
        exact ⟨[], a, l, s, rfl, rfl, ha.trans (congrArg _ (Except.error.inj h))⟩
      | ok s' =>
        rw [ha] at h
        obtain ⟨before, b, behind, t, rfl, hbefore, hb⟩ := ih h
        refine ⟨a :: before, b, behind, t, rfl, ?_, hb⟩
        rw [List.foldlM_cons, ha]
        exact hbefore
  · rintro ⟨before, a, behind, t, rfl, hbefore, ha⟩
    rw [List.foldlM_append, hbefore, ok_bind, List.foldlM_cons, ha, error_bind]

/-! ## Leading from one property to another -/

/-- From a state with the first property, the step comes to a value and a state with the second, or
fails, with a failure and in a state as the third says. -/
def Meets (before : σ → Prop) (x : ExceptT ε (StateM σ) α) (after : α → σ → Prop)
    (failed : ε → σ → Prop) : Prop :=
  ∀ s, before s → match x.run s with
    | (.ok a, s') => after a s'
    | (.error e, s') => failed e s'

theorem Meets.mono {before : σ → Prop} {after after' : α → σ → Prop} {failed failed' : ε → σ → Prop}
    {x : ExceptT ε (StateM σ) α} (hx : Meets before x after failed)
    (hafter : ∀ a s, after a s → after' a s) (hfailed : ∀ e s, failed e s → failed' e s) :
    Meets before x after' failed' := by
  intro s hs
  have h := hx s hs
  rcases hr : x.run s with ⟨e | a, s'⟩
  · rw [hr] at h
    exact hfailed e s' h
  · rw [hr] at h
    exact hafter a s' h

theorem Meets.bind {before : σ → Prop} {between : α → σ → Prop} {after : β → σ → Prop}
    {failed : ε → σ → Prop} {x : ExceptT ε (StateM σ) α} {g : α → ExceptT ε (StateM σ) β}
    (hx : Meets before x between failed) (hg : ∀ a, Meets (between a) (g a) after failed) :
    Meets before (x >>= g) after failed := by
  intro s hs
  have h := hx s hs
  rw [run_bind]
  rcases hr : x.run s with ⟨e | a, s'⟩
  · rw [hr] at h
    exact h
  · rw [hr] at h
    exact hg a s' h

/-- Steps along a list fail only as one of them does. -/
theorem meets_mapM {g : α → ExceptT ε (StateM σ) β} {failed : ε → σ → Prop} {l : List α}
    (hg : ∀ a ∈ l, Meets (fun _ => True) (g a) (fun _ _ => True) failed) :
    Meets (fun _ => True) (l.mapM g) (fun _ _ => True) failed := by
  induction l with
  | nil => exact fun _ _ => trivial
  | cons a l ih =>
    rw [List.mapM_cons]
    exact (hg a List.mem_cons_self).bind fun _ =>
      (ih fun b hb => hg b (List.mem_cons_of_mem a hb)).bind fun _ _ _ => trivial

/-- A loop over a list keeps an invariant about the items gone through, by induction on those that
are still to come. -/
theorem Meets.forIn {f : α → PUnit → ExceptT ε (StateM σ) (ForInStep PUnit)} {l : List α}
    (inv : List α → σ → Prop) {failed : ε → σ → Prop}
    (hf : ∀ before a behind, l = before ++ a :: behind →
      Meets (inv before) (f a ⟨⟩) (fun next s => next = .yield ⟨⟩ ∧ inv (before ++ [a]) s) failed) :
    Meets (inv []) (forIn l ⟨⟩ f) (fun _ => inv l) failed := by
  have hrest : ∀ before behind, l = before ++ behind →
      Meets (inv before) (ForIn.forIn behind ⟨⟩ f) (fun _ => inv l) failed := by
    intro before behind
    induction behind generalizing before with
    | nil =>
      intro hl s hs
      rw [hl, List.append_nil]
      exact hs
    | cons a behind ih =>
      intro hl
      rw [List.forIn_cons]
      refine (hf before a behind hl).bind fun next => ?_
      rintro s ⟨rfl, hs⟩
      exact ih (before ++ [a]) (by rw [hl, List.append_assoc, List.singleton_append]) s hs
  exact hrest [] l rfl

/-- From a state with the first property, the step comes to a value and a state with the second, or
fails in a state with the third. -/
def Ensures (before : σ → Prop) (x : ExceptT ε (StateM σ) α) (after : α → σ → Prop)
    (halted : σ → Prop) : Prop :=
  ∀ s, before s → match x.run s with
    | (.ok a, s') => after a s'
    | (.error _, s') => halted s'

/-- What is ensured is met, whatever the failure is. -/
theorem ensures_iff {before : σ → Prop} {after : α → σ → Prop} {halted : σ → Prop}
    {x : ExceptT ε (StateM σ) α} :
    Ensures before x after halted ↔ Meets before x after fun _ => halted := Iff.rfl

theorem Ensures.mono {before : σ → Prop} {after after' : α → σ → Prop} {halted halted' : σ → Prop}
    {x : ExceptT ε (StateM σ) α} (hx : Ensures before x after halted)
    (hafter : ∀ a s, after a s → after' a s) (hhalted : ∀ s, halted s → halted' s) :
    Ensures before x after' halted' :=
  ensures_iff.2 ((ensures_iff.1 hx).mono hafter fun _ => hhalted)

theorem Ensures.bind {before : σ → Prop} {between : α → σ → Prop} {after : β → σ → Prop}
    {halted : σ → Prop} {x : ExceptT ε (StateM σ) α} {g : α → ExceptT ε (StateM σ) β}
    (hx : Ensures before x between halted) (hg : ∀ a, Ensures (between a) (g a) after halted) :
    Ensures before (x >>= g) after halted :=
  ensures_iff.2 ((ensures_iff.1 hx).bind fun a => ensures_iff.1 (hg a))

/-! ## Obeying a relation -/

/-- However a step ends, a relation holds between the states before and after it. -/
def Obeys (r : σ → σ → Prop) (x : ExceptT ε (StateM σ) α) : Prop := ∀ s, r s (x.run s).2

variable {r : σ → σ → Prop}

theorem Obeys.bind (htrans : ∀ a b c, r a b → r b c → r a c) {x : ExceptT ε (StateM σ) α}
    {g : α → ExceptT ε (StateM σ) β} (hx : Obeys r x) (hg : ∀ a, Obeys r (g a)) :
    Obeys r (x >>= g) := by
  intro s
  have hs := hx s
  rw [run_bind]
  cases hr : x.run s with
  | mk result s' =>
    rw [hr] at hs
    cases result with
    | error e => exact hs
    | ok a => exact htrans _ _ _ hs (hg a s')

/-- From a state that is related to a first one, the step leads to one that is. -/
theorem Obeys.meets (htrans : ∀ a b c, r a b → r b c → r a c) {x : ExceptT ε (StateM σ) α}
    (hx : Obeys r x) (first : σ) : Meets (r first) x (fun _ => r first) fun _ => r first := by
  intro s hs
  have h := htrans _ _ _ hs (hx s)
  rcases hr : x.run s with ⟨e | a, s'⟩ <;> rw [hr] at h <;> exact h

/-- A loop over a list, by induction on the list. -/
theorem Obeys.forIn (hrefl : ∀ a, r a a) (htrans : ∀ a b c, r a b → r b c → r a c)
    {f : α → β → ExceptT ε (StateM σ) (ForInStep β)} (hf : ∀ a b, Obeys r (f a b)) (l : List α)
    (b : β) : Obeys r (forIn l b f) := by
  induction l generalizing b with
  | nil => exact hrefl
  | cons a l ih =>
    rw [List.forIn_cons]
    refine Obeys.bind htrans (hf a b) fun next => ?_
    cases next with
    | done b => exact hrefl
    | yield b => exact ih b

/-- Steps along a list, by induction on the list. -/
theorem Obeys.mapM (hrefl : ∀ a, r a a) (htrans : ∀ a b c, r a b → r b c → r a c)
    {g : α → ExceptT ε (StateM σ) β} (hg : ∀ a, Obeys r (g a)) (l : List α) :
    Obeys r (l.mapM g) := by
  induction l with
  | nil => exact hrefl
  | cons a l ih =>
    rw [List.mapM_cons]
    exact (hg a).bind htrans fun _ => ih.bind htrans fun _ => hrefl

/-! ## Two runs side by side -/

/-- Both results are values that are related, or failures that are. -/
inductive Outcomes {ε' : Type} (re : ε → ε' → Prop) (r : α → β → Prop) :
    Except ε α → Except ε' β → Prop
  | ok {a : α} {b : β} : r a b → Outcomes re r (.ok a) (.ok b)
  | error {e : ε} {e' : ε'} : re e e' → Outcomes re r (.error e) (.error e')

/-- Two runs came to related results and to related states. -/
structure Alongside (rs : σ → σ → Prop) (r : α → β → Prop) (x : α × σ) (y : β × σ) : Prop where
  result : r x.1 y.1
  state : rs x.2 y.2

/-- From related states, the steps come to related results and to related states. -/
def Abreast (rs : σ → σ → Prop) (r : α → β → Prop) (x : StateM σ α) (y : StateM σ β) : Prop :=
  ∀ s t, rs s t → Alongside rs r (x s) (y t)

section Abreast

variable {rs : σ → σ → Prop} {α' β' ε' : Type} {r : α → β → Prop} {r' : α' → β' → Prop}
  {re : ε → ε' → Prop}

theorem Outcomes.mono {re' : ε → ε' → Prop} {r'' : α → β → Prop} {x : Except ε α}
    {y : Except ε' β} (h : Outcomes re r x y) (hre : ∀ e e', re e e' → re' e e')
    (hr : ∀ a b, r a b → r'' a b) : Outcomes re' r'' x y := by
  cases h with
  | ok h => exact .ok (hr _ _ h)
  | error h => exact .error (hre _ _ h)

/-- Results that are related by equality are equal. -/
theorem Outcomes.eq {x y : Except ε α} (h : Outcomes Eq Eq x y) : x = y := by
  cases h with
  | ok h => rw [h]
  | error h => rw [h]

theorem Abreast.pure {a : α} {b : β} (h : r a b) :
    Abreast rs r (Pure.pure a : StateM σ α) (Pure.pure b) := fun _ _ hs => ⟨h, hs⟩

theorem Abreast.bind {x : StateM σ α} {y : StateM σ β} {g : α → StateM σ α'} {h : β → StateM σ β'}
    (hx : Abreast rs r x y) (hg : ∀ a b, r a b → Abreast rs r' (g a) (h b)) :
    Abreast rs r' (x >>= g) (y >>= h) := by
  intro s t hs
  obtain ⟨hresult, hstate⟩ := hx s t hs
  exact hg _ _ hresult _ _ hstate

theorem Abreast.run_bind {x : ExceptT ε (StateM σ) α} {y : ExceptT ε' (StateM σ) β}
    {g : α → ExceptT ε (StateM σ) α'} {h : β → ExceptT ε' (StateM σ) β'}
    (hx : Abreast rs (Outcomes re r) x.run y.run)
    (hg : ∀ a b, r a b → Abreast rs (Outcomes re r') (g a).run (h b).run) :
    Abreast rs (Outcomes re r') (x >>= g).run (y >>= h).run := by
  intro s t hs
  obtain ⟨hresult, hstate⟩ := hx s t hs
  rw [Formulary.run_bind, Formulary.run_bind]
  rcases hrun : x.run s with ⟨result, s'⟩
  rcases hrun' : y.run t with ⟨result', t'⟩
  rw [hrun, hrun'] at hresult hstate
  cases hresult with
  | ok hr => exact hg _ _ hr _ _ hstate
  | error he => exact ⟨.error he, hstate⟩

/-- Values that are the same need not be told apart from there on. -/
theorem Abreast.run_bind_eq {x : ExceptT ε (StateM σ) α} {y : ExceptT ε' (StateM σ) α}
    {g : α → ExceptT ε (StateM σ) α'} {h : α → ExceptT ε' (StateM σ) β'}
    (hx : Abreast rs (Outcomes re Eq) x.run y.run)
    (hg : ∀ a, Abreast rs (Outcomes re r') (g a).run (h a).run) :
    Abreast rs (Outcomes re r') (x >>= g).run (y >>= h).run :=
  hx.run_bind fun a _ hab => hab ▸ hg a

theorem Abreast.run_pure {a : α} {b : β} (h : r a b) :
    Abreast rs (Outcomes re r) (Pure.pure a : ExceptT ε (StateM σ) α).run
      (Pure.pure b : ExceptT ε' (StateM σ) β).run := fun _ _ hs => ⟨.ok h, hs⟩

theorem Abreast.run_throw {e : ε} {e' : ε'} (h : re e e') :
    Abreast rs (Outcomes re r) (throw e : ExceptT ε (StateM σ) α).run
      (throw e' : ExceptT ε' (StateM σ) β).run := fun _ _ hs => ⟨.error h, hs⟩

/-- Steps that cannot fail. -/
theorem Abreast.run_liftM {x : StateM σ α} {y : StateM σ β} (h : Abreast rs r x y) :
    Abreast rs (Outcomes re r) (liftM x : ExceptT ε (StateM σ) α).run
      (liftM y : ExceptT ε' (StateM σ) β).run :=
  fun s t hs => ⟨.ok (h s t hs).result, (h s t hs).state⟩

/-- Steps that begin with a look at the state. -/
theorem Abreast.run_get_bind {g : σ → ExceptT ε (StateM σ) α} {h : σ → ExceptT ε' (StateM σ) β}
    (hg : ∀ s t, rs s t → Alongside rs (Outcomes re r) ((g s).run s) ((h t).run t)) :
    Abreast rs (Outcomes re r) (get >>= g).run (get >>= h).run := hg

end Abreast

end Formulary
