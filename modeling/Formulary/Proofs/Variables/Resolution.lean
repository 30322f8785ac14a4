import Formulary.Proofs.Variables

/-!
# When variables are resolved

Whether a resolution succeeds, and with which values, depends on the formula and on what the
provider answers (`Replies`) : the version, the commit and the version of the tool chain must be
determined by them (`Formula.Determines`). They are, exactly when it succeeds, and its variables are
then the determined ones under the formula's own (`resolved_iff_determined`).
-/

namespace Formulary

variable {σ : Type}

/-! ## What a provider answers -/

/-- What a provider answers when all is asked, in the order of a resolution. -/
structure Replies where
  commit : Option String
  branch : Option String
  toolchain : Option String
  now : Timestamp

/-- The answers about a source tree from a state on. Each question is asked in the state that the
one before it left. -/
def MetadataSource.replies (source : MetadataSource (StateM σ)) (f : Formula) (tree : Path)
    (s : σ) : Replies :=
  let (commit, s₁) := source.commit tree s
  let (branch, s₂) := source.branch tree s₁
  let (toolchain, s₃) := source.toolchainVersion f tree s₂
  ⟨commit, branch, toolchain, (source.now s₃).1⟩

namespace Formula

/-- The formula pins the commit for the version. -/
def PinsCommit (f : Formula) (version commit : String) : Prop :=
  ∃ pin, f.source.commit = some pin ∧ Text.trim pin.version = version ∧
    Text.trim pin.id = commit ∧ commit ≠ ""

/-- The formula and the answers leave no choice of the values that must be known. -/
structure Determines (f : Formula) (r : Replies) (v c t : String) : Prop where
  version : f.version? = some v
  /-- A pin only counts when the tree has no commit. -/
  commit : r.commit = some c ∨ r.commit = none ∧ f.PinsCommit v c
  toolchain : r.toolchain = some t

end Formula

namespace Variables

variable {f : Formula} {source : MetadataSource (StateM σ)} {tree : Path} {s : σ}

theorem pinnedCommit_eq_ok_iff {version commit : String} :
    pinnedCommit f version = .ok commit ↔ f.PinsCommit version commit := by
  unfold pinnedCommit Formula.PinsCommit
  cases f.source.commit with
  | none => simp
  | some pin =>
    by_cases hversion : Text.trim pin.version = version
    · by_cases hid : Text.trim pin.id = ""
      · simp [hversion, hid, eq_comm]
      · simp only [hversion, hid, Option.some.injEq, exists_eq_left', Except.ok.injEq, ne_eq,
          not_true_eq_false, if_false, true_and]
        exact ⟨fun h => ⟨h, h ▸ hid⟩, And.left⟩
    · simp [hversion]

theorem commitFrom_eq_ok_iff {version commit : String} {answer : Option String} :
    commitFrom f version answer = .ok commit ↔
      answer = some commit ∨ answer = none ∧ f.PinsCommit version commit := by
  cases answer with
  | some c => simp [commitFrom]
  | none => simpa [commitFrom] using pinnedCommit_eq_ok_iff

/-- Determined values are found out. -/
theorem run_resolve_of_determines {v c t : String}
    (h : f.Determines (source.replies f tree s) v c t) :
    ∃ vars s', (resolve source f tree).run s = (.ok vars, s') := by
  rcases hcommit : source.commit tree s with ⟨answer, s₁⟩
  rcases hbranch : source.branch tree s₁ with ⟨branch, s₂⟩
  rcases htoolchain : source.toolchainVersion f tree s₂ with ⟨toolchain, s₃⟩
  simp only [MetadataSource.replies, hcommit, hbranch, htoolchain] at h
  obtain ⟨hversion, hfrom, rfl⟩ := h
  unfold resolve versionOf
  rw [hversion, run_bind, run_pure]
  dsimp only
  rw [run_bind, run_commitOf, hcommit]
  dsimp only
  rw [commitFrom_eq_ok_iff.2 hfrom]
  dsimp only
  rw [run_bind, run_liftM, hbranch]
  dsimp only
  rw [run_bind, run_toolchainOf, htoolchain]
  exact ⟨_, _, rfl⟩

/-- Values that were found out are determined. -/
theorem Answers.FoundBy.determines {a : Answers} {s' : σ} (h : a.FoundBy source f tree s s') :
    f.Determines (source.replies f tree s) a.version a.commit a.toolchain ∧
      a.branch = (source.replies f tree s).branch.getD "HEAD" ∧
      a.now = (source.replies f tree s).now := by
  obtain ⟨answer, branch, s₁, s₂, s₃, hversion, hcommit, hfrom, hbranch, hhead, htoolchain, hnow⟩ :=
    h
  simp only [MetadataSource.replies, hcommit, hbranch, htoolchain, hnow]
  exact ⟨⟨hversion, commitFrom_eq_ok_iff.1 hfrom, rfl⟩, hhead.symm, trivial⟩

/-- The variables of a resolution are the formula's own with their values, and of the other names
the built-in ones with the determined values. -/
theorem get?_of_resolve {vars : Bindings} {s' : σ}
    (h : (resolve source f tree).run s = (.ok vars, s')) :
    ∃ v c t, f.Determines (source.replies f tree s) v c t ∧ v ≠ "" ∧
      ∀ name, vars.get? name = (f.vars.get? name).or
        ([("version", v), ("commit", c),
          ("branch", (source.replies f tree s).branch.getD "HEAD"), ("toolchain_version", t),
          ("build_time", (source.replies f tree s).now.toSeconds)].lookup name) := by
  have hresolves := resolves source f tree s
  rw [h] at hresolves
  cases hresolves with
  | @resolved a _ hfound =>
    obtain ⟨hdetermines, hbranch, hnow⟩ := hfound.determines
    refine ⟨_, _, _, hdetermines, Formula.version?_ne_empty hdetermines.version, fun name => ?_⟩
    rw [get?_withOwn, Answers.get?_vars, ← hbranch, ← hnow]
    simp only [Bindings.lookup_of_cons, List.lookup_nil]
    grind

/-- A resolution succeeds exactly when the formula and the answers determine the version, the commit
and the version of the tool chain, and fails in no other way than with the failure that is for it.
The variables are then the formula's own with their values, and of the other names only the five
built-in ones, with the determined values, the branch or what stands for none, and the time. -/
theorem resolved_iff_determined (source : MetadataSource (StateM σ)) (f : Formula) (tree : Path)
    (s : σ) :
    let r := source.replies f tree s
    ((∃ vars s', (resolve source f tree).run s = (.ok vars, s')) ↔ ∃ v c t, f.Determines r v c t) ∧
    (∀ e s', (resolve source f tree).run s = (.error e, s') → e.toError.kind = .resolve) ∧
    ∀ vars s', (resolve source f tree).run s = (.ok vars, s') →
      ∃ v c t, f.Determines r v c t ∧ v ≠ "" ∧
        ∀ name, vars.get? name = (f.vars.get? name).or
          ([("version", v), ("commit", c), ("branch", r.branch.getD "HEAD"),
            ("toolchain_version", t), ("build_time", r.now.toSeconds)].lookup name) := by
  intro r
  refine ⟨⟨?_, ?_⟩, fun e s' _ => e.kind_toError, fun vars s' => get?_of_resolve⟩
  · rintro ⟨vars, s', hrun⟩
    obtain ⟨v, c, t, hdetermines, -⟩ := get?_of_resolve hrun
    exact ⟨v, c, t, hdetermines⟩
  · rintro ⟨v, c, t, hdetermines⟩
    exact run_resolve_of_determines hdetermines

end Variables

end Formulary
