import Formulary.Formula.Validation
import Formulary.Proofs.Bindings
import Formulary.Proofs.Runs
import Formulary.Variables

/-!
# How variables are resolved

A resolution asks its questions in order, each of a state that the one before it left. `Resolves`
tells the ways in which it can end, and `resolves` that there are no others. What it knows in the
end are the answers, with the formula's own values over them (`get?_withOwn`). A version is never
empty (`Formula.version?_ne_empty`).
-/

namespace Formulary

/-! ## Versions -/

theorem Version.ofUrl?_ne_empty {url v : String} (h : ofUrl? url = some v) : v ≠ "" := by
  unfold ofUrl? at h
  dsimp only at h
  split at h
  · split at h
    · rename_i c rest hcandidate _
      obtain rfl := Option.some.inj h
      simp [hcandidate]
    · exact absurd h nofun
  · exact absurd h nofun

theorem Formula.version?_ne_empty {f : Formula} {v : String} (h : f.version? = some v) :
    v ≠ "" := by
  unfold version? at h
  split at h
  · dsimp only at h
    split at h
    · rename_i hne
      exact Option.some.inj h ▸ hne
    · exact Version.ofUrl?_ne_empty h
  · exact Version.ofUrl?_ne_empty h

theorem Formula.packageVersion?_ne_empty {f : Formula} {v : String}
    (h : f.packageVersion? = some v) : v ≠ "" := by
  obtain ⟨u, hu, rfl⟩ := Option.map_eq_some_iff.1 h
  have hne := version?_ne_empty hu
  split
  · split
    · simp [hne]
    · exact hne
  · exact hne

namespace Variables

variable {σ : Type}

/-! ## Look-ups -/

/-- The formula's own values are looked up first. -/
theorem get?_withOwn (f : Formula) (vars : Bindings) (name : String) :
    (withOwn f vars).get? name = (f.vars.get? name).or (vars.get? name) :=
  Bindings.get?_foldl_insert f.vars.nodup_names vars name

theorem contains_withOwn_iff {f : Formula} {vars : Bindings} {name : String} :
    (withOwn f vars).contains name = true ↔
      vars.contains name = true ∨ f.vars.contains name = true := by
  rw [Bindings.contains, get?_withOwn, Option.isSome_or, Bool.or_eq_true, or_comm]
  rfl

/-- What was found out, one value for each variable that is not the formula's own. -/
structure Answers where
  version : String
  commit : String
  branch : String
  toolchain : String
  now : Timestamp

namespace Answers

/-- The answers as variables. -/
def vars (a : Answers) : Bindings := builtins a.version a.commit a.branch a.toolchain a.now

theorem get?_vars (a : Answers) (name : String) : a.vars.get? name =
    if name = "build_time" then some a.now.toSeconds
    else if name = "toolchain_version" then some a.toolchain
    else if name = "branch" then some a.branch
    else if name = "commit" then some a.commit
    else if name = "version" then some a.version
    else none := by
  simp [vars, builtins, Bindings.ofList]

/-- The answers are values for exactly the variables that the formula may not set. -/
theorem contains_vars_iff (a : Answers) (name : String) :
    a.vars.contains name = true ↔ name ∈ builtinVariables := by
  rw [Bindings.contains, get?_vars]
  simp only [builtinVariables, List.mem_cons, List.not_mem_nil, or_false]
  grind

/-- The variables hold the answers under their names. -/
structure HeldBy (a : Answers) (vars : Bindings) : Prop where
  version : vars.get? "version" = some a.version
  commit : vars.get? "commit" = some a.commit
  branch : vars.get? "branch" = some a.branch
  toolchain : vars.get? "toolchain_version" = some a.toolchain
  time : vars.get? "build_time" = some a.now.toSeconds

theorem HeldBy.of_forall {a : Answers} {vars : Bindings}
    (h : ∀ name ∈ builtinVariables, vars.get? name = a.vars.get? name) : a.HeldBy vars where
  version := by rw [h _ (by decide), get?_vars]; rfl
  commit := by rw [h _ (by decide), get?_vars]; rfl
  branch := by rw [h _ (by decide), get?_vars]; rfl
  toolchain := by rw [h _ (by decide), get?_vars]; rfl
  time := by rw [h _ (by decide), get?_vars]; rfl

end Answers

/-! ## Resolution -/

theorem Unresolved.kind_toError (u : Unresolved) : u.toError.kind = .resolve := by
  cases u with
  | toolchain probe => cases probe <;> rfl
  | _ => rfl

/-- The commit of a tree if it has one, and else the pinned one. -/
def commitFrom (f : Formula) (version : String) : Option String → Except Unresolved String
  | some commit => .ok commit
  | none => pinnedCommit f version

/-- A pin is refused for its commit, and never for the version. -/
theorem pinnedCommit_ne_version (f : Formula) (version : String) {name url : String} :
    pinnedCommit f version ≠ .error (.version name url) := by
  unfold pinnedCommit
  cases f.source.commit with
  | none => nofun
  | some pin =>
    dsimp only
    split
    · nofun
    · split <;> nofun

/-- The answers are found out from a state on, each question being asked in the state that the one
before it left. -/
def Answers.FoundBy (a : Answers) (source : MetadataSource (StateM σ)) (f : Formula) (tree : Path)
    (s s' : σ) : Prop :=
  ∃ answer branch s₁ s₂ s₃, f.version? = some a.version ∧
    source.commit tree s = (answer, s₁) ∧ commitFrom f a.version answer = .ok a.commit ∧
    source.branch tree s₁ = (branch, s₂) ∧ branch.getD "HEAD" = a.branch ∧
    source.toolchainVersion f tree s₂ = (some a.toolchain, s₃) ∧ source.now s₃ = (a.now, s')

/-- How a resolution can end, from a state on. -/
inductive Resolves (source : MetadataSource (StateM σ)) (f : Formula) (tree : Path) (s : σ) :
    Except Unresolved Bindings × σ → Prop
  /-- There is no version, and nothing is asked. -/
  | noVersion : f.version? = none →
      Resolves source f tree s (.error (.version f.identity.name f.source.url), s)
  /-- The tree has no commit, and none is pinned for the version. -/
  | noCommit {version : String} {e : Unresolved} {s₁ : σ} :
    f.version? = some version → source.commit tree s = (none, s₁) →
      pinnedCommit f version = .error e → Resolves source f tree s (.error e, s₁)
  /-- The tool chain has no version. -/
  | noToolchain {s₂ s₃ : σ} : source.toolchainVersion f tree s₂ = (none, s₃) →
      Resolves source f tree s (.error (.toolchain f.build.toolchain), s₃)
  /-- Everything is known. -/
  | resolved {a : Answers} {s' : σ} : a.FoundBy source f tree s s' →
      Resolves source f tree s (.ok (withOwn f a.vars), s')

theorem run_commitOf (source : MetadataSource (StateM σ)) (f : Formula) (version : String)
    (tree : Path) (s : σ) : (commitOf source f version tree).run s =
      (commitFrom f version (source.commit tree s).1, (source.commit tree s).2) := by
  unfold commitOf
  rw [run_bind, run_liftM]
  dsimp only
  cases (source.commit tree s).1 <;> rfl

theorem run_toolchainOf (source : MetadataSource (StateM σ)) (f : Formula) (tree : Path) (s : σ) :
    (toolchainOf source f tree).run s = (match (source.toolchainVersion f tree s).1 with
      | some toolchain => .ok toolchain
      | none => .error (.toolchain f.build.toolchain), (source.toolchainVersion f tree s).2) := by
  unfold toolchainOf
  rw [run_bind, run_liftM]
  dsimp only
  cases (source.toolchainVersion f tree s).1 <;> rfl

/-- There is no other way to end. -/
theorem resolves (source : MetadataSource (StateM σ)) (f : Formula) (tree : Path) (s : σ) :
    Resolves source f tree s ((resolve source f tree).run s) := by
  unfold resolve versionOf
  cases hversion : f.version? with
  | none => exact .noVersion hversion
  | some version =>
    rw [run_bind, run_pure]
    dsimp only
    rw [run_bind, run_commitOf]
    rcases hasked : source.commit tree s with ⟨answer, s₁⟩
    dsimp only
    cases hcommit : commitFrom f version answer with
    | error e =>
      cases answer with
      | some commit => exact absurd hcommit nofun
      | none => exact .noCommit hversion hasked hcommit
    | ok commit =>
      dsimp only
      rw [run_bind, run_liftM]
      rcases hbranch : source.branch tree s₁ with ⟨branch, s₂⟩
      dsimp only
      rw [run_bind, run_toolchainOf]
      rcases htoolchain : source.toolchainVersion f tree s₂ with ⟨_ | toolchain, s₃⟩
      · exact .noToolchain htoolchain
      · rcases hnow : source.now s₃ with ⟨now, s₄⟩
        dsimp only
        rw [run_bind, run_liftM, hnow]
        exact .resolved (a := ⟨version, commit, branch.getD "HEAD", toolchain, now⟩)
          ⟨answer, branch, s₁, s₂, s₃, hversion, hasked, hcommit, hbranch, rfl, htoolchain, hnow⟩

end Variables

end Formulary
