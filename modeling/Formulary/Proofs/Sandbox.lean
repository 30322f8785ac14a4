import Formulary.Proofs.Disk.Clearing

/-!
# Tests in sandboxes

Every test in a sandbox ends in one of four ways (`Sandbox.ends_of_run`). There may be no sandbox to
run it in, or one that cannot be removed. If the sandbox was there when the test was done and could
be removed, then the path leads nowhere afterwards and the outcome is told by how the test ended, by
its own reason, the text of its error or that of its panic. If the path led nowhere already, for the
test had moved or removed its own directory, then that is reported as a failure to remove it
(`Sandbox.fails_without_sandbox`).
-/

namespace Formulary

namespace Sandbox

variable {p : Path} {d d' : Disk}

/-! ## Removing a sandbox -/

/-- The removal that counts is made on the disk itself or on what a first one left of it. That one
failed, so the place that the path leads to is still taken. -/
theorem exists_of_remove {result : Except Failure Unit} (h : remove p d = (result, d')) :
    ∃ (now : Disk) (tried : Except Cause Unit), Disk.Thinned (d.IsUnder p) d now ∧
      (∀ q, d.LeadsTo p q → now.entryAt? q ≠ none) ∧
      (Disk.removeTree p).run now = (tried, d') ∧ result = tried.mapError (.notRemoved p) := by
  unfold remove at h
  rw [bind_apply] at h
  rcases hfirst : (Disk.removeTree p).run d with ⟨cause | u, d₁⟩
  · rw [hfirst] at h
    dsimp only at h
    rw [bind_apply, modify_apply, bind_apply] at h
    have hthinned := Disk.thinned_removeTree p d
    rw [hfirst] at hthinned
    refine ⟨d₁.unlockTree p, ((Disk.removeTree p).run (d₁.unlockTree p)).1,
      hthinned.trans (Disk.thinned_unlockTree p d₁), fun q hq hnone => ?_, ?_⟩
    · have hkept : d₁.entryAt? q = d.entryAt? q := (Disk.entryAt?_of_removeTree hfirst).2 q hq
      have hunlocked : Disk.Thinned (fun _ => False) d₁ (d₁.unlockTree p) :=
        Disk.thinned_unlockTree p d₁
      have hbare := (hunlocked.entries q).resolve_right And.left
      rw [hnone, hkept] at hbare
      exact hq.ne_none (Option.map_eq_none_iff.1 hbare.symm)
    · rcases hsecond : (Disk.removeTree p).run (d₁.unlockTree p) with ⟨cause | u, d₂⟩
      · rw [hsecond] at h
        cases h
        exact ⟨rfl, rfl⟩
      · rw [hsecond] at h
        cases h
        exact ⟨rfl, rfl⟩
  · rw [hfirst] at h
    cases h
    exact ⟨d, .ok u, Disk.Thinned.refl d, fun q hq => hq.ne_none, hfirst, rfl⟩

/-- Only a sandbox that is there can be removed, and then the path leads nowhere. -/
theorem gone_of_remove (h : remove p d = (.ok (), d')) :
    (∃ q, d.LeadsTo p q) ∧ ∀ q, ¬d'.LeadsTo p q := by
  obtain ⟨now, tried, hthinned, -, hrun, hresult⟩ := exists_of_remove h
  obtain ⟨u, rfl⟩ : ∃ u, tried = .ok u := ⟨_, (mapError_eq_ok_iff.1 hresult.symm)⟩
  obtain ⟨hthere, hentry⟩ := Disk.entryAt?_of_removeTree hrun
  obtain ⟨q, hq⟩ := hthere rfl
  have hgone : d'.entryAt? q = none := hentry q hq
  refine ⟨⟨q, hthinned.leadsTo hq⟩, fun r hr => ?_⟩
  have hafter := Disk.thinned_removeTree p now
  rw [hrun] at hafter
  obtain rfl := hq.unique (hafter.leadsTo hr)
  exact hr.ne_none hgone

/-- A sandbox that could not be removed is still there. -/
theorem stays_of_remove {failure : Failure} (h : remove p d = (.error failure, d')) :
    (∃ cause, failure = .notRemoved p cause) ∧ ∀ q, d.LeadsTo p q → d'.entryAt? q ≠ none := by
  obtain ⟨now, tried, hthinned, htaken, hrun, hresult⟩ := exists_of_remove h
  rcases tried with cause | u
  · refine ⟨⟨cause, Except.error.inj hresult⟩, fun q hq hnone => ?_⟩
    have hafter := Disk.pruned_removeTree p now
    rw [hrun] at hafter
    rcases hafter.entries q with hsame | ⟨⟨r, hr, -⟩, -⟩
    · exact htaken q hq (hsame.symm.trans hnone)
    · obtain rfl := hq.unique (hthinned.leadsTo hr)
      have hkept : d'.entryAt? r = now.entryAt? r := (Disk.entryAt?_of_removeTree hrun).2 r hr
      exact htaken r hq (hkept.symm.trans hnone)
  · cases hresult

/-- When a first removal failed, the second one takes away every sandbox of which the directories
can be read, whatever else their modes forbid. -/
theorem remove_eq_ok {first : Disk} {cause : Cause} {q : Place} {mode : Nat}
    (h : (Disk.removeTree p).run d = (.error cause, first)) (hfaults : first.faults = [])
    (hfound : ∀ follow, first.found follow p = .ok (q, .directory mode)) (hne : q ≠ [])
    (hchange : first.canChange q = true)
    (hread : ∀ r, first.Reaches q r → first.directoryPermits r .read = true) :
    (remove p d).1 = .ok () := by
  have hsecond := Disk.removeTree_unlockTree_eq_ok hfaults hfound hne hchange hread
  unfold remove
  rw [bind_apply, h]
  dsimp only
  rw [bind_apply, modify_apply, bind_apply]
  rcases hrun : (Disk.removeTree p).run (first.unlockTree p) with ⟨cause | u, after⟩
  · rw [hrun] at hsecond
    cases hsecond
  · rfl

/-- Where nothing is left for the path to lead to, there is nothing to be removed. -/
theorem not_leadsTo_of_remove (h : ∀ q, ¬d.LeadsTo p q) (q : Place) :
    ¬(remove p d).2.LeadsTo p q :=
  fun hq => h q ((thinned_remove p d).leadsTo hq)

/-! ## What is told of a test -/

/-- The reason that is given for a test that did not end well. -/
inductive Gives : Halt → String → Prop
  /-- The reason of the test itself. -/
  | own (reason : String) (stub : Bool) : Gives (.error (.test reason stub)) reason
  /-- The text of any other error. -/
  | message {e : Error} : (∀ reason stub, e ≠ .test reason stub) → Gives (.error e) e.message
  | panic (text : String) : Gives (.panic (some text)) ("test procedure panicked: " ++ text)
  | unknown : Gives (.panic none) "test procedure panicked: unknown panic"

theorem gives_reason (halt : Halt) : Gives halt halt.reason := by
  cases halt with
  | error e =>
    cases e with
    | test reason stub => exact .own reason stub
    | _ => exact .message nofun
  | panic text =>
    cases text with
    | none => exact .unknown
    | some text => exact .panic text

/-- What is told of a test that ended. -/
inductive Tells (stub : Bool) : Except Halt String → TestOutcome → Prop
  | passed (output : String) : Tells stub (.ok output) .passed
  | stubbed {halt : Halt} {reason : String} : stub = true → Gives halt reason →
    Tells stub (.error halt) (.stubbed reason)
  | failed {halt : Halt} {reason : String} : stub = false → Gives halt reason →
    Tells stub (.error halt) (.failed reason)

theorem tells_outcomeOf (stub : Bool) (result : Except Halt String) :
    Tells stub result (outcomeOf stub result) := by
  cases result with
  | error halt =>
    cases stub with
    | true => exact .stubbed rfl (gives_reason halt)
    | false => exact .failed rfl (gives_reason halt)
  | ok output => exact .passed output

/-! ## How a test ends -/

variable (test : TestProcedure) (base : Path) (root : Option Path) (temporary : Temporary)

/-- How the run of a test in a sandbox ends, and what it leaves of the sandbox. -/
inductive Ends (d : Disk) : Except Failure TestOutcome × Disk → Prop
  /-- There is no sandbox to run it in. -/
  | notMade {f : Disk.TemporaryFailure} {made : Disk} :
    make root temporary "kiln-test-" d = (.error f, made) →
      Ends d (.error (.notMade f.message), made)
  /-- The path of the sandbox leads nowhere when the test is done. -/
  | vanished {p : Path} {made left after : Disk} {result : Except Halt String} {cause : Cause} :
    make root temporary "kiln-test-" d = (.ok p, made) → test.run ⟨p, base⟩ made = (result, left) →
      (∀ q, ¬left.LeadsTo p q) → (∀ q, ¬after.LeadsTo p q) →
      Ends d (.error (.notRemoved p cause), after)
  /-- The sandbox is still where the test left it. -/
  | stayed {p : Path} {q : Place} {made left after : Disk} {result : Except Halt String}
    {cause : Cause} :
    make root temporary "kiln-test-" d = (.ok p, made) → test.run ⟨p, base⟩ made = (result, left) →
      left.LeadsTo p q → after.entryAt? q ≠ none → Ends d (.error (.notRemoved p cause), after)
  /-- The sandbox is gone, and it is told how the test ended. -/
  | removed {p : Path} {q : Place} {made left after : Disk} {result : Except Halt String}
    {outcome : TestOutcome} :
    make root temporary "kiln-test-" d = (.ok p, made) → test.run ⟨p, base⟩ made = (result, left) →
      left.LeadsTo p q → (∀ r, ¬after.LeadsTo p r) → Tells test.stub result outcome →
      Ends d (.ok outcome, after)

/-- Every test ends in one of these ways, whatever it does to the disk. -/
theorem ends_of_run (d : Disk) :
    Ends test base root temporary d (run test base root temporary d) := by
  unfold run runBy
  rw [bind_apply]
  dsimp only [id]
  rcases hmake : make root temporary "kiln-test-" d with ⟨f | p, made⟩
  · exact .notMade hmake
  · dsimp only
    rw [bind_apply]
    rcases hrun : test.run ⟨p, base⟩ made with ⟨result, left⟩
    dsimp only
    rw [bind_apply]
    rcases hremove : remove p left with ⟨failure | u, after⟩
    · obtain ⟨⟨cause, rfl⟩, hstays⟩ := stays_of_remove hremove
      by_cases hthere : ∃ q, left.LeadsTo p q
      · obtain ⟨q, hq⟩ := hthere
        exact .stayed hmake hrun hq (hstays q hq)
      · have hnowhere : ∀ q, ¬left.LeadsTo p q := not_exists.1 hthere
        have hafter := not_leadsTo_of_remove hnowhere
        rw [hremove] at hafter
        exact .vanished hmake hrun hnowhere hafter
    · obtain ⟨⟨q, hq⟩, hgone⟩ := gone_of_remove hremove
      exact .removed hmake hrun hq hgone (tells_outcomeOf test.stub result)

/-- A test that removes its own directory, and passes. -/
def removesItself : TestProcedure where
  run context := do
    let _ ← (Disk.removeTree context.workdir).run
    pure (.ok "done")

/-- A test that passed fails for its sandbox, though the sandbox was made and nothing is left of
it. -/
theorem fails_without_sandbox :
    (make none (.numbered ⟨"/"⟩) "kiln-test-" {}).1 = .ok ⟨"/kiln-test-000000"⟩ ∧
      (run removesItself ⟨"/prefix"⟩ none (.numbered ⟨"/"⟩) {}).1 =
        .error (.notRemoved ⟨"/kiln-test-000000"⟩ .notFound) ∧
      ∀ q, ¬(run removesItself ⟨"/prefix"⟩ none (.numbered ⟨"/"⟩) {}).2.LeadsTo
        ⟨"/kiln-test-000000"⟩ q := by
  have hfound : (run removesItself ⟨"/prefix"⟩ none (.numbered ⟨"/"⟩) {}).2.freed.found false
      ⟨"/kiln-test-000000"⟩ = .error .notFound := by
    decide +kernel
  refine ⟨by decide +kernel, by decide +kernel, fun q hq => ?_⟩
  obtain ⟨e, he⟩ := hq
  cases hfound.symm.trans he

end Sandbox

end Formulary
