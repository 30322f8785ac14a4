import Formulary.Kitchen
import Formulary.Proofs.Cache.Retrieve
import Formulary.Proofs.Cook.Evidence
import Formulary.Proofs.Variables

/-!
# How a cook may fail

A cook fails in each phase only with the few kinds of failure that belong to it (`Phase.failures`),
when the host is known and those that a kitchen calls on keep to theirs (`Kitchen.Orderly`). The
kind of a failed test is its alone, and so a report says that the formula was installed, but that
its test did not pass, exactly when that is so (`Cook.failures_by_phase`).
-/

namespace Formulary

/-! ## Kinds of failure -/

/-- The kinds of failure that there are in a phase. -/
def Phase.failures : Phase → List Error.Kind
  | .init => [.install, .parse, .template, .dependency]
  | .fetching => [.fetch, .integrity]
  | .verifying => [.extraction]
  | .resolving => [.resolve, .template]
  | .building => [.build]
  | .installing => [.install]
  | .testing => [.test]
  | .done => []

/-- Only in the phase of the test there is a failed test, and nothing else. -/
theorem Phase.eq_test_iff {p : Phase} {kind : Error.Kind} (h : kind ∈ p.failures) :
    kind = .test ↔ p = .testing := by
  constructor
  · rintro rfl
    revert h
    cases p <;> decide
  · rintro rfl
    exact List.mem_singleton.1 h

/-- The host is known, and those that a kitchen calls on fail only in their own way. -/
structure Kitchen.Orderly (k : Kitchen) : Prop where
  host (d : Disk) : ∃ host, (k.host d).1 = .ok host
  fetcher (url : String) (d : Disk) (e : Error) : (k.fetcher url d).1 = .error e → e.kind = .fetch
  probe (asked : List Dependency) (d : Disk) (e : Error) :
    (k.probe asked d).1 = .error e → e.kind = .dependency

theorem Formula.Defect.kind_toError (d : Defect) :
    d.toError.kind = .parse ∨ d.toError.kind = .template := by
  cases d with
  | unknownVariable => exact .inr rfl
  | _ => exact .inl rfl

theorem HostCheck.Refusal.kind_toError (refusal : Refusal) :
    refusal.toError.kind = .parse ∨ refusal.toError.kind = .dependency := by
  cases refusal with
  | condition cause => cases cause <;> exact .inl rfl
  | tooOld => exact .inr rfl

theorem Probe.kind_of_run {probe : Probe} {ds : List Dependency} {check : HostCheck} {w : World}
    {e : Error} (hprobe : ∀ asked d e, (probe asked d).1 = .error e → e.kind = .dependency)
    (h : (Probe.run probe ds check w).1 = .error e) : e.kind = .dependency := by
  unfold Probe.run at h
  split at h
  · exact absurd h nofun
  · change ((probe (wanted ds check) w.disk).1 >>= judge) = .error e at h
    cases hanswer : (probe (wanted ds check) w.disk).1 with
    | error e' =>
      rw [hanswer] at h
      obtain rfl := Except.error.inj h
      exact hprobe _ _ _ hanswer
    | ok missing =>
      rw [hanswer, ok_bind] at h
      unfold judge at h
      split at h
      · exact absurd h nofun
      · obtain rfl := Except.error.inj h
        rfl

theorem Verified.kind_of_check {bytes : ByteArray} {declared : String} {e : Error}
    (h : check bytes declared = .error e) : e.kind = .integrity := by
  unfold check at h
  split at h
  · obtain rfl := Except.error.inj h
    rfl
  · split at h
    · cases h
    · obtain rfl := Except.error.inj h
      rfl

theorem Flags.Refusal.kind_toError (refusal : Refusal) : refusal.toError.kind = .template := by
  cases refusal <;> rfl

theorem Sandbox.Failure.kind_toError (failure : Failure) : failure.toError.kind = .test := by
  cases failure <;> rfl

/-- A build by a command fails as a build. -/
theorem CommandBuild.kind_of_build {m : Machine} {f : Formula} {context : BuildContext} {d : Disk}
    {e : Error} (h : (build m f context d).1 = .error e) : e.kind = .build := by
  unfold build at h
  cases hargv : argv f context with
  | nil =>
    rw [hargv] at h
    obtain rfl := Except.error.inj h
    rfl
  | cons program arguments =>
    rw [hargv] at h
    dsimp only at h
    rw [bind_apply] at h
    generalize m.launch _ d = launched at h
    obtain ⟨cause | done, d'⟩ := launched
    · obtain rfl := Except.error.inj h
      rfl
    · dsimp only at h
      split at h
      · exact absurd h nofun
      · obtain rfl := Except.error.inj h
        rfl

namespace Cook

variable {α : Type} {k : Kitchen} {f : Formula}

/-! ## The phases -/

theorem kinds_fixBase : Tells (fun _ => True) fixBase (fun _ _ => True)
    (fun e _ => e.kind ∈ Phase.init.failures) := by
  have hinstall : Error.Kind.install ∈ Phase.init.failures := by decide
  refine tells_get.bind fun c => ?_
  dsimp only
  split
  · exact tells_throw fun _ _ => hinstall
  · split
    · exact tells_record_any _
    · exact tells_throw fun _ _ => hinstall

theorem kinds_checkHost (hk : k.Orderly) (needed : Classified) {before : Report → Prop} :
    Tells before (checkHost k needed) (fun _ _ => True)
      (fun e _ => e.kind ∈ Phase.init.failures) := by
  unfold checkHost
  split
  · exact tells_pure fun _ _ => trivial
  · refine (tells_inWorld _).bind fun answer => ?_
    refine (tells_orHalt fun e r he hr => ?_).bind fun host => ?_
    · obtain ⟨⟨w, hw⟩, -⟩ := hr
      obtain ⟨host, hhost⟩ := hk.host w.disk
      exact absurd ((hw.trans he).symm.trans hhost) nofun
    · refine (tells_orHalt fun refusal r _ _ => ?_).mono fun _ _ _ => trivial
      rcases refusal.kind_toError with h | h <;> rw [h] <;> decide

theorem kinds_prepare (hk : k.Orderly) (f : Formula) : Tells (fun _ => True) (prepare k f)
    (fun _ _ => True) (fun e _ => e.kind ∈ Phase.init.failures) := by
  refine kinds_fixBase.bind fun _ => ?_
  refine (tells_orHalt fun defect r _ _ => ?_).bind fun warnings => ?_
  · rcases defect.kind_toError with h | h <;> rw [h] <;> decide
  refine (tells_record_any _).bind fun _ => ?_
  refine (tells_record_any _).bind fun _ => ?_
  refine (kinds_checkHost hk _).bind fun check => ?_
  split
  · refine (tells_inWorld _).bind fun answer => ?_
    refine (tells_orHalt fun e r he hr => ?_).bind fun _ => tells_record_any _
    obtain ⟨⟨w, hw⟩, -⟩ := hr
    rw [id, Probe.kind_of_run hk.probe (hw.trans he)]
    decide
  · exact tells_record_any _

theorem kinds_fetchSource (hk : k.Orderly) (f : Formula) : Tells (fun _ => True) (fetchSource k f)
    (fun _ _ => True) (fun e _ => e.kind ∈ Phase.fetching.failures) := by
  refine (tells_enter _).bind fun _ => (tells_inWorld _).bind fun answer => ?_
  refine (tells_orHalt fun e r he hr => ?_).bind fun archive =>
    (tells_record_any _).bind fun _ => tells_pure fun _ _ => trivial
  obtain ⟨⟨w, hw⟩, -⟩ := hr
  obtain ⟨d, -, hrefused | ⟨bytes, hcheck⟩⟩ :=
    Cache.missed_of_retrieve (Prod.ext (hw.trans he) rfl)
  · rw [id, hk.fetcher _ _ _ hrefused]
    decide
  · rw [id, Verified.kind_of_check hcheck]
    decide

theorem kinds_unpackSource (k : Kitchen) (archive : Verified) :
    Tells (fun _ => True) (unpackSource k archive) (fun _ _ => True)
      (fun e _ => e.kind ∈ Phase.verifying.failures) := by
  have hextraction : Error.Kind.extraction ∈ Phase.verifying.failures := by decide
  refine (tells_enter _).bind fun _ => (tells_inWorld _).bind fun made => ?_
  cases made with
  | error f => exact tells_throw fun _ _ => hextraction
  | ok p =>
    refine (tells_inWorld _).bind fun unpacked => ?_
    cases unpacked with
    | error f => exact (tells_inWorld _).bind fun _ => tells_throw fun _ _ => hextraction
    | ok tree =>
      exact (tells_inWorld _).bind fun files =>
        (tells_record_any _).bind fun _ =>
        (tells_record_any _).bind fun _ =>
        (tells_buildDirectory p).bind fun _ => tells_pure fun _ _ => trivial

theorem kinds_resolveFlags (k : Kitchen) (f : Formula) (tree : SourceTree) :
    Tells (fun _ => True) (resolveFlags k f tree) (fun _ _ => True)
      (fun e _ => e.kind ∈ Phase.resolving.failures) := by
  refine (tells_enter _).bind fun _ => (tells_inWorld _).bind fun answer => ?_
  refine (tells_orHalt fun u r _ _ => ?_).bind fun vars => ?_
  · rw [u.kind_toError]
    decide
  refine (tells_record_any _).bind fun _ => ?_
  refine (tells_orHalt fun refusal r _ _ => ?_).bind fun flags =>
    (tells_record_any _).bind fun _ => tells_pure fun _ _ => trivial
  rw [refusal.kind_toError]
  decide

theorem kinds_build (m : Machine) (f : Formula) (context : BuildContext) :
    Tells (fun _ => True) (build (CommandBuild.procedure m f) context) (fun _ _ => True)
      (fun e _ => e.kind ∈ Phase.building.failures) := by
  have hbuild : Error.Kind.build ∈ Phase.building.failures := by decide
  refine (tells_enter _).bind fun _ => (tells_inWorld _).bind fun there => ?_
  split
  · refine (tells_inWorld _).bind fun answer => ?_
    refine (tells_orHalt fun e r he hr => ?_).bind fun log => tells_record_any _
    obtain ⟨⟨w, hw⟩, -⟩ := hr
    rwa [id, CommandBuild.kind_of_build (hw.trans he)]
  · exact tells_throw fun _ _ => hbuild

theorem kinds_installArtifacts (install : InstallProcedure) (context : BuildContext) :
    Tells (fun _ => True) (installArtifacts install context) (fun _ _ => True)
      (fun e _ => e.kind ∈ Phase.installing.failures) := by
  have hinstall : Error.Kind.install ∈ Phase.installing.failures := by decide
  exact (tells_enter _).bind fun _ => (tells_inWorld _).bind fun answer =>
    (tells_orHalt fun failure r _ _ => hinstall).bind fun installed =>
    (tells_record_any _).bind fun _ => tells_record_any _

theorem kinds_runTest (k : Kitchen) (test : TestProcedure) (base : Path) :
    Tells (fun _ => True) (runTest k test base) (fun _ _ => True)
      (fun e _ => e.kind ∈ Phase.testing.failures) := by
  refine (tells_enter _).bind fun _ => (tells_inWorld _).bind fun answer => ?_
  refine (tells_orHalt fun failure r _ _ => ?_).bind fun outcome => ?_
  · rw [failure.kind_toError]
    decide
  refine (tells_record_any _).bind fun _ => ?_
  refine (tells_orHalt fun e r he _ => ?_).mono fun _ _ _ => trivial
  rw [id, (TestOutcome.of_toResult_eq_error he).2]
  decide

/-! ## The whole cook -/

theorem contract_failures (hk : k.Orderly) (m : Machine) (f : Formula)
    (test : Option TestProcedure) :
    Contract k f (CommandBuild.procedure m f) test (fun _ _ => True)
      (fun p e _ => e.kind ∈ p.failures) where
  prepare := kinds_prepare hk f
  fetch := kinds_fetchSource hk f
  unpack := kinds_unpackSource k
  resolve := kinds_resolveFlags k f
  build _ _ _ _ := kinds_build m f _
  install _ _ _ _ := kinds_installArtifacts _ _
  test t base _ := kinds_runTest k t base

end Cook

/-! ## What the summary says -/

/-- The summary says that the formula was installed, but its test did not pass. -/
def Report.SaysInstalled (r : Report) : Prop :=
  ∃ reason, r.summary = r.title ++ ": installed into " ++ r.base.display ++
    ", but the smoke test did not pass (" ++ reason ++ ")"

/-- A summary that goes on otherwise after the title does not say it. -/
theorem Report.not_saysInstalled {r : Report} {rest : String} (h : r.summary = r.title ++ rest)
    (hrest : rest.toList[2]? ≠ some 'i') : ¬r.SaysInstalled := by
  rintro ⟨reason, hsays⟩
  -- the title may be any text, but it is the same on both sides
  have hlist := congrArg String.toList (h.symm.trans hsays)
  simp only [String.toList_append, List.append_assoc] at hlist
  rw [List.append_cancel_left hlist] at hrest
  exact hrest rfl

/-- Names of kinds are written with a capital. -/
theorem Error.Kind.getElem?_name (kind : Kind) (rest : String) :
    (": " ++ (kind.name ++ rest)).toList[2]? ≠ some 'i' := by
  cases kind <;> simp [name]

theorem Report.saysInstalled_iff {r : Report} :
    r.SaysInstalled ↔ ∃ failure, r.failure = some failure ∧ failure.kind = .test := by
  cases hfailure : r.failure with
  | none =>
    refine iff_of_false ?_ nofun
    cases hsucceeded : r.succeeded with
    | true =>
      have hsummary : r.summary = r.title ++ (": cooked into " ++ r.base.display) := by
        simp [summary, hfailure, hsucceeded, String.append_assoc]
      exact not_saysInstalled hsummary (by simp)
    | false =>
      have hsummary : r.summary = r.title ++ (": halted in " ++ r.state.display) := by
        simp [summary, hfailure, hsucceeded, String.append_assoc]
      exact not_saysInstalled hsummary (by simp)
  | some failure =>
    by_cases hkind : failure.kind = .test
    · refine iff_of_true ⟨failure.message, ?_⟩ ⟨failure, rfl, hkind⟩
      simp [summary, hfailure, hkind]
    · refine iff_of_false ?_ fun ⟨_, h, htest⟩ => hkind (Option.some.inj h ▸ htest)
      have hsummary : r.summary = r.title ++ (": " ++ (failure.kind.name ++
          (" during " ++ failure.phase.name ++ ": " ++ failure.message))) := by
        simp [summary, hfailure, hkind, String.append_assoc]
      exact not_saysInstalled hsummary (failure.kind.getElem?_name _)

namespace Cook

/-- What makes a cook fail is of a kind that its phase has. So a test failed exactly when the cook
failed in the phase of the test, and the summary says that the formula was installed exactly when
the cook failed and there is an installation. -/
theorem failures_by_phase (k : Kitchen) (hk : k.Orderly) (m : Machine) (f : Formula) (base : Path)
    (w : World) :
    let r := (k.cook m f base w).1
    (∀ failure, r.failure = some failure → failure.kind ∈ failure.phase.failures ∧
      (failure.kind = .test ↔ failure.phase = .testing)) ∧
    (r.SaysInstalled ↔ r.installed.isSome = true ∧ r.failure.isSome = true) := by
  intro r
  obtain ⟨p, r', -, hshows, hend⟩ :=
    report_shows k f (CommandBuild.procedure m f) (CommandTest.procedure? m f) base w
  have hkinds : ∀ failure, r.failure = some failure → failure.kind ∈ failure.phase.failures := by
    intro failure hfailure
    rcases (contract_failures hk m f (CommandTest.procedure? m f)).report base w trivial with
      ⟨c, -, -, hnone, -⟩ | ⟨q, e, c, -, hkind, -, hsome, -⟩
    · exact absurd (hnone.symm.trans hfailure) nofun
    · obtain rfl := Option.some.inj (hsome.symm.trans hfailure)
      exact hkind
  refine ⟨fun failure hfailure =>
    ⟨hkinds failure hfailure, Phase.eq_test_iff (hkinds failure hfailure)⟩, ?_⟩
  rw [Report.saysInstalled_iff]
  rcases hend with ⟨-, -, hnone⟩ | ⟨hp, e, -, hsome⟩
  · exact iff_of_false (fun ⟨failure, hsome, _⟩ => absurd (hnone.symm.trans hsome) nofun)
      fun ⟨_, hsome⟩ => by simp [show r.failure = none from hnone] at hsome
  · have htest := Phase.eq_test_iff (hkinds _ hsome)
    constructor
    · rintro ⟨failure, hfailure, hkind⟩
      obtain rfl := Option.some.inj (hsome.symm.trans hfailure)
      obtain rfl : p = .testing := htest.1 hkind
      exact ⟨hshows.installed.2 le_rfl, by rw [show r.failure = _ from hsome]; rfl⟩
    · rintro ⟨hinstalled, -⟩
      have hlate : Phase.testing.index ≤ p.index := hshows.installed.1 hinstalled
      exact ⟨_, hsome, htest.2 ((Phase.testing_le_iff.1 hlate).resolve_right hp)⟩

end Cook

/-! ## The kitchen of a machine -/

theorem Fetcher.kind_of_ofUrl {text : String} {d : Disk} {e : Error}
    (h : (ofUrl text d).1 = .error e) : e.kind = .fetch := by
  unfold ofUrl at h
  cases hurl : Url.parse text with
  | error defect =>
    rw [hurl] at h
    obtain rfl := Except.error.inj h
    rfl
  | ok url =>
    rw [hurl] at h
    dsimp only at h
    split_ifs at h
    · cases hpath : url.filePath? with
      | none =>
        rw [hpath] at h
        obtain rfl := Except.error.inj h
        rfl
      | some p =>
        rw [hpath] at h
        dsimp only at h
        rw [bind_apply] at h
        generalize (Disk.read p).run d = answer at h
        obtain ⟨cause | bytes, d'⟩ := answer
        · obtain rfl := Except.error.inj h
          rfl
        · exact absurd h nofun
    all_goals
      obtain rfl := Except.error.inj h
      rfl

/-- On a machine whose host is known everything fails in its own way. -/
theorem Kitchen.orderly_ofMachine (m : Machine) (config : Config) (host : Host) :
    Orderly { ofMachine m config with host := pure (.ok host) } where
  host _ := ⟨host, rfl⟩
  fetcher _ _ _ := Fetcher.kind_of_ofUrl
  probe _ _ _ h := absurd h nofun

namespace Cook

namespace Network

/-! What follows is a source that lies behind a network. -/

/-- A machine without any program. -/
def machine : Machine := { launch := fun _ => pure (.error .notFound) }

def kitchen : Kitchen :=
  { Kitchen.ofMachine machine {} with host := pure (.ok ⟨"linux", ⟨"6.1"⟩⟩) }

def formula : Formula where
  identity := { name := "hello", version := some "1.0" }
  source := {
    url := "https://example.org/hello-1.0.tar.gz"
    checksum := "sha256:" ++ String.ofList (List.replicate 64 'a') }
  build := { command := ["make"], output := "hello" }
  test := some { commands := [["hello"]] }

theorem failure_cook : (kitchen.cook machine formula ⟨"/prefix"⟩ ⟨{}, []⟩).1.failure =
    some ⟨.fetching, .fetch, "fetch failed: Failed to download " ++ formula.source.url ++
      ": there is no network"⟩ := by
  decide +kernel

end Network

/-- Such a source cannot be fetched, and nothing is said to be installed. -/
theorem failures_by_phase_network :
    let r := (Network.kitchen.cook Network.machine Network.formula ⟨"/prefix"⟩ ⟨{}, []⟩).1
    Network.kitchen.Orderly ∧
      r.failure = some ⟨.fetching, .fetch, "fetch failed: Failed to download " ++
        Network.formula.source.url ++ ": there is no network"⟩ ∧
      Error.Kind.fetch ∈ Phase.fetching.failures ∧ ¬r.SaysInstalled ∧ r.installed = none := by
  intro r
  have horderly : Network.kitchen.Orderly := Kitchen.orderly_ofMachine _ {} _
  have hfailure := Network.failure_cook
  have hsays : ¬r.SaysInstalled := by
    rw [Report.saysInstalled_iff]
    rintro ⟨_, hsome, hkind⟩
    obtain rfl := Option.some.inj (hfailure.symm.trans hsome)
    exact absurd hkind nofun
  obtain ⟨hkinds, hinstalled⟩ :=
    failures_by_phase Network.kitchen horderly Network.machine Network.formula ⟨"/prefix"⟩ ⟨{}, []⟩
  refine ⟨horderly, hfailure, (hkinds _ hfailure).1, hsays, ?_⟩
  exact Option.not_isSome_iff_eq_none.1 fun h => hsays (hinstalled.2 ⟨h, hfailure ▸ rfl⟩)

end Cook

end Formulary
