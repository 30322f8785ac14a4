import Formulary.Proofs.Cook.FirstSteps
import Formulary.Proofs.Disk.Clearing

/-!
# What becomes of the build directory

A cook that does not keep its build directory removes it once, at its end or as soon as the source
cannot be unpacked (`Cook.disk_run`). That is one removal by the path, without a second one on
unlocked directories as for a sandbox. So the directory goes exactly if the path still leads to it
and the process may take away all that was left in it (`Cook.build_directory_cleared`). A build that
leaves a directory without write permission leaves the build directory for good, unless the
superuser cooks (`Cook.build_directory_left`).
-/

namespace Formulary

/-- What one removal of what a path leads to makes of a disk without faults. -/
structure Disk.ClearedOnce (p : Path) (d d' : Disk) : Prop where
  /-- Nothing else goes. -/
  pruned : Pruned (d.IsUnder p) d d'
  /-- A directory or a link goes exactly if it may be taken away. -/
  gone : ∀ q e, d.found false p = .ok (q, e) → (∀ n, e ≠ .file n) →
    (d'.entryAt? q = none ↔ d.MayClear q)
  /-- Where the path leads to no directory and to no link, everything stays. -/
  missed : (∀ q e, d.found false p = .ok (q, e) → ∃ n, e = .file n) → d' = d

theorem Disk.clearedOnce {d : Disk} (hfaults : d.faults = []) (p : Path) :
    ClearedOnce p d ((removeTree p).run d).2 where
  pruned := pruned_removeTree p d
  gone q e hf he := by
    have hleads := leadsTo_of_found hf
    rw [← removeTree_eq_ok_iff hfaults hf he]
    rcases hrun : (removeTree p).run d with ⟨cause | u, d'⟩
    · have hkept : d'.entryAt? q = d.entryAt? q := (entryAt?_of_removeTree hrun).2 q hleads
      exact iff_of_false (fun hnone => hleads.ne_none (hkept.symm.trans hnone)) nofun
    · have hgone : d'.entryAt? q = none := (entryAt?_of_removeTree hrun).2 q hleads
      exact iff_of_true hgone rfl
  missed hno := by
    cases hf : d.found false p with
    | error cause => rw [run_removeTree_of_error hfaults hf]
    | ok found =>
      obtain ⟨q, e⟩ := found
      obtain ⟨n, rfl⟩ := hno q e hf
      unfold removeTree
      rw [run_bind, run_lookUp_of_faults hfaults, hf]
      rfl

namespace Cook

variable {k : Kitchen} {f : Formula}

/-! ## Which steps leave the build directory alone -/

theorem overlooks_directory : Overlooks buildDirectory := ⟨fun _ _ => rfl, fun _ _ _ => rfl⟩

theorem keeps_directory_fetchOnly (k : Kitchen) (f : Formula) :
    Keeps buildDirectory (fetchOnly k f) :=
  (keeps_prepare (fun _ _ => rfl) (fun _ _ _ _ _ => rfl) k f).bind fun _ =>
    overlooks_directory.keeps_fetchSource (fun _ _ => rfl) k f

theorem keeps_directory_resolveFlags (k : Kitchen) (f : Formula) (tree : SourceTree) :
    Keeps buildDirectory (resolveFlags k f tree) :=
  overlooks_directory.keeps_resolveFlags (fun _ _ _ => rfl) k f tree

theorem keeps_directory_fromContext (k : Kitchen) (install : InstallProcedure)
    (test : Option TestProcedure) (context : BuildContext) :
    Keeps buildDirectory (fromContext k install test context) := by
  refine (overlooks_directory.keeps_build (fun _ _ => rfl) _ _).bind fun _ =>
    (overlooks_directory.keeps_installArtifacts (fun _ _ _ => rfl) _ _).bind fun _ => ?_
  cases test with
  | none => exact overlooks_directory.keeps_enter _
  | some test =>
    exact (overlooks_directory.keeps_runTest (fun _ _ => rfl) k test _).bind fun _ =>
      overlooks_directory.keeps_enter _

/-! ## The directory from its making to its removal -/

/-- A cook makes a build directory at a path. The two disks are the one on which it was just made
and the one on which it is given up, when the source cannot be unpacked or else after the phases. -/
inductive Occupies (k : Kitchen) (f : Formula) (install : InstallProcedure)
    (test : Option TestProcedure) (begun : Cook) : Path → Disk → Disk → Prop
  | refused {archive : Verified} {c : Cook} {p : Path} {made left : Disk}
    {failure : Extraction.Failure} :
    (fetchOnly k f).run begun = (.ok archive, c) →
      Sandbox.make k.config.buildRoot k.temporary "kiln-build-" c.world.disk = (.ok p, made) →
      (Extraction.run archive (p.join "source")).run made = (.error failure, left) →
      Occupies k f install test begun p made left
  | unpacked {archive : Verified} {c : Cook} {p : Path} {made now : Disk} {tree : SourceTree} :
    (fetchOnly k f).run begun = (.ok archive, c) →
      Sandbox.make k.config.buildRoot k.temporary "kiln-build-" c.world.disk = (.ok p, made) →
      (Extraction.run archive (p.join "source")).run made = (.ok tree, now) →
      Occupies k f install test begun p made ((phases k f install test).run begun).2.world.disk

theorem run_fetchOnly_ok {archive : Verified} {c c₁ c₂ : Cook}
    (hprepare : (prepare k f).run c = (.ok (), c₁))
    (hfetch : (fetchSource k f).run c₁ = (.ok archive, c₂)) :
    (fetchOnly k f).run c = (.ok archive, c₂) := by
  unfold fetchOnly
  rw [run_bind, hprepare]
  exact hfetch

/-- Without a test the phases leave the disk as the installation does. -/
theorem Occupies.of_installOnly {install : InstallProcedure} {archive : Verified}
    {begun c c' : Cook} {context : BuildContext} {p : Path} {made now left : Disk}
    {tree : SourceTree} (hfetch : (fetchOnly k f).run begun = (.ok archive, c))
    (hmake : Sandbox.make k.config.buildRoot k.temporary "kiln-build-" c.world.disk = (.ok p, made))
    (hunpack : (Extraction.run archive (p.join "source")).run made = (.ok tree, now))
    (hinstall : (installOnly k f install).run begun = (.ok context, c'))
    (hleft : c'.world.disk = left) : Occupies k f install none begun p made left := by
  have hphases : ((phases k f install none).run begun).2.world.disk = left := by
    unfold phases
    rw [run_bind, hinstall]
    exact hleft
  rw [← hphases]
  exact .unpacked hfetch hmake hunpack

/-- When the source cannot be unpacked, its directory is removed at once. -/
theorem run_unpackSource_error {archive : Verified} {c : Cook} {p : Path}
    {failure : Extraction.Failure} {made left : Disk}
    (hmake : Sandbox.make k.config.buildRoot k.temporary "kiln-build-" c.world.disk = (.ok p, made))
    (hunpack : (Extraction.run archive (p.join "source")).run made = (.error failure, left)) :
    ∃ c', (unpackSource k archive).run c = (.error failure.toError, c') ∧
      c'.world.disk = ((Disk.removeTree p).run left).2 ∧ c'.buildDirectory = c.buildDirectory := by
  unfold unpackSource
  rw [run_bind, run_enter]
  dsimp only
  rw [run_bind, run_onDisk]
  dsimp only
  rw [hmake]
  dsimp only
  rw [run_bind, run_inWorld]
  unfold World.call
  dsimp only
  rw [hunpack]
  exact ⟨_, rfl, rfl, rfl⟩

/-- Once it holds the source, a build directory is that of the cook until the phases have ended. -/
theorem buildDirectory_fromSource (install : InstallProcedure) (test : Option TestProcedure)
    {archive : Verified} {c : Cook} {p : Path} {tree : SourceTree} {made now : Disk}
    (hmake : Sandbox.make k.config.buildRoot k.temporary "kiln-build-" c.world.disk = (.ok p, made))
    (hunpack : (Extraction.run archive (p.join "source")).run made = (.ok tree, now)) :
    ((fromSource k f install test archive).run c).2.buildDirectory = some p := by
  obtain ⟨c', hrun, -, hdirectory⟩ := run_unpackSource_ok hmake hunpack
  unfold fromSource
  rw [run_bind, hrun]
  refine Eq.trans ?_ hdirectory
  exact (keeps_directory_resolveFlags k f tree).bind (fun _ => keeps_get.bind fun _ =>
    keeps_directory_fromContext k install test _) c'

/-- To close the report of a cook that keeps no build directory is to remove it once. -/
theorem disk_finish (hkeep : k.config.keepBuildDirectory = false) (c : Cook) :
    (finish k c).2.world.disk = match c.buildDirectory with
      | none => c.world.disk
      | some p => ((Disk.removeTree p).run c.world.disk).2 := by
  unfold finish
  rw [hkeep]
  show (cleanUp c).2.world.disk = _
  unfold cleanUp
  rw [modify_apply]
  cases c.buildDirectory <;> rfl

theorem disk_run (hkeep : k.config.keepBuildDirectory = false) (install : InstallProcedure)
    (test : Option TestProcedure) (c : Cook) :
    let left := ((phases k f install test).run c).2
    (run k f install test c).2.world.disk = match left.buildDirectory with
      | none => left.world.disk
      | some p => ((Disk.removeTree p).run left.world.disk).2 := by
  rw [run_eq]
  rcases (phases k f install test).run c with ⟨e | u, c'⟩
  · exact disk_finish hkeep (halt e c').2
  · exact disk_finish hkeep c'

/-- The build directory is removed once, on the disk on which it is given up. -/
theorem Occupies.disk_run {install : InstallProcedure} {test : Option TestProcedure} {begun : Cook}
    {p : Path} {made left : Disk} (h : Occupies k f install test begun p made left)
    (hkeep : k.config.keepBuildDirectory = false) (hnone : begun.buildDirectory = none) :
    (run k f install test begun).2.world.disk = ((Disk.removeTree p).run left).2 := by
  have hfirst := keeps_directory_fetchOnly k f begun
  cases h with
  | @refused archive c _ _ _ failure hfetch hmake hunpack =>
    obtain ⟨c', hrun, hdisk, hdirectory⟩ := run_unpackSource_error hmake hunpack
    have hphases : (phases k f install test).run begun = (.error failure.toError, c') := by
      rw [phases_eq_fetchOnly, run_bind, hfetch]
      unfold fromSource
      dsimp only
      rw [run_bind, hrun]
    rw [hfetch] at hfirst
    rw [Cook.disk_run hkeep, hphases]
    dsimp only
    rw [hdirectory, hfirst.trans hnone]
    exact hdisk
  | @unpacked archive c _ _ now tree hfetch hmake hunpack =>
    have hdirectory : ((phases k f install test).run begun).2.buildDirectory = some p := by
      rw [phases_eq_fetchOnly, run_bind, hfetch]
      exact buildDirectory_fromSource install test hmake hunpack
    rw [Cook.disk_run hkeep, hdirectory]

theorem Occupies.disk_cookWith {install : InstallProcedure} {test : Option TestProcedure}
    {base : Path} {w : World} {p : Path} {made left : Disk}
    (h : Occupies k f install test (start k f base test.isSome w) p made left)
    (hkeep : k.config.keepBuildDirectory = false) :
    (k.cookWith f install test base w).2.disk = ((Disk.removeTree p).run left).2 :=
  h.disk_run hkeep rfl

/-- If no build directory is to be kept, then the one that a cook makes is removed once, however the
cook ends. It goes exactly if its path still leads to it and all that is in it may be taken away. -/
theorem build_directory_cleared (hkeep : k.config.keepBuildDirectory = false)
    (install : InstallProcedure) (test : Option TestProcedure) (base : Path) (w : World) (p : Path)
    (made left : Disk) (h : Occupies k f install test (start k f base test.isSome w) p made left)
    (hfaults : left.faults = []) :
    Disk.ClearedOnce p left (k.cookWith f install test base w).2.disk := by
  rw [h.disk_cookWith hkeep]
  exact Disk.clearedOnce hfaults p

/-! ## A build that leaves a locked directory -/

namespace Narrow

/-- A build that leaves a file in a directory without write permission. -/
def lockUp (cache : Path) : StateM Disk (Except Error String) := do
  let _ ← (do
    Disk.makeDirectory cache
    Disk.write (cache.join "module") .empty
    Disk.setMode cache 0o555 : DiskM Unit).run
  pure (.ok "")

def locking : InstallProcedure where
  build context := lockUp (context.tree.join "cache")
  artifacts _ := []

/-- An empty disk, for the superuser or for anyone else. -/
def emptyFor (superuser : Bool) : Disk := { superuser }

def madeFor (superuser : Bool) : Except Disk.TemporaryFailure Path × Disk :=
  Sandbox.make none (.numbered ⟨"/"⟩) "kiln-build-" (emptyFor superuser)

def unpackedFor (superuser : Bool) : Except Extraction.Failure SourceTree × Disk :=
  (Extraction.unpackContents contents tree.directory).run (madeFor superuser).2

def lookedAtFor (superuser : Bool) : Bool × Disk :=
  Disk.isDirectory tree.root (Disk.countFiles tree.root (unpackedFor superuser).2).2

/-- The disk that the build leaves. -/
def lockedFor (superuser : Bool) : Except Error String × Disk :=
  lockUp (tree.root.join "cache") (lookedAtFor superuser).2

/-- The build directory is there, and in it one that is locked and not empty. -/
structure Locked (d : Disk) : Prop where
  top : d.entryAt? ["kiln-build-000000"] = some (.directory 0o755)
  source : d.entryAt? ["kiln-build-000000", "source"] = some (.directory 0o755)
  cache : d.entryAt? ["kiln-build-000000", "source", "cache"] = some (.directory 0o555)
  inside : d.entryAt? ["kiln-build-000000", "source", "cache", "module"] ≠ none

theorem Locked.not_mayClear {d : Disk} (h : Locked d) (hsuperuser : d.superuser = false) :
    ¬d.MayClear ["kiln-build-000000"] := by
  have hsource : d.Reaches ["kiln-build-000000"] ["kiln-build-000000", "source"] :=
    .child .here h.top (by simp [h.source])
  have hcache : d.Reaches ["kiln-build-000000"] ["kiln-build-000000", "source", "cache"] :=
    .child hsource h.source (by simp [h.cache])
  refine Disk.not_mayClear hcache h.cache h.inside ?_
  unfold Disk.directoryPermits Disk.permits
  rw [h.cache, hsuperuser]
  rfl

/-- One removal leaves the build directory there. -/
theorem Locked.entryAt?_removeTree {d : Disk} (h : Locked d) (hsuperuser : d.superuser = false)
    (hfaults : d.faults = []) {mode : Nat}
    (hf : d.found false ⟨"/kiln-build-000000"⟩ = .ok (["kiln-build-000000"], .directory mode)) :
    ((Disk.removeTree ⟨"/kiln-build-000000"⟩).run d).2.entryAt? ["kiln-build-000000"] ≠ none :=
  fun hgone => h.not_mayClear hsuperuser
    (((Disk.clearedOnce hfaults ⟨"/kiln-build-000000"⟩).gone _ _ hf nofun).1 hgone)

theorem madeFor_fst (superuser : Bool) : (madeFor superuser).1 = .ok ⟨"/kiln-build-000000"⟩ := by
  cases superuser <;> decide +kernel

theorem unpackedFor_fst (superuser : Bool) : (unpackedFor superuser).1 = .ok tree := by
  cases superuser <;> decide +kernel

theorem lookedAtFor_fst (superuser : Bool) : (lookedAtFor superuser).1 = true := by
  cases superuser <;> decide +kernel

theorem lockedFor_eq (superuser : Bool) :
    (lockedFor superuser).1 = .ok "" ∧ (lockedFor superuser).2.faults = [] ∧
      (lockedFor superuser).2.superuser = superuser ∧
      (lockedFor superuser).2.found false ⟨"/kiln-build-000000"⟩ =
        .ok (["kiln-build-000000"], .directory 0o755) := by
  cases superuser <;> decide +kernel

theorem locked_lockedFor : Locked (lockedFor false).2 := by
  have h : (lockedFor false).2.entryAt? ["kiln-build-000000"] = some (.directory 0o755) ∧
      (lockedFor false).2.entryAt? ["kiln-build-000000", "source"] = some (.directory 0o755) ∧
      (lockedFor false).2.entryAt? ["kiln-build-000000", "source", "cache"] =
        some (.directory 0o555) ∧
      (lockedFor false).2.entryAt? ["kiln-build-000000", "source", "cache", "module"] ≠ none := by
    decide +kernel
  exact ⟨h.1, h.2.1, h.2.2.1, h.2.2.2⟩

/-- A cook with that build makes a build directory, and leaves the disk as the build does. -/
theorem occupies_locking (superuser : Bool) :
    Occupies kitchen formula locking none (start kitchen formula ⟨"/prefix"⟩ false
      ⟨emptyFor superuser, []⟩) ⟨"/kiln-build-000000"⟩ (madeFor superuser).2
      (lockedFor superuser).2 := by
  obtain ⟨warnings, hvalid⟩ := validate_formula
  have hbase : (Path.mk "/prefix").absolute? (emptyFor superuser).workdir = some ⟨"/prefix"⟩ := rfl
  have habsolute : (Path.mk "/prefix").isAbsolute = true := by decide
  obtain ⟨c₁, hprepare, hworld⟩ : ∃ c, (prepare kitchen formula).run
      (start kitchen formula ⟨"/prefix"⟩ false ⟨emptyFor superuser, []⟩) = (.ok (), c) ∧
        c.world = ⟨emptyFor superuser, []⟩ :=
    run_prepare_ok hbase habsolute hvalid rfl rfl
  obtain ⟨c₂, hfetch, hd₂⟩ := run_fetchSource_ok (k := kitchen) (c := c₁) rfl rfl parse_formula
  rw [hworld] at hd₂
  have hmake : Sandbox.make kitchen.config.buildRoot kitchen.temporary "kiln-build-"
      c₂.world.disk = (.ok ⟨"/kiln-build-000000"⟩, (madeFor superuser).2) := by
    rw [hd₂]
    show madeFor superuser = _
    exact Prod.ext (madeFor_fst superuser) rfl
  have hunpack : (Extraction.run archive ((Path.mk "/kiln-build-000000").join "source")).run
      (madeFor superuser).2 = (.ok tree, (unpackedFor superuser).2) := by
    rw [run_extraction]
    show unpackedFor superuser = _
    exact Prod.ext (unpackedFor_fst superuser) rfl
  obtain ⟨c₃, hsource, hd₃, -⟩ := run_unpackSource_ok hmake hunpack
  obtain ⟨⟨vars, flags⟩, c₄, hresolve, hd₄⟩ : ∃ p c, (resolveFlags kitchen formula tree).run c₃ =
      (.ok p, c) ∧ c.world.disk = c₃.world.disk := ⟨_, _, rfl, rfl⟩
  have hlook : Disk.isDirectory (contextOf kitchen formula tree vars flags c₄.report).workdir
      c₄.world.disk = (true, (lookedAtFor superuser).2) := by
    rw [hd₄, hd₃]
    show lookedAtFor superuser = _
    exact Prod.ext (lookedAtFor_fst superuser) rfl
  have hbuilt : locking.build (contextOf kitchen formula tree vars flags c₄.report)
      (lookedAtFor superuser).2 = (.ok "", (lockedFor superuser).2) := by
    show lockedFor superuser = _
    exact Prod.ext (lockedFor_eq superuser).1 rfl
  obtain ⟨c₅, hbuild, hd₅⟩ := run_build_ok hlook hbuilt
  obtain ⟨c₆, hinstall, hd₆⟩ : ∃ c₆, (installArtifacts locking
      (contextOf kitchen formula tree vars flags c₄.report)).run c₅ = (.ok (), c₆) ∧
        c₆.world.disk = c₅.world.disk := run_installArtifacts_ok rfl
  exact .of_installOnly (run_fetchOnly_ok hprepare hfetch) hmake hunpack
    (run_installOnly_ok hprepare hfetch hsource hresolve hbuild hinstall) (hd₆.trans hd₅)

end Narrow

/-- For the superuser the directory goes. -/
theorem build_directory_of_superuser :
    Narrow.kitchen.config.keepBuildDirectory = false ∧
      (Narrow.kitchen.cookWith Narrow.formula Narrow.locking none ⟨"/prefix"⟩
        ⟨Narrow.emptyFor true, []⟩).2.disk.entryAt? ["kiln-build-000000"] = none := by
  obtain ⟨-, hfaults, hsuperuser, hfound⟩ := Narrow.lockedFor_eq true
  have hcleared := build_directory_cleared (k := Narrow.kitchen) rfl Narrow.locking none ⟨"/prefix"⟩
    ⟨Narrow.emptyFor true, []⟩ _ _ _ (Narrow.occupies_locking true) hfaults
  exact ⟨rfl, (hcleared.gone _ _ hfound nofun).2
    (Disk.mayClear_of_superuser hsuperuser (List.cons_ne_nil _ _))⟩

/-- For anyone else a directory without write permission keeps the build directory there. -/
theorem build_directory_left :
    Narrow.kitchen.config.keepBuildDirectory = false ∧
      (Narrow.emptyFor false).entryAt? ["kiln-build-000000"] = none ∧
      (Narrow.kitchen.cookWith Narrow.formula Narrow.locking none ⟨"/prefix"⟩
        ⟨Narrow.emptyFor false, []⟩).2.disk.entryAt? ["kiln-build-000000"] ≠ none := by
  obtain ⟨-, hfaults, hsuperuser, hfound⟩ := Narrow.lockedFor_eq false
  refine ⟨rfl, rfl, ?_⟩
  rw [(Narrow.occupies_locking false).disk_cookWith rfl]
  exact Narrow.locked_lockedFor.entryAt?_removeTree hsuperuser hfaults hfound

end Cook

end Formulary
