import Formulary.Proofs.Archive.Mirrored
import Formulary.Proofs.Cook.BuildDirectory
import Formulary.Proofs.Disk.Drawn

/-!
# Build directories of other names

Two runs draw other names for their build directories, and so their messages may tell other paths.
Nothing else can be told apart : as long as nobody else knows the names that are drawn, the source is
unpacked alike (`Cook.exists_unpackOnly`), and the flags are the same (`Cook.exists_renderFlags`). So
to render the flags agrees with a cook up to the name of the build directory (`Cook.partly_agrees`),
and no further (`Cook.draws_told`). Of the same name the same is told (`Kitchen.Retells.eq`).
-/

namespace Formulary

variable {σ : String → String}

/-! ## Build variables -/

/-- Whoever knows the build variables gives the same answers about trees that differ in the names
that are exchanged. -/
structure MetadataSource.BlindTo (σ : String → String) (source : MetadataSource (StateM Disk)) :
    Prop where
  commit : ∀ {tree tree'}, Path.Exchanged σ tree tree' →
    Abreast (Disk.Exchanged σ) Eq (source.commit tree) (source.commit tree')
  branch : ∀ {tree tree'}, Path.Exchanged σ tree tree' →
    Abreast (Disk.Exchanged σ) Eq (source.branch tree) (source.branch tree')
  toolchainVersion : ∀ f {tree tree'}, Path.Exchanged σ tree tree' →
    Abreast (Disk.Exchanged σ) Eq (source.toolchainVersion f tree)
      (source.toolchainVersion f tree')
  now : Abreast (Disk.Exchanged σ) Eq source.now source.now

theorem MetadataSource.blindTo_fixed (known : Metadata) :
    (MetadataSource.fixed known : MetadataSource (StateM Disk)).BlindTo σ where
  commit _ := Abreast.pure rfl
  branch _ := Abreast.pure rfl
  toolchainVersion _ _ _ _ := Abreast.pure rfl
  now := Abreast.pure rfl

/-- The disk of the second world has names of the first one exchanged. -/
def World.Exchanged (σ : String → String) (w w' : World) : Prop :=
  Disk.Exchanged σ w.disk w'.disk

theorem World.abreast_ask {α : Type} {x y : StateM Disk α} (q : Question)
    (h : Abreast (Disk.Exchanged σ) Eq x y) :
    Abreast (World.Exchanged σ) Eq (World.ask q x) (World.ask q y) :=
  fun w w' hw => ⟨(h w.disk w'.disk hw).result, (h w.disk w'.disk hw).state⟩

theorem Variables.abreast_resolve {source : MetadataSource (StateM Disk)}
    (hsource : source.BlindTo σ) (f : Formula) {tree tree' : Path}
    (htree : Path.Exchanged σ tree tree') :
    Abreast (World.Exchanged σ) (Outcomes Eq Eq)
      (resolve (Cook.recorded source) f tree : ExceptT Unresolved WorldM Bindings).run
      (resolve (Cook.recorded source) f tree' : ExceptT Unresolved WorldM Bindings).run := by
  have hversion : Abreast (World.Exchanged σ) (Outcomes Eq Eq)
      (versionOf f : ExceptT Unresolved WorldM String).run (versionOf f).run := by
    unfold versionOf
    split
    · exact Abreast.run_pure rfl
    · exact Abreast.run_throw rfl
  have hcommit : ∀ version, Abreast (World.Exchanged σ) (Outcomes Eq Eq)
      (commitOf (Cook.recorded source) f version tree).run
      (commitOf (Cook.recorded source) f version tree').run := by
    intro version
    have hasked := World.abreast_ask .commit (hsource.commit htree)
    refine (Abreast.run_liftM hasked).run_bind_eq fun found => ?_
    split
    · exact Abreast.run_pure rfl
    · cases hpin : pinnedCommit f version with
      | error e => exact Abreast.run_throw rfl
      | ok commit => exact Abreast.run_pure rfl
  have htoolchain : Abreast (World.Exchanged σ) (Outcomes Eq Eq)
      (toolchainOf (Cook.recorded source) f tree).run
      (toolchainOf (Cook.recorded source) f tree').run := by
    have hasked := World.abreast_ask .toolchain (hsource.toolchainVersion f htree)
    refine (Abreast.run_liftM hasked).run_bind_eq fun found => ?_
    split
    · exact Abreast.run_pure rfl
    · exact Abreast.run_throw rfl
  have hbranch := World.abreast_ask .branch (hsource.branch htree)
  have hnow := World.abreast_ask .time hsource.now
  exact hversion.run_bind_eq fun version => (hcommit version).run_bind_eq fun _ =>
    (Abreast.run_liftM hbranch).run_bind_eq fun _ => htoolchain.run_bind_eq fun _ =>
    (Abreast.run_liftM hnow).run_bind_eq fun _ => Abreast.run_pure rfl

/-! ## Names that nobody knows -/

namespace Kitchen

/-- The kitchen with other names drawn for its temporary directories. -/
def drawing (k : Kitchen) (draw : String → Nat → Token) : Kitchen :=
  { k with temporary := { k.temporary with draw } }

/-- The name for the build directory that is drawn after some others. -/
def buildName (k : Kitchen) (i : Nat) : String :=
  "kiln-build-" ++ (k.temporary.draw "kiln-build-" i).text

/-- The names of build directories exchanged that two kitchens draw at the same time. -/
def exchanging (k : Kitchen) (draw : String → Nat → Token) : Nat → String → String :=
  Disk.drawn "kiln-build-" (k.temporary.draw "kiln-build-") (draw "kiln-build-")

/-- The second message is the first one, told of a build directory with the name that was drawn in
place of that of the first. -/
def Retells (k : Kitchen) (draw : String → Nat → Token) (m m' : String) : Prop :=
  ∃ i, Path.Retold (k.exchanging draw i) m m'

/-- Nobody knows the name when the build directory is made : neither is it on the way there, nor is
it told on the disk, nor in the source. -/
structure Unknown (k : Kitchen) (f : Formula) (w : World) (name : String) : Prop where
  root : ¬Text.Tells (k.config.buildRoot.getD k.temporary.directory).text name
  disk : ∀ archive, (k.fetch f w).1 = .ok archive → (k.fetch f w).2.disk.Ignores name
  members : ∀ archive, (k.fetch f w).1 = .ok archive →
    ∀ m ∈ (Tar.read (Codec.unwrap archive.bytes)).members,
      ¬Text.Tells m.name name ∧ ¬Text.Tells (m.linkName.getD "") name

theorem plain_buildName (k : Kitchen) (i : Nat) : Disk.Plain (k.buildName i) :=
  Token.plain_append _ (by decide) (by decide) (by decide +kernel)

/-- The source is not called like a build directory. -/
theorem source_not_tells (k : Kitchen) (i : Nat) : ¬Text.Tells "source" (k.buildName i) := by
  intro htells
  have hpieces : Text.pieces '/' "source" = ["source"] := by decide
  rw [Text.Tells, hpieces, List.mem_singleton] at htells
  have hlength := congrArg (fun s => s.toList.length) htells
  rw [buildName, String.toList_append, List.length_append, Token.length_toList] at hlength
  exact absurd hlength (by decide)

theorem exchange_exchanging (k : Kitchen) (draw : String → Nat → Token) (i : Nat) :
    Exchange (k.exchanging draw i) := by
  refine exchange_swap (k.plain_buildName i) ((k.drawing draw).plain_buildName i) ?_
  rw [Text.byteLength_append, Text.byteLength_append, Token.byteLength_text,
    Token.byteLength_text]

/-- Where the same names are drawn, the messages are the same. -/
theorem Retells.eq {k : Kitchen} {draw : String → Nat → Token} {m m' : String}
    (hdraw : ∀ i, (k.drawing draw).buildName i = k.buildName i) (h : k.Retells draw m m') :
    m' = m := by
  obtain ⟨i, hm⟩ := h
  refine hm.eq fun s => ?_
  show Equiv.swap (k.buildName i) ((k.drawing draw).buildName i) s = s
  rw [hdraw, Equiv.swap_self, Equiv.refl_apply]

end Kitchen

/-! ## Build directories -/

/-- Fresh directories are made alike, below a directory that is made for both if it is missing. -/
theorem Sandbox.exists_make {root : Option Path} {temporary : Temporary} {stem : String}
    (draw : String → Nat → Token) {d : Disk} {σ : Nat → String → String}
    (hdrawn : Disk.drawn stem (temporary.draw stem) (draw stem) = σ) (hslash : '/' ∉ stem.toList)
    (hσ : ∀ i, Exchange (σ i))
    (hroot : ∀ i, Path.Exchanged (σ i) (root.getD temporary.directory)
      (root.getD temporary.directory))
    (hd : ∀ i, Disk.Exchanged (σ i) d d) :
    ∃ i, Disk.MadeAlike (σ i) (make root temporary stem d)
      (make root { temporary with draw } stem d) := by
  subst hdrawn
  cases root with
  | none => exact Disk.exists_makeTemporary hslash hσ hroot hd
  | some root =>
    have hmade : ∀ i, Disk.Exchanged (Disk.drawn stem (temporary.draw stem) (draw stem) i)
        ((Disk.makeDirectories root).run d).2 ((Disk.makeDirectories root).run d).2 :=
      fun i => (Disk.mirrored_makeDirectories (hσ i) (hroot i) d d (hd i)).state
    unfold make
    simp only [bind_apply]
    generalize (Disk.makeDirectories root).run d = made at hmade ⊢
    obtain ⟨cause | _, d₁⟩ := made
    · exact ⟨0, .error (Path.Retold.same _), hmade 0⟩
    · exact Disk.exists_makeTemporary hslash hσ hroot hmade

/-- The failure is of the same kind, and its message is told as said. -/
structure Error.ToldAs (told : String → String → Prop) (e e' : Error) : Prop where
  kind : e'.kind = e.kind
  message : told e.message e'.message

namespace Cook

variable {k : Kitchen} {f : Formula} {w : World}

/-- Both cooks unpacked their source, and go on in worlds with names exchanged, or both failed. -/
inductive Unpacked (σ : String → String) :
    Except Error SourceTree × Cook → Except Error SourceTree × Cook → Prop
  | tree {t t' : SourceTree} {c c' : Cook} : t.Exchanged σ t' → World.Exchanged σ c.world c'.world →
    Unpacked σ (.ok t, c) (.ok t', c')
  | failed {e e' : Error} {c c' : Cook} : e.ToldAs (Path.Retold σ) e' →
    Unpacked σ (.error e, c) (.error e', c')

theorem run_unpackSource_homeless (archive : Verified) {c : Cook} {failure : Disk.TemporaryFailure}
    {d : Disk}
    (hmake : Sandbox.make k.config.buildRoot k.temporary "kiln-build-" c.world.disk =
      (.error failure, d)) :
    ∃ c', (unpackSource k archive).run c =
      (.error (.extraction ("Failed to create build directory: " ++ failure.message)), c') := by
  unfold unpackSource
  rw [run_bind, run_enter]
  dsimp only
  rw [run_bind, run_onDisk]
  dsimp only
  rw [hmake]
  exact ⟨_, rfl⟩

/-- To count files changes nothing. -/
theorem countFiles_snd (p : Path) (d : Disk) : (Disk.countFiles p d).2 = d := by
  unfold Disk.countFiles
  rw [bind_apply, show (get : StateM Disk Disk) d = (d, d) from rfl]
  dsimp only
  rcases d.found true p with _ | ⟨_, _ | _ | _⟩ <;> rfl

/-- The source is unpacked alike into build directories of two names that nobody knows. -/
theorem exists_unpackSource (archive : Verified) (c : Cook) (draw : String → Nat → Token)
    (hroot : ∀ i, Path.Exchanged (k.exchanging draw i)
      (k.config.buildRoot.getD k.temporary.directory)
      (k.config.buildRoot.getD k.temporary.directory))
    (hd : ∀ i, Disk.Exchanged (k.exchanging draw i) c.world.disk c.world.disk)
    (hmembers : ∀ i, ∀ m ∈ (Tar.read (Codec.unwrap archive.bytes)).members,
      m.Suits (k.exchanging draw i)) :
    ∃ i, Unpacked (k.exchanging draw i) ((unpackSource k archive).run c)
      ((unpackSource (k.drawing draw) archive).run c) := by
  have hσ := k.exchange_exchanging draw
  obtain ⟨i, hmade⟩ := Sandbox.exists_make draw rfl (by decide) hσ hroot hd
  refine ⟨i, ?_⟩
  rcases hmake : Sandbox.make k.config.buildRoot k.temporary "kiln-build-" c.world.disk with
    ⟨result, d₁⟩
  rcases hmake' : Sandbox.make k.config.buildRoot { k.temporary with draw } "kiln-build-"
    c.world.disk with ⟨result', d₁'⟩
  rw [hmake, hmake'] at hmade
  obtain ⟨hresult, hd₁⟩ := hmade
  cases hresult with
  | error htold =>
    obtain ⟨c₁, hrun⟩ := run_unpackSource_homeless archive hmake
    obtain ⟨c₁', hrun'⟩ := run_unpackSource_homeless (k := k.drawing draw) archive hmake'
    rw [hrun, hrun']
    exact .failed ⟨rfl, (htold.after _).after _⟩
  | @ok p p' hp =>
    have htarget := hp.join (hσ i) (Path.exchanged_of_not_tells (p := ⟨"source"⟩)
      (k.source_not_tells i) ((k.drawing draw).source_not_tells i))
    have hunpacked := Extraction.abreast_run (hσ i) (hmembers i) htarget d₁ d₁' hd₁
    rcases hrun : (Extraction.run archive (p.join "source")).run d₁ with ⟨unpacked, d₂⟩
    rcases hrun' : (Extraction.run archive (p'.join "source")).run d₁' with ⟨unpacked', d₂'⟩
    rw [hrun, hrun'] at hunpacked
    obtain ⟨hresult, hd₂⟩ := hunpacked
    cases hresult with
    | error htold =>
      obtain ⟨c₂, hc₂, -⟩ := run_unpackSource_error hmake hrun
      obtain ⟨c₂', hc₂', -⟩ := run_unpackSource_error (k := k.drawing draw) hmake' hrun'
      rw [hc₂, hc₂']
      exact .failed ⟨rfl, htold.after _⟩
    | ok htree =>
      obtain ⟨c₂, hc₂, hdisk, -⟩ := run_unpackSource_ok hmake hrun
      obtain ⟨c₂', hc₂', hdisk', -⟩ := run_unpackSource_ok (k := k.drawing draw) hmake' hrun'
      rw [hc₂, hc₂']
      rw [countFiles_snd] at hdisk hdisk'
      refine .tree htree ?_
      unfold World.Exchanged
      rwa [hdisk, hdisk']

theorem fst_renderFlags (k : Kitchen) (f : Formula) (w : World) :
    (k.renderFlags f w).1 = ((flagsOnly k f).run (start k f (k.config.home f) false w)).1 := by
  unfold Kitchen.renderFlags Kitchen.partly
  rcases (flagsOnly k f).run (start k f (k.config.home f) false w) with ⟨result, c⟩
  rfl

/-- What is drawn is not asked for before the build directory is made. -/
theorem fetchOnly_drawing (draw : String → Nat → Token) :
    fetchOnly (k.drawing draw) f = fetchOnly k f :=
  rfl

/-- To fetch the source leaves the world as the steps of a cook leave it. -/
theorem fetch_of_run {archive : Verified} {c : Cook}
    (h : (fetchOnly k f).run (start k f (k.config.home f) false w) = (.ok archive, c)) :
    k.fetch f w = (.ok archive, c.world) := by
  have hdirectory := keeps_directory_fetchOnly k f (start k f (k.config.home f) false w)
  rw [h] at hdirectory
  have hclean : cleanUp c = (⟨⟩, c) := by
    unfold cleanUp
    rw [modify_apply, show c.buildDirectory = none from hdirectory]
  unfold Kitchen.fetch Kitchen.partly
  rw [h]
  dsimp only
  rw [hclean]

/-- Flags are rendered alike from trees with names exchanged. -/
theorem fst_run_resolveFlags (f : Formula) {σ : String → String} (hsource : k.metadata.BlindTo σ)
    {t t' : SourceTree} {c c' : Cook} (ht : t.Exchanged σ t')
    (hw : World.Exchanged σ c.world c'.world) :
    ((resolveFlags k f t).run c).1 = ((resolveFlags k f t').run c').1 := by
  have hresolved := (Variables.abreast_resolve hsource f ht.root c.world c'.world hw).result.eq
  unfold resolveFlags
  rw [run_bind, run_bind, run_enter, run_enter]
  dsimp only
  rw [run_bind, run_bind, run_inWorld, run_inWorld]
  dsimp only
  rw [← hresolved]
  rcases (Variables.resolve (recorded k.metadata) f t.root).run c.world with ⟨e | vars, w⟩
  · rfl
  · rw [run_bind, run_bind, run_orHalt_ok, run_orHalt_ok]
    dsimp only
    rw [run_bind, run_bind, run_record, run_record]
    dsimp only
    cases Flags.render f.build.flags vars <;> rfl

/-- The source is fetched, but then not unpacked. -/
structure NotUnpacked (k : Kitchen) (f : Formula) (w : World) (e : Error) : Prop where
  fetched : ∃ archive, (k.fetch f w).1 = .ok archive
  failed : ((unpackOnly k f).run (start k f (k.config.home f) false w)).1 = .error e

/-- A cook from the same world then fails where its source is unpacked. -/
theorem NotUnpacked.haltedIn {e : Error} (h : NotUnpacked k f w e) (install : InstallProcedure)
    (test : Option TestProcedure) {base : Path} (habsolute : base.isAbsolute = true)
    (hworkdir : w.disk.hasWorkdir = true) :
    (k.cookWith f install test base w).1.HaltedIn .verifying := by
  have htallies := unpackOnly_tallies k f install test base w habsolute hworkdir
  obtain ⟨p, hp, hhalted, -⟩ := htallies.failure e h.failed
  obtain ⟨archive, hfetched⟩ := h.fetched
  have hfetch := (partly_tallies k f install test base w habsolute hworkdir).2.2
  have hlate : p ∉ [Phase.init, .fetching] := fun hearly =>
    absurd (hfetched.symm.trans (hfetch.error.2 ⟨p, hearly, hhalted⟩).choose_spec) nofun
  obtain rfl : p = .verifying := by simp_all
  exact hhalted

/-- When fetching fails, nothing was drawn. When it does not, the source is unpacked alike into build
directories of two names that nobody knew. -/
theorem exists_unpackOnly (draw : String → Nat → Token)
    (hunknown : ∀ i, k.Unknown f w (k.buildName i) ∧ k.Unknown f w ((k.drawing draw).buildName i))
    {c : Cook} (hc : start k f (k.config.home f) false w = c) :
    (∃ e d, (unpackOnly k f).run c = (.error e, d) ∧
      (unpackOnly (k.drawing draw) f).run c = (.error e, d)) ∨
    (∃ archive, (k.fetch f w).1 = .ok archive) ∧ ∃ i, Unpacked (k.exchanging draw i)
      ((unpackOnly k f).run c) ((unpackOnly (k.drawing draw) f).run c) := by
  subst hc
  rw [unpackOnly, unpackOnly, fetchOnly_drawing, run_bind, run_bind]
  rcases hfetch : (fetchOnly k f).run (start k f (k.config.home f) false w) with ⟨e | archive, c⟩
  · exact .inl ⟨e, c, rfl, rfl⟩
  · have hfetched := fetch_of_run hfetch
    have harchive : (k.fetch f w).1 = .ok archive := congrArg Prod.fst hfetched
    have hdisk : (k.fetch f w).2.disk = c.world.disk := by rw [hfetched]
    have hmembers : ∀ i, ∀ m ∈ (Tar.read (Codec.unwrap archive.bytes)).members,
        m.Suits (k.exchanging draw i) := fun i m hm =>
      have h := (hunknown i).1.members archive harchive m hm
      have h' := (hunknown i).2.members archive harchive m hm
      ⟨Path.exchanged_of_not_tells h.1 h'.1, Path.exchanged_of_not_tells h.2 h'.2⟩
    have hd : ∀ i, Disk.Exchanged (k.exchanging draw i) c.world.disk c.world.disk := by
      intro i
      rw [← hdisk]
      exact Disk.Ignores.exchanged (k.plain_buildName i) ((k.drawing draw).plain_buildName i)
        ((hunknown i).1.disk archive harchive) ((hunknown i).2.disk archive harchive)
    exact .inr ⟨⟨archive, harchive⟩, exists_unpackSource archive c draw
      (fun i => Path.exchanged_of_not_tells (hunknown i).1.root (hunknown i).2.root) hd hmembers⟩

/-- What is drawn makes no difference to the flags, and to a failure only where the source is
unpacked, and there only that of the name. -/
theorem exists_renderFlags (draw : String → Nat → Token)
    (hunknown : ∀ i, k.Unknown f w (k.buildName i) ∧ k.Unknown f w ((k.drawing draw).buildName i))
    (hsource : ∀ i, k.metadata.BlindTo (k.exchanging draw i)) :
    Outcomes (fun e e' => e = e' ∨
        e.ToldAs (k.Retells draw) e' ∧ NotUnpacked (k.drawing draw) f w e') Eq
      (k.renderFlags f w).1 ((k.drawing draw).renderFlags f w).1 := by
  have hstart : start (k.drawing draw) f ((k.drawing draw).config.home f) false w =
      start k f (k.config.home f) false w := rfl
  have hcases := exists_unpackOnly draw hunknown rfl
  simp only [fst_renderFlags, flagsOnly_eq_unpackOnly, run_bind, hstart]
  rcases hrun : (unpackOnly k f).run (start k f (k.config.home f) false w) with ⟨_, d⟩
  rcases hrun' : (unpackOnly (k.drawing draw) f).run (start k f (k.config.home f) false w)
    with ⟨_, d'⟩
  rw [hrun, hrun'] at hcases
  rcases hcases with ⟨e, _, ⟨⟩, ⟨⟩⟩ | ⟨hfetched, i, hunpacked⟩
  · exact .error (.inl rfl)
  · cases hunpacked with
    | failed htold =>
      exact .error (.inr ⟨⟨htold.kind, i, htold.message⟩, hfetched, by rw [hstart, hrun']⟩)
    | @tree t t' _ _ ht hw =>
      have hflags := fst_run_resolveFlags f (hsource i) ht hw
      show Outcomes _ _ ((resolveFlags k f t).run d).1 ((resolveFlags k f t').run d').1
      rw [← hflags]
      rcases (resolveFlags k f t).run d with ⟨_ | _, _⟩
      · exact .error (.inl rfl)
      · exact .ok rfl

/-! ## Rendered flags and cooks -/

/-- The message of a failure in the phase is that of a run in which other names were drawn. Only the
phase that unpacks the source tells the name of the build directory. -/
def Retold (k : Kitchen) (draw : String → Nat → Token) (p : Phase) (m m' : String) : Prop :=
  m = m' ∨ p = .verifying ∧ k.Retells draw m m'

/-- To render the flags, or to fetch the source, agrees with a cook into any absolute prefix from
the same world, whatever either draws for the name of its build directory. The flags and the
variables that are rendered are those of the cook. The failure is of the same kind, and its message
is that of the cook's, except that where the source is unpacked the directory it tells of has the
other name. The names that may be drawn are known to nobody before, and whoever is asked for the
build variables does not go by them. -/
theorem partly_agrees (k : Kitchen) (draw : String → Nat → Token) (f : Formula)
    (install : InstallProcedure) (test : Option TestProcedure) (base : Path) (w : World)
    (habsolute : base.isAbsolute = true) (hworkdir : w.disk.hasWorkdir = true)
    (hunknown : ∀ i, k.Unknown f w (k.buildName i) ∧ k.Unknown f w ((k.drawing draw).buildName i))
    (hsource : ∀ i, k.metadata.BlindTo (k.exchanging draw i)) :
    let r := ((k.drawing draw).cookWith f install test base w).1
    r.Tallies (Retold k draw) (k.renderFlags f w).1
      [.init, .fetching, .verifying, .resolving] .building ∧
    (∀ vars flags, (k.renderFlags f w).1 = .ok (vars, flags) →
      r.vars = some vars ∧ r.flags = flags) ∧
    r.Tallies (fun _ => Eq) (k.fetch f w).1 [.init, .fetching] .verifying := by
  intro r
  obtain ⟨hrendered, hreported, hfetched⟩ :=
    partly_tallies (k.drawing draw) f install test base w habsolute hworkdir
  have hresults := exists_renderFlags draw hunknown hsource
  refine ⟨hrendered.of_outcomes (hresults.mono (fun e e' h => ?_) fun _ _ _ => trivial),
    fun vars flags hflags => ?_, hfetched⟩
  · obtain rfl | ⟨htold, hnot⟩ := h
    · exact ⟨rfl, fun _ _ _ => .inl rfl⟩
    · refine ⟨htold.kind, fun p _ hhalted => .inr ⟨?_, htold.message⟩⟩
      exact hhalted.unique (hnot.haltedIn install test habsolute hworkdir)
  · rw [hflags] at hresults
    generalize ((k.drawing draw).renderFlags f w).1 = rendered at hresults hreported
    cases hresults with
    | ok h => exact hreported vars flags (congrArg Except.ok h.symm)

namespace Narrow

variable {f : Formula} {warnings : List String}

/-- The source of a formula that is accepted is fetched, and the disk is as before. -/
theorem run_fetchOnly (hvalid : f.validate = .ok warnings) (hnone : f.dependencies = [])
    (hparse : Checksum.parse f.source.checksum = .ok archive.digest) :
    ∃ c, (fetchOnly kitchen f).run (start kitchen f (kitchen.config.home f) false ⟨{}, []⟩) =
      (.ok archive, c) ∧ c.world.disk = {} := by
  have hworkdir : ({} : Disk).hasWorkdir = true := by decide
  have habsolute : (Path.mk "/prefix").isAbsolute = true := by decide
  have hbase : (Path.mk "/prefix").absolute? ({} : Disk).workdir = some ⟨"/prefix"⟩ := rfl
  have hfixable : (start kitchen f ⟨"/prefix"⟩ false ⟨{}, []⟩).Fixable :=
    fixable_start _ _ _ (by decide) (.inl habsolute)
  obtain ⟨c₁, hprepare, hw₁⟩ := run_prepare_ok (k := kitchen)
    (c := start kitchen f ⟨"/prefix"⟩ false ⟨{}, []⟩) hbase habsolute hvalid hnone rfl
  obtain ⟨c₂, hfetch, hd₂⟩ := run_fetchSource_ok (k := kitchen) (f := f) (c := c₁) rfl rfl hparse
  have halike := alike_fetchOnly kitchen f _ _ (fixable_home kitchen f hworkdir) hfixable rfl
  rcases hrun : (fetchOnly kitchen f).run (start kitchen f (kitchen.config.home f) false ⟨{}, []⟩)
    with ⟨result, c⟩
  rw [hrun, run_fetchOnly_ok hprepare hfetch] at halike
  obtain ⟨rfl, hworld⟩ : result = .ok archive ∧ c.world = c₂.world := halike
  refine ⟨c, rfl, ?_⟩
  rw [hworld, hd₂, hw₁]
  rfl

theorem member_contents {m : Tar.Member} (hm : m ∈ contents.members) :
    m.name = "." ∧ m.linkName.getD "" = "" := by
  obtain rfl := List.mem_singleton.1 hm
  exact ⟨by decide +kernel, by decide +kernel⟩

/-- On an empty disk no name is known. -/
theorem unknown_of_plain {name : String} (hname : Disk.Plain name)
    (hvalid : f.validate = .ok warnings) (hnone : f.dependencies = [])
    (hparse : Checksum.parse f.source.checksum = .ok archive.digest) :
    kitchen.Unknown f ⟨{}, []⟩ name := by
  obtain ⟨c, hfetch, hdisk⟩ := run_fetchOnly hvalid hnone hparse
  have hfetched := fetch_of_run hfetch
  have htold : ∀ text, text = "" ∨ text = "." ∨ text = "/" → ¬Text.Tells text name := by
    intro text htext htells
    have hpieces : Text.pieces '/' "" = [""] ∧ Text.pieces '/' "." = ["."] ∧
        Text.pieces '/' "/" = ["", ""] := by decide
    have hname' : name = "" ∨ name = "." := by
      rcases htext with rfl | rfl | rfl <;> simp_all [Text.Tells]
    rcases hname' with rfl | rfl
    · exact hname.ne_empty rfl
    · exact hname.ne_of_dot [] rfl rfl
  refine ⟨htold _ (.inr (.inr rfl)), fun _ _ => ?_, fun archive' harchive m hm => ?_⟩
  · rw [hfetched]
    dsimp only
    rw [hdisk]
    exact ⟨by simp, by simp, htold _ (.inr (.inr rfl))⟩
  · have hsame : archive = archive' :=
      Except.ok.inj ((congrArg Prod.fst hfetched).symm.trans harchive)
    rw [← hsame, read_archive] at hm
    obtain ⟨hm, hl⟩ := member_contents hm
    exact ⟨htold _ (.inr (.inl hm)), htold _ (.inl hl)⟩

/-- The kitchen without a directory for temporary ones. -/
def homeless (draw : String → Nat → Token) : Kitchen :=
  { kitchen with temporary := ⟨⟨"/tmp"⟩, draw⟩ }

theorem homeless_drawing (draw draw' : String → Nat → Token) :
    (homeless draw).drawing draw' = homeless draw' :=
  rfl

/-- One and the same token is drawn each time. -/
def drawOnly (n : Nat) : String → Nat → Token := fun _ _ => Token.ofNat n

/-- Without such a directory the source is fetched, but no build directory made. -/
theorem renderFlags_homeless {draw : String → Nat → Token} {failure : Disk.TemporaryFailure}
    (hmake : (Sandbox.make none ⟨⟨"/tmp"⟩, draw⟩ "kiln-build-" {}).1 = .error failure) :
    ((homeless draw).renderFlags formula ⟨{}, []⟩).1 =
      .error (.extraction ("Failed to create build directory: " ++ failure.message)) := by
  obtain ⟨warnings, hvalid⟩ := validate_formula
  obtain ⟨c, hfetch, hdisk⟩ := run_fetchOnly hvalid rfl parse_formula
  have hfetch' : (fetchOnly (homeless draw) formula).run
    (start (homeless draw) formula ((homeless draw).config.home formula) false ⟨{}, []⟩) =
      (.ok archive, c) := hfetch
  have hmade : Sandbox.make none ⟨⟨"/tmp"⟩, draw⟩ "kiln-build-" c.world.disk =
      (.error failure, (Sandbox.make none ⟨⟨"/tmp"⟩, draw⟩ "kiln-build-" {}).2) := by
    rw [hdisk]
    exact Prod.ext hmake rfl
  obtain ⟨c', hunpack⟩ := run_unpackSource_homeless (k := homeless draw) archive hmade
  rw [fst_renderFlags, flagsOnly_eq_unpackOnly, run_bind, unpackOnly, run_bind, hfetch']
  dsimp only
  rw [hunpack]

theorem make_homeless :
    (Sandbox.make none ⟨⟨"/tmp"⟩, drawOnly 0⟩ "kiln-build-" {}).1 =
        .error (.refused .notFound ⟨"/tmp/kiln-build-000000"⟩) ∧
      (Sandbox.make none ⟨⟨"/tmp"⟩, drawOnly 1⟩ "kiln-build-" {}).1 =
        .error (.refused .notFound ⟨"/tmp/kiln-build-000001"⟩) := by
  decide +kernel

end Narrow

/-- The flags of a banner are those that a cook goes on to build with, whose build directory has
another name. -/
theorem partly_agrees_banner :
    let f := Banner.formula "Kiln"
    let w : World := ⟨{}, []⟩
    let k := Narrow.kitchen.drawing (Narrow.drawOnly 1)
    let r := (k.cookWith f Narrow.install none ⟨"/prefix"⟩ w).1
    k.buildName 0 ≠ Narrow.kitchen.buildName 0 ∧
      (Narrow.kitchen.renderFlags f w).1 =
        .ok (Banner.vars "Kiln", ["-s", "-w", "-X main.Banner=Kiln"]) ∧
      r.Entered .building ∧ r.flags = ["-s", "-w", "-X main.Banner=Kiln"] := by
  intro f w k r
  have habsolute : (Path.mk "/prefix").isAbsolute = true := by decide
  have hworkdir : w.disk.hasWorkdir = true := by decide
  obtain ⟨warnings, hvalid⟩ := Banner.validate_formula "Kiln"
  have hunknown : ∀ name, Disk.Plain name → Narrow.kitchen.Unknown f w name :=
    fun name hname => Narrow.unknown_of_plain hname hvalid rfl Narrow.parse_formula
  obtain ⟨hflags, hreported, -⟩ := partly_agrees Narrow.kitchen (Narrow.drawOnly 1) f
    Narrow.install none ⟨"/prefix"⟩ w habsolute hworkdir
    (fun i => ⟨hunknown _ (Narrow.kitchen.plain_buildName i), hunknown _ (k.plain_buildName i)⟩)
    fun i => MetadataSource.blindTo_fixed _
  have hrendered : (Narrow.kitchen.renderFlags f w).1 =
      .ok (Banner.vars "Kiln", Banner.flags "Kiln") := by
    obtain ⟨r, c, hrun⟩ := Banner.run_toContext_formula "Kiln" (by decide)
    have hfixable : (start Narrow.kitchen f ⟨"/prefix"⟩ false w).Fixable :=
      fixable_start _ _ _ (by decide) (.inl habsolute)
    rw [renderFlags_eq Narrow.kitchen f hworkdir hfixable, hrun]
    rfl
  exact ⟨by decide +kernel, hrendered, hflags.value.1 ⟨_, hrendered⟩, (hreported _ _ hrendered).2⟩

/-- When no build directory can be made, the failure tells the name that was drawn for it, and so a
cook for which another one is drawn does not fail with the same message. -/
theorem draws_told :
    let w : World := ⟨{}, []⟩
    let k := Narrow.homeless (Narrow.drawOnly 0)
    let r := ((k.drawing (Narrow.drawOnly 1)).cookWith Narrow.formula Narrow.install none
      ⟨"/prefix"⟩ w).1
    (Path.mk "/prefix").isAbsolute = true ∧ w.disk.hasWorkdir = true ∧
      ¬r.Tallies (fun _ => Eq) (k.renderFlags Narrow.formula w).1
        [.init, .fetching, .verifying, .resolving] .building := by
  intro w k r
  have habsolute : (Path.mk "/prefix").isAbsolute = true := by decide
  have hworkdir : w.disk.hasWorkdir = true := by decide
  have hr : r = ((Narrow.homeless (Narrow.drawOnly 1)).cookWith Narrow.formula Narrow.install none
      ⟨"/prefix"⟩ w).1 := by
    rw [← Narrow.homeless_drawing (Narrow.drawOnly 0)]
  refine ⟨habsolute, hworkdir, fun htallies => ?_⟩
  rw [hr] at htallies
  have hown := (partly_tallies (Narrow.homeless (Narrow.drawOnly 1)) Narrow.formula Narrow.install
    none ⟨"/prefix"⟩ w habsolute hworkdir).1
  -- one report would tell both messages
  obtain ⟨_, _, _, _, hreported, rfl⟩ := hown.failure _
    (Narrow.renderFlags_homeless Narrow.make_homeless.2)
  obtain ⟨_, _, _, _, hreported', rfl⟩ := htallies.failure _
    (Narrow.renderFlags_homeless Narrow.make_homeless.1)
  have hmessages := congrArg Failure.message
    (Option.some.inj (hreported.symm.trans hreported'))
  dsimp only at hmessages
  exact absurd hmessages (by decide +kernel)

end Cook

end Formulary
