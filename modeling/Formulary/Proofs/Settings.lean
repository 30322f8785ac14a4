import Formulary.Config
import Formulary.Proofs.Toml.Keys
import Formulary.Proofs.Toml.Record

/-!
# Documents of settings

Which documents say something about a configuration (`Settings.DescribedBy`) : each setting stands
under its key, or is absent when the key is. A document is read as the settings that it describes,
and as no others (`Settings.ofEntries_eq_ok_iff`). So is a file, which may also not be read at all
(`Settings.load_eq_ok_iff`).
-/

namespace Formulary

namespace Settings

open Toml Rendering RecordShape

/-- The document says this about a configuration, and nothing else. -/
structure DescribedBy (s : Settings) (t : Table) : Prop where
  sourceCache : t.GivesOption text "source_cache" (s.sourceCache.map Path.text)
  buildRoot : t.GivesOption text "build_root" (s.buildRoot.map Path.text)
  sandboxRoot : t.GivesOption text "sandbox_root" (s.sandboxRoot.map Path.text)
  keepBuildDirectory : t.GivesOption boolean "keep_builddir" s.keepBuildDirectory
  jobs : t.GivesOption word "jobs" s.jobs
  probes : t.GivesOption boolean "probe_dependencies" s.probes
  userAgent : t.GivesOption text "user_agent" s.userAgent
  cellar : t.GivesOption text "prefix_root" (s.cellar.map Path.text)

theorem orderless : shape.Orderless := by
  refine ⟨by decide, ?_⟩
  simp [shape, List.pairwise_cons, commutes_field]

theorem map_mk_text (p? : Option Path) : (p?.map Path.text).map Path.mk = p? := by
  cases p? <;> rfl

/-- Settings are read from a document that describes them. -/
theorem ofEntries_of_describedBy {s : Settings} {t : Table} (ht : t.DistinctKeys)
    (h : s.DescribedBy t) : shape.ofEntries t = .ok s := by
  refine ofEntries_of_readFields orderless ht (s := s) ?_ rfl
  unfold shape
  dsimp only
  refine (readFields_givesOption (fun b (s : Settings) => { s with sourceCache := b.map Path.mk })
    reads_path h.sourceCache rfl).trans ?_
  refine (readFields_givesOption (fun b (s : Settings) => { s with buildRoot := b.map Path.mk })
    reads_path h.buildRoot rfl).trans ?_
  refine (readFields_givesOption (fun b (s : Settings) => { s with sandboxRoot := b.map Path.mk })
    reads_path h.sandboxRoot rfl).trans ?_
  refine (readFields_givesOption (fun b (s : Settings) => { s with keepBuildDirectory := b })
    reads_boolean h.keepBuildDirectory rfl).trans ?_
  refine (readFields_givesOption (fun b (s : Settings) => { s with jobs := b })
    reads_word h.jobs rfl).trans ?_
  refine (readFields_givesOption (fun b (s : Settings) => { s with probes := b })
    reads_boolean h.probes rfl).trans ?_
  refine (readFields_givesOption (fun b (s : Settings) => { s with userAgent := b })
    reads_text h.userAgent rfl).trans ?_
  refine (readFields_givesOption (fun b (s : Settings) => { s with cellar := b.map Path.mk })
    reads_path h.cellar rfl).trans ?_
  simp only [map_mk_text]
  rfl

/-- What was read describes the document. -/
theorem describedBy_of_ofEntries {s : Settings} {t : Table} (ht : t.DistinctKeys)
    (h : shape.ofEntries t = .ok s) : s.DescribedBy t := by
  obtain ⟨s', hs', hfinish⟩ := bind_eq_ok_iff.1 h
  obtain rfl := Except.ok.inj hfinish
  exact {
    sourceCache := givesOption_of_foldlM (fun s => s.sourceCache.map Path.text) writes_path rfl
      (fun _ _ => rfl) (by simp [shape, keeps_field]) ht rfl hs'
    buildRoot := givesOption_of_foldlM (fun s => s.buildRoot.map Path.text) writes_path rfl
      (fun _ _ => rfl) (by simp [shape, keeps_field]) ht rfl hs'
    sandboxRoot := givesOption_of_foldlM (fun s => s.sandboxRoot.map Path.text) writes_path rfl
      (fun _ _ => rfl) (by simp [shape, keeps_field]) ht rfl hs'
    keepBuildDirectory := givesOption_of_foldlM (·.keepBuildDirectory) writes_boolean rfl
      (fun _ _ => rfl) (by simp [shape, keeps_field]) ht rfl hs'
    jobs := givesOption_of_foldlM (·.jobs) writes_word rfl
      (fun _ _ => rfl) (by simp [shape, keeps_field]) ht rfl hs'
    probes := givesOption_of_foldlM (·.probes) writes_boolean rfl
      (fun _ _ => rfl) (by simp [shape, keeps_field]) ht rfl hs'
    userAgent := givesOption_of_foldlM (·.userAgent) writes_text rfl
      (fun _ _ => rfl) (by simp [shape, keeps_field]) ht rfl hs'
    cellar := givesOption_of_foldlM (fun s => s.cellar.map Path.text) writes_path rfl
      (fun _ _ => rfl) (by simp [shape, keeps_field]) ht rfl hs' }

theorem ofEntries_eq_ok_iff {s : Settings} {t : Table} (ht : t.DistinctKeys) :
    shape.ofEntries t = .ok s ↔ s.DescribedBy t :=
  ⟨describedBy_of_ofEntries ht, ofEntries_of_describedBy ht⟩

/-! ## Files -/

/-- The file holds a document that says this, as the disk gives it. -/
def HeldBy (s : Settings) (d : Disk) (p : Path) : Prop :=
  ∃ bytes text t, ((Disk.read p).run d).1 = .ok bytes ∧ String.fromUTF8? bytes = some text ∧
    document text = some t ∧ s.DescribedBy t

theorem parse_eq_ok_iff {p : Path} {text : String} {s : Settings} :
    parse p text = .ok s ↔ ∃ t, document text = some t ∧ s.DescribedBy t := by
  unfold parse
  cases htext : document text with
  | none => exact ⟨nofun, nofun⟩
  | some t =>
    dsimp only
    rw [mapError_eq_ok_iff, ofEntries_eq_ok_iff (distinctKeys_of_document htext)]
    simp

theorem readText_eq_ok_iff {subject : String} {p : Path} {d : Disk} {text : String} :
    (readText subject p d).1 = .ok text ↔
      ∃ bytes, ((Disk.read p).run d).1 = .ok bytes ∧ String.fromUTF8? bytes = some text := by
  unfold readText
  rw [bind_apply]
  rcases (Disk.read p).run d with ⟨cause | bytes, d'⟩
  · exact ⟨nofun, nofun⟩
  · dsimp only
    cases htext : String.fromUTF8? bytes with
    | none =>
      refine ⟨nofun, ?_⟩
      rintro ⟨_, ⟨⟩, hsome⟩
      exact absurd (htext.symm.trans hsome) nofun
    | some text' =>
      constructor
      · rintro ⟨⟩
        exact ⟨bytes, rfl, htext⟩
      · rintro ⟨_, ⟨⟩, hsome⟩
        exact congrArg Except.ok (Option.some.inj (htext.symm.trans hsome))

/-- What is read from a file are the settings that it holds. -/
theorem load_eq_ok_iff {p : Path} {d : Disk} {s : Settings} :
    (load p d).1 = .ok s ↔ s.HeldBy d p := by
  have hload : (load p d).1 = (readText "config" p d).1 >>= parse p := rfl
  rw [hload, bind_eq_ok_iff]
  unfold HeldBy
  simp only [readText_eq_ok_iff, parse_eq_ok_iff]
  constructor
  · rintro ⟨text, ⟨bytes, hbytes, htext⟩, t, ht, hs⟩
    exact ⟨bytes, text, t, hbytes, htext, ht, hs⟩
  · rintro ⟨bytes, text, t, hbytes, htext, ht, hs⟩
    exact ⟨text, ⟨bytes, hbytes, htext⟩, t, ht, hs⟩

end Settings

end Formulary
