import Exemplar.Proofs.Batch.Generate
import Exemplar.Proofs.Files.Collect
import Exemplar.Proofs.Markup.Keyword

/-!
# Generation with extraction

Classes that go to different places are all in their files when they are extracted, so the extraction reads
what was rendered: its records are the samples of the sources, class by class, and its documents are what
these records give. The way through files, paths and bytes adds nothing and loses nothing.
-/

namespace Exemplar.Batch

open Disk Markup Store

variable {w w' : Workspace} {d d' d'' : Disk} {directory archive : Text} {models skipped : List Text}
  {classes : List GeneratedClass} {records : List Record}

/-! ### What is read -/

theorem ofText_text (marker : Marker) : Marker.ofText marker.text = .ok marker := by
  rw [Markup.ofText_eq_ok_iff, marker.trim_text]
  exact ⟨marker.text_ne, rfl⟩

/-- The samples of a class's source, as a text in memory. -/
def GeneratedClass.Has (k : GeneratedClass) (records : List Record) : Prop :=
  ∀ file, Marker.slashes.samples file k.source = .ok records

theorem GeneratedClass.has_of_scans {k : GeneratedClass} (hin : k.In directory d)
    (h : Scans Marker.slashes d (k.path directory) records) : k.Has records := by
  obtain ⟨bytes, hread, hsamples⟩ := h
  obtain rfl := Content.file.inj (Except.ok.inj (hin.symm.trans (contentOf_of_readContent hread)))
  rw [Utf8.decodeLossy_encode] at hsamples
  intro file
  exact samples_eq_ok_congr file hsamples

theorem forall₂_has_of_scans {scanned : List (List Record)} (hin : ∀ k ∈ classes, k.In directory d)
    (h : List.Forall₂ (Scans Marker.slashes d) (classes.map (GeneratedClass.path directory)) scanned) :
    List.Forall₂ GeneratedClass.Has classes scanned := by
  induction classes generalizing scanned with
  | nil =>
      cases h
      exact .nil
  | cons k classes ih =>
      obtain ⟨hk, hclasses⟩ := List.forall_mem_cons.mp hin
      cases h with
      | cons hfirst hrest => exact .cons (GeneratedClass.has_of_scans hk hfirst) (ih hclasses hrest)

/-! ### Classes at different places -/

/-- The classes go to different places. -/
def Apart (directory : Text) (d : Disk) (classes : List GeneratedClass) : Prop :=
  classes.Pairwise fun k other => d.locate (k.path directory) ≠ d.locate (other.path directory)

theorem Generates.apart_of_grows (h : Generates directory d models classes skipped d') (hgrows : Grows d' d'')
    (hapart : Apart directory d'' classes) : Apart directory d' classes := by
  refine hapart.imp_of_mem ?_
  intro k other hk hother hne hlocate
  obtain ⟨goal, hgoal⟩ := h.exists_locate k hk
  obtain ⟨goal', hgoal'⟩ := h.exists_locate other hother
  apply hne
  calc d''.locate (k.path directory) = d'.locate (k.path directory) :=
        locate_of_grows hgrows (by simp [hgoal])
    _ = d'.locate (other.path directory) := hlocate
    _ = d''.locate (other.path directory) := (locate_of_grows hgrows (by simp [hgoal'])).symm

theorem Generates.forall_in_of_apart (h : Generates directory d models classes skipped d')
    (hapart : Apart directory d' classes) : ∀ k ∈ classes, k.In directory d' := by
  intro k hk
  obtain ⟨before, after, rfl⟩ := List.append_of_mem hk
  apply h.in_of_last (Keeps.refl d') rfl (by simp)
  intro later hlater
  obtain ⟨-, hfrom, -⟩ := List.pairwise_append.mp hapart
  exact Ne.symm ((List.pairwise_cons.mp hfrom).1 later hlater)

theorem Generates.eq_of_nil (h : Generates directory d models [] skipped d') : d' = d := by
  generalize hclasses : ([] : List GeneratedClass) = classes at h
  induction h with
  | nil => rfl
  | skip _ _ _ ih => exact ih hclasses
  | write => cases hclasses

/-- Classes at different places are collected as they were written. -/
theorem Generates.collect_eq (h : Generates directory d models classes skipped d')
    (hapart : Apart directory d' classes) (extension : Text) :
    Files.collect d' extension (classes.map (GeneratedClass.path directory)) =
      ([], .ok (classes.map (GeneratedClass.path directory))) := by
  apply Files.collect_of_isFile
  · intro path hpath
    obtain ⟨k, hk, rfl⟩ := List.mem_map.mp hpath
    exact isFile_iff.mpr ⟨_, h.forall_in_of_apart hapart k hk⟩
  · exact List.pairwise_map.mpr hapart

/-! ### What is written -/

theorem documentPaths_eq (archive : Text) (records : List Record) :
    documentPaths archive records =
      (documentsOf records).map fun document => documentPath archive document.service := by
  rw [documentPaths, ← services_documentsOf, services, List.map_map]
  rfl

theorem Archived.contentOf (h : Archived records archive d d') {document : Document}
    (hdocument : document ∈ documentsOf records) :
    d'.contentOf (documentPath archive document.service) = .ok (.file (Utf8.encode document.fileText)) := by
  obtain ⟨goal, -, -, hholds, -⟩ := h.exists_goal
  rw [← documentsOf_eq] at hholds
  exact hholds.contentOf hdocument

/-- An extraction of classes at different places archives the samples of their sources. -/
theorem Generates.archived_of_extract {extracted : Extracted}
    (h : Generates directory d models classes skipped w.disk) (hapart : Apart directory w'.disk classes)
    (hextract : extract (classExtraction (classes.map (GeneratedClass.path directory)) archive) w =
      .ok extracted w') :
    ∃ scanned, List.Forall₂ GeneratedClass.Has classes scanned ∧
      extracted = ⟨classes.length, scanned.flatten.length, documentPaths archive scanned.flatten⟩ ∧
      Archived scanned.flatten archive w.disk w'.disk := by
  obtain ⟨marker, files, scanned, started, paths, hmarker, hfiles, hscanned, hdisk, hwrite, hreport⟩ :=
    extract_eq_ok hextract
  obtain ⟨rfl, harchived⟩ := archived_of_writeSamples hwrite
  rw [hdisk] at harchived
  have hstart : Apart directory w.disk classes := h.apart_of_grows harchived.grows hapart
  have hmarker' : Marker.slashes = marker :=
    Except.ok.inj ((ofText_text Marker.slashes).symm.trans hmarker)
  have hcollected : classes.map (GeneratedClass.path directory) = files :=
    Except.ok.inj ((congrArg Prod.snd (h.collect_eq hstart _)).symm.trans hfiles)
  subst hmarker' hcollected
  refine ⟨scanned, forall₂_has_of_scans (h.forall_in_of_apart hstart) hscanned, ?_, harchived⟩
  rw [hreport, List.length_map]
  rfl

/-- **An extraction after a generation gives what the rendered classes give in memory,** if no two classes have one
place. Paths are texts here, so each class is looked for where it was written. -/
theorem generate_extracts {c : GenerateConfig} {report : Generated} (hasked : c.extractTo = some archive)
    (h : generate c w = .ok report w') :
    ∃ classes between, Generates c.outputDirectory w.disk c.models classes report.skipped between ∧
      report.classes = classes.map (GeneratedClass.path c.outputDirectory) ∧
      (report.classes = [] → report.extracted = none ∧ w'.disk = w.disk) ∧
      (report.classes ≠ [] →
        (report.classes.Pairwise fun path other => w'.disk.locate path ≠ w'.disk.locate other) →
        ∃ scanned, List.Forall₂ GeneratedClass.Has classes scanned ∧
          report.extracted = some ⟨classes.length, scanned.flatten.length,
            (documentsOf scanned.flatten).map fun document => documentPath archive document.service⟩ ∧
          (∀ document ∈ documentsOf scanned.flatten,
            w'.disk.contentOf (documentPath archive document.service) =
              .ok (.file (Utf8.encode document.fileText))) ∧
          Archived scanned.flatten archive between w'.disk) := by
  obtain ⟨classes, between, hrun, hpaths, hends⟩ := generate_ends h
  refine ⟨classes, between.disk, hrun, hpaths, ?_⟩
  rw [hpaths] at hends ⊢
  generalize report.extracted = extracted at hends ⊢
  cases hends with
  | unasked hwithout => simp [hwithout] at hasked
  | empty _ hlacking hsame =>
      obtain rfl := List.map_eq_nil_iff.mp hlacking
      refine ⟨fun _ => ⟨rfl, ?_⟩, fun hgiven => absurd hlacking hgiven⟩
      rw [hsame, hrun.eq_of_nil]
  | extracted hasked' hgiven hextract =>
      obtain rfl := Option.some.inj (hasked.symm.trans hasked')
      refine ⟨fun hlacking => absurd hlacking hgiven, ?_⟩
      intro _ hplaces
      rw [List.pairwise_map] at hplaces
      obtain ⟨scanned, hhas, rfl, harchived⟩ := hrun.archived_of_extract hplaces hextract
      refine ⟨scanned, hhas, ?_, ?_, harchived⟩
      · rw [documentPaths_eq]
      · intro document hdocument
        exact harchived.contentOf hdocument

/-- Two models whose classes go to different places. -/
example : leaves (fun report w' => decide (report.extracted =
      some ⟨2, 2, ["archive/Parcels.json".toList, "archive/Letters.json".toList]⟩ ∧
      report.classes.Pairwise fun path other => w'.disk.locate path ≠ w'.disk.locate other))
    (generate (bothModels (some "archive".toList))) (twoModels "Parcels" "Letters") := by
  decide +kernel

end Exemplar.Batch
