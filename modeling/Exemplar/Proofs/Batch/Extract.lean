import Exemplar.Batch.Extract
import Exemplar.Proofs.Markup.Run
import Exemplar.Proofs.Markup.Stream
import Exemplar.Proofs.Store.Archive
import Mathlib.Data.List.Nodup

/-!
# What an extraction leaves

An extraction that succeeds has scanned all collected files as they were at first, and leaves one document
for each service that was seen. Nothing else on the disk changes but that directories are made on the way
to the archive.
-/

namespace Exemplar.Batch

open Disk Markup Store

variable {w w' : Workspace}

/-! ### Scanning -/

/-- The name of a file is in faults only. -/
theorem samples_eq_ok_congr {marker : Marker} {file text : Text} {records : List Record} (other : Text)
    (h : marker.samples file text = .ok records) : marker.samples other text = .ok records :=
  scanFrom_eq_ok_iff.mpr (scanFrom_eq_ok_iff.mp h)

/-- A file of the disk that can be read and whose text has the given samples. -/
def Scans (marker : Marker) (d : Disk) (path : Text) (records : List Record) : Prop :=
  ∃ bytes, d.readContent path = .ok (.file bytes) ∧
    marker.samples (Path.displayName path) (Utf8.decodeLossy bytes) = .ok records

theorem samplesOfFile_eq (marker : Marker) (d : Disk) (path : Text) :
    samplesOfFile marker d path =
      if d.isFile path then
        match d.readContent path with
        | .ok (.file bytes) => marker.samples (Path.displayName path) (Utf8.decodeLossy bytes)
        | .ok .directory => .error (.io path .isDirectory)
        | .error e => .error (.io path e)
      else .error (.invalidArgument (.noSuchFile path)) := by
  unfold samplesOfFile readContent
  split_ifs
  · cases d.read path with
    | error e => rfl
    | ok node =>
        cases node with
        | directory entries => rfl
        | file bytes => exact Marker.samplesOfBytes_eq marker _ bytes
  · rfl

theorem samplesOfFile_eq_ok_iff {marker : Marker} {d : Disk} {path : Text} {records : List Record} :
    samplesOfFile marker d path = .ok records ↔ Scans marker d path records := by
  rw [samplesOfFile_eq]
  constructor
  · intro h
    split_ifs at h
    cases hread : d.readContent path with
    | error e => simp [hread] at h
    | ok content =>
        cases content with
        | directory => simp [hread] at h
        | file bytes => exact ⟨bytes, hread, by simpa [hread] using h⟩
  · rintro ⟨bytes, hread, hsamples⟩
    rw [if_pos (isFile_iff.mpr ⟨bytes, contentOf_of_readContent hread⟩), hread]
    exact hsamples

theorem samplesOfFiles_eq (marker : Marker) (d : Disk) (files : List Text) :
    samplesOfFiles marker d files = (files.mapM (samplesOfFile marker d)).map List.flatten := by
  induction files with
  | nil => rfl
  | cons path files ih =>
      rw [samplesOfFiles, ih, List.mapM_cons]
      cases samplesOfFile marker d path with
      | error fault => rfl
      | ok first => cases files.mapM (samplesOfFile marker d) <;> rfl

theorem samplesOfFiles_eq_ok_iff {marker : Marker} {d : Disk} {files : List Text}
    {records : List Record} :
    samplesOfFiles marker d files = .ok records ↔
      ∃ scanned, List.Forall₂ (Scans marker d) files scanned ∧ records = scanned.flatten := by
  simp only [samplesOfFiles_eq, map_eq_ok_iff, mapM_eq_ok_iff, samplesOfFile_eq_ok_iff,
    eq_comm (b := records)]

/-! ### Runs -/

theorem observes_collect (extension : Text) (sources : List Text) (w : Workspace) :
    Observes (collect extension sources) w (Files.collect w.disk extension sources).2 := by
  refine (observes_get w).bind fun w' _ => ?_
  exact (observes_forM_notify _ Notice.noFilesMatched w').bind fun w'' _ => observes_lift _ w''

theorem collect_eq_ok {extension : Text} {sources files : List Text}
    (h : collect extension sources w = .ok files w') :
    (Files.collect w.disk extension sources).2 = .ok files ∧ w'.disk = w.disk :=
  (observes_collect extension sources w).of_run h

theorem extract_eq_ok {c : ExtractConfig} {report : Extracted} (h : extract c w = .ok report w') :
    ∃ marker files scanned between paths, Marker.ofText c.commentMarker = .ok marker ∧
      (Files.collect w.disk c.bareExtension c.sources).2 = .ok files ∧
      List.Forall₂ (Scans marker w.disk) files scanned ∧ between.disk = w.disk ∧
      writeSamples scanned.flatten c.outputDirectory between = .ok paths w' ∧
      report = ⟨files.length, scanned.flatten.length, paths⟩ := by
  obtain ⟨⟨⟩, _, hvalid, hread⟩ := bind_eq_ok_iff.mp h
  obtain ⟨-, rfl⟩ := lift_eq_ok_iff.mp hvalid
  obtain ⟨marker, _, hlift, hgather⟩ := bind_eq_ok_iff.mp hread
  obtain ⟨hmarker, rfl⟩ := lift_eq_ok_iff.mp hlift
  obtain ⟨files, between, hcollect, hscan⟩ := bind_eq_ok_iff.mp hgather
  obtain ⟨hfiles, hdisk⟩ := collect_eq_ok hcollect
  obtain ⟨_, _, hget, hparse⟩ := bind_eq_ok_iff.mp hscan
  cases hget
  obtain ⟨records, _, hlifted, hstore⟩ := bind_eq_ok_iff.mp hparse
  obtain ⟨hrecords, rfl⟩ := lift_eq_ok_iff.mp hlifted
  obtain ⟨paths, _, hwrite, hlast⟩ := bind_eq_ok_iff.mp hstore
  cases hlast
  rw [hdisk] at hrecords
  obtain ⟨scanned, hscanned, rfl⟩ := samplesOfFiles_eq_ok_iff.mp hrecords
  exact ⟨marker, files, scanned, _, paths, hmarker, hfiles, hscanned, hdisk, hwrite, rfl⟩

/-! ### The archive -/

/-- The paths of the documents of some records, in the order in which their services are first seen. -/
def documentPaths (directory : Text) (records : List Record) : List Text :=
  (records.map Record.service).eraseDups.map (documentPath directory)

/-- A disk after the documents of some records were written to a directory: each is in a file of its own
there, and elsewhere nothing has changed but that directories were made on the way. -/
structure Archived (records : List Record) (directory : Text) (d d' : Disk) : Prop where
  grows : Grows d d'
  exists_goal : ∃ goal, d'.locate directory = .ok goal ∧ d'.content? goal = some .directory ∧
    Holds d' directory goal ((records.map Record.service).eraseDups.map (documentFor records)) ∧
    ∀ location, (∀ r ∈ records, location ≠ goal ++ [documentName r.service]) →
      d'.content? location = d.content? location ∨
        MadeFor (directory :: Path.parents directory) d d' location

variable {records : List Record} {directory : Text} {d d' : Disk}

theorem archived_of_writeSamples {paths : List Text}
    (h : writeSamples records directory w = .ok paths w') :
    paths = documentPaths directory records ∧ Archived records directory w.disk w'.disk := by
  obtain ⟨rfl, hgrows, goal, hlocate, hgoal, hholds, hsame⟩ := writeSamples_leaves h
  rw [services_documentsOf] at hsame ⊢
  rw [documentsOf_eq] at hholds
  refine ⟨rfl, hgrows, goal, hlocate, hgoal, hholds, ?_⟩
  intro location hother
  apply hsame
  intro service hservice
  obtain ⟨r, hr, rfl⟩ := List.mem_map.mp (List.mem_eraseDups.mp hservice)
  exact hother r hr

theorem Archived.nodup_documentPaths (h : Archived records directory d d') :
    (documentPaths directory records).Nodup := by
  obtain ⟨goal, -, -, hholds, -⟩ := h.exists_goal
  have hservices := nodup_services_documentsOf records
  rw [services_documentsOf] at hservices
  refine hservices.map_on ?_
  intro service hservice other hother hpath
  exact hholds.service_inj (List.mem_map_of_mem hservice) (List.mem_map_of_mem hother) hpath

theorem Archived.keeps (h : Archived records directory d d') :
    Keeps (documentPaths directory records) d d' := by
  obtain ⟨goal, -, -, hholds, hsame⟩ := h.exists_goal
  refine ⟨h.grows, ?_⟩
  intro location content hcontent hother
  have hplace : ∀ r ∈ records, location ≠ goal ++ [documentName r.service] := by
    intro r hr hlocation
    have hservice : r.service ∈ (records.map Record.service).eraseDups :=
      List.mem_eraseDups.mpr (List.mem_map_of_mem hr)
    have hlocate := (hholds _ (List.mem_map_of_mem hservice)).1
    exact hother _ (List.mem_map_of_mem hservice) (hlocation ▸ hlocate)
  rcases hsame location hplace with hbefore | hmade
  · rw [hbefore, hcontent]
  · simp [hmade.missing] at hcontent

/-- An extraction keeps everything but the documents it writes. -/
theorem keeps_of_extract {c : ExtractConfig} {report : Extracted} (h : extract c w = .ok report w') :
    ∃ records, Keeps (documentPaths c.outputDirectory records) w.disk w'.disk := by
  obtain ⟨marker, files, scanned, between, paths, -, -, -, hdisk, hwrite, -⟩ := extract_eq_ok h
  obtain ⟨-, harchived⟩ := archived_of_writeSamples hwrite
  exact ⟨scanned.flatten, hdisk ▸ harchived.keeps⟩

/-- **What a successful extraction leaves behind.** The collected files, as they were at first, give the
records, and the records their archive. -/
theorem extract_archives {c : ExtractConfig} {report : Extracted} (h : extract c w = .ok report w') :
    ∃ marker files scanned, Marker.ofText c.commentMarker = .ok marker ∧
      (Files.collect w.disk c.bareExtension c.sources).2 = .ok files ∧
      List.Forall₂ (Scans marker w.disk) files scanned ∧
      report = ⟨files.length, scanned.flatten.length,
        documentPaths c.outputDirectory scanned.flatten⟩ ∧
      report.documents.Nodup ∧ Archived scanned.flatten c.outputDirectory w.disk w'.disk := by
  obtain ⟨marker, files, scanned, between, paths, hmarker, hfiles, hscanned, hdisk, hwrite, rfl⟩ :=
    extract_eq_ok h
  obtain ⟨rfl, harchived⟩ := archived_of_writeSamples hwrite
  rw [hdisk] at harchived
  exact ⟨marker, files, scanned, hmarker, hfiles, hscanned, rfl, harchived.nodup_documentPaths, harchived⟩

/-- Two samples of a service, and an older document of it. -/
def parcelSources : Workspace where
  disk := ((Disk.fresh []).put ["Parcels.java".toList]
    (.file (Utf8.encode ("//BEGIN_SAMPLE:Parcels.Send\n//TITLE:Send\n//DESCRIPTION:Sends.\nsend();\n" ++
      "//END_SAMPLE\n//BEGIN_SAMPLE:Parcels.Track\n//TITLE:Track\n//DESCRIPTION:Tracks.\ntrack();\n" ++
      "//END_SAMPLE\n").toList)) trivial).put ["archive".toList, "Parcels.json".toList] (.file []) trivial
  notices := []

theorem extract_archives_parcels :
    ∃ w', extract ⟨["Parcels.java".toList], "java".toList, "archive".toList, "//".toList⟩
        parcelSources = .ok ⟨1, 2, ["archive/Parcels.json".toList]⟩ w' ∧
      ∃ marker files scanned, Marker.ofText "//".toList = .ok marker ∧
        (Files.collect parcelSources.disk "java".toList ["Parcels.java".toList]).2 = .ok files ∧
        List.Forall₂ (Scans marker parcelSources.disk) files scanned ∧
        Extracted.mk 1 2 ["archive/Parcels.json".toList] = ⟨files.length, scanned.flatten.length,
          documentPaths "archive".toList scanned.flatten⟩ ∧
        ["archive/Parcels.json".toList].Nodup ∧
        Archived scanned.flatten "archive".toList parcelSources.disk w'.disk := by
  have hgives : gives (· = ⟨1, 2, ["archive/Parcels.json".toList]⟩)
      (extract ⟨["Parcels.java".toList], "java".toList, "archive".toList, "//".toList⟩)
      parcelSources := by decide +kernel
  obtain ⟨report, w', hextract, hreport⟩ := exists_of_gives hgives
  obtain rfl := of_decide_eq_true hreport
  exact ⟨w', hextract, extract_archives hextract⟩

end Exemplar.Batch
