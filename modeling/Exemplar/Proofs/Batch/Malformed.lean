import Exemplar.Proofs.Batch.Extract
import Exemplar.Proofs.Files.Sources
import Exemplar.Proofs.Markup.Concat

/-!
# Extractions that fail before they write

All files are scanned before anything is written, so a malformed file leaves the disk as it was. The fault is
that of the first collected path that cannot be scanned. This is the first malformed file, unless a file before
it cannot be read, or a path before it is too long to find its file.
-/

namespace Exemplar.Batch

open Markup
open Exemplar.Path (roundabout length_encode_roundabout)
open Disk (read_roundabout)

variable {marker : Marker} {d : Disk} {path : Text} {fault : Fault} {w : Workspace} {c : ExtractConfig}
  {files : List Text}

/-- How a collected path fails to be scanned. -/
inductive Fails (marker : Marker) (d : Disk) (path : Text) : Fault → Prop
  | malformed {bytes : List UInt8} {breach : Breach} {line : Nat}
      (read : d.readContent path = .ok (.file bytes))
      (scan : marker.samples (Path.displayName path) (Utf8.decodeLossy bytes) =
        .error (.markup breach (Path.displayName path) line)) :
      Fails marker d path (.markup breach (Path.displayName path) line)
  | denied {goal : List Text} {e : FileError} (file : d.isFile path) (locate : d.locate path = .ok goal)
      (denial : d.denial goal = some e) : Fails marker d path (.io path e)
  | missing (h : ¬d.isFile path) : Fails marker d path (.invalidArgument (.noSuchFile path))

theorem samplesOfFile_eq_error_iff : samplesOfFile marker d path = .error fault ↔ Fails marker d path fault := by
  rw [samplesOfFile_eq]
  constructor
  · intro h
    split_ifs at h with hfile
    · obtain ⟨goal, bytes, hlocate, hgoal⟩ := Disk.exists_locate_of_isFile hfile
      have hread := Disk.readContent_of_locate hlocate hgoal
      cases hdenial : d.denial goal with
      | some e =>
          rw [hread, hdenial] at h
          cases h
          exact .denied hfile hlocate hdenial
      | none =>
          rw [hdenial] at hread
          rw [hread] at h
          obtain ⟨breach, line, rfl⟩ := exists_breach_of_scanFrom h
          exact .malformed hread h
    · cases h
      exact .missing hfile
  · intro h
    cases h with
    | malformed hread hscan =>
        rw [if_pos (Disk.isFile_iff.mpr ⟨_, Disk.contentOf_of_readContent hread⟩), hread]
        exact hscan
    | denied hfile hlocate hdenial =>
        obtain ⟨goal, bytes, hlocate', hgoal⟩ := Disk.exists_locate_of_isFile hfile
        obtain rfl := Except.ok.inj (hlocate.symm.trans hlocate')
        rw [if_pos hfile, Disk.readContent_of_locate hlocate hgoal, hdenial]
    | missing hfile => rw [if_neg hfile]

theorem samplesOfFiles_eq_error_iff :
    samplesOfFiles marker d files = .error fault ↔ ∃ before first after, files = before ++ first :: after ∧
      (∀ path ∈ before, ∃ records, Scans marker d path records) ∧ Fails marker d first fault := by
  simp only [samplesOfFiles_eq, map_eq_error_iff, mapM_eq_error_iff, samplesOfFile_eq_ok_iff,
    samplesOfFile_eq_error_iff]

/-- An extraction whose scan fails ends there. -/
theorem observes_extract (hvalid : c.validate = .ok ()) (hmarker : Marker.ofText c.commentMarker = .ok marker)
    (hfiles : (Files.collect w.disk c.bareExtension c.sources).2 = .ok files)
    (hscan : samplesOfFiles marker w.disk files = .error fault) : Observes (extract c) w (.error fault) := by
  unfold extract
  rw [hvalid, hmarker]
  refine (observes_lift _ w).bind fun w₁ h₁ => (observes_lift _ w₁).bind fun w₂ h₂ => ?_
  have hcollect := observes_collect c.bareExtension c.sources w₂
  rw [h₂, h₁, hfiles] at hcollect
  refine hcollect.bind fun w₃ h₃ => (observes_get w₃).bind fun w₄ _ => ?_
  rw [h₃, h₂, h₁, hscan]
  exact (observes_lift _ w₄).bind_error _

/-- **A malformed file leaves everything as it was.** The fault is that of the first collected path that cannot
be scanned, all paths before it having their samples. On a disk with proper names a file is found under this path,
which is malformed or denied, or else the path is too long. -/
theorem extract_fails_of_malformed {file : Text} {breach : Breach} {line : Nat} (hvalid : c.validate = .ok ())
    (hmarker : Marker.ofText c.commentMarker = .ok marker)
    (hfiles : (Files.collect w.disk c.bareExtension c.sources).2 = .ok files) (hmem : file ∈ files)
    (hmalformed : Fails marker w.disk file (.markup breach (Path.displayName file) line)) :
    ∃ before first after fault, files = before ++ first :: after ∧
      (∀ path ∈ before, ∃ records, Scans marker w.disk path records) ∧ Fails marker w.disk first fault ∧
      Observes (extract c) w (.error fault) ∧
      (w.disk.Named → w.disk.isFile first ∨ Disk.pathLimit < (Utf8.encode first).length) := by
  cases hscan : samplesOfFiles marker w.disk files with
  | ok records =>
      obtain ⟨scanned, hscanned, -⟩ := samplesOfFiles_eq_ok_iff.mp hscan
      obtain ⟨own, -, hown⟩ := exists_of_forall₂ hscanned hmem
      have hfails := samplesOfFile_eq_error_iff.mpr hmalformed
      rw [samplesOfFile_eq_ok_iff.mpr hown] at hfails
      cases hfails
  | error fault =>
      obtain ⟨before, first, after, rfl, hbefore, hfirst⟩ := samplesOfFiles_eq_error_iff.mp hscan
      refine ⟨before, first, after, fault, rfl, hbefore, hfirst, ?_, fun hnamed => ?_⟩
      · exact observes_extract hvalid hmarker hfiles hscan
      · exact Files.isFile_of_mem_collect hnamed hfiles (List.mem_append_cons_self ..)

/-- A file without samples, and two malformed ones. -/
def malformedSources : Workspace where
  disk := (((Disk.fresh []).put ["Plain.java".toList] (.file []) trivial).put
    ["Ended.java".toList] (.file (Utf8.encode "//END_SAMPLE".toList)) trivial).put
    ["Titled.java".toList] (.file (Utf8.encode "\n//TITLE:Send".toList)) trivial
  notices := []

def malformedFiles : List Text := ["Plain.java".toList, "Ended.java".toList, "Titled.java".toList]

def extractionOf (sources : List Text) : ExtractConfig :=
  ⟨sources, "java".toList, "archive".toList, "//".toList⟩

theorem extract_fails_of_malformed_ended :
    ∃ before first after fault, malformedFiles = before ++ first :: after ∧
      (∀ path ∈ before, ∃ records, Scans Marker.slashes malformedSources.disk path records) ∧
      Fails Marker.slashes malformedSources.disk first fault ∧
      Observes (extract (extractionOf malformedFiles)) malformedSources (.error fault) := by
  have hvalid : (extractionOf malformedFiles).validate = .ok () := by decide
  have hfiles : (Files.collect malformedSources.disk (extractionOf malformedFiles).bareExtension
      malformedFiles).2 = .ok malformedFiles := by decide +kernel
  have htitled : samplesOfFile Marker.slashes malformedSources.disk "Titled.java".toList =
      .error (.markup (.violation .titleOutsideSample) "Titled.java".toList 2) := by decide +kernel
  obtain ⟨before, first, after, fault, hsplit, hbefore, hfirst, hobserves, -⟩ :=
    extract_fails_of_malformed hvalid rfl hfiles (by decide) (samplesOfFile_eq_error_iff.mp htitled)
  exact ⟨before, first, after, fault, hsplit, hbefore, hfirst, hobserves⟩

/-- A file that cannot be read gives the fault if it comes before the malformed ones. -/
example : samplesOfFiles Marker.slashes (malformedSources.disk.deny ["Plain.java".toList] .accessDenied)
    malformedFiles = .error (.io "Plain.java".toList .accessDenied) := by
  decide +kernel

/-! ### Paths that are too long -/

/-- A directory with one file, and a malformed file beside it. -/
def deepSources : Workspace where
  disk := ((Disk.fresh []).put ["Ended.java".toList] (.file (Utf8.encode "//END_SAMPLE".toList)) trivial).put
    ["src".toList, "Unreachable.java".toList] (.file []) trivial
  notices := []

theorem collect_deepSources {directory : Text}
    (hread : deepSources.disk.read directory = .ok (.directory [("Unreachable.java".toList, .file [])])) :
    (Files.collect deepSources.disk "java".toList [directory, "Ended.java".toList]).2 =
      .ok [Path.join directory "Unreachable.java".toList, "Ended.java".toList] := by
  have hname : Path.fileName? (Path.join directory "Unreachable.java".toList) = some "Unreachable.java".toList :=
    Path.fileName?_join directory (by decide) (by decide)
  have hextension : Path.hasExtension (Path.join directory "Unreachable.java".toList) "java".toList = true := by
    rw [Path.hasExtension, hname]
    decide
  have hsource := Files.ofSource_of_lone hread hextension
  have hother : Path.components "Ended.java".toList ≠
      Path.components (Path.join directory "Unreachable.java".toList) := by
    intro heq
    rw [Path.fileName?, ← heq] at hname
    exact absurd hname (by decide)
  refine Files.collect_eq_ok_iff.mpr ⟨[[_], [_]], .cons hsource (.cons rfl .nil), ?_⟩
  exact Files.distinct_of_pairwise (by simpa using hother.symm)

/-- The first malformed file does not give the fault if a path before it is too long. -/
theorem not_extract_fails_of_malformed :
    ¬∀ (c : ExtractConfig) (w : Workspace) (marker : Marker) (before : List Text) (file : Text)
        (after : List Text) (fault : Fault), c.validate = .ok () → Marker.ofText c.commentMarker = .ok marker →
      (Files.collect w.disk c.bareExtension c.sources).2 = .ok (before ++ file :: after) →
      (∀ path ∈ before, ∀ breach line, ¬Fails marker w.disk path (.markup breach (Path.displayName path) line)) →
      (∃ breach line, fault = .markup breach (Path.displayName file) line) → Fails marker w.disk file fault →
      Observes (extract c) w (.error fault) := by
  intro h
  -- The path stays a variable from here on, so that nothing steps through it.
  obtain ⟨directory, hdirectory⟩ : ∃ directory, directory = roundabout 2040 "src".toList := ⟨_, rfl⟩
  have hlong : Disk.pathLimit < (Utf8.encode (Path.join directory "Unreachable.java".toList)).length := by
    have hlength : (Utf8.encode directory).length = 4083 := by
      rw [hdirectory, length_encode_roundabout]
      rfl
    have hjoin : (Utf8.encode directory).length + (Utf8.encode "Unreachable.java".toList).length ≤
        (Utf8.encode (Path.join directory "Unreachable.java".toList)).length :=
      Path.length_encode_le_join directory rfl
    rw [hlength] at hjoin
    exact Nat.lt_of_lt_of_le (by decide) hjoin
  have hread : deepSources.disk.read directory = .ok (.directory [("Unreachable.java".toList, .file [])]) :=
    hdirectory ▸ read_roundabout (by decide) (by decide) rfl (by decide)
  have hfiles := collect_deepSources hread
  have hmissing : Fails Marker.slashes deepSources.disk (Path.join directory "Unreachable.java".toList)
      (.invalidArgument (.noSuchFile (Path.join directory "Unreachable.java".toList))) :=
    .missing fun hfile => Nat.not_le.mpr hlong (Disk.length_le_of_isFile hfile)
  have hended : samplesOfFile Marker.slashes deepSources.disk "Ended.java".toList =
      .error (.markup (.violation .endOutsideSample) "Ended.java".toList 1) := by decide +kernel
  have hscan : samplesOfFiles Marker.slashes deepSources.disk
      [Path.join directory "Unreachable.java".toList, "Ended.java".toList] =
        .error (.invalidArgument (.noSuchFile (Path.join directory "Unreachable.java".toList))) :=
    samplesOfFiles_eq_error_iff.mpr ⟨[], _, _, rfl, by simp, hmissing⟩
  have hvalid : (extractionOf [directory, "Ended.java".toList]).validate = .ok () := by
    have hdot : '.' ∈ directory := hdirectory ▸ List.mem_cons_self ..
    have htrim : directory.trim ≠ [] := Text.trim_ne_nil_iff.mpr ⟨'.', hdot, by decide⟩
    have hsources : ¬([directory, "Ended.java".toList] = [] ∨
        [directory, "Ended.java".toList].any (·.trim = [])) := by
      have hother : Text.trim "Ended.java".toList ≠ [] := by decide
      simp only [List.any_cons, List.any_nil, htrim, hother]
      simp
    rw [extractionOf, ExtractConfig.validate, if_neg hsources]
    rfl
  have hactual := observes_extract hvalid rfl hfiles hscan
  have hexpected := h _ deepSources Marker.slashes [Path.join directory "Unreachable.java".toList]
    "Ended.java".toList [] _ hvalid rfl hfiles ?_ ⟨_, _, rfl⟩ (samplesOfFile_eq_error_iff.mp hended)
  · cases hexpected.unique hactual
  · intro path hpath breach line hfails
    obtain rfl := List.mem_singleton.mp hpath
    cases (samplesOfFile_eq_error_iff.mpr hmissing).symm.trans (samplesOfFile_eq_error_iff.mpr hfails)

end Exemplar.Batch
