import Exemplar.Proofs.Batch.Extract
import Exemplar.Proofs.Files.Spelling

/-!
# Each file once

Collected files are told apart by the components of their paths and not by where they lead. So each file is collected
once exactly if the sources give it in one spelling. One that they give in two, as a name and the same name after a
dot, is collected in both, and its samples are extracted and stored twice.
-/

namespace Exemplar.Batch

open Markup Files

variable {marker : Marker} {d : Disk} {path other extension : Text} {sources files : List Text}

/-- What a scan finds does not depend on the path by which it comes to the file. -/
theorem Scans.eq_of_samePlace {records others : List Record} (h : Scans marker d path records)
    (hother : Scans marker d other others) (hsame : d.SamePlace path other) : records = others := by
  obtain ⟨bytes, hcontent, hsamples⟩ := h
  obtain ⟨bytes', hcontent', hsamples'⟩ := hother
  obtain ⟨goal, hgoal, hgoal'⟩ := hsame
  obtain ⟨place, hlocate, hbytes, -⟩ := Disk.readContent_eq_ok_iff.mp hcontent
  obtain ⟨place', hlocate', hbytes', -⟩ := Disk.readContent_eq_ok_iff.mp hcontent'
  obtain rfl : goal = place := Except.ok.inj (hgoal.symm.trans (Disk.locate_eq_ok.mp hlocate).2)
  obtain rfl : goal = place' := Except.ok.inj (hgoal'.symm.trans (Disk.locate_eq_ok.mp hlocate').2)
  obtain rfl : bytes = bytes' := Content.file.inj (Option.some.inj (hbytes.symm.trans hbytes'))
  exact Except.ok.inj ((samples_eq_ok_congr (Path.displayName other) hsamples).symm.trans hsamples')

theorem getElem_scanned_eq {scanned : List (List Record)} (h : List.Forall₂ (Scans marker d) files scanned)
    {i j : Nat} (hi : i < files.length) (hj : j < files.length) (hsame : d.SamePlace files[i] files[j]) :
    scanned[i]? = scanned[j]? := by
  obtain ⟨hlength, hscans⟩ := List.forall₂_iff_get.mp h
  have hi' : i < scanned.length := hlength ▸ hi
  have hj' : j < scanned.length := hlength ▸ hj
  rw [List.getElem?_eq_getElem hi', List.getElem?_eq_getElem hj']
  exact congrArg some ((hscans i hi hi').eq_of_samePlace (hscans j hj hj') hsame)

/-- **A file is collected once exactly if the sources give it in one spelling.** Two collected paths lead to the same
place exactly if their components spell the same one, which those that start alike and only go down never do. An
extraction scans each collected path and stores all samples, those of a file once for each path that leads to it. -/
theorem apart_iff_spelledOnce (hnamed : d.Named) (h : (Files.collect d extension sources).2 = .ok files) :
    (d.Apart files ↔ SpelledOnce d extension sources) ∧
      (∀ path ∈ files, ∀ other ∈ files,
        d.SamePlace path other ↔ Path.spelled d.home path = Path.spelled d.home other) ∧
      (files.Pairwise fun path other => Path.Alike path other → ¬d.SamePlace path other) ∧
      ((∀ source ∈ sources, d.isFile source ∨ d.isDirectory source) →
        (∀ source ∈ sources, ∀ next ∈ sources, Path.Alike source next) → d.Apart files) ∧
      ∀ (c : ExtractConfig) (w w' : Workspace) (report : Extracted), w.disk = d → c.bareExtension = extension →
        c.sources = sources → extract c w = .ok report w' →
          ∃ marker scanned, List.Forall₂ (Scans marker d) files scanned ∧ report.files = files.length ∧
            report.samples = scanned.flatten.length ∧
            ∀ i j, ∀ (hi : i < files.length) (hj : j < files.length), d.SamePlace files[i] files[j] →
              scanned[i]? = scanned[j]? := by
  have hplace : ∀ path ∈ files, ∀ other ∈ files,
      d.SamePlace path other ↔ Path.spelled d.home path = Path.spelled d.home other := fun path hpath other hother =>
    (given_of_mem_collect h hpath).samePlace_iff (given_of_mem_collect h hother) hnamed
  refine ⟨⟨spelledOnce_of_apart hnamed h, apart_of_spelledOnce h⟩, hplace, ?_, ?_, ?_⟩
  · refine (pairwise_collect h).imp_of_mem fun hpath hother hne halike hsame => hne ?_
    exact halike.components_eq ((hplace _ hpath _ hother).mp hsame)
  · intro hplain halike
    exact apart_of_spelledOnce h (spelledOnce_of_alike hnamed hplain halike)
  · rintro c w w' report rfl rfl rfl hextract
    obtain ⟨marker, files', scanned, -, -, -, hfiles, hscanned, -, -, rfl⟩ := extract_eq_ok hextract
    obtain rfl : files = files' := Except.ok.inj (h.symm.trans hfiles)
    exact ⟨marker, scanned, hscanned, rfl, rfl, fun i j hi hj => getElem_scanned_eq hscanned hi hj⟩

/-- A directory and two spellings of the same components of a file in it, all relative. -/
def relativeSources : List Text := ["src".toList, "src//Letters.java".toList, "Parcels.java".toList]

theorem apart_iff_spelledOnce_letters :
    letterDisk.Named ∧
      (Files.collect letterDisk "java".toList relativeSources).2 =
        .ok ["src/Letters.java".toList, "Parcels.java".toList] ∧
      letterDisk.Apart ["src/Letters.java".toList, "Parcels.java".toList] ∧
      SpelledOnce letterDisk "java".toList relativeSources ∧
      ∃ report w' marker scanned,
        extract ⟨relativeSources, "java".toList, "archive".toList, "//".toList⟩ ⟨letterDisk, []⟩ = .ok report w' ∧
          List.Forall₂ (Scans marker letterDisk) ["src/Letters.java".toList, "Parcels.java".toList] scanned ∧
          report.files = 2 := by
  have hcollect : (Files.collect letterDisk "java".toList relativeSources).2 =
      .ok ["src/Letters.java".toList, "Parcels.java".toList] := by decide +kernel
  obtain ⟨hiff, -, -, hapart, hextracts⟩ := apart_iff_spelledOnce named_letterDisk hcollect
  have hplain : ∀ source ∈ relativeSources, letterDisk.isFile source ∨ letterDisk.isDirectory source := by
    decide +kernel
  have halike : ∀ source ∈ relativeSources, ∀ next ∈ relativeSources, Path.Alike source next := by
    have hsimple : ∀ source ∈ relativeSources,
        Path.lead source = [] ∧ Path.Component.up ∉ Path.components source := by decide +kernel
    intro source hsource next hnext
    obtain ⟨hlead, hup⟩ := hsimple source hsource
    obtain ⟨hlead', hup'⟩ := hsimple next hnext
    exact ⟨hlead.trans hlead'.symm, hup, hup'⟩
  have hgives : gives (fun _ => true)
      (extract ⟨relativeSources, "java".toList, "archive".toList, "//".toList⟩) ⟨letterDisk, []⟩ := by
    decide +kernel
  obtain ⟨report, w', hextract, -⟩ := exists_of_gives hgives
  obtain ⟨marker, scanned, hscanned, hfiles, -⟩ := hextracts _ _ _ _ rfl rfl rfl hextract
  exact ⟨named_letterDisk, hcollect, hapart hplain halike, hiff.mp (hapart hplain halike),
    report, w', marker, scanned, hextract, hscanned, hfiles⟩

/-- A file that is given by its name and by the name after a dot is collected and extracted twice. -/
theorem not_apart_of_collect :
    (¬∀ (d : Disk) (extension : Text) (sources files : List Text), d.Named →
      (Files.collect d extension sources).2 = .ok files → d.Apart files) ∧
      ∃ w', extract ⟨["Parcels.java".toList, "./Parcels.java".toList], "java".toList, "archive".toList,
        "//".toList⟩ parcelSources = .ok ⟨2, 4, ["archive/Parcels.json".toList]⟩ w' := by
  constructor
  · intro h
    have hcollect : (Files.collect letterDisk "java".toList ["Parcels.java".toList, "./Parcels.java".toList]).2 =
        .ok ["Parcels.java".toList, "./Parcels.java".toList] := by decide +kernel
    have hne := List.rel_of_pairwise_cons (h _ _ _ _ named_letterDisk hcollect) (List.mem_singleton_self _)
    exact hne ⟨["Parcels.java".toList], by decide +kernel, by decide +kernel⟩
  · have hgives : gives (· = ⟨2, 4, ["archive/Parcels.json".toList]⟩)
        (extract ⟨["Parcels.java".toList, "./Parcels.java".toList], "java".toList, "archive".toList, "//".toList⟩)
        parcelSources := by decide +kernel
    obtain ⟨report, w', hextract, hreport⟩ := exists_of_gives hgives
    obtain rfl := of_decide_eq_true hreport
    exact ⟨w', hextract⟩

end Exemplar.Batch
