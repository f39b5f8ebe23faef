import Exemplar.Proofs.Files.Write

/-!
# What a run alters

A run that writes files and makes directories is judged by what it leaves alone: everything but what the paths
of its files lead to in the end, and but directories that were made for other paths. What two runs alter
together is what each of them alters, and no file is gained, lost or changed anywhere else.
-/

namespace Exemplar.Disk

/-- A later state of a disk that differs only in what the paths of some files lead to, and in directories made
for some paths. -/
structure Alters (files parts : List Text) (d d' : Disk) : Prop where
  grows : Grows d d'
  same_or_made : ∀ location, (∀ path ∈ files, d'.locate path ≠ .ok location) →
    d'.content? location = d.content? location ∨ MadeFor parts d d' location

variable {d d' d'' : Disk} {files more parts : List Text} {path : Text} {goal location : List Text}
  {bytes : List UInt8}

theorem Alters.refl (parts : List Text) (d : Disk) : Alters [] parts d d := ⟨Grows.refl d, fun _ _ => Or.inl rfl⟩

theorem Alters.trans (hfirst : Alters files parts d d') (hlast : Alters more parts d' d'') :
    Alters (files ++ more) parts d d'' := by
  refine ⟨hfirst.grows.trans hlast.grows, ?_⟩
  intro location hother
  obtain ⟨hfiles, hmore⟩ := List.forall_mem_append.mp hother
  have hbefore : ∀ path ∈ files, d'.locate path ≠ .ok location := by
    intro path hpath hlocate
    exact hfiles path hpath (by rw [locate_of_grows hlast.grows (by simp [hlocate]), hlocate])
  rcases hfirst.same_or_made location hbefore with hsame | hmade
  · rcases hlast.same_or_made location hmore with hsame' | hmade
    · exact Or.inl (hsame'.trans hsame)
    · exact Or.inr ⟨hsame ▸ hmade.missing, hmade.made, hmade.leads⟩
  · exact Or.inr (hmade.of_grows hlast.grows)

theorem Makes.alters (h : Makes parts d d') : Alters [] parts d d' :=
  ⟨h.grows, fun location _ => h.same_or_made location⟩

/-- Making a directory alters no file, whether it succeeds or not. -/
theorem alters_makeDirectories (d : Disk) (hpath : path ≠ []) :
    Alters [] (path :: Path.parents path) d (d.makeDirectories path).1 := by
  rw [makeDirectories, if_neg hpath]
  exact (makes_of_makeAll d (path :: Path.parents path)).alters

/-- Writing a file alters that file only. -/
theorem alters_of_writeFile (parts : List Text) (h : d.writeFile path bytes = .ok d') :
    Alters [path] parts d d' ∧ d'.contentOf path = .ok (.file bytes) := by
  obtain ⟨goal, hputs, hlocate⟩ := writeFile_eq_ok h
  refine ⟨⟨hputs.grows, ?_⟩, ?_⟩
  · intro location hother
    left
    apply hputs.content?_of_ne
    rintro rfl
    exact hother path (List.mem_singleton_self path) hlocate
  · exact contentOf_eq_ok_iff.mpr ⟨goal, hlocate, hputs.content?_self⟩

/-- What is not altered is kept. -/
theorem Alters.keeps (h : Alters files parts d d') : Keeps files d d' := by
  refine ⟨h.grows, ?_⟩
  intro location content hcontent hother
  rcases h.same_or_made location hother with hsame | hmade
  · rw [hsame, hcontent]
  · simp [hmade.missing] at hcontent

/-- No file is gained, lost or changed but those that were written. -/
theorem Alters.file_iff (h : Alters files parts d d') (hother : ∀ path ∈ files, d'.locate path ≠ .ok location) :
    d'.content? location = some (.file bytes) ↔ d.content? location = some (.file bytes) := by
  rcases h.same_or_made location hother with hsame | hmade
  · rw [hsame]
  · simp [hmade.missing, hmade.made]

end Exemplar.Disk
