import Exemplar.Batch.Config
import Exemplar.Proofs.Files.Walk
import Mathlib.Data.List.TakeWhile

/-!
# Extensions

A file has an extension if its name goes on with a dot and the extension after something else. The name is cut at its
last dot to see this, so it is seen of extensions without a dot, however many dots the name has. An extension with a
dot of its own is none of any file, and a walk for it comes back with nothing.
-/

namespace Exemplar

namespace Path

variable {path extension name stem : Text}

/-- A file whose name is something with a dot and the extension after it. -/
def EndsInExtension (path extension : Text) : Prop :=
  ∃ stem, stem ≠ [] ∧ fileName? path = some (stem ++ '.' :: extension)

/-! ### Names -/

theorem splitExtension?_of_append (stem : Text) (h : '.' ∉ extension) :
    splitExtension? (stem ++ '.' :: extension) = some (stem, extension) := by
  have hreverse : (stem ++ '.' :: extension).reverse = extension.reverse ++ '.' :: stem.reverse := by simp
  have hpass : ∀ c ∈ extension.reverse, decide (c ≠ '.') = true := by
    intro c hc
    refine decide_eq_true ?_
    rintro rfl
    exact h (List.mem_reverse.mp hc)
  rw [splitExtension?, hreverse, List.dropWhile_append_of_pos hpass, List.takeWhile_append_of_pos hpass]
  simp

theorem eq_append_of_splitExtension? (h : splitExtension? name = some (stem, extension)) :
    name = stem ++ '.' :: extension ∧ '.' ∉ extension := by
  unfold splitExtension? at h
  split at h
  · cases h
  · rename_i c before hdrop
    obtain ⟨rfl, rfl⟩ := Prod.mk.inj (Option.some.inj h)
    have hc : c = '.' := by
      have hhead := List.head?_dropWhile_not (fun c => decide (c ≠ '.')) name.reverse
      rw [hdrop] at hhead
      simpa using hhead
    refine ⟨?_, fun hmem => ?_⟩
    · have hname := List.takeWhile_append_dropWhile (p := fun c => decide (c ≠ '.')) (l := name.reverse)
      rw [hdrop, hc] at hname
      simpa using (congrArg List.reverse hname).symm
    · simpa using List.mem_takeWhile_imp (List.mem_reverse.mp hmem)

/-- A name is cut at its last dot. -/
theorem splitExtension?_eq_some_iff :
    splitExtension? name = some (stem, extension) ↔ name = stem ++ '.' :: extension ∧ '.' ∉ extension := by
  refine ⟨eq_append_of_splitExtension?, ?_⟩
  rintro ⟨rfl, h⟩
  exact splitExtension?_of_append stem h

theorem slash_not_mem_fileName {name : Text} (h : fileName? path = some name) : '/' ∉ name := by
  have hmem : Component.name name ∈ components path := by
    unfold fileName? at h
    split at h
    · rename_i hlast
      cases h
      exact List.mem_of_getLast? hlast
    · cases h
  exact (Component.inner_of_mem hmem nofun nofun).no_slash

/-! ### Extensions -/

theorem hasExtension_eq_true_iff :
    hasExtension path extension = true ↔
      ∃ stem, stem ≠ [] ∧ (fileName? path).bind splitExtension? = some (stem, extension) := by
  unfold hasExtension
  cases (fileName? path).bind splitExtension? with
  | none => simp
  | some parts => simp [Prod.ext_iff]

/-- Whether the name of a file ends in an extension is seen of extensions without a dot, and of them only. -/
theorem hasExtension_iff : hasExtension path extension = true ↔ EndsInExtension path extension ∧ '.' ∉ extension := by
  simp only [hasExtension_eq_true_iff, EndsInExtension, Option.bind_eq_some_iff, splitExtension?_eq_some_iff]
  constructor
  · rintro ⟨stem, hstem, name, hname, rfl, hdot⟩
    exact ⟨⟨stem, hstem, hname⟩, hdot⟩
  · rintro ⟨⟨stem, hstem, hname⟩, hdot⟩
    exact ⟨stem, hstem, _, hname, rfl, hdot⟩

/-- Files end in any extension that can stand in a name. -/
theorem exists_endsInExtension_iff : (∃ path, EndsInExtension path extension) ↔ '/' ∉ extension := by
  constructor
  · rintro ⟨path, stem, -, hname⟩ hslash
    exact slash_not_mem_fileName hname (by simp [hslash])
  · intro hslash
    have hpiece : Component.ofPiece? ('a' :: '.' :: extension) = some (.name ('a' :: '.' :: extension)) := by
      simp [Component.ofPiece?]
    exact ⟨_, ['a'], by simp, fileName?_join [] (by simpa using hslash) hpiece⟩

/-- An extension is matched as it should be exactly if it has no dot, or else has a slash and is none of any file. -/
theorem forall_hasExtension_iff :
    (∀ path, hasExtension path extension = true ↔ EndsInExtension path extension) ↔
      '.' ∉ extension ∨ '/' ∈ extension := by
  constructor
  · intro h
    by_cases hslash : '/' ∈ extension
    · exact Or.inr hslash
    · obtain ⟨path, hends⟩ := exists_endsInExtension_iff.mpr hslash
      exact Or.inl (hasExtension_iff.mp ((h path).mpr hends)).2
  · rintro (hdot | hslash) path
    · rw [hasExtension_iff, and_iff_left hdot]
    · have hnone : ¬EndsInExtension path extension := fun hends =>
        exists_endsInExtension_iff.mp ⟨path, hends⟩ hslash
      rw [hasExtension_iff]
      exact iff_of_false (fun h => hnone h.1) hnone

end Path

namespace Disk

variable {d : Disk} {extension path directory : Text} {files : List Text}

/-- A walk picks up files by the ends of their names, and nothing for an extension with a dot. -/
theorem endsInExtension_of_mem_walk (h : d.walk directory extension = .ok files) (hmem : path ∈ files) :
    Path.EndsInExtension path extension ∧ '.' ∉ extension :=
  Path.hasExtension_iff.mp (exists_file_of_mem_walk h hmem).1

end Disk

namespace Batch

open Exemplar.Path (hasExtension EndsInExtension)

/-- **Names are matched by what stands after their last dot.** A file has the extension of a configuration exactly if
its name ends in the extension after something else and a dot, and the extension has no dot itself. So the extension is
matched as it should be exactly if it has no dot, or a slash; with a dot, a walk finds no file at all. -/
theorem hasExtension_bareExtension (c : ExtractConfig) :
    (∀ path, hasExtension path c.bareExtension = true ↔
        EndsInExtension path c.bareExtension ∧ '.' ∉ c.bareExtension) ∧
      ((∀ path, hasExtension path c.bareExtension = true ↔ EndsInExtension path c.bareExtension) ↔
        '.' ∉ c.bareExtension ∨ '/' ∈ c.bareExtension) ∧
      ∀ (d : Disk) directory files, '.' ∈ c.bareExtension → d.walk directory c.bareExtension = .ok files →
        files = [] := by
  refine ⟨fun _ => Path.hasExtension_iff, Path.forall_hasExtension_iff, fun d directory files hdot hwalk => ?_⟩
  refine List.eq_nil_iff_forall_not_mem.mpr fun path hmem => ?_
  exact (Disk.endsInExtension_of_mem_walk hwalk hmem).2 hdot

/-- A name that ends in an extension of two parts is not seen to do so. -/
theorem not_hasExtension_bareExtension :
    ¬∀ (c : ExtractConfig) (path : Text), c.validate = .ok () →
      (hasExtension path c.bareExtension = true ↔ EndsInExtension path c.bareExtension) := by
  intro h
  have hends : EndsInExtension "src/Letters.sample.java".toList "sample.java".toList :=
    ⟨"Letters".toList, by decide, by decide⟩
  have hmatch := (h ⟨["src".toList], ".sample.java".toList, "out".toList, "//".toList⟩ _ rfl).mpr hends
  exact absurd hmatch (by decide)

end Batch

end Exemplar
