import Exemplar.Proofs.Batch.Generate
import Exemplar.Proofs.Files.Join
import Exemplar.Proofs.Service.Methods

/-!
# Where classes are written

A class is written under the name of its service, and nobody looks for slashes in it. The class of a name without
one stands in the output directory. A slash takes it elsewhere: below another directory that is there already, along
double dots out of the output directory, or, where it comes first, away from it altogether.
-/

namespace Exemplar

namespace Service

variable {name : Text}

theorem classFileName_eq (name : Text) : classFileName name = classSafe name ++ "GeneratedSamples.java".toList := by
  simp [classFileName, classExtension]

theorem getLast?_classFileName (name : Text) : (classFileName name).getLast? = some 'a' := by
  rw [classFileName_eq, List.getLast?_append]
  rfl

theorem slash_mem_classFileName : '/' ∈ classFileName name ↔ '/' ∈ name := by
  have hblank : Text.isBlank '/' = false := by decide
  simp [classFileName_eq, classSafe, hblank]

/-- A name without dots has no double dots to its class. -/
theorem up_not_mem_classFileName (hdot : '.' ∉ name) : Path.Component.up ∉ Path.components (classFileName name) := by
  obtain ⟨before, last, hpieces, hfile⟩ :=
    splitOn_append_of_not_mem (by decide : '/' ∉ "GeneratedSamples.java".toList) (classSafe name)
  rw [Path.up_mem_components, classFileName_eq, hfile, List.mem_append, List.mem_singleton]
  rintro (hbefore | hlast)
  · have hpiece : ['.', '.'] ∈ splitOn '/' (classSafe name) := hpieces ▸ List.mem_append_left _ hbefore
    exact hdot (List.mem_of_mem_filter (mem_of_mem_splitOn hpiece (List.mem_cons_self ..)))
  · have hlength := congrArg List.length hlast
    simp at hlength

theorem dot_not_mem_tagName {s : Service} {source : Text} (h : s.classSource = .ok source) : '.' ∉ s.tagName := by
  obtain ⟨lines, hlines, -⟩ := map_eq_ok_iff.mp h
  exact (classLines_eq_ok_iff.mp hlines).2.1

end Service

namespace Batch

open Disk

variable {d d' : Disk} {directory name : Text} {models skipped : List Text} {goal location : List Text}

/-! ### Places -/

/-- The place of the class of a name, seen from the place of the output directory. It is in this directory and has the
name of the class exactly if the name has no slash. Without double dots a relative name leads on from the
directory, and an absolute one leads to the same place from every directory. -/
structure ClassPlace (goal : List Text) (name : Text) (location : List Text) : Prop where
  inside_iff : location = goal ++ [Service.classFileName name] ↔ '/' ∉ name
  below : Path.isAbsolute (Service.classFileName name) = false →
    Path.Component.up ∉ Path.components (Service.classFileName name) →
      location = goal ++ Path.names (Service.classFileName name)
  elsewhere : Path.isAbsolute (Service.classFileName name) = true →
    Path.Component.up ∉ Path.components (Service.classFileName name) →
      location = Path.names (Service.classFileName name)

theorem names_classFileName (hslash : '/' ∉ name) :
    Path.names (Service.classFileName name) = [Service.classFileName name] := by
  have hpiece {dots : Text} (hdots : dots.getLast? ≠ some 'a') : Service.classFileName name ≠ dots := by
    rintro rfl
    exact hdots (Service.getLast?_classFileName name)
  have hname : Path.Component.nameOfPiece? (Service.classFileName name) = some (Service.classFileName name) := by
    unfold Path.Component.nameOfPiece? Path.Component.ofPiece?
    rw [if_neg (not_or.mpr ⟨hpiece (by simp), hpiece (by decide)⟩), if_neg (hpiece (by decide))]
    rfl
  rw [Path.names_eq, splitOn_of_not_mem (Service.slash_mem_classFileName.not.mpr hslash),
    List.filterMap_cons_some hname, List.filterMap_nil]

theorem classPlace_of_locate (hgoal : d.locate directory = .ok goal)
    (h : d.locate (Path.join directory (Service.classFileName name)) = .ok location) : ClassPlace goal name location := by
  refine ⟨⟨?_, ?_⟩, fun hpath hup => eq_append_names_of_locate_join hpath hup hgoal h,
    fun hpath hup => eq_names_of_locate_join hpath hup h⟩
  · -- What a path leads to is called after its last piece, and this has no slash.
    rintro rfl hslash
    have hlast : (Path.join directory (Service.classFileName name)).getLast? = some 'a' := by
      rw [Path.getLast?_join _ (by simp [Service.classFileName_eq]), Service.getLast?_classFileName]
    obtain ⟨before, last, hpieces, hend⟩ := exists_last_piece hlast (by decide : 'a' ≠ '/')
    obtain ⟨above, habove⟩ := exists_concat_of_locate hpieces hend (by decide) h
    obtain rfl := List.singleton_inj.mp (List.append_inj' habove rfl).2
    have hmem : Service.classFileName name ∈
        splitOn '/' (Path.join directory (Service.classFileName name)) := hpieces ▸ List.mem_append_right _ (by simp)
    exact not_mem_of_mem_splitOn hmem (Service.slash_mem_classFileName.mpr hslash)
  · intro hslash
    have hfile := Service.slash_mem_classFileName.not.mpr hslash
    have hup : Path.Component.up ∉ Path.components (Service.classFileName name) := by
      rw [Path.up_mem_components, splitOn_of_not_mem hfile, List.mem_singleton]
      intro hdots
      have hlast := Service.getLast?_classFileName name
      rw [← hdots] at hlast
      exact absurd hlast (by decide)
    rw [eq_append_names_of_locate_join (Path.isAbsolute_eq_false hfile) hup hgoal h,
      names_classFileName hslash]

theorem Generates.dot_not_mem {classes : List GeneratedClass} (h : Generates directory d models classes skipped d') :
    ∀ k ∈ classes, '.' ∉ k.service.tagName := by
  induction h with
  | nil d => simp
  | skip _ _ _ ih => exact ih
  | write _ _ hrender _ _ _ ih => exact List.forall_mem_cons.mpr ⟨Service.dot_not_mem_tagName hrender, ih⟩

/-! ### Inside and outside -/

/-- **A class stays inside its directory exactly if the name of its service has no slash.** Writing a class changes
one file and makes nothing but its directory; a generation changes the files of its classes and makes nothing but the
output directory. Each of these files is in the directory, under the name of its class, exactly if no slash is in the
name of the service. A model gives no double dots to its class, so a relative name with a slash leads on below the
output directory, and only an absolute name leads out of it. -/
theorem classes_inside_iff (w : Workspace) :
    (∀ (directory name source path : Text) (w' : Workspace), directory ≠ [] →
      writeClass directory name source w = .ok path w' →
      ∃ goal location, w'.disk.locate directory = .ok goal ∧ w'.disk.content? goal = some .directory ∧
        w'.disk.locate path = .ok location ∧ w'.disk.content? location = some (.file (Utf8.encode source)) ∧
        Alters [path] (directory :: Path.parents directory) w.disk w'.disk ∧ ClassPlace goal name location) ∧
    ∀ (c : GenerateConfig) (report : Generated) (w' : Workspace), generate c w = .ok report w' →
      ∃ classes between, Generates c.outputDirectory w.disk c.models classes report.skipped between.disk ∧
        report.classes = classes.map (GeneratedClass.path c.outputDirectory) ∧
        Alters report.classes (c.outputDirectory :: Path.parents c.outputDirectory) w.disk between.disk ∧
        Ends c report.classes between report.extracted w' ∧
        ∀ k ∈ classes, Path.Component.up ∉ Path.components (Service.classFileName k.service.tagName) ∧
          ∃ goal location, between.disk.locate c.outputDirectory = .ok goal ∧
            between.disk.locate (k.path c.outputDirectory) = .ok location ∧
            ClassPlace goal k.service.tagName location := by
  refine ⟨?_, ?_⟩
  · intro directory name source path w' hdirectory h
    obtain ⟨rfl, halters, hmade, hcontent⟩ := writeClass_eq_ok hdirectory h
    obtain ⟨goal, hgoal, hmade⟩ := isDirectory_iff.mp hmade
    obtain ⟨location, hlocate, hfile⟩ := contentOf_eq_ok_iff.mp hcontent
    exact ⟨goal, location, hgoal, hmade, hlocate, hfile, halters, classPlace_of_locate hgoal hlocate⟩
  · intro c report w' h
    obtain ⟨hdirectory, between, hclasses, hends⟩ := generate_eq_ok h
    obtain ⟨⟨classes, hrun, hpaths⟩, halters, hmade⟩ := generateClasses_eq_ok hdirectory hclasses
    refine ⟨classes, between, hrun, hpaths, halters, hends, ?_⟩
    intro k hk
    have hpath : k.path c.outputDirectory ∈ report.classes := hpaths ▸ List.mem_map_of_mem hk
    obtain ⟨goal, hgoal, -⟩ := isDirectory_iff.mp (hmade _ hpath)
    obtain ⟨location, hlocate⟩ := hrun.exists_locate k hk
    exact ⟨Service.up_not_mem_classFileName (hrun.dot_not_mem k hk), goal, location, hgoal, hlocate,
      classPlace_of_locate hgoal hlocate⟩

/-- A model of an interface with a slash in its name, and an output directory with a directory in it. -/
def nestedModel : Workspace where
  disk := ((Disk.fresh ["work".toList]).put ["work".toList, "m.json".toList]
    (.file (Utf8.encode (modelText "sub/Parcels" "a"))) trivial).put
    ["work".toList, "out".toList, "sub".toList, "Letters.txt".toList] (.file []) trivial
  notices := []

def nestedGeneration : GenerateConfig := ⟨["m.json".toList], "out".toList, none⟩

theorem classes_inside_iff_nested :
    (∃ path w' goal location, writeClass "out".toList "My Parcels".toList "class".toList nestedModel = .ok path w' ∧
      w'.disk.locate "out".toList = .ok goal ∧ w'.disk.locate path = .ok location ∧
      location = goal ++ ["MyParcelsGeneratedSamples.java".toList]) ∧
    ∃ report w' classes, generate nestedGeneration nestedModel = .ok report w' ∧ classes ≠ [] ∧
      report.classes = classes.map (GeneratedClass.path "out".toList) ∧
      ∀ k ∈ classes, ∃ goal location, ClassPlace goal k.service.tagName location := by
  have hgives : gives (fun _ => true) (writeClass "out".toList "My Parcels".toList "class".toList) nestedModel := by
    decide +kernel
  have hgives' : gives (·.classes.length = 1) (generate nestedGeneration) nestedModel := by decide +kernel
  obtain ⟨path, w', hwrite, -⟩ := exists_of_gives hgives
  obtain ⟨report, w'', hgenerate, hlength⟩ := exists_of_gives hgives'
  obtain ⟨hclass, hclasses⟩ := classes_inside_iff nestedModel
  obtain ⟨goal, location, hgoal, -, hlocate, -, -, hplace⟩ := hclass _ _ _ path w' (by decide) hwrite
  obtain ⟨classes, between, -, hpaths, -, -, hplaces⟩ := hclasses _ report w'' hgenerate
  refine ⟨⟨path, w', goal, location, hwrite, hgoal, hlocate, hplace.inside_iff.mpr (by decide)⟩, report, w'', classes,
    hgenerate, ?_, hpaths, ?_⟩
  · rintro rfl
    rw [hpaths] at hlength
    exact absurd hlength (by decide)
  · intro k hk
    obtain ⟨-, goal, location, -, -, hplace⟩ := hplaces k hk
    exact ⟨goal, location, hplace⟩

def nestedPlace : List Text :=
  ["work".toList, "out".toList, "sub".toList, "ParcelsGeneratedSamples.java".toList]

/-- A slash takes a class out of its directory, through double dots or into a directory in it. -/
theorem not_classes_inside :
    (¬∀ (directory name source path : Text) (w w' : Workspace), directory ≠ [] →
      writeClass directory name source w = .ok path w' → ∀ location bytes,
        w'.disk.content? location = some (.file bytes) → w.disk.content? location ≠ some (.file bytes) →
          ∃ goal, w'.disk.locate directory = .ok goal ∧ location = goal ++ [Service.classFileName name]) ∧
    ¬∀ (c : GenerateConfig) (w w' : Workspace) (report : Generated), generate c w = .ok report w' →
      c.extractTo = none → ∀ location bytes,
        w'.disk.content? location = some (.file bytes) → w.disk.content? location ≠ some (.file bytes) →
          ∃ goal name, w'.disk.locate c.outputDirectory = .ok goal ∧ location = goal ++ [name] := by
  constructor
  · intro h
    have hleaves : leaves (fun _ w' => decide (w'.disk.locate "out".toList = .ok ["work".toList, "out".toList] ∧
        w'.disk.content? ["work".toList, "ParcelsGeneratedSamples.java".toList] =
          some (.file (Utf8.encode "class".toList))))
        (writeClass "out".toList "../Parcels".toList "class".toList) ⟨Disk.fresh ["work".toList], []⟩ := by
      decide +kernel
    obtain ⟨path, w', hwrite, htest⟩ := exists_of_leaves hleaves
    obtain ⟨hdirectory, hfile⟩ := of_decide_eq_true htest
    obtain ⟨goal, hgoal, hlocation⟩ := h _ _ _ path _ w' (by decide) hwrite _ _ hfile (by decide +kernel)
    obtain rfl := Except.ok.inj (hdirectory.symm.trans hgoal)
    exact absurd hlocation (by decide +kernel)
  · intro h
    have hleaves : leaves (fun _ w' => decide (w'.disk.locate "out".toList = .ok ["work".toList, "out".toList] ∧
        ((w'.disk.content? nestedPlace).any fun content => !content.isDirectory) = true))
        (generate nestedGeneration) nestedModel := by decide +kernel
    obtain ⟨report, w', hgenerate, htest⟩ := exists_of_leaves hleaves
    obtain ⟨hdirectory, hfile⟩ := of_decide_eq_true htest
    obtain ⟨content, hcontent, hfile⟩ := (Option.any_eq_true _ _).mp hfile
    cases content with
    | directory => cases hfile
    | file bytes =>
        have hbefore : nestedModel.disk.content? nestedPlace = none := by decide +kernel
        have hnew : nestedModel.disk.content? nestedPlace ≠ some (.file bytes) := by
          rw [hbefore]
          nofun
        obtain ⟨goal, name, hgoal, hlocation⟩ := h _ _ w' report hgenerate rfl nestedPlace bytes hcontent hnew
        obtain rfl := Except.ok.inj (hdirectory.symm.trans hgoal)
        exact absurd (congrArg List.length hlocation) (by simp [nestedPlace])

end Batch

end Exemplar
