import Exemplar.Batch.Generate
import Exemplar.Proofs.Batch.Extract
import Exemplar.Proofs.Files.Alter

/-!
# What a generation leaves

A generation writes a class for each model that has examples, model after model, and skips the other models.
The path of a class has only the name of its service in it, so classes of different models may go to the
same place; then the last one stays. No extraction touches a class.
-/

namespace Exemplar.Batch

open Disk Store

variable {w w' : Workspace} {d d' d'' : Disk} {directory model : Text} {models skipped extra : List Text}

/-- The class of a model. -/
structure GeneratedClass where
  model : Text
  service : Service
  source : Text

namespace GeneratedClass

def path (directory : Text) (k : GeneratedClass) : Text :=
  Path.join directory (Service.classFileName k.service.tagName)

/-- The class is in its file. -/
def In (directory : Text) (d : Disk) (k : GeneratedClass) : Prop :=
  d.contentOf (k.path directory) = .ok (.file (Utf8.encode k.source))

end GeneratedClass

/-! ### Runs -/

/-- Models being taken one after the other: a model without examples is skipped, any other has its class
written, and nothing else is changed by that. -/
inductive Generates (directory : Text) :
    Disk → List Text → List GeneratedClass → List Text → Disk → Prop
  | nil (d : Disk) : Generates directory d [] [] [] d
  | skip {d d' : Disk} {model : Text} {models skipped : List Text} {classes : List GeneratedClass}
      {service : Service} (load : loadModel d model = .ok service)
      (without : service.hasExamples = false) (rest : Generates directory d models classes skipped d') :
      Generates directory d (model :: models) classes (model :: skipped) d'
  | write {d between d' : Disk} {models skipped : List Text} {classes : List GeneratedClass}
      {k : GeneratedClass} (load : loadModel d k.model = .ok k.service)
      (examples : k.service.hasExamples = true) (render : k.service.classSource = .ok k.source)
      (keeps : Keeps [k.path directory] d between) (written : k.In directory between)
      (rest : Generates directory between models classes skipped d') :
      Generates directory d (k.model :: models) (k :: classes) skipped d'

/-- Writing a class alters its own file, and makes the directory that it is given. -/
theorem writeClass_eq_ok {name source path : Text} (hdirectory : directory ≠ [])
    (h : writeClass directory name source w = .ok path w') :
    path = Path.join directory (Service.classFileName name) ∧
      Alters [path] (directory :: Path.parents directory) w.disk w'.disk ∧ w'.disk.isDirectory directory ∧
      w'.disk.contentOf path = .ok (.file (Utf8.encode source)) := by
  obtain ⟨⟨⟩, made, hmade, hrest⟩ := bind_eq_ok_iff.mp h
  obtain ⟨⟨⟩, _, hwrite, hlast⟩ := bind_eq_ok_iff.mp hrest
  cases hlast
  obtain ⟨goal, hlocate, hgoal, hmakes⟩ := Disk.makeDirectories_eq_ok hdirectory (makeDirectories_eq_ok hmade)
  obtain ⟨halters, hcontent⟩ := alters_of_writeFile (directory :: Path.parents directory) (writeFile_eq_ok hwrite)
  exact ⟨rfl, hmakes.alters.trans halters,
    isDirectory_of_grows halters.grows (isDirectory_iff.mpr ⟨goal, hlocate, hgoal⟩), hcontent⟩

/-- A model is skipped, or its class is rendered and written. -/
theorem generateClass_eq_ok {written : Option Text} (h : generateClass directory model w = .ok written w') :
    ∃ service, loadModel w.disk model = .ok service ∧
      ((service.hasExamples = false ∧ written = none ∧ w' = w) ∨
        ∃ source path, service.hasExamples = true ∧ service.classSource = .ok source ∧ written = some path ∧
          writeClass directory service.tagName source w = .ok path w') := by
  obtain ⟨_, _, hget, hload⟩ := bind_eq_ok_iff.mp h
  cases hget
  obtain ⟨service, _, hlift, hrender⟩ := bind_eq_ok_iff.mp hload
  obtain ⟨hservice, rfl⟩ := lift_eq_ok_iff.mp hlift
  refine ⟨service, hservice, ?_⟩
  cases hexamples : service.hasExamples with
  | false =>
      rw [hexamples] at hrender
      cases hrender
      exact Or.inl ⟨rfl, rfl, rfl⟩
  | true =>
      rw [hexamples] at hrender
      obtain ⟨source, _, hlifted, hwrite⟩ := bind_eq_ok_iff.mp hrender
      obtain ⟨hsource, rfl⟩ := lift_eq_ok_iff.mp hlifted
      obtain ⟨path, _, hpath, hlast⟩ := bind_eq_ok_iff.mp hwrite
      cases hlast
      exact Or.inr ⟨source, path, rfl, hsource, rfl, hpath⟩

/-- Models that are taken without a failure are taken one after the other. This alters the files of their classes, and
makes the directory of these if there are any. -/
theorem generateClasses_eq_ok {paths : List Text} (hdirectory : directory ≠ [])
    (h : generateClasses directory models w = .ok (paths, skipped) w') :
    (∃ classes, Generates directory w.disk models classes skipped w'.disk ∧
      paths = classes.map (GeneratedClass.path directory)) ∧
      Alters paths (directory :: Path.parents directory) w.disk w'.disk ∧
      ∀ path ∈ paths, w'.disk.isDirectory directory := by
  induction models generalizing w paths skipped with
  | nil =>
      cases h
      exact ⟨⟨[], .nil _, rfl⟩, Alters.refl _ _, by simp⟩
  | cons model models ih =>
      obtain ⟨written, between, hmodel, hmodels⟩ := bind_eq_ok_iff.mp h
      obtain ⟨⟨others, left⟩, _, hrest, hlast⟩ := bind_eq_ok_iff.mp hmodels
      obtain ⟨service, hload, ⟨hexamples, rfl, rfl⟩ | ⟨source, path, hexamples, hsource, rfl, hwrite⟩⟩ :=
        generateClass_eq_ok hmodel
      · cases hlast
        obtain ⟨⟨classes, hrun, hpaths⟩, halters, hmade⟩ := ih hrest
        exact ⟨⟨classes, .skip hload hexamples hrun, hpaths⟩, halters, hmade⟩
      · cases hlast
        obtain ⟨rfl, hfirst, hmade, hcontent⟩ := writeClass_eq_ok hdirectory hwrite
        obtain ⟨⟨classes, hrun, rfl⟩, halters, -⟩ := ih hrest
        let k : GeneratedClass := ⟨model, service, source⟩
        have hkeeps : Keeps [k.path directory] w.disk between.disk := hfirst.keeps
        have hin : k.In directory between.disk := hcontent
        have hall : Generates directory w.disk (k.model :: models) (k :: classes) skipped w'.disk :=
          .write hload hexamples hsource hkeeps hin hrun
        have hdirectory' := isDirectory_of_grows halters.grows hmade
        exact ⟨⟨k :: classes, hall, rfl⟩, hfirst.trans halters, fun _ _ => hdirectory'⟩

/-! ### What a run leaves -/

variable {classes : List GeneratedClass}

theorem Generates.keeps (h : Generates directory d models classes skipped d') :
    Keeps (classes.map (GeneratedClass.path directory)) d d' := by
  induction h with
  | nil d => exact Keeps.refl d
  | skip _ _ _ ih => exact ih
  | write _ _ _ hkeeps _ _ ih => exact hkeeps.trans ih

theorem Generates.exists_locate (h : Generates directory d models classes skipped d') :
    ∀ k ∈ classes, ∃ goal, d'.locate (k.path directory) = .ok goal := by
  induction h with
  | nil d => simp
  | skip _ _ _ ih => exact ih
  | write _ _ _ _ hin hrest ih =>
      refine List.forall_mem_cons.mpr ⟨?_, ih⟩
      obtain ⟨goal, hlocate, -⟩ := contentOf_eq_ok_iff.mp hin
      exact ⟨goal, by rw [locate_of_grows hrest.keeps.grows (by simp [hlocate]), hlocate]⟩

/-- **A class stays in its file if no later class goes to the same place.** -/
theorem Generates.in_of_last (h : Generates directory d models classes skipped d')
    (hkeeps : Keeps extra d' d'') {before after : List GeneratedClass} {k : GeneratedClass}
    (hclasses : classes = before ++ k :: after)
    (hextra : ∀ path ∈ extra, d''.locate path ≠ d''.locate (k.path directory))
    (hafter : ∀ later ∈ after, d''.locate (later.path directory) ≠ d''.locate (k.path directory)) :
    k.In directory d'' := by
  induction h generalizing before with
  | nil d => simp at hclasses
  | skip _ _ _ ih => exact ih hkeeps hclasses
  | write _ _ _ _ hin hrest ih =>
      cases before with
      | nil =>
          obtain ⟨rfl, rfl⟩ := List.cons.inj hclasses
          refine (hrest.keeps.trans hkeeps).contentOf hin (List.forall_mem_append.mpr ⟨?_, hextra⟩)
          exact List.forall_mem_map.mpr hafter
      | cons first before => exact ih hkeeps (List.cons.inj hclasses).2

theorem exists_last_of_mem {α : Type} {p : α → Prop} {xs : List α} {x : α} (hx : x ∈ xs) (h : p x) :
    ∃ before y after, xs = before ++ y :: after ∧ p y ∧ ∀ z ∈ after, ¬p z := by
  induction xs generalizing x with
  | nil => simp at hx
  | cons first xs ih =>
      by_cases hlater : ∃ y ∈ xs, p y
      · obtain ⟨y, hy, hpy⟩ := hlater
        obtain ⟨before, z, after, rfl, hz, hafter⟩ := ih hy hpy
        exact ⟨first :: before, z, after, rfl, hz, hafter⟩
      · rcases List.mem_cons.mp hx with rfl | hmem
        · exact ⟨[], x, xs, rfl, h, fun z hz hpz => hlater ⟨z, hz, hpz⟩⟩
        · exact absurd ⟨x, hmem, h⟩ hlater

theorem contentOf_congr {path other : Text} (h : d.locate path = d.locate other) :
    d.contentOf path = d.contentOf other := by
  rw [contentOf_eq, contentOf_eq, h]

/-- All classes are in their files exactly if those that go to the same place are the same text. -/
theorem Generates.forall_in_iff (h : Generates directory d models classes skipped d')
    (hkeeps : Keeps extra d' d'')
    (hextra : ∀ k ∈ classes, ∀ path ∈ extra, d''.locate path ≠ d''.locate (k.path directory)) :
    (∀ k ∈ classes, k.In directory d'') ↔
      ∀ k ∈ classes, ∀ other ∈ classes,
        d''.locate (k.path directory) = d''.locate (other.path directory) → k.source = other.source := by
  constructor
  · intro hin k hk other hother hlocate
    have hcontent := (hin k hk).symm.trans ((contentOf_congr hlocate).trans (hin other hother))
    have hbytes : Utf8.encode k.source = Utf8.encode other.source :=
      Content.file.inj (Except.ok.inj hcontent)
    have hdecode := congrArg Utf8.decode? hbytes
    rw [Utf8.decode?_encode, Utf8.decode?_encode] at hdecode
    exact Option.some.inj hdecode
  · intro hsame k hk
    obtain ⟨before, last, after, hclasses, hlocate, hafter⟩ := exists_last_of_mem
      (p := fun other : GeneratedClass =>
        d''.locate (other.path directory) = d''.locate (k.path directory)) hk rfl
    have hlast : last ∈ classes := by simp [hclasses]
    have hin : last.In directory d'' := by
      refine h.in_of_last hkeeps hclasses (hextra last hlast) ?_
      intro later hlater
      rw [hlocate]
      exact hafter later hlater
    rw [GeneratedClass.In, ← contentOf_congr hlocate, hsame k hk last hlast hlocate.symm]
    exact hin

/-! ### Places of classes -/

theorem classFileName_tagName (s : Service) :
    Service.classFileName s.tagName = s.tagName ++ "GeneratedSamples.jav".toList ++ ['a'] := by
  have hsafe : Service.classSafe s.tagName = s.tagName := by
    simp [Service.tagName, Service.classSafe]
  simp [Service.classFileName, Service.classExtension, hsafe]

theorem getLast?_classPath (directory : Text) (k : GeneratedClass) :
    (k.path directory).getLast? = some 'a' := by
  rw [GeneratedClass.path, classFileName_tagName, Path.getLast?_join, List.getLast?_concat]
  simp

theorem getLast?_documentPath (archive service : Text) :
    (documentPath archive service).getLast? = some 'n' := by
  have hname : documentName service = service ++ ".jso".toList ++ ['n'] := by simp [documentName]
  rw [documentPath, hname, Path.getLast?_join, List.getLast?_concat]
  simp

/-- No document goes to the place of a class. -/
theorem locate_documentPath_ne {goal : List Text} {archive service : Text} {k : GeneratedClass}
    (h : d.locate (k.path directory) = .ok goal) :
    d.locate (documentPath archive service) ≠ d.locate (k.path directory) := by
  intro hlocate
  obtain ⟨_, file, hfile, hlast⟩ := exists_last_piece (getLast?_classPath directory k)
    (by decide : 'a' ≠ '/')
  obtain ⟨_, rfl⟩ := exists_concat_of_locate hfile hlast (by decide) h
  obtain ⟨_, other, hother, hlast'⟩ := exists_last_piece (getLast?_documentPath archive service)
    (by decide : 'n' ≠ '/')
  obtain ⟨_, heq⟩ := exists_concat_of_locate hother hlast' (by decide) (hlocate.trans h)
  obtain rfl := List.singleton_inj.mp (List.append_inj' heq rfl).2
  simp [hlast] at hlast'

/-- Services whose names have no slash have their classes at the same place exactly if they have the same
name, blanks aside. -/
theorem locate_classPath_eq_iff {goal goal' : List Text} {k other : GeneratedClass}
    (hk : '/' ∉ k.service.tagName) (hother : '/' ∉ other.service.tagName)
    (h : d.locate (k.path directory) = .ok goal) (h' : d.locate (other.path directory) = .ok goal') :
    d.locate (k.path directory) = d.locate (other.path directory) ↔
      k.service.tagName = other.service.tagName := by
  have hgoal {k : GeneratedClass} {goal : List Text} (hk : '/' ∉ k.service.tagName)
      (h : d.locate (k.path directory) = .ok goal) :
      ∃ above, goal = above ++ [Service.classFileName k.service.tagName] := by
    have hslash : '/' ∉ Service.classFileName k.service.tagName := by
      simp [classFileName_tagName, hk]
    obtain ⟨before, hpieces, -⟩ := Path.splitOn_join directory hslash
    refine exists_concat_of_locate hpieces ?_ (c := 'a') (by decide) h
    rw [classFileName_tagName, List.getLast?_concat]
  constructor
  · intro hlocate
    obtain ⟨above, rfl⟩ := hgoal hk h
    obtain ⟨above', rfl⟩ := hgoal hother h'
    rw [h, h'] at hlocate
    have hfile := List.singleton_inj.mp (List.append_inj' (Except.ok.inj hlocate) rfl).2
    rw [classFileName_tagName, classFileName_tagName, List.append_left_inj, List.append_left_inj] at hfile
    exact hfile
  · intro hname
    rw [GeneratedClass.path, GeneratedClass.path, hname]

/-! ### Batches -/

/-- What a generation does once its classes are written: nothing if no archive is asked for, nothing but a
notice if there are no classes, and an extraction of the classes otherwise. -/
inductive Ends (c : GenerateConfig) (paths : List Text) (w : Workspace) :
    Option Extracted → Workspace → Prop
  | unasked (without : c.extractTo = none) : Ends c paths w none w
  | empty {archive : Text} {w' : Workspace} (asked : c.extractTo = some archive) (lacking : paths = [])
      (same : w'.disk = w.disk) : Ends c paths w none w'
  | extracted {archive : Text} {report : Extracted} {w' : Workspace} (asked : c.extractTo = some archive)
      (given : paths ≠ []) (run : extract (classExtraction paths archive) w = .ok report w') :
      Ends c paths w (some report) w'

theorem outputDirectory_ne_nil {c : GenerateConfig} (h : c.validate = .ok ()) : c.outputDirectory ≠ [] := by
  intro hempty
  unfold GenerateConfig.validate refuseAbsent at h
  split_ifs at h

theorem generate_eq_ok {c : GenerateConfig} {report : Generated} (h : generate c w = .ok report w') :
    c.outputDirectory ≠ [] ∧ ∃ between,
      generateClasses c.outputDirectory c.models w = .ok (report.classes, report.skipped) between ∧
        Ends c report.classes between report.extracted w' := by
  obtain ⟨⟨⟩, _, hlift, hrest⟩ := bind_eq_ok_iff.mp h
  obtain ⟨hvalid, rfl⟩ := lift_eq_ok_iff.mp hlift
  refine ⟨outputDirectory_ne_nil hvalid, ?_⟩
  obtain ⟨⟨paths, skipped⟩, between, hclasses, hextract⟩ := bind_eq_ok_iff.mp hrest
  cases hto : c.extractTo with
  | none =>
      simp only [hto] at hextract
      cases hextract
      exact ⟨_, hclasses, .unasked hto⟩
  | some archive =>
      simp only [hto] at hextract
      split at hextract
      · rename_i hempty
        obtain ⟨⟨⟩, _, hnotify, hlast⟩ := bind_eq_ok_iff.mp hextract
        cases hnotify
        cases hlast
        exact ⟨between, hclasses, .empty hto hempty rfl⟩
      · rename_i hnonempty
        obtain ⟨extracted, _, hextracted, hlast⟩ := bind_eq_ok_iff.mp hextract
        cases hlast
        exact ⟨between, hclasses, .extracted hto hnonempty hextracted⟩

theorem generate_ends {c : GenerateConfig} {report : Generated} (h : generate c w = .ok report w') :
    ∃ classes between,
      Generates c.outputDirectory w.disk c.models classes report.skipped between.disk ∧
        report.classes = classes.map (GeneratedClass.path c.outputDirectory) ∧
        Ends c report.classes between report.extracted w' := by
  obtain ⟨hdirectory, between, hclasses, hends⟩ := generate_eq_ok h
  obtain ⟨⟨classes, hrun, hpaths⟩, -, -⟩ := generateClasses_eq_ok hdirectory hclasses
  exact ⟨classes, between, hrun, hpaths, hends⟩

theorem Ends.keeps {c : GenerateConfig} {paths : List Text} {extracted : Option Extracted}
    (h : Ends c paths w extracted w') :
    ∃ extra, Keeps extra w.disk w'.disk ∧
      ∀ path ∈ extra, ∃ archive service, path = documentPath archive service := by
  cases h with
  | unasked => exact ⟨[], Keeps.refl _, by simp⟩
  | empty _ _ hsame =>
      rw [hsame]
      exact ⟨[], Keeps.refl _, by simp⟩
  | extracted _ _ hrun =>
      obtain ⟨records, hkeeps⟩ := keeps_of_extract hrun
      refine ⟨_, hkeeps, ?_⟩
      intro path hpath
      obtain ⟨service, -, rfl⟩ := List.mem_map.mp hpath
      exact ⟨_, service, rfl⟩

/-- **What a successful generation leaves of its classes.** Each model that is not skipped has its class
reported. A class stays in its file if no later one goes to the same place, so all classes stay exactly if
those that go to one place are the same text. For services without a slash in their names the place is the
name without its blanks. -/
theorem generate_leaves {c : GenerateConfig} {report : Generated} (h : generate c w = .ok report w') :
    ∃ classes between, Generates c.outputDirectory w.disk c.models classes report.skipped between ∧
      report.classes = classes.map (GeneratedClass.path c.outputDirectory) ∧
      (∀ before k after, classes = before ++ k :: after →
        (∀ later ∈ after, w'.disk.locate (later.path c.outputDirectory) ≠
          w'.disk.locate (k.path c.outputDirectory)) → k.In c.outputDirectory w'.disk) ∧
      ((∀ k ∈ classes, k.In c.outputDirectory w'.disk) ↔
        ∀ k ∈ classes, ∀ other ∈ classes, w'.disk.locate (k.path c.outputDirectory) =
          w'.disk.locate (other.path c.outputDirectory) → k.source = other.source) ∧
      ((∀ k ∈ classes, '/' ∉ k.service.tagName) →
        ((∀ k ∈ classes, k.In c.outputDirectory w'.disk) ↔
          ∀ k ∈ classes, ∀ other ∈ classes, k.service.tagName = other.service.tagName →
            k.source = other.source)) := by
  obtain ⟨classes, between, hrun, hpaths, hends⟩ := generate_ends h
  obtain ⟨extra, hkeeps, hdocuments⟩ := hends.keeps
  have hlocate : ∀ k ∈ classes, ∃ goal, w'.disk.locate (k.path c.outputDirectory) = .ok goal := by
    intro k hk
    obtain ⟨goal, hgoal⟩ := hrun.exists_locate k hk
    exact ⟨goal, by rw [locate_of_grows hkeeps.grows (by simp [hgoal]), hgoal]⟩
  have hextra : ∀ k ∈ classes, ∀ path ∈ extra,
      w'.disk.locate path ≠ w'.disk.locate (k.path c.outputDirectory) := by
    intro k hk path hpath
    obtain ⟨archive, service, rfl⟩ := hdocuments path hpath
    obtain ⟨goal, hgoal⟩ := hlocate k hk
    exact locate_documentPath_ne hgoal
  have hiff := hrun.forall_in_iff hkeeps hextra
  refine ⟨classes, between.disk, hrun, hpaths, ?_, hiff, ?_⟩
  · intro before k after hclasses hafter
    exact hrun.in_of_last hkeeps hclasses (hextra k (by simp [hclasses])) hafter
  · intro hslash
    rw [hiff]
    refine forall₂_congr fun k hk => forall₂_congr fun other hother => ?_
    obtain ⟨goal, hgoal⟩ := hlocate k hk
    obtain ⟨goal', hgoal'⟩ := hlocate other hother
    rw [locate_classPath_eq_iff (hslash k hk) (hslash other hother) hgoal hgoal']

/-- The text of a model with one example. -/
def modelText (interface package : String) : Text :=
  ("[[\"" ++ interface ++ "\",\"Client\",\"" ++ package ++ "\"],\x7b\"Send\":[\"send\",\"Request\"]\x7d," ++
    "\x7b\x7d,\x7b\"Send\":[[\"Send\",\"Sends.\"]]\x7d]").toList

/-- Models of two interfaces in packages of their own. -/
def twoModels (first second : String) : Workspace where
  disk := ((Disk.fresh []).put ["a.json".toList] (.file (Utf8.encode (modelText first "a"))) trivial).put
    ["b.json".toList] (.file (Utf8.encode (modelText second "b"))) trivial
  notices := []

def bothModels (archive : Option Text) : GenerateConfig :=
  ⟨["a.json".toList, "b.json".toList], "out".toList, archive⟩

theorem generate_leaves_parcels_letters :
    ∃ report w' classes between,
      generate (bothModels (some "archive".toList)) (twoModels "Parcels" "Letters") = .ok report w' ∧
        Generates "out".toList (twoModels "Parcels" "Letters").disk ["a.json".toList, "b.json".toList]
          classes report.skipped between ∧
        report.classes = classes.map (GeneratedClass.path "out".toList) ∧
        ((∀ k ∈ classes, k.In "out".toList w'.disk) ↔
          ∀ k ∈ classes, ∀ other ∈ classes, w'.disk.locate (k.path "out".toList) =
            w'.disk.locate (other.path "out".toList) → k.source = other.source) := by
  have hgives : gives (·.classes.length = 2) (generate (bothModels (some "archive".toList)))
      (twoModels "Parcels" "Letters") := by decide +kernel
  obtain ⟨report, w', hgenerate, -⟩ := exists_of_gives hgives
  obtain ⟨classes, between, hrun, hpaths, -, hiff, -⟩ := generate_leaves hgenerate
  exact ⟨report, w', classes, between, hgenerate, hrun, hpaths, hiff⟩

/-- Two models of interfaces of the same name give one file, and the class of the first is lost. -/
theorem not_forall_in_of_same_name :
    ¬∀ (c : GenerateConfig) (w w' : Workspace) (report : Generated), generate c w = .ok report w' →
      ∀ model ∈ c.models, ∀ (s : Service) (source : Text), loadModel w.disk model = .ok s →
        s.hasExamples = true → s.classSource = .ok source →
          w'.disk.contentOf (Path.join c.outputDirectory (Service.classFileName s.tagName)) =
            .ok (.file (Utf8.encode source)) := by
  intro h
  have hgives : gives (·.classes.length = 2) (generate (bothModels none))
      (twoModels "Parcels" "Parcels") := by decide +kernel
  obtain ⟨report, w', hgenerate, -⟩ := exists_of_gives hgives
  have hmodels : ((loadModel (twoModels "Parcels" "Parcels").disk "a.json".toList).toOption.any fun first =>
      (loadModel (twoModels "Parcels" "Parcels").disk "b.json".toList).toOption.any fun second =>
        first.classSource.toOption.any fun source => second.classSource.toOption.any fun other =>
          first.hasExamples && second.hasExamples && decide (first.tagName = second.tagName) &&
            decide (Utf8.encode source ≠ Utf8.encode other)) = true := by decide +kernel
  simp only [Option.any_eq_true, toOption_eq_some_iff, Bool.and_eq_true, decide_eq_true_eq] at hmodels
  obtain ⟨first, hfirst, second, hsecond, source, hsource, other, hother, ⟨⟨hexamples, hexamples'⟩, hname⟩,
    hne⟩ := hmodels
  have hin := h _ _ w' report hgenerate "a.json".toList (by decide) first source hfirst hexamples hsource
  have hin' := h _ _ w' report hgenerate "b.json".toList (by decide) second other hsecond hexamples' hother
  rw [hname, hin'] at hin
  exact hne (Content.file.inj (Except.ok.inj hin)).symm

end Exemplar.Batch
