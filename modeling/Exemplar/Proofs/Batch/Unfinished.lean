import Exemplar.Proofs.Batch.ClassPlace
import Exemplar.Proofs.Batch.Malformed
import Exemplar.Proofs.Store.Interrupted

/-!
# Generations that stop

A generation takes its models one after the other and extracts last. What it can find fault with in a model or in a
class is found before the writing that depends on it: a model is loaded and rendered before its class is written, and
all classes are scanned before a document is written. So a generation that stops for what it has read leaves the
classes of the models before, and nothing else.
-/

namespace Exemplar

/-- A fault that lies in what was read: in a model, or in the text of a source. -/
inductive Fault.OfContents : Fault → Prop
  | markup (breach : Markup.Breach) (file : Text) (line : Nat) : OfContents (.markup breach file line)
  | lookup (kind : Declared) (name context : Text) : OfContents (.lookup kind name context)
  | generation (field : Text) (misfit : Misfit) (context : Text) : OfContents (.generation field misfit context)
  | model (path : Text) (failure : Json.Failure) : OfContents (.model path failure)

namespace Batch

open Disk Store

variable {w w' : Workspace} {d d' : Disk} {directory model : Text} {models skipped : List Text}
  {classes : List GeneratedClass} {c : GenerateConfig} {fault : Fault}

/-! ### Models that give no class -/

/-- How a model gives no class: it cannot be loaded, or it has examples and cannot be rendered. -/
inductive Refused (d : Disk) (model : Text) (fault : Fault) : Prop
  | unloaded (load : loadModel d model = .error fault) : Refused d model fault
  | unrendered {service : Service} (load : loadModel d model = .ok service) (examples : service.hasExamples = true)
      (render : service.classSource = .error fault) : Refused d model fault

theorem writeClass_eq_error {name source : Text} (h : writeClass directory name source w = .error fault w') :
    ∃ path e, fault = .io path e := by
  rcases bind_eq_error_iff.mp h with hmade | ⟨⟨⟩, _, -, hrest⟩
  · exact ⟨_, (makeDirectories_eq_error hmade).2⟩
  · rcases bind_eq_error_iff.mp hrest with hwrite | ⟨⟨⟩, _, -, hlast⟩
    · exact ⟨_, (writeFile_eq_error hwrite).2⟩
    · cases hlast

theorem refused_of_generateClass (hfault : fault.OfContents)
    (h : generateClass directory model w = .error fault w') : w' = w ∧ Refused w.disk model fault := by
  obtain ⟨_, _, hget, hload⟩ := (bind_eq_error_iff.mp h).resolve_left nofun
  cases hget
  rcases bind_eq_error_iff.mp hload with hlift | ⟨service, _, hlift, hrender⟩
  · obtain ⟨hfails, rfl⟩ := lift_eq_error_iff.mp hlift
    exact ⟨rfl, .unloaded hfails⟩
  · obtain ⟨hservice, rfl⟩ := lift_eq_ok_iff.mp hlift
    cases hexamples : service.hasExamples with
    | false =>
        rw [hexamples] at hrender
        cases hrender
    | true =>
        rw [hexamples] at hrender
        rcases bind_eq_error_iff.mp hrender with hlifted | ⟨source, _, -, hwrite⟩
        · obtain ⟨hfails, rfl⟩ := lift_eq_error_iff.mp hlifted
          exact ⟨rfl, .unrendered hservice hexamples hfails⟩
        · rcases bind_eq_error_iff.mp hwrite with hpath | ⟨_, _, -, hlast⟩
          · obtain ⟨path, e, rfl⟩ := writeClass_eq_error hpath
            cases hfault
          · cases hlast

/-- When models fail, the classes of those before one of them are written, and this one fails. -/
theorem generateClasses_eq_error (h : generateClasses directory models w = .error fault w') :
    ∃ before failing after written between, models = before ++ failing :: after ∧
      generateClasses directory before w = .ok written between ∧
      generateClass directory failing between = .error fault w' := by
  induction models generalizing w with
  | nil => cases h
  | cons model models ih =>
      rcases bind_eq_error_iff.mp h with hmodel | ⟨written, between, hmodel, hmodels⟩
      · exact ⟨[], model, models, ([], []), w, rfl, rfl, hmodel⟩
      · rcases bind_eq_error_iff.mp hmodels with hrest | ⟨_, _, -, hlast⟩
        · obtain ⟨before, failing, after, others, later, rfl, hothers, hfailing⟩ := ih hrest
          have hrun : ∃ all, generateClasses directory (model :: before) w = .ok all later := by
            cases written <;> exact ⟨_, bind_eq_ok_iff.mpr
              ⟨_, between, hmodel, bind_eq_ok_iff.mpr ⟨others, later, hothers, rfl⟩⟩⟩
          obtain ⟨all, hall⟩ := hrun
          exact ⟨model :: before, failing, after, all, later, rfl, hall, hfailing⟩
        · cases written <;> cases hlast

/-! ### Extractions -/

theorem not_ofContents_of_writeSamples {records : List Record}
    (h : writeSamples records directory w = .error fault w') : ¬fault.OfContents := by
  intro hfault
  rcases writeSamples_eq_error h with ⟨-, ⟨_, rfl⟩ | ⟨_, rfl⟩⟩ | ⟨-, _, -, hdocuments⟩
  · cases hfault
  · cases hfault
  · obtain ⟨_, _, _, _, _, -, -, hfailing⟩ := writeDocuments_eq_error hdocuments
    rcases (writeDocument_eq_error hfailing).2 with ⟨-, rfl⟩ | ⟨_, rfl⟩ <;> cases hfault

/-- An extraction that fails for what it has read has written nothing. -/
theorem disk_eq_of_extract_eq_error {c : ExtractConfig} (hfault : fault.OfContents)
    (h : extract c w = .error fault w') : w'.disk = w.disk := by
  rcases bind_eq_error_iff.mp h with hlift | ⟨⟨⟩, _, hlift, hread⟩
  · rw [(lift_eq_error_iff.mp hlift).2]
  · obtain ⟨-, rfl⟩ := lift_eq_ok_iff.mp hlift
    rcases bind_eq_error_iff.mp hread with hlift | ⟨marker, _, hlift, hgather⟩
    · rw [(lift_eq_error_iff.mp hlift).2]
    · obtain ⟨-, rfl⟩ := lift_eq_ok_iff.mp hlift
      rcases bind_eq_error_iff.mp hgather with hcollect | ⟨files, between, hcollect, hscan⟩
      · exact ((observes_collect _ _ _).of_failed_run hcollect).2
      · obtain ⟨-, hdisk⟩ := collect_eq_ok hcollect
        obtain ⟨_, _, hget, hparse⟩ := (bind_eq_error_iff.mp hscan).resolve_left nofun
        cases hget
        rcases bind_eq_error_iff.mp hparse with hlift | ⟨records, _, -, hstore⟩
        · rw [(lift_eq_error_iff.mp hlift).2, hdisk]
        · rcases bind_eq_error_iff.mp hstore with hwrite | ⟨_, _, -, hlast⟩
          · exact absurd hfault (not_ofContents_of_writeSamples hwrite)
          · cases hlast

/-! ### Classes that stand -/

/-- The classes that a disk has. The place of each of them holds the whole source of the last class that goes there.
Relative names give the same place exactly if the paths have the same components. -/
structure Standing (directory : Text) (classes : List GeneratedClass) (d : Disk) : Prop where
  last : ∀ k ∈ classes, ∃ before last after, classes = before ++ last :: after ∧
    d.locate (last.path directory) = d.locate (k.path directory) ∧
    (∀ later ∈ after, d.locate (later.path directory) ≠ d.locate (k.path directory)) ∧
    d.contentOf (k.path directory) = .ok (.file (Utf8.encode last.source))
  place_iff : ∀ k ∈ classes, ∀ other ∈ classes,
    Path.isAbsolute (Service.classFileName k.service.tagName) = false →
    Path.isAbsolute (Service.classFileName other.service.tagName) = false →
      (d.locate (k.path directory) = d.locate (other.path directory) ↔
        Path.components (k.path directory) = Path.components (other.path directory))

theorem locate_classPath_eq_iff_components {goal location location' : List Text} {k other : GeneratedClass}
    (hdirectory : directory ≠ []) (hgoal : d.locate directory = .ok goal)
    (hlocate : d.locate (k.path directory) = .ok location) (hlocate' : d.locate (other.path directory) = .ok location')
    (hdot : '.' ∉ k.service.tagName) (hdot' : '.' ∉ other.service.tagName)
    (hpath : Path.isAbsolute (Service.classFileName k.service.tagName) = false)
    (hpath' : Path.isAbsolute (Service.classFileName other.service.tagName) = false) :
    d.locate (k.path directory) = d.locate (other.path directory) ↔
      Path.components (k.path directory) = Path.components (other.path directory) := by
  have hup := Service.up_not_mem_classFileName hdot
  have hup' := Service.up_not_mem_classFileName hdot'
  rw [hlocate, hlocate', (classPlace_of_locate hgoal hlocate).below hpath hup,
    (classPlace_of_locate hgoal hlocate').below hpath' hup', GeneratedClass.path, GeneratedClass.path,
    Path.components_join_inj hdirectory hpath hpath' hup hup', Except.ok.injEq, List.append_right_inj]

theorem Generates.standing (h : Generates directory d models classes skipped d') (hdirectory : directory ≠ [])
    (hmade : ∀ path ∈ classes.map (GeneratedClass.path directory), d'.isDirectory directory) :
    Standing directory classes d' := by
  refine ⟨?_, ?_⟩
  · intro k hk
    obtain ⟨before, last, after, hclasses, hlocate, hafter⟩ := exists_last_of_mem
      (p := fun other : GeneratedClass => d'.locate (other.path directory) = d'.locate (k.path directory)) hk rfl
    have hin : last.In directory d' :=
      h.in_of_last (Keeps.refl d') hclasses (by simp) fun later hlater => hlocate ▸ hafter later hlater
    exact ⟨before, last, after, hclasses, hlocate, hafter, (contentOf_congr hlocate).symm.trans hin⟩
  · intro k hk other hother hpath hpath'
    obtain ⟨goal, hgoal, -⟩ := isDirectory_iff.mp (hmade _ (List.mem_map_of_mem hk))
    obtain ⟨location, hlocate⟩ := h.exists_locate k hk
    obtain ⟨location', hlocate'⟩ := h.exists_locate other hother
    exact locate_classPath_eq_iff_components hdirectory hgoal hlocate hlocate' (h.dot_not_mem k hk)
      (h.dot_not_mem other hother) hpath hpath'

/-! ### Generations -/

/-- Where a generation stops: at a model that gives no class, with the models after it not looked at, or, after all
models, at the extraction, which leaves the disk as it is. -/
inductive Stops (c : GenerateConfig) (paths : List Text) (w : Workspace) (fault : Fault) : List Text → Prop
  | model {model : Text} {rest : List Text} (refused : Refused w.disk model fault) :
      Stops c paths w fault (model :: rest)
  | extraction {archive : Text} (asked : c.extractTo = some archive) (given : paths ≠ [])
      (observes : Observes (extract (classExtraction paths archive)) w (.error fault)) : Stops c paths w fault []

theorem generate_stops (hfault : fault.OfContents) (h : generate c w = .error fault w') :
    c.outputDirectory ≠ [] ∧ ∃ before after paths skipped between, c.models = before ++ after ∧
      generateClasses c.outputDirectory before w = .ok (paths, skipped) between ∧ between.disk = w'.disk ∧
      Stops c paths between fault after := by
  rcases bind_eq_error_iff.mp h with hlift | ⟨⟨⟩, _, hlift, hrest⟩
  · obtain ⟨hinvalid, -⟩ := lift_eq_error_iff.mp hlift
    unfold GenerateConfig.validate refuseAbsent at hinvalid
    split_ifs at hinvalid <;> cases hinvalid <;> cases hfault
  · obtain ⟨hvalid, rfl⟩ := lift_eq_ok_iff.mp hlift
    refine ⟨outputDirectory_ne_nil hvalid, ?_⟩
    rcases bind_eq_error_iff.mp hrest with hmodels | ⟨⟨paths, skipped⟩, between, hclasses, hextract⟩
    · obtain ⟨before, failing, after, ⟨paths, skipped⟩, between, hsplit, hwritten, hfailing⟩ :=
        generateClasses_eq_error hmodels
      obtain ⟨rfl, hrefused⟩ := refused_of_generateClass hfault hfailing
      exact ⟨before, failing :: after, paths, skipped, _, hsplit, hwritten, rfl, .model hrefused⟩
    · refine ⟨c.models, [], paths, skipped, between, (List.append_nil _).symm, hclasses, ?_⟩
      cases hto : c.extractTo with
      | none =>
          simp only [hto] at hextract
          cases hextract
      | some archive =>
          simp only [hto] at hextract
          split at hextract
          · rcases bind_eq_error_iff.mp hextract with hnotify | ⟨⟨⟩, _, -, hlast⟩
            · cases hnotify
            · cases hlast
          · rename_i hgiven
            rcases bind_eq_error_iff.mp hextract with hfails | ⟨_, _, -, hlast⟩
            · have hdisk := disk_eq_of_extract_eq_error hfault hfails
              exact ⟨hdisk.symm, .extraction hto hgiven (.error hfails hdisk)⟩
            · cases hlast

/-- **A generation that stops for what it has read leaves the classes written before, and no document.** The models
before the one that gives no class have been taken as in any run, all models if it is the extraction that fails.
Their classes stand, each place with the whole source of the last class that goes there, and nothing else has
changed but that directories were made on the way to the output directory; an extraction has changed nothing. -/
theorem generate_leaves_classes (hfault : fault.OfContents) (h : generate c w = .error fault w') :
    ∃ before after classes skipped between, c.models = before ++ after ∧ between.disk = w'.disk ∧
      Generates c.outputDirectory w.disk before classes skipped w'.disk ∧
      Stops c (classes.map (GeneratedClass.path c.outputDirectory)) between fault after ∧
      Alters (classes.map (GeneratedClass.path c.outputDirectory))
        (c.outputDirectory :: Path.parents c.outputDirectory) w.disk w'.disk ∧
      Standing c.outputDirectory classes w'.disk := by
  obtain ⟨hdirectory, before, after, paths, skipped, between, hmodels, hrun, hdisk, hstops⟩ := generate_stops hfault h
  obtain ⟨⟨classes, hgenerates, rfl⟩, halters, hmade⟩ := generateClasses_eq_ok hdirectory hrun
  rw [hdisk] at hmade halters hgenerates
  exact ⟨before, after, classes, skipped, between, hmodels, hdisk, hgenerates, hstops, halters,
    hgenerates.standing hdirectory hmade⟩

/-- Two models of one interface name, and a file that is no model. -/
def brokenModels : Workspace where
  disk := (twoModels "Parcels" "Parcels").disk.put ["c.json".toList] (.file (Utf8.encode "\x7b".toList)) trivial
  notices := []

def brokenGeneration : GenerateConfig :=
  ⟨["a.json".toList, "b.json".toList, "c.json".toList], "out".toList, some "archive".toList⟩

/-- A model whose package brings a tag into its class. -/
def taggedModel : Workspace where
  disk := (Disk.fresh []).put ["a.json".toList] (.file (Utf8.encode (modelText "Parcels" "a\\n//TITLE:b"))) trivial
  notices := []

def taggedGeneration : GenerateConfig := ⟨["a.json".toList], "out".toList, some "archive".toList⟩

theorem generate_leaves_classes_parcels :
    (∃ fault w' before after classes skipped between, generate brokenGeneration brokenModels = .error fault w' ∧
      fault = .model "c.json".toList .truncated ∧ brokenGeneration.models = before ++ after ∧
      Generates "out".toList brokenModels.disk before classes skipped w'.disk ∧
      Stops brokenGeneration (classes.map (GeneratedClass.path "out".toList)) between fault after ∧
      Standing "out".toList classes w'.disk) ∧
    ∃ fault w' before after classes skipped between, generate taggedGeneration taggedModel = .error fault w' ∧
      fault = .markup (.violation .titleOutsideSample) "ParcelsGeneratedSamples.java".toList 2 ∧
      taggedGeneration.models = before ++ after ∧
      Generates "out".toList taggedModel.disk before classes skipped w'.disk ∧
      Stops taggedGeneration (classes.map (GeneratedClass.path "out".toList)) between fault after := by
  have hbroken : failsWith (· = .model "c.json".toList .truncated) (generate brokenGeneration) brokenModels := by
    decide +kernel
  have htagged : failsWith
      (· = .markup (.violation .titleOutsideSample) "ParcelsGeneratedSamples.java".toList 2)
      (generate taggedGeneration) taggedModel := by decide +kernel
  obtain ⟨fault, w', hrun, htest⟩ := exists_of_failsWith hbroken
  obtain ⟨fault', w'', hrun', htest'⟩ := exists_of_failsWith htagged
  obtain rfl := of_decide_eq_true htest
  obtain rfl := of_decide_eq_true htest'
  obtain ⟨before, after, classes, skipped, between, hmodels, -, hgenerates, hstops, -, hstanding⟩ :=
    generate_leaves_classes (.model _ _) hrun
  obtain ⟨before', after', classes', skipped', between', hmodels', -, hgenerates', hstops', -, -⟩ :=
    generate_leaves_classes (.markup _ _ _) hrun'
  exact ⟨⟨_, w', before, after, classes, skipped, between, hrun, rfl, hmodels, hgenerates, hstops, hstanding⟩, _, w'',
    before', after', classes', skipped', between', hrun', rfl, hmodels', hgenerates', hstops'⟩

end Batch

end Exemplar
