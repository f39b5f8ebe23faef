import Exemplar.Proofs.Files.Alter
import Exemplar.Proofs.Store.Archive

/-!
# Writing that fails on the way

Documents are written one after the other, so a failure leaves those before it and nothing of those after it.
What stands in between is the document that fails: it is refused for its name, or its file cannot be written,
and in both cases it has no effect. A name with a separator always fails, wherever it stands.
-/

namespace Exemplar.Store

open Disk

variable {directory : Text} {goal : List Text} {document : Document} {documents : List Document}
  {records : List Record} {paths : List Text} {fault : Fault} {w w' : Workspace}

/-! ### One document -/

theorem not_separated_of_writeDocument {path : Text} (h : writeDocument directory document w = .ok path w') :
    ¬Separated document.service := by
  obtain ⟨⟨⟩, _, hlift, -⟩ := Batch.bind_eq_ok_iff.mp h
  obtain ⟨hcheck, -⟩ := Batch.lift_eq_ok_iff.mp hlift
  intro hseparated
  rw [checkServiceName_eq, if_pos hseparated] at hcheck
  cases hcheck

/-- A document that fails leaves no trace. Its name is refused, or its file cannot be written. -/
theorem writeDocument_eq_error (h : writeDocument directory document w = .error fault w') :
    w' = w ∧ ((Separated document.service ∧ fault = .invalidArgument (.serviceHasSeparator document.service)) ∨
      ∃ e, fault = .io (documentPath directory document.service) e) := by
  rcases Batch.bind_eq_error_iff.mp h with hlift | ⟨⟨⟩, _, hlift, hrest⟩
  · obtain ⟨hcheck, rfl⟩ := Batch.lift_eq_error_iff.mp hlift
    rw [checkServiceName_eq] at hcheck
    split_ifs at hcheck with hseparated
    cases hcheck
    exact ⟨rfl, Or.inl ⟨hseparated, rfl⟩⟩
  · obtain ⟨-, rfl⟩ := Batch.lift_eq_ok_iff.mp hlift
    rcases Batch.bind_eq_error_iff.mp hrest with hwrite | ⟨_, _, -, hlast⟩
    · obtain ⟨rfl, e, rfl⟩ := Batch.writeFile_eq_error hwrite
      exact ⟨rfl, Or.inr ⟨e, rfl⟩⟩
    · cases hlast

/-! ### Documents one after the other -/

theorem not_separated_of_writeDocuments (h : writeDocuments directory documents w = .ok paths w') :
    ∀ service ∈ services documents, ¬Separated service := by
  induction documents generalizing w paths with
  | nil => simp [services]
  | cons document documents ih =>
      obtain ⟨path, between, hfirst, h⟩ := Batch.bind_eq_ok_iff.mp h
      obtain ⟨rest, _, hrest, h⟩ := Batch.bind_eq_ok_iff.mp h
      cases h
      exact List.forall_mem_cons.mpr ⟨not_separated_of_writeDocument hfirst, ih hrest⟩

/-- When documents fail, those before one of them are written, and this one fails. -/
theorem writeDocuments_eq_error (h : writeDocuments directory documents w = .error fault w') :
    ∃ written failing rest paths between, documents = written ++ failing :: rest ∧
      writeDocuments directory written w = .ok paths between ∧
      writeDocument directory failing between = .error fault w' := by
  induction documents generalizing w with
  | nil => cases h
  | cons document documents ih =>
      rcases Batch.bind_eq_error_iff.mp h with hfirst | ⟨path, between, hfirst, h⟩
      · exact ⟨[], document, documents, [], w, rfl, rfl, hfirst⟩
      · rcases Batch.bind_eq_error_iff.mp h with hrest | ⟨_, _, -, hlast⟩
        · obtain ⟨written, failing, rest, paths, later, rfl, hwritten, hfailing⟩ := ih hrest
          refine ⟨document :: written, failing, rest, path :: paths, later, rfl, ?_, hfailing⟩
          exact Batch.bind_eq_ok_iff.mpr ⟨path, between, hfirst, Batch.bind_eq_ok_iff.mpr
            ⟨paths, later, hwritten, rfl⟩⟩
        · cases hlast

/-- Documents that are written alter their own files only. -/
theorem alters_of_writeDocuments (parts : List Text) (hleads : Leads w.disk directory goal)
    (hservices : (services documents).Nodup) (h : writeDocuments directory documents w = .ok paths w') :
    Alters ((services documents).map (documentPath directory)) parts w.disk w'.disk ∧
      Holds w'.disk directory goal documents := by
  obtain ⟨-, hgrows, hholds, hsame⟩ := writeDocuments_eq_ok hleads hservices h
  refine ⟨⟨hgrows, fun location hother => Or.inl (hsame location ?_)⟩, hholds⟩
  rintro service hservice rfl
  obtain ⟨document, hdocument, rfl⟩ := List.mem_map.mp hservice
  exact hother _ (List.mem_map_of_mem hservice) (hholds document hdocument).1

/-! ### Records -/

/-- The services of records, each where it is first seen. -/
def servicesSeen (records : List Record) : List Text := (records.map Record.service).eraseDups

/-- What the file of a service's document holds once the documents of some records are written. -/
def writtenContent (records : List Record) (service : Text) : Content :=
  .file (Utf8.encode (documentFor records service).fileText)

theorem nodup_servicesSeen (records : List Record) : (servicesSeen records).Nodup := by
  rw [servicesSeen, ← services_documentsOf]
  exact nodup_services_documentsOf records

/-- Some of the first documents of records, with what is left of them. -/
theorem eq_of_documentsOf_eq_append {written rest : List Document} (h : documentsOf records = written ++ rest) :
    services written = (servicesSeen records).take written.length ∧
      services rest = (servicesSeen records).drop written.length ∧
      ∀ document ∈ written, documentFor records document.service = document := by
  have hservices : servicesSeen records = services written ++ services rest := by
    rw [servicesSeen, ← services_documentsOf, h, services, List.map_append]
    rfl
  have hlength : (services written).length = written.length := List.length_map _
  refine ⟨?_, ?_, ?_⟩
  · rw [hservices, ← hlength, List.take_left]
  · rw [hservices, ← hlength, List.drop_left]
  · intro document hdocument
    have hmem : document ∈ documentsOf records := h ▸ List.mem_append_left _ hdocument
    rw [documentFor, ← entriesIn_documentsOf, entriesIn_of_mem (nodup_services_documentsOf records) hmem]

/-- A failing run fails before its directory is there, or at one of the documents. -/
theorem writeSamples_eq_error (h : writeSamples records directory w = .error fault w') :
    (Alters [] (directory :: Path.parents directory) w.disk w'.disk ∧
        ((∃ notice, fault = .invalidArgument (.absent notice)) ∨ ∃ e, fault = .io directory e)) ∨
      directory ≠ [] ∧ ∃ made, w.disk.makeDirectories directory = (made.disk, .ok ()) ∧
        writeDocuments directory (documentsOf records) made = .error fault w' := by
  rcases Batch.bind_eq_error_iff.mp h with hlift | ⟨_, _, hlift, hrest⟩
  · obtain ⟨hempty, rfl⟩ := Batch.lift_eq_error_iff.mp hlift
    unfold requireNonEmpty at hempty
    split_ifs at hempty
    cases hempty
    exact Or.inl ⟨Alters.refl _ _, Or.inl ⟨_, rfl⟩⟩
  · obtain ⟨hgiven, rfl⟩ := Batch.lift_eq_ok_iff.mp hlift
    have hdirectory : directory ≠ [] := by
      rintro rfl
      simp [requireNonEmpty] at hgiven
    rcases Batch.bind_eq_error_iff.mp hrest with hmade | ⟨⟨⟩, made, hmade, hdocuments⟩
    · obtain ⟨hdisk, hfault⟩ := Batch.makeDirectories_eq_error hmade
      exact Or.inl ⟨hdisk ▸ alters_makeDirectories _ hdirectory, Or.inr hfault⟩
    · exact Or.inr ⟨hdirectory, made, Batch.makeDirectories_eq_ok hmade, hdocuments⟩

/-! ### What a failing run leaves -/

/-- Documents of different services have different places. -/
theorem locate_documentPath_ne_of_ne {d : Disk} {service other : Text} {location : List Text}
    (hleads : Leads d directory goal) (hother : d.locate (documentPath directory other) =
      .ok (goal ++ [documentName other])) (hslash : '/' ∉ service) (hne : service ≠ other)
    (hlocate : d.locate (documentPath directory service) = .ok location) :
    d.locate (documentPath directory other) ≠ .ok location := by
  intro hsame
  rw [hother] at hsame
  cases hsame
  rw [hleads.locate hslash, bind_eq_ok_iff] at hlocate
  obtain ⟨⟨⟩, -, hlocate⟩ := hlocate
  split_ifs at hlocate
  exact hne (goal_documentName_inj.mp (Except.ok.inj hlocate))

/-- The state in which a failing run leaves the disk. The first services of the records have their documents,
and none of them has a separator in its name. Nothing else has changed but that directories were made on the way, so
a later service has no other document than it had before. -/
structure Interrupted (records : List Record) (directory : Text) (k : Nat) (d d' : Disk) : Prop where
  whole : ∀ service ∈ (servicesSeen records).take k, ¬Separated service ∧
    d'.contentOf (documentPath directory service) = .ok (writtenContent records service)
  alters : Alters (((servicesSeen records).take k).map (documentPath directory))
    (directory :: Path.parents directory) d d'
  later : ∀ service ∈ (servicesSeen records).drop k, '/' ∉ service → ∀ location,
    d'.locate (documentPath directory service) = .ok location → ∀ bytes,
      d'.content? location = some (.file bytes) ↔ d.content? location = some (.file bytes)

theorem interrupted_zero {d d' : Disk} (h : Alters [] (directory :: Path.parents directory) d d') :
    Interrupted records directory 0 d d' := by
  refine ⟨by simp, h, ?_⟩
  intro _ _ _ location _ bytes
  exact h.file_iff (by simp)

/-- A run that fails at a document leaves those before it. -/
theorem interrupted_of_writeDocuments {d : Disk} {made : Workspace} {written rest : List Document}
    (hdocuments : documentsOf records = written ++ rest)
    (hmakes : Alters [] (directory :: Path.parents directory) d made.disk)
    (hleads : Leads made.disk directory goal) (h : writeDocuments directory written made = .ok paths w') :
    Interrupted records directory written.length d w'.disk := by
  obtain ⟨hwritten, hrest, hfor⟩ := eq_of_documentsOf_eq_append hdocuments
  have hnodup : (services written ++ services rest).Nodup := by
    rw [hwritten, hrest, List.take_append_drop]
    exact nodup_servicesSeen records
  obtain ⟨hservices, -, hdisjoint⟩ := List.nodup_append.mp hnodup
  obtain ⟨haltered, hholds⟩ := alters_of_writeDocuments (directory :: Path.parents directory) hleads hservices h
  have hall := hmakes.trans haltered
  refine ⟨?_, hwritten ▸ hall, ?_⟩
  · rw [← hwritten]
    intro service hservice
    refine ⟨not_separated_of_writeDocuments h service hservice, ?_⟩
    obtain ⟨document, hdocument, rfl⟩ := List.mem_map.mp hservice
    rw [hholds.contentOf hdocument, writtenContent, hfor document hdocument]
  · rw [← hrest]
    intro service hservice hslash location hlocate bytes
    refine hall.file_iff ?_
    rw [List.nil_append]
    intro path hpath
    obtain ⟨other, hother, rfl⟩ := List.mem_map.mp hpath
    obtain ⟨document, hdocument, rfl⟩ := List.mem_map.mp hother
    exact locate_documentPath_ne_of_ne (hleads.of_grows haltered.grows) (hholds document hdocument).1 hslash
      (hdisjoint _ hother _ hservice).symm hlocate

/-- A run that succeeds leaves the document of every service. -/
theorem contentOf_of_writeSamples (h : writeSamples records directory w = .ok paths w') {service : Text}
    (hservice : service ∈ servicesSeen records) :
    w'.disk.contentOf (documentPath directory service) = .ok (writtenContent records service) := by
  obtain ⟨-, -, goal, -, -, hholds, -⟩ := writeSamples_leaves h
  have hmem : documentFor records service ∈ documentsOf records := by
    rw [documentsOf_eq]
    exact List.mem_map_of_mem hservice
  exact hholds.contentOf hmem

/-- **A failed writing leaves an exact part of the documents.** These are the documents of the first services, as a
run that succeeds leaves them; the run fails before all of them are there, and a service with a separator in its name
makes it fail wherever it stands. -/
theorem writeSamples_interrupted (records : List Record) (directory : Text) (w : Workspace) :
    (∀ fault w', writeSamples records directory w = .error fault w' →
      ∃ k, (k = 0 ∨ k < (servicesSeen records).length) ∧ Interrupted records directory k w.disk w'.disk) ∧
    (∀ v paths v', writeSamples records directory v = .ok paths v' → ∀ service ∈ servicesSeen records,
      v'.disk.contentOf (documentPath directory service) = .ok (writtenContent records service)) ∧
    ((∃ r ∈ records, Separated r.service) → ∃ fault w', writeSamples records directory w = .error fault w') := by
  refine ⟨?_, fun v paths v' h service => contentOf_of_writeSamples h, ?_⟩
  · intro fault w' h
    rcases writeSamples_eq_error h with ⟨halters, -⟩ | ⟨hdirectory, made, hmade, hdocuments⟩
    · exact ⟨0, Or.inl rfl, interrupted_zero halters⟩
    · obtain ⟨goal, hlocate, hgoal, hmakes⟩ := makeDirectories_eq_ok hdirectory hmade
      obtain ⟨written, failing, rest, paths, between, hsplit, hwritten, hfailing⟩ := writeDocuments_eq_error hdocuments
      obtain ⟨rfl, -⟩ := writeDocument_eq_error hfailing
      refine ⟨written.length, Or.inr ?_, interrupted_of_writeDocuments hsplit hmakes.alters
        ⟨(locate_eq_ok.mp hlocate).2, hgoal⟩ hwritten⟩
      rw [servicesSeen, ← services_documentsOf, hsplit, services, List.length_map]
      simp
  · rintro ⟨r, hr, hseparated⟩
    cases hrun : writeSamples records directory w with
    | error fault w' => exact ⟨fault, w', rfl⟩
    | ok paths w' =>
        obtain ⟨-, made, -, hdocuments⟩ := writeSamples_eq_ok hrun
        have hservice : r.service ∈ services (documentsOf records) :=
          mem_services_documentsOf.mpr (List.mem_map_of_mem hr)
        exact absurd hseparated (not_separated_of_writeDocuments hdocuments _ hservice)

/-- One record for each of some services. -/
def recordsOf (services : List String) : List Record :=
  services.filterMap fun service => (Label.ofParts "Send".toList service.toList).toOption.map fun label =>
    ⟨label, "Send".toList, "Sends.".toList, ["send();".toList]⟩

def threeRecords : List Record := recordsOf ["Parcels", "Letters", "Stamps"]

/-- Three services, the second of which has a separator in its name. -/
def separatedRecords : List Record := recordsOf ["Parcels", "Post/Letters", "Stamps"]

/-- An archive in which a directory stands where the document of the letters would be. -/
def blockedArchive : Workspace where
  disk := (Disk.fresh []).put ["archive".toList, "Letters.json".toList, "Letters.txt".toList] (.file []) trivial
  notices := []

theorem writeSamples_interrupted_letters :
    (∃ fault w' k, writeSamples threeRecords "archive".toList blockedArchive = .error fault w' ∧
      fault = .io "archive/Letters.json".toList .isDirectory ∧
      (k = 0 ∨ k < (servicesSeen threeRecords).length) ∧
      Interrupted threeRecords "archive".toList k blockedArchive.disk w'.disk) ∧
    (∃ paths v', writeSamples threeRecords "archive".toList emptyWorkspace = .ok paths v' ∧
      v'.disk.contentOf (documentPath "archive".toList "Letters".toList) =
        .ok (writtenContent threeRecords "Letters".toList)) ∧
    (∃ r ∈ separatedRecords, Separated r.service) ∧
    ∃ fault w', writeSamples separatedRecords "archive".toList emptyWorkspace = .error fault w' := by
  have hfails : Batch.failsWith (· = .io "archive/Letters.json".toList .isDirectory)
      (writeSamples threeRecords "archive".toList) blockedArchive := by decide +kernel
  have hgives : Batch.gives (·.length = 3) (writeSamples threeRecords "archive".toList) emptyWorkspace := by
    decide +kernel
  have hseparated : ∃ r ∈ separatedRecords, Separated r.service := by decide
  obtain ⟨fault, w', hrun, hfault⟩ := Batch.exists_of_failsWith hfails
  obtain ⟨paths, v', hrun', -⟩ := Batch.exists_of_gives hgives
  obtain ⟨hleft, hwhole, -⟩ := writeSamples_interrupted threeRecords "archive".toList blockedArchive
  obtain ⟨-, -, hrefused⟩ := writeSamples_interrupted separatedRecords "archive".toList emptyWorkspace
  obtain ⟨k, hk, hinterrupted⟩ := hleft fault w' hrun
  exact ⟨⟨fault, w', k, hrun, of_decide_eq_true hfault, hk, hinterrupted⟩,
    ⟨paths, v', hrun', hwhole emptyWorkspace paths v' hrun' "Letters".toList (by decide)⟩, hseparated,
    hrefused hseparated⟩

end Exemplar.Store
