import Exemplar.Proofs.Batch.Workspace
import Exemplar.Proofs.Files.Write
import Exemplar.Proofs.Store.Documents
import Exemplar.Proofs.Store.Reading

/-!
# Reading what was written

An archive that was written gives the first of the written records with a service and an id. The samples of
other services are read as before, unless the directory was missing and the service has no document because
its name is too long for one.
-/

namespace Exemplar.Store

open Disk

variable {d d' : Disk} {directory service id : Text} {goal : List Text}

/-! ### The files of documents -/

theorem slash_not_mem_documentName (h : '/' ∉ service) : '/' ∉ documentName service := by
  simp [documentName, h]

theorem documentName_inj {a b : Text} : documentName a = documentName b ↔ a = b :=
  List.append_left_inj _

theorem five_le_length_documentName (service : Text) : 5 ≤ (documentName service).length := by
  simp [documentName]

/-- A directory that paths lead to. -/
structure Leads (d : Disk) (directory : Text) (goal : List Text) : Prop where
  follow : d.follow directory = .ok goal
  directory : d.content? goal = some .directory

theorem Leads.of_grows (h : Leads d directory goal) (hgrows : Grows d d') : Leads d' directory goal := by
  refine ⟨?_, hgrows.directory h.directory⟩
  calc
    d'.follow directory = d.follow directory := follow_of_grows hgrows (by simp [h.follow])
    _ = .ok goal := h.follow

/-- Where the document of a service is looked for in a directory. -/
theorem Leads.locate (h : Leads d directory goal) (hslash : '/' ∉ service) :
    d.locate (documentPath directory service) = (do
      checkPath (documentPath directory service)
      if nameLimit < (Utf8.encode (documentName service)).length then .error .nameTooLong
      else if (d.content? (goal ++ [documentName service])).isSome then
        .ok (goal ++ [documentName service])
      else .error .notFound) := by
  have hname : ∀ dots : Text, dots.length < 5 → documentName service ≠ dots := by
    intro dots hlt heq
    have hlength := five_le_length_documentName service
    rw [heq] at hlength
    omega
  have hdots : ¬(documentName service = [] ∨ documentName service = ['.']) :=
    not_or.mpr ⟨hname _ (by simp), hname _ (by simp)⟩
  rw [documentPath, locate_join d directory (slash_not_mem_documentName hslash), h.follow, ok_bind, step_eq,
    h.directory]
  dsimp only
  rw [if_neg hdots, if_neg (hname _ (by simp))]

/-! ### Writing -/

theorem writeDocument_eq_ok {document : Document} {w w' : Workspace} {path : Text}
    (hleads : Leads w.disk directory goal) (h : writeDocument directory document w = .ok path w') :
    path = documentPath directory document.service ∧
      Puts w.disk (goal ++ [documentName document.service]) (.file (Utf8.encode document.fileText))
        w'.disk ∧
      w'.disk.locate (documentPath directory document.service) =
        .ok (goal ++ [documentName document.service]) := by
  obtain ⟨⟨⟩, _, hlift, hrest⟩ := Batch.bind_eq_ok_iff.mp h
  obtain ⟨hcheck, rfl⟩ := Batch.lift_eq_ok_iff.mp hlift
  obtain ⟨⟨⟩, _, hwrite, hlast⟩ := Batch.bind_eq_ok_iff.mp hrest
  cases hlast
  have hslash : '/' ∉ document.service := by
    intro hmem
    simp [checkServiceName, hmem] at hcheck
  obtain ⟨found, hputs, hlocate⟩ := Disk.writeFile_eq_ok (Batch.writeFile_eq_ok hwrite)
  have hfound : found = goal ++ [documentName document.service] := by
    have hlocate' := hlocate
    rw [(hleads.of_grows hputs.grows).locate hslash, bind_eq_ok_iff] at hlocate'
    obtain ⟨⟨⟩, -, hlocate'⟩ := hlocate'
    split_ifs at hlocate'
    exact (Except.ok.inj hlocate').symm
  subst hfound
  exact ⟨rfl, hputs, hlocate⟩

theorem goal_documentName_inj {a b : Text} :
    goal ++ [documentName a] = goal ++ [documentName b] ↔ a = b := by
  rw [List.append_cancel_left_eq, List.singleton_inj, documentName_inj]

/-- A disk where each of some documents is at its place in a directory. -/
def Holds (d : Disk) (directory : Text) (goal : List Text) (documents : List Document) : Prop :=
  ∀ document ∈ documents,
    d.locate (documentPath directory document.service) = .ok (goal ++ [documentName document.service]) ∧
      d.content? (goal ++ [documentName document.service]) =
        some (.file (Utf8.encode document.fileText))

theorem Holds.contentOf {documents : List Document} (h : Holds d directory goal documents)
    {document : Document} (hmem : document ∈ documents) :
    d.contentOf (documentPath directory document.service) =
      .ok (.file (Utf8.encode document.fileText)) := by
  obtain ⟨hlocate, hcontent⟩ := h document hmem
  rw [contentOf_eq, hlocate, ok_bind, hcontent]

theorem Holds.service_inj {documents : List Document} (h : Holds d directory goal documents)
    {a b : Document} (ha : a ∈ documents) (hb : b ∈ documents)
    (hpath : documentPath directory a.service = documentPath directory b.service) :
    a.service = b.service := by
  have hplace := (h a ha).1
  rw [hpath, (h b hb).1] at hplace
  exact (goal_documentName_inj.mp (Except.ok.inj hplace)).symm

/-- Writing documents gives every one of them its file, and changes no other location. -/
theorem writeDocuments_eq_ok {documents : List Document} {w w' : Workspace} {paths : List Text}
    (hleads : Leads w.disk directory goal) (hservices : (services documents).Nodup)
    (h : writeDocuments directory documents w = .ok paths w') :
    paths = (services documents).map (documentPath directory) ∧ Grows w.disk w'.disk ∧
      Holds w'.disk directory goal documents ∧
      ∀ location, (∀ service ∈ services documents, location ≠ goal ++ [documentName service]) →
        w'.disk.content? location = w.disk.content? location := by
  induction documents generalizing w paths with
  | nil =>
      cases h
      exact ⟨rfl, Grows.refl _, by simp [Holds], fun _ _ => rfl⟩
  | cons document documents ih =>
      obtain ⟨hservice, hservices⟩ := List.nodup_cons.mp hservices
      obtain ⟨path, between, hfirst, h⟩ := Batch.bind_eq_ok_iff.mp h
      obtain ⟨rest, _, hrest, h⟩ := Batch.bind_eq_ok_iff.mp h
      cases h
      obtain ⟨rfl, hputs, hlocate⟩ := writeDocument_eq_ok hleads hfirst
      obtain ⟨rfl, hgrows, hholds, hsame⟩ := ih (hleads.of_grows hputs.grows) hservices hrest
      refine ⟨rfl, hputs.grows.trans hgrows, List.forall_mem_cons.mpr ⟨⟨?_, ?_⟩, hholds⟩, ?_⟩
      · rw [locate_of_grows hgrows (by simp [hlocate]), hlocate]
      · have hothers : ∀ service ∈ services documents,
            goal ++ [documentName document.service] ≠ goal ++ [documentName service] := by
          intro service hmem heq
          rw [← goal_documentName_inj.mp heq] at hmem
          exact hservice hmem
        rw [hsame _ hothers, hputs.content?_self]
      · intro location hother
        rw [hsame location fun service hmem => hother service (List.mem_cons_of_mem _ hmem)]
        exact hputs.content?_of_ne (hother document.service (List.mem_cons_self ..))

theorem writeSamples_eq_ok {records : List Record} {w w' : Workspace} {paths : List Text}
    (h : writeSamples records directory w = .ok paths w') :
    directory ≠ [] ∧ ∃ made, w.disk.makeDirectories directory = (made.disk, .ok ()) ∧
      writeDocuments directory (documentsOf records) made = .ok paths w' := by
  obtain ⟨_, _, hlift, hrest⟩ := Batch.bind_eq_ok_iff.mp h
  obtain ⟨hdirectory, rfl⟩ := Batch.lift_eq_ok_iff.mp hlift
  obtain ⟨⟨⟩, made, hmade, hlast⟩ := Batch.bind_eq_ok_iff.mp hrest
  refine ⟨?_, made, Batch.makeDirectories_eq_ok hmade, hlast⟩
  rintro rfl
  simp [requireNonEmpty] at hdirectory

/-- The written documents are in their files. Everywhere else nothing has changed but that the directory
was made, with those it stands in. -/
theorem writeSamples_leaves {records : List Record} {w w' : Workspace} {paths : List Text}
    (h : writeSamples records directory w = .ok paths w') :
    paths = (services (documentsOf records)).map (documentPath directory) ∧ Grows w.disk w'.disk ∧
      ∃ goal, w'.disk.locate directory = .ok goal ∧ w'.disk.content? goal = some .directory ∧
        Holds w'.disk directory goal (documentsOf records) ∧
        ∀ location, (∀ service ∈ services (documentsOf records), location ≠ goal ++ [documentName service]) →
          w'.disk.content? location = w.disk.content? location ∨
            MadeFor (directory :: Path.parents directory) w.disk w'.disk location := by
  obtain ⟨hdirectory, made, hmade, hdocuments⟩ := writeSamples_eq_ok h
  obtain ⟨goal, hlocate, hgoal, hmakes⟩ := makeDirectories_eq_ok hdirectory hmade
  have hleads : Leads made.disk directory goal := ⟨(locate_eq_ok.mp hlocate).2, hgoal⟩
  obtain ⟨hpaths, hgrows, hholds, hsame⟩ :=
    writeDocuments_eq_ok hleads (nodup_services_documentsOf records) hdocuments
  refine ⟨hpaths, hmakes.grows.trans hgrows, goal, ?_, hgrows.directory hgoal, hholds, ?_⟩
  · rw [locate_of_grows hgrows (by simp [hlocate]), hlocate]
  · intro location hother
    rcases hmakes.same_or_made location with hbefore | hnew
    · exact Or.inl ((hsame location hother).trans hbefore)
    · exact Or.inr (hnew.of_grows hgrows)

/-- Where no document was written nothing has changed, in a directory whose path has no double dots. -/
theorem writeSamples_disk {records : List Record} {w w' : Workspace} {paths : List Text}
    (hwrite : writeSamples records directory w = .ok paths w')
    (hup : Path.Component.up ∉ Path.components directory) :
    ∃ goal, Leads w'.disk directory goal ∧ checkPath directory = .ok () ∧ Grows w.disk w'.disk ∧
      (∀ document ∈ documentsOf records, w'.disk.contentOf (documentPath directory document.service) =
        .ok (.file (Utf8.encode document.fileText))) ∧
      ∀ service, service ∉ records.map Record.service →
        w'.disk.content? (goal ++ [documentName service]) =
          w.disk.content? (goal ++ [documentName service]) := by
  obtain ⟨-, hgrows, goal, hlocate, hgoal, hholds, hsame⟩ := writeSamples_leaves hwrite
  obtain ⟨hcheck, hfollow⟩ := locate_eq_ok.mp hlocate
  refine ⟨goal, ⟨hfollow, hgoal⟩, hcheck, hgrows, fun _ hmem => hholds.contentOf hmem, ?_⟩
  intro service hservice
  have hother : ∀ written ∈ services (documentsOf records),
      goal ++ [documentName service] ≠ goal ++ [documentName written] := by
    intro written hwritten heq
    rw [← goal_documentName_inj.mp heq] at hwritten
    exact hservice (mem_services_documentsOf.mp hwritten)
  refine (hsame _ hother).resolve_right ?_
  intro hmade
  -- The document lies below the directory, so making the way there does not touch it.
  have hlength := (hmade.on_way hup hlocate).length_le
  simp only [List.length_append, List.length_singleton] at hlength
  omega

/-! ### Reading -/

theorem Leads.readContent (h : Leads d directory goal) (hslash : '/' ∉ service) :
    d.readContent (documentPath directory service) = (do
      checkPath (documentPath directory service)
      if nameLimit < (Utf8.encode (documentName service)).length then .error .nameTooLong
      else opened (d.content? (goal ++ [documentName service])) (d.denial (goal ++ [documentName service]))) := by
  rw [readContent_eq, h.locate hslash, bind_assoc]
  congr 1
  funext
  split
  · rfl
  · cases hcontent : d.content? (goal ++ [documentName service]) with
    | none => rfl
    | some content => rw [Option.isSome_some, if_pos rfl, ok_bind, hcontent]

theorem readContent_of_missing (hgrows : Grows d d') (hleads : Leads d' directory goal)
    (hslash : '/' ∉ service) (hgoal : d.content? goal = none) :
    d.readContent (documentPath directory service) =
      checkPath (documentPath directory service) >>= fun _ => .error .notFound := by
  have hstep : d.follow directory >>= (d.step · (documentName service)) = .error .notFound := by
    by_cases hfollow : d.follow directory = .error .notFound
    · rw [hfollow, error_bind]
    · rw [← follow_of_grows hgrows hfollow, hleads.follow, ok_bind, step_eq, hgoal]
  rw [readContent_eq, documentPath, locate_join d directory (slash_not_mem_documentName hslash), hstep,
    bind_assoc]
  rfl

/-- A directory that a later state leads to was there already, or it was missing. -/
theorem Leads.before (hgrows : Grows d d') (hleads : Leads d' directory goal)
    (hcheck : checkPath directory = .ok ()) (hup : Path.Component.up ∉ Path.components directory) :
    (Leads d directory goal ∧ d.isDirectory directory) ∨
      (d.content? goal = none ∧ ¬d.isDirectory directory) := by
  rcases hgrows.directory_or_none hleads.directory with hgoal | hgoal
  · have hfollow := follow_of_directory hgrows hup hleads.follow hgoal
    exact Or.inl ⟨⟨hfollow, hgoal⟩, isDirectory_iff.mpr ⟨goal, locate_eq_ok.mpr ⟨hcheck, hfollow⟩, hgoal⟩⟩
  · refine Or.inr ⟨hgoal, fun hdirectory => ?_⟩
    obtain ⟨found, hlocate, hfound⟩ := isDirectory_iff.mp hdirectory
    have hfollow := (locate_eq_ok.mp hlocate).2
    rw [← follow_of_grows hgrows (by simp [hfollow]), hleads.follow] at hfollow
    rw [← Except.ok.inj hfollow, hgoal] at hfound
    cases hfound

/-- The document of a service has a name that is too long for a file, which is not noticed because its directory is
missing. -/
structure HidesLongName (d : Disk) (directory service : Text) : Prop where
  missing : ¬d.isDirectory directory
  long : nameLimit < (Utf8.encode (documentName service)).length
  path : checkPath (documentPath directory service) = .ok ()

section Later

variable (hgrows : Grows d d') (hleads : Leads d' directory goal) (hcheck : checkPath directory = .ok ())
  (hup : Path.Component.up ∉ Path.components directory) (hslash : '/' ∉ service)

include hgrows hleads hcheck hup hslash

/-- In a later state with the directory there, a document that is not written is read as it was before. -/
theorem readContent_of_grows (hshown : ¬HidesLongName d directory service)
    (hsame : d'.content? (goal ++ [documentName service]) = d.content? (goal ++ [documentName service])) :
    d'.readContent (documentPath directory service) = d.readContent (documentPath directory service) := by
  rcases hleads.before hgrows hcheck hup with ⟨hbefore, -⟩ | ⟨hgoal, hmissing⟩
  · rw [hleads.readContent hslash, hbefore.readContent hslash, hsame, hgrows.denial]
  · rw [hleads.readContent hslash, hsame, content?_of_none hgoal,
      readContent_of_missing hgrows hleads hslash hgoal]
    cases hpath : checkPath (documentPath directory service) with
    | error e => rfl
    | ok =>
        rw [ok_bind, ok_bind, if_neg fun hlong => hshown ⟨hmissing, hlong, hpath⟩]
        rfl

/-- Once the directory is there, the name is noticed to be too long. -/
theorem HidesLongName.readContent (h : HidesLongName d directory service) :
    d.readContent (documentPath directory service) = .error .notFound ∧
      d'.readContent (documentPath directory service) = .error .nameTooLong := by
  rcases hleads.before hgrows hcheck hup with ⟨-, hdirectory⟩ | ⟨hgoal, -⟩
  · exact absurd hdirectory h.missing
  · rw [readContent_of_missing hgrows hleads hslash hgoal, hleads.readContent hslash, h.path, ok_bind, ok_bind,
      if_pos h.long]
    exact ⟨rfl, rfl⟩

end Later

/-- What reading gives for what its document's path opens. -/
def sampleAt (path service id : Text) : Except FileError Content → Except Fault (Option Retrieved)
  | .ok .directory => .error (.retrieval service id (.unreadable .isDirectory))
  | .ok (.file bytes) => sampleIn service id (.file bytes)
  | .error .notFound => .ok none
  | .error e => .error (.io path e)

theorem readSample_eq (d : Disk) (hdirectory : directory ≠ []) (hservice : service ≠ [])
    (hslash : '/' ∉ service) (hback : '\\' ∉ service) (hid : id ≠ []) :
    readSample d directory service id =
      sampleAt (documentPath directory service) service id
        (d.readContent (documentPath directory service)) := by
  rw [readSample_of_not_separated hdirectory hservice hid (not_or.mpr ⟨hslash, hback⟩), readContent]
  cases d.read (documentPath directory service) with
  | error e => cases e <;> rfl
  | ok node => cases node <;> rfl

/-- What a record is retrieved as, if none of its parts is empty. -/
def retrieved? (r : Record) : Option Retrieved :=
  if h : r.title ≠ [] ∧ r.description ≠ [] ∧ r.code ≠ [] then
    some ⟨r.id, r.service, r.title, r.description, r.code, r.label.id_ne, r.label.service_ne, h.1,
      h.2.1, h.2.2⟩
  else none

theorem retrieve?_ofRecord (r : Record) : (Entry.ofRecord r).retrieve? r.service = retrieved? r := by
  have hid : r.id ≠ [] := r.label.id_ne
  have hservice : r.service ≠ [] := r.label.service_ne
  change (Retrieved.ofParts r.id r.service r.title r.description r.code).toOption = retrieved? r
  unfold Retrieved.ofParts retrieved?
  rw [dif_neg hid, dif_neg hservice]
  by_cases htitle : r.title = []
  · simp [htitle, refuseAbsent, Except.toOption]
  · by_cases hdescription : r.description = []
    · simp [htitle, hdescription, refuseAbsent, Except.toOption]
    · by_cases hcode : r.code = [] <;>
        simp [htitle, hdescription, hcode, refuseAbsent, Except.toOption]

/-- The first record of a service with an id. -/
def firstRecord (service id : Text) (records : List Record) : Option Record :=
  records.find? fun r => r.service = service ∧ r.id = id

theorem firstWithId_ofRecord (service id : Text) (records : List Record) :
    (firstWithId id ((records.filter (·.service = service)).map Entry.ofRecord)).bind
        (·.retrieve? service) =
      (firstRecord service id records).bind retrieved? := by
  have hfirst : firstWithId id ((records.filter (·.service = service)).map Entry.ofRecord) =
      (firstRecord service id records).map Entry.ofRecord := by
    rw [firstWithId, firstRecord, List.find?_map, List.find?_filter]
    simp [Entry.ofRecord]
  rw [hfirst, Option.bind_map]
  cases hrecord : firstRecord service id records with
  | none => rfl
  | some r =>
      obtain ⟨rfl, -⟩ : r.service = service ∧ r.id = id := by
        simpa using List.find?_some hrecord
      exact retrieve?_ofRecord r

theorem sampleAt_fileText (path id : Text) {records : List Record} {document : Document}
    (hmem : document ∈ documentsOf records) :
    sampleAt path document.service id (.ok (.file (Utf8.encode document.fileText))) =
      .ok ((firstRecord document.service id records).bind retrieved?) := by
  rw [documentsOf_eq] at hmem
  obtain ⟨service, -, rfl⟩ := List.mem_map.mp hmem
  rw [sampleAt, sampleIn, findEntry_fileText]
  exact congrArg _ (firstWithId_ofRecord service id records)

/-- After writing, every service of the records whose document is not denied has its first record with the id, or no
sample if there is none or a part of it is empty. Every other service has what it had before, with one exception: a
name too long for a file is not looked at while the directory is missing, and fails once the directory is there. -/
theorem readSample_writeSamples {records : List Record} {w w' : Workspace} {paths : List Text}
    (hwrite : writeSamples records directory w = .ok paths w')
    (hup : Path.Component.up ∉ Path.components directory) (hservice : service ≠ [])
    (hslash : '/' ∉ service) (hback : '\\' ∉ service) (hid : id ≠ []) :
    (service ∈ records.map Record.service → w'.disk.Grants (documentPath directory service) →
      readSample w'.disk directory service id =
        .ok ((firstRecord service id records).bind retrieved?)) ∧
    (service ∉ records.map Record.service →
      (¬HidesLongName w.disk directory service →
        readSample w'.disk directory service id = readSample w.disk directory service id) ∧
      (HidesLongName w.disk directory service →
        readSample w.disk directory service id = .ok none ∧
          readSample w'.disk directory service id =
            .error (.io (documentPath directory service) .nameTooLong))) := by
  have hdirectory := (writeSamples_eq_ok hwrite).1
  have hread (d : Disk) := readSample_eq d hdirectory hservice hslash hback hid
  obtain ⟨goal, hleads, hcheck, hgrows, hfiles, hsame⟩ := writeSamples_disk hwrite hup
  constructor
  · intro hmem hgrants
    obtain ⟨document, hdocument, rfl⟩ := List.mem_map.mp (mem_services_documentsOf.mpr hmem)
    rw [hread, hgrants.readContent_eq, hfiles document hdocument]
    exact sampleAt_fileText _ id hdocument
  · intro hmem
    rw [hread, hread]
    constructor
    · intro hshown
      rw [readContent_of_grows hgrows hleads hcheck hup hslash hshown (hsame service hmem)]
    · intro hhides
      obtain ⟨hbefore, hafter⟩ := hhides.readContent hgrows hleads hcheck hup hslash
      rw [hbefore, hafter]
      exact ⟨rfl, rfl⟩

def parcel : Record where
  label := ⟨"Parcels".toList, "Send".toList, by decide, by decide⟩
  title := "Send a parcel".toList
  description := "Sends \"one\" parcel.".toList
  codeLines := ["    send();".toList]

def emptyWorkspace : Workspace := ⟨Disk.fresh [], []⟩

theorem readSample_writeSamples_parcel :
    ∃ paths w', writeSamples [parcel] "archive/samples".toList emptyWorkspace = .ok paths w' ∧
      readSample w'.disk "archive/samples".toList "Parcels".toList "Send".toList =
        .ok (retrieved? parcel) ∧
      readSample w'.disk "archive/samples".toList "Letters".toList "Send".toList =
        readSample emptyWorkspace.disk "archive/samples".toList "Letters".toList "Send".toList := by
  have hrun : (match writeSamples [parcel] "archive/samples".toList emptyWorkspace with
      | .ok _ _ => true
      | .error _ _ => false) = true := by decide +kernel
  cases hwrite : writeSamples [parcel] "archive/samples".toList emptyWorkspace with
  | error fault w' =>
      rw [hwrite] at hrun
      cases hrun
  | ok paths w' =>
      refine ⟨paths, w', rfl, ?_, ?_⟩
      · have hdenial := (writeSamples_leaves hwrite).2.1.denial
        exact (readSample_writeSamples hwrite (by decide) (by decide) (by decide) (by decide)
          (by decide)).1 (by decide) fun goal _ => congrFun hdenial goal
      · have hother := (@readSample_writeSamples _ "Letters".toList "Send".toList _ _ _ _ hwrite
          (by decide) (by decide) (by decide) (by decide) (by decide)).2 (by decide)
        exact hother.1 fun hhides => absurd hhides.long (by decide)

/-- A name of 257 bytes is no document before the directory is made, and an error afterwards. -/
theorem not_readSample_unchanged :
    ¬∀ (records : List Record) (directory service id : Text) (w w' : Workspace) (paths : List Text),
      writeSamples records directory w = .ok paths w' →
      Path.Component.up ∉ Path.components directory → service ≠ [] → '/' ∉ service →
      '\\' ∉ service → id ≠ [] → service ∉ records.map Record.service →
      readSample w'.disk directory service id = readSample w.disk directory service id := by
  intro h
  have hrun : (match writeSamples [] "out".toList emptyWorkspace with
      | .ok _ w' => decide (readSample w'.disk "out".toList (List.replicate 252 'x') "A".toList =
          readSample emptyWorkspace.disk "out".toList (List.replicate 252 'x') "A".toList)
      | .error _ _ => true) = false := by decide +kernel
  cases hwrite : writeSamples [] "out".toList emptyWorkspace with
  | error fault w' =>
      rw [hwrite] at hrun
      cases hrun
  | ok paths w' =>
      have hsame := h [] "out".toList (List.replicate 252 'x') "A".toList emptyWorkspace w' paths hwrite
        (by decide) (by decide) (by decide +kernel) (by decide +kernel) (by decide) (by decide)
      rw [hwrite] at hrun
      exact of_decide_eq_false hrun hsame

end Exemplar.Store
