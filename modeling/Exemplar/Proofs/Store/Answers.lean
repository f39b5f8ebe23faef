import Exemplar.Proofs.Batch.Workspace
import Exemplar.Proofs.Files.Locate
import Exemplar.Proofs.Store.Lookup
import Exemplar.Proofs.Store.Reading

/-!
# What a reading answers

A reading for a name that a document can have answers in three ways: with a sample, with none, or with a
failure. The bytes of the document decide among them through its first entry with the id. An entry that lacks
a part is no sample, even where a complete entry with the same id follows; an entry that lacks none is one,
so what the making of a sample checks has been checked before.
-/

namespace Exemplar.Store

namespace Entry

def parts (e : Entry) : List (Option Text) := [e.id, e.title, e.description, e.content]

/-- No part is missing or empty. -/
def Complete (e : Entry) : Prop := ∀ part ∈ e.parts, part ≠ none ∧ part ≠ some []

instance (e : Entry) : Decidable e.Complete := inferInstanceAs (Decidable (∀ part ∈ e.parts, _))

/-- The entry that holds a sample. -/
def ofRetrieved (s : Retrieved) : Entry := ⟨some s.id, some s.title, some s.description, some s.content⟩

/-- What is answered with an entry. One with a missing or an empty part is no sample; of any other a sample is made,
and the answer is a failure if this is refused. -/
def answer (service : Text) : Entry → Except Fault (Option Retrieved)
  | ⟨some id, some title, some description, some content⟩ =>
    if id = [] ∨ title = [] ∨ description = [] ∨ content = [] then .ok none
    else (Retrieved.ofParts id service title description content).map some
  | _ => .ok none

variable {service : Text} {e : Entry} {s : Retrieved}

theorem complete_ofRetrieved (s : Retrieved) : (ofRetrieved s).Complete := by
  simp [Complete, parts, ofRetrieved, s.id_ne, s.title_ne, s.description_ne, s.content_ne]

/-- A complete entry holds a sample of every service that has a name. -/
theorem Complete.exists_ofRetrieved (h : e.Complete) (hservice : service ≠ []) :
    ∃ s, s.service = service ∧ e = ofRetrieved s := by
  obtain ⟨id, title, description, content⟩ := e
  simp only [Complete, parts, List.forall_mem_cons] at h
  obtain ⟨⟨hid, hid'⟩, ⟨htitle, htitle'⟩, ⟨hdescription, hdescription'⟩, ⟨hcontent, hcontent'⟩, -⟩ := h
  obtain ⟨id, rfl⟩ := Option.ne_none_iff_exists'.mp hid
  obtain ⟨title, rfl⟩ := Option.ne_none_iff_exists'.mp htitle
  obtain ⟨description, rfl⟩ := Option.ne_none_iff_exists'.mp hdescription
  obtain ⟨content, rfl⟩ := Option.ne_none_iff_exists'.mp hcontent
  exact ⟨⟨id, service, title, description, content, fun h => hid' (h ▸ rfl), hservice, fun h => htitle' (h ▸ rfl),
    fun h => hdescription' (h ▸ rfl), fun h => hcontent' (h ▸ rfl)⟩, rfl, rfl⟩

theorem complete_iff (hservice : service ≠ []) : e.Complete ↔ ∃ s, s.service = service ∧ e = ofRetrieved s := by
  constructor
  · intro h
    exact h.exists_ofRetrieved hservice
  · rintro ⟨s, -, rfl⟩
    exact complete_ofRetrieved s

theorem ofRetrieved_inj {s s' : Retrieved} (hservice : s.service = s'.service) (h : ofRetrieved s = ofRetrieved s') :
    s = s' := by
  obtain ⟨id, service, title, description, content, _⟩ := s
  obtain ⟨id', service', title', description', content', _⟩ := s'
  cases hservice
  cases h
  rfl

/-- Making the sample that an entry holds is not refused. -/
theorem answer_ofRetrieved (s : Retrieved) : (ofRetrieved s).answer s.service = .ok (some s) := by
  rw [ofRetrieved, answer, if_neg (by simp [s.id_ne, s.title_ne, s.description_ne, s.content_ne]),
    Retrieved.ofParts_of_ne s.id_ne s.service_ne s.title_ne s.description_ne s.content_ne]
  rfl

theorem retrieve?_ofRetrieved (s : Retrieved) : (ofRetrieved s).retrieve? s.service = some s := by
  have hmade := Retrieved.ofParts_of_ne s.id_ne s.service_ne s.title_ne s.description_ne s.content_ne
  simp [retrieve?, ofRetrieved, hmade, Except.toOption]

theorem answer_of_not_complete (h : ¬e.Complete) : e.answer service = .ok none := by
  unfold answer
  split
  · split_ifs with hempty
    · rfl
    · rw [not_or, not_or, not_or] at hempty
      exact absurd (by simpa [Complete, parts] using hempty) h
  · rfl

/-- The sample that is made of parts holds them as they are. -/
theorem ofRetrieved_of_ofParts {id title description content : Text}
    (h : Retrieved.ofParts id service title description content = .ok s) :
    ofRetrieved s = ⟨some id, some title, some description, some content⟩ := by
  unfold Retrieved.ofParts at h
  split_ifs at h <;> cases h
  rfl

theorem eq_ofRetrieved_of_retrieve? (h : e.retrieve? service = some s) : e = ofRetrieved s := by
  unfold retrieve? at h
  simp only [Option.bind_eq_bind, Option.bind_eq_some_iff, toOption_eq_some_iff] at h
  obtain ⟨id, hid, title, htitle, description, hdescription, content, hcontent, hmade⟩ := h
  rw [ofRetrieved_of_ofParts hmade, ← hid, ← htitle, ← hdescription, ← hcontent]

theorem retrieve?_of_not_complete (h : ¬e.Complete) : e.retrieve? service = none := by
  rw [Option.eq_none_iff_forall_ne_some]
  intro s hs
  rw [eq_ofRetrieved_of_retrieve? hs] at h
  exact h (complete_ofRetrieved s)

/-- **The making of a sample refuses no entry**: what it would refuse has been answered with none before. -/
theorem answer_eq (hservice : service ≠ []) (e : Entry) : e.answer service = .ok (e.retrieve? service) := by
  by_cases h : e.Complete
  · obtain ⟨s, rfl, rfl⟩ := h.exists_ofRetrieved hservice
    rw [answer_ofRetrieved, retrieve?_ofRetrieved]
  · rw [answer_of_not_complete h, retrieve?_of_not_complete h]

theorem answer_eq_some_iff (hservice : service ≠ []) :
    e.answer service = .ok (some s) ↔ s.service = service ∧ e = ofRetrieved s := by
  by_cases h : e.Complete
  · obtain ⟨s', rfl, rfl⟩ := h.exists_ofRetrieved hservice
    rw [answer_ofRetrieved]
    constructor
    · intro h
      cases h
      exact ⟨rfl, rfl⟩
    · rintro ⟨hsame, hentry⟩
      rw [ofRetrieved_inj hsame.symm hentry]
  · rw [answer_of_not_complete h]
    constructor
    · intro h
      cases h
    · rintro ⟨-, rfl⟩
      exact absurd (complete_ofRetrieved s) h

end Entry

/-! ### The first entry -/

/-- The first of some entries that has an id, whatever follows it. -/
def FirstWith (id : Text) (entries : List Entry) (e : Entry) : Prop :=
  e.id = some id ∧ ∃ before after, entries = before ++ e :: after ∧ ∀ other ∈ before, other.id ≠ some id

variable {d : Disk} {directory service id : Text} {entries : List Entry} {e : Entry} {found : Option Entry}
  {bytes : List UInt8}

theorem firstWithId_eq_some_iff : firstWithId id entries = some e ↔ FirstWith id entries e := by
  rw [firstWithId, List.find?_eq_some_iff_append]
  simp [FirstWith]

theorem found_eq_firstWithId (h : findEntry id bytes = .ok found) : found = firstWithId id (listedEntries bytes) :=
  findInTree_eq_ok (Json.Decode.whole_eq_ok_iff.mp h).1

/-- A document with one list can be looked through exactly if it can be read in full. -/
theorem findEntry_eq_error_iff {failure : Json.Failure} (id : Text)
    (hone : (rootValues (Json.Reading.ofBytes bytes).root).length ≤ 1) :
    findEntry id bytes = .error failure ↔ readDocument bytes = .error failure := by
  have hmap : findEntry id bytes = (readDocument bytes).map (firstWithId id) :=
    Json.Decode.whole_map (findInTree_of_one_root hone)
  rw [hmap, map_eq_error_iff]

/-! ### Readings -/

/-- What the bytes of a document make of a reading. It fails exactly if they cannot be decoded while the id is looked
for, which is for every id the same if they have one list of entries; it gives a sample exactly if the first entry
with the id holds it; and what follows this entry does not count. -/
structure Answers (service id : Text) (bytes : List UInt8) (outcome : Except Fault (Option Retrieved)) : Prop where
  fails : ∀ fault, outcome = .error fault ↔
    ∃ failure, findEntry id bytes = .error failure ∧ fault = .retrieval service id failure
  fails_one : (rootValues (Json.Reading.ofBytes bytes).root).length ≤ 1 → ∀ failure,
    outcome = .error (.retrieval service id failure) ↔ readDocument bytes = .error failure
  gives : ∀ s, outcome = .ok (some s) ↔ (∃ found, findEntry id bytes = .ok found) ∧
    s.id = id ∧ s.service = service ∧ FirstWith id (listedEntries bytes) (.ofRetrieved s)
  first : ∀ e, (∃ found, findEntry id bytes = .ok found) → FirstWith id (listedEntries bytes) e →
    outcome = e.answer service ∧ ((∃ s, outcome = .ok (some s)) ↔ e.Complete) ∧ (¬e.Complete → outcome = .ok none)
  absent : (∃ found, findEntry id bytes = .ok found) → (∀ e ∈ listedEntries bytes, e.id ≠ some id) →
    outcome = .ok none

theorem answers_of_undecoded {failure : Json.Failure} (h : findEntry id bytes = .error failure) :
    Answers service id bytes (.error (.retrieval service id failure)) := by
  have hundecoded : ¬∃ found, findEntry id bytes = .ok found := by
    rintro ⟨found, hfound⟩
    rw [h] at hfound
    cases hfound
  refine ⟨?_, ?_, ?_, fun _ hdecoded => absurd hdecoded hundecoded, fun hdecoded => absurd hdecoded hundecoded⟩
  · intro fault
    rw [h]
    constructor
    · intro hfault
      cases hfault
      exact ⟨failure, rfl, rfl⟩
    · rintro ⟨_, hsame, rfl⟩
      cases hsame
      rfl
  · intro hone failure
    rw [← findEntry_eq_error_iff id hone, h]
    simp
  · intro s
    constructor
    · intro h
      cases h
    · rintro ⟨hdecoded, -⟩
      exact absurd hdecoded hundecoded

theorem answers_of_decoded (hservice : service ≠ []) (h : findEntry id bytes = .ok found) :
    Answers service id bytes (.ok (found.bind (·.retrieve? service))) := by
  have hanswer {e : Entry} (he : FirstWith id (listedEntries bytes) e) :
      (.ok (found.bind (·.retrieve? service)) : Except Fault (Option Retrieved)) = e.answer service := by
    rw [found_eq_firstWithId h, firstWithId_eq_some_iff.mpr he, Entry.answer_eq hservice, Option.bind_some]
  refine ⟨?_, ?_, ?_, ?_, ?_⟩
  · intro fault
    simp [h]
  · intro hone failure
    rw [← findEntry_eq_error_iff id hone, h]
    simp
  · intro s
    constructor
    · intro hgives
      cases hfirst : found with
      | none =>
          rw [hfirst] at hgives
          cases hgives
      | some e =>
          have he := firstWithId_eq_some_iff.mp ((found_eq_firstWithId h).symm.trans hfirst)
          rw [hanswer he, Entry.answer_eq_some_iff hservice] at hgives
          obtain ⟨hsame, rfl⟩ := hgives
          exact ⟨⟨_, h⟩, Option.some.inj he.1, hsame, he⟩
    · rintro ⟨-, -, rfl, he⟩
      rw [hanswer he, Entry.answer_ofRetrieved]
  · intro e _ he
    rw [hanswer he]
    refine ⟨rfl, ?_, Entry.answer_of_not_complete⟩
    simp only [Entry.complete_iff hservice, Entry.answer_eq_some_iff hservice]
  · intro _ habsent
    have hnone : firstWithId id (listedEntries bytes) = none := by
      rw [firstWithId, List.find?_eq_none]
      simpa using habsent
    rw [found_eq_firstWithId h, hnone]
    rfl

theorem read_of_readContent_eq_file {path : Text} (h : d.readContent path = .ok (.file bytes)) :
    d.read path = .ok (.file bytes) := by
  obtain ⟨node, hread, hnode⟩ := map_eq_ok_iff.mp h
  cases node with
  | directory nodes => cases hnode
  | file => exact Content.file.inj hnode ▸ hread

/-- **A reading for a name that a document can have answers what its document says.** It is never refused for its
arguments and leaves the disk as it is, a document that is not there makes it none, and one whose bytes can be read
decides through its first entry with the id. -/
theorem readSample_answers (w : Workspace) (hdirectory : directory ≠ []) (hservice : service ≠ []) (hid : id ≠ [])
    (hwhole : ¬Separated service) :
    (∀ refusal, readSample w.disk directory service id ≠ .error (.invalidArgument refusal)) ∧
      Batch.Observes (do Batch.lift (readSample (← get).disk directory service id)) w
        (readSample w.disk directory service id) ∧
      (w.disk.readContent (documentPath directory service) = .error .notFound →
        readSample w.disk directory service id = .ok none) ∧
      ∀ bytes, w.disk.readContent (documentPath directory service) = .ok (.file bytes) →
        Answers service id bytes (readSample w.disk directory service id) := by
  have hread := readSample_of_not_separated (d := w.disk) hdirectory hservice hid hwhole
  refine ⟨?_, ?_, ?_, ?_⟩
  · intro refusal hrefused
    have hreads := reads_readSample (d := w.disk) hdirectory hservice hid
    rw [hrefused] at hreads
    cases hreads with
    | separated h => exact hwhole h
  · exact (Batch.observes_get w).bind fun w' hdisk => Batch.observes_lift _ w'
  · intro hmissing
    rw [hread, map_eq_error_iff.mp hmissing]
  · intro bytes hcontent
    rw [hread, read_of_readContent_eq_file hcontent]
    dsimp only [sampleIn]
    cases hentry : findEntry id bytes with
    | error failure => exact answers_of_undecoded hentry
    | ok found => exact answers_of_decoded hservice hentry

/-- A document whose first entry lacks two of its parts. -/
def patchedDocument : List UInt8 := Utf8.encode
  ("\x7b\"codeSamples\": [\x7b\"id\": \"Send\", \"title\": \"Send\"\x7d, \x7b\"id\": \"Send\", " ++
    "\"title\": \"Send\", \"description\": \"Sends.\", \"content\": \"send();\"\x7d]\x7d").toList

/-- A document with one entry, written as the list of its parts. -/
def listedDocument : List UInt8 := Utf8.encode
  "\x7b\"codeSamples\": [[\"Send\", \"Send\", \"Sends.\", \"send();\"]]\x7d".toList

def cutDocument : List UInt8 := Utf8.encode "\x7b\"codeSamples\": [".toList

def mixedArchive : Workspace where
  disk := (((Disk.fresh []).put ["archive".toList, "Parcels.json".toList] (.file patchedDocument) trivial).put
    ["archive".toList, "Letters.json".toList] (.file listedDocument) trivial).put
    ["archive".toList, "Stamps.json".toList] (.file cutDocument) trivial
  notices := []

/-- An entry that lacks nothing. -/
def sendEntry : Entry := ⟨some "Send".toList, some "Send".toList, some "Sends.".toList, some "send();".toList⟩

theorem readSample_answers_mixed :
    readSample mixedArchive.disk "archive".toList "Parcels".toList "Send".toList = .ok none ∧
      (sendEntry ∈ listedEntries patchedDocument ∧ sendEntry.Complete) ∧
      (∃ s, readSample mixedArchive.disk "archive".toList "Letters".toList "Send".toList = .ok (some s) ∧
        s.service = "Letters".toList ∧ Entry.ofRetrieved s = sendEntry) ∧
      readSample mixedArchive.disk "archive".toList "Stamps".toList "Send".toList =
        .error (.retrieval "Stamps".toList "Send".toList .truncated) ∧
      readSample mixedArchive.disk "archive".toList "Coins".toList "Send".toList = .ok none := by
  have hanswers {service : Text} {bytes : List UInt8} (hservice : service ≠ []) (hwhole : ¬Separated service)
      (hcontent : mixedArchive.disk.readContent (documentPath "archive".toList service) = .ok (.file bytes)) :
      Answers service "Send".toList bytes (readSample mixedArchive.disk "archive".toList service "Send".toList) :=
    (readSample_answers mixedArchive (by decide) hservice (by decide) hwhole).2.2.2 bytes hcontent
  have hpatched : findEntry "Send".toList patchedDocument =
      .ok (some ⟨some "Send".toList, some "Send".toList, none, none⟩) := by decide +kernel
  have hlisted : findEntry "Send".toList listedDocument = .ok (some sendEntry) := by decide +kernel
  have hcut : findEntry "Send".toList cutDocument = .error .truncated := by decide +kernel
  refine ⟨?_, ⟨by decide +kernel, by decide⟩, ?_, ?_, ?_⟩
  · have hfirst := firstWithId_eq_some_iff.mp (found_eq_firstWithId hpatched).symm
    exact ((hanswers (by decide) (by decide) (by decide +kernel)).first _ ⟨_, hpatched⟩ hfirst).2.2 (by decide)
  · obtain ⟨s, hservice, hentry⟩ : ∃ s, s.service = "Letters".toList ∧ sendEntry = .ofRetrieved s :=
      Entry.Complete.exists_ofRetrieved (by decide) (by decide)
    have hfirst := firstWithId_eq_some_iff.mp (found_eq_firstWithId hlisted).symm
    rw [hentry] at hfirst
    refine ⟨s, ?_, hservice, hentry.symm⟩
    exact ((hanswers (by decide) (by decide) (by decide +kernel)).gives s).mpr
      ⟨⟨_, hlisted⟩, Option.some.inj hfirst.1, hservice, hfirst⟩
  · exact ((hanswers (by decide) (by decide) (by decide +kernel)).fails _).mpr ⟨_, hcut, rfl⟩
  · have hmissing : mixedArchive.disk.readContent (documentPath "archive".toList "Coins".toList) =
        .error .notFound := by decide +kernel
    exact (readSample_answers mixedArchive (by decide) (by decide) (by decide) (by decide)).2.2.1 hmissing

end Exemplar.Store
