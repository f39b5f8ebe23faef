import Exemplar.Proofs.Json.Pretty
import Exemplar.Proofs.Outcome
import Exemplar.Store.Lookup
import Mathlib.Data.List.Induction
import Mathlib.Tactic.SplitIfs

/-!
# Documents of records

Grouping records makes one document for each service, with the entries of the service's records in their
order. A document that was written is read back as its entries.
-/

namespace Exemplar.Store

/-! ### Grouping -/

/-- The entries of a service in a list of documents. -/
def entriesIn (service : Text) (documents : List Document) : List Entry :=
  ((documents.find? (·.service = service)).map (·.entries)).getD []

def services (documents : List Document) : List Text := documents.map (·.service)

theorem services_addRecord (r : Record) (documents : List Document) :
    services (addRecord r documents) =
      if r.service ∈ services documents then services documents
      else services documents ++ [r.service] := by
  induction documents with
  | nil => simp [addRecord, services]
  | cons document documents ih =>
      rw [addRecord]
      by_cases hservice : document.service = r.service
      · simp [hservice, services]
      · rw [if_neg hservice]
        simp only [services, List.map_cons, List.mem_cons, Ne.symm hservice, false_or] at ih ⊢
        rw [ih]
        by_cases hmem : r.service ∈ documents.map (·.service) <;> simp [hmem]

theorem entriesIn_addRecord (service : Text) (r : Record) (documents : List Document) :
    entriesIn service (addRecord r documents) =
      entriesIn service documents ++ if r.service = service then [Entry.ofRecord r] else [] := by
  induction documents with
  | nil => by_cases hservice : r.service = service <;> simp [addRecord, entriesIn, hservice]
  | cons document documents ih =>
      rw [addRecord]
      by_cases hdocument : document.service = r.service
      · rw [if_pos hdocument]
        by_cases hservice : r.service = service <;>
          simp [entriesIn, hdocument, hservice]
      · rw [if_neg hdocument]
        by_cases hservice : document.service = service
        · have hother : r.service ≠ service := fun h => hdocument (hservice.trans h.symm)
          simp [entriesIn, hservice, hother]
        · simpa [entriesIn, List.find?_cons, hservice] using ih

theorem documentsOf_concat (records : List Record) (r : Record) :
    documentsOf (records ++ [r]) = addRecord r (documentsOf records) := by
  rw [documentsOf, List.foldl_append]
  rfl

/-- The document of a service lists the entries of its records in their order. -/
theorem entriesIn_documentsOf (service : Text) (records : List Record) :
    entriesIn service (documentsOf records) =
      (records.filter (·.service = service)).map Entry.ofRecord := by
  induction records using List.reverseRecOn with
  | nil => rfl
  | append_singleton records r ih =>
      rw [documentsOf_concat, entriesIn_addRecord, ih, List.filter_append, List.map_append]
      by_cases hservice : r.service = service <;> simp [hservice]

theorem mem_services_documentsOf {service : Text} {records : List Record} :
    service ∈ services (documentsOf records) ↔ service ∈ records.map Record.service := by
  induction records using List.reverseRecOn with
  | nil => simp [documentsOf, services]
  | append_singleton records r ih =>
      rw [documentsOf_concat, services_addRecord, List.map_append, List.mem_append, ← ih]
      split
      · rename_i hmem
        simp only [List.map_cons, List.map_nil, List.mem_singleton, iff_self_or]
        rintro rfl
        exact hmem
      · simp

/-- Services come in the order in which they are first seen. -/
theorem services_documentsOf (records : List Record) :
    services (documentsOf records) = (records.map Record.service).eraseDups := by
  induction records using List.reverseRecOn with
  | nil => rfl
  | append_singleton records r ih =>
      have hseen : r.service ∈ services (documentsOf records) ↔
          (records.map Record.service).contains r.service := by
        rw [mem_services_documentsOf, List.contains_iff_mem]
      rw [documentsOf_concat, services_addRecord, ih, List.map_append, List.eraseDups_append, ← ih,
        List.map_singleton, List.removeAll]
      by_cases hservice : (records.map Record.service).contains r.service
      · rw [if_pos (hseen.mpr hservice), List.filter_cons_of_neg (by simpa using hservice)]
        simp
      · rw [if_neg (hseen.not.mpr hservice), List.filter_cons_of_pos (by simpa using hservice)]
        rfl

theorem nodup_services_documentsOf (records : List Record) :
    (services (documentsOf records)).Nodup := by
  induction records using List.reverseRecOn with
  | nil => exact List.Pairwise.nil
  | append_singleton records r ih =>
      rw [documentsOf_concat, services_addRecord]
      split
      · exact ih
      · rename_i hmem
        refine List.nodup_append.mpr ⟨ih, by simp, ?_⟩
        simp only [List.mem_singleton, ne_eq]
        rintro service hservice _ rfl rfl
        exact hmem hservice

theorem entriesIn_of_mem {documents : List Document} (h : (services documents).Nodup)
    {document : Document} (hmem : document ∈ documents) :
    entriesIn document.service documents = document.entries := by
  induction documents with
  | nil => simp at hmem
  | cons first documents ih =>
      obtain ⟨hfirst, hrest⟩ := List.nodup_cons.mp h
      rcases List.mem_cons.mp hmem with rfl | hmem
      · simp [entriesIn]
      · have hservice : document.service ∈ services documents := List.mem_map_of_mem hmem
        have hother : first.service ≠ document.service := by
          intro heq
          rw [← heq] at hservice
          exact hfirst hservice
        simpa [entriesIn, List.find?_cons, hother] using ih hrest hmem

/-- The document of a service's records among some records. -/
def documentFor (records : List Record) (service : Text) : Document :=
  ⟨service, (records.filter (·.service = service)).map Entry.ofRecord⟩

/-- **Each service has one document, with the entries of all its records in their order.** -/
theorem documentsOf_eq (records : List Record) :
    documentsOf records = (records.map Record.service).eraseDups.map (documentFor records) := by
  have hdocument : ∀ document ∈ documentsOf records, documentFor records document.service = document := by
    intro document hmem
    rw [documentFor, ← entriesIn_documentsOf, entriesIn_of_mem (nodup_services_documentsOf records) hmem]
  rw [← services_documentsOf, services, List.map_map]
  exact (List.map_id (documentsOf records)).symm.trans
    (List.map_congr_left fun document hmem => (hdocument document hmem).symm)

/-! ### Reading a document -/

open Json (Decode)

theorem Entry.textual_toValue (e : Entry) : e.toValue.Textual := by
  obtain ⟨id, title, description, content⟩ := e
  cases id <;> cases title <;> cases description <;> cases content <;>
    simp [toValue, Json.Value.Textual, Json.Value.TextualFields]

theorem Document.textual_toValue (d : Document) : d.toValue.Textual := by
  have hitems (entries : List Entry) : Json.Value.TextualItems (entries.map Entry.toValue) := by
    induction entries with
    | nil => trivial
    | cons e entries ih => exact ⟨e.textual_toValue, ih⟩
  exact ⟨hitems d.entries, trivial⟩

def textField (name : String) (t : Option Text) : List (Text × Json.Value) :=
  (t.map fun t => (name.toList, Json.Value.string t)).toList

theorem Entry.toValue_eq (e : Entry) :
    e.toValue = .object (textField "id" e.id ++ (textField "title" e.title ++
      (textField "description" e.description ++ (textField "content" e.content ++ [])))) := by
  obtain ⟨id, title, description, content⟩ := e
  cases id <;> cases title <;> cases description <;> cases content <;> rfl

/-- Reads the field of an optional text into a draft that has none yet. -/
theorem recordFields_textField {σ : Type} {known : List (Decode.Field σ)} {draft : σ} {name : String}
    {get : σ → Option (Option Text)} {set : σ → Option Text → σ} (t : Option Text)
    (rest : List (Text × Json.Value))
    (hknown : known.find? (·.name = name.toList) =
      some (.of name false get set (Decode.orNull Decode.text)))
    (hempty : get draft = none) :
    Decode.recordFields known draft (Json.Value.treeFields (textField name t ++ rest)) =
      Decode.recordFields known (t.elim draft fun t => set draft (some t))
        (Json.Value.treeFields rest) := by
  cases t with
  | none => rfl
  | some t =>
      have hread : Decode.orNull Decode.text (Json.Value.string t).tree = .ok (some t) := by
        rw [Json.Value.tree, Decode.orNull, Decode.text, Json.Quoted.text_ofText]
        · rfl
        · simp
      rw [textField, Option.map_some, Option.toList_some, List.singleton_append,
        Json.Value.treeFields, Decode.recordFields, Json.Quoted.text_ofText, ok_bind, hknown]
      simp only [Decode.Field.of, hempty, hread]
      rfl

theorem Entry.decode_toValue (room : Nat) (e : Entry) :
    Entry.decode (room + 1) e.toValue.tree = .ok e := by
  have hfields : Decode.recordFields Entry.fields ⟨none, none, none, none⟩
      (Json.Value.treeFields (textField "id" e.id ++ (textField "title" e.title ++
        (textField "description" e.description ++ (textField "content" e.content ++ []))))) =
      .ok ⟨e.id.map some, e.title.map some, e.description.map some, e.content.map some⟩ := by
    obtain ⟨id, title, description, content⟩ := e
    rw [recordFields_textField id _ rfl rfl,
      recordFields_textField title _ rfl (by cases id <;> rfl),
      recordFields_textField description _ rfl (by cases id <;> cases title <;> rfl),
      recordFields_textField content _ rfl (by cases id <;> cases title <;> cases description <;> rfl)]
    cases id <;> cases title <;> cases description <;> cases content <;> rfl
  rw [e.toValue_eq, Json.Value.tree, Entry.decode, Decode.recordOf]
  simp only [hfields]
  rw [ok_bind]
  obtain ⟨id, title, description, content⟩ := e
  cases id <;> cases title <;> cases description <;> cases content <;> rfl

theorem decodeEntries_toValue (room : Nat) (entries : List Entry) :
    decodeEntries (room + 2) (Json.Value.list (entries.map Entry.toValue)).tree = .ok entries := by
  have hitems : Decode.items (Entry.decode (room + 1))
      (Json.Value.treeItems (entries.map Entry.toValue)) = .ok entries := by
    induction entries with
    | nil => rfl
    | cons e entries ih =>
        rw [List.map_cons, Json.Value.treeItems, Decode.items, e.decode_toValue, ok_bind, ih, ok_bind]
        rfl
  rw [Json.Value.tree]
  exact hitems

/-- What is looked up in a written document is the first of its entries with the id. -/
theorem findEntry_fileText (id : Text) (d : Document) :
    findEntry id (Utf8.encode d.fileText) = .ok (firstWithId id d.entries) := by
  have hfind : findInTree id d.toValue.tree = .ok (firstWithId id d.entries) := by
    have hentries : decodeEntries (Decode.room - 1)
        (Json.Value.list (d.entries.map Entry.toValue)).tree = .ok d.entries :=
      decodeEntries_toValue 124 d.entries
    rw [Document.toValue, Json.Value.tree, Json.Value.treeFields, findInTree, findInFields,
      Json.Quoted.text_ofText, ok_bind, if_pos ⟨rfl, rfl⟩, hentries, ok_bind]
    rfl
  unfold findEntry Decode.whole Document.fileText Document.text
  simp only [Json.ofBytes_pretty d.textual_toValue, hfind]
  rfl

end Exemplar.Store
