import Exemplar.Proofs.Store.Documents
import Mathlib.Data.List.Induction

/-!
# Grouping

Grouping records is a stable partition of them: every record's entry is filed once, under its own service,
and the records of a service keep their order. So the documents depend on nothing but the order within each
service, and grouping more records only adds to the end of what there is.
-/

namespace Exemplar.Store

open scoped List

variable {r r' : Record} {records records' later before after : List Record} {documents : List Document}

/-- The entries of some documents, each with the service that it is filed under. -/
def filed (documents : List Document) : List (Text × Entry) :=
  documents.flatMap fun document => document.entries.map (document.service, ·)

/-- A document that goes on with the entries that later documents have for its service. -/
def Document.followedBy (later : List Document) (document : Document) : Document :=
  { document with entries := document.entries ++ entriesIn document.service later }

/-! ### Nothing is lost -/

theorem filed_cons (document : Document) (documents : List Document) :
    filed (document :: documents) = document.entries.map (document.service, ·) ++ filed documents :=
  List.flatMap_cons

/-- Adding a record files its entry under its service and moves no other. -/
theorem filed_addRecord (r : Record) (documents : List Document) :
    filed (addRecord r documents) ~ (r.service, Entry.ofRecord r) :: filed documents := by
  induction documents with
  | nil => exact List.Perm.refl _
  | cons document documents ih =>
      rw [addRecord, filed_cons]
      by_cases hservice : document.service = r.service
      · rw [if_pos hservice, filed_cons, List.map_append, List.append_assoc, ← hservice]
        exact List.perm_middle
      · rw [if_neg hservice, filed_cons]
        exact (ih.append_left _).trans List.perm_middle

theorem filed_documentsOf (records : List Record) :
    filed (documentsOf records) ~ records.map fun r => (r.service, Entry.ofRecord r) := by
  induction records using List.reverseRecOn with
  | nil => exact List.Perm.refl _
  | append_singleton records r ih =>
      rw [documentsOf_concat, List.map_append]
      calc
        filed (addRecord r (documentsOf records))
          ~ (r.service, Entry.ofRecord r) :: filed (documentsOf records) := filed_addRecord r _
        _ ~ (r.service, Entry.ofRecord r) :: records.map fun r => (r.service, Entry.ofRecord r) := ih.cons _
        _ ~ records.map (fun r => (r.service, Entry.ofRecord r)) ++ [(r.service, Entry.ofRecord r)] :=
          (List.perm_append_singleton _ _).symm

/-! ### Only the order within a service counts -/

theorem mem_services_iff_filter_ne_nil {service : Text} :
    service ∈ services (documentsOf records) ↔ records.filter (·.service = service) ≠ [] := by
  rw [mem_services_documentsOf, List.mem_map, ne_eq, List.filter_eq_nil_iff]
  simp

/-- Records that come in the same order for each service have the same documents. -/
theorem documentsOf_perm
    (h : ∀ service, records.filter (·.service = service) = records'.filter (·.service = service)) :
    documentsOf records ~ documentsOf records' := by
  have hdocument : documentFor records = documentFor records' := by
    funext service
    rw [documentFor, documentFor, h]
  have hservices : services (documentsOf records) ~ services (documentsOf records') := by
    refine (List.perm_ext_iff_of_nodup (nodup_services_documentsOf records)
      (nodup_services_documentsOf records')).mpr fun service => ?_
    rw [mem_services_iff_filter_ne_nil, mem_services_iff_filter_ne_nil, h]
  rw [services_documentsOf, services_documentsOf] at hservices
  rw [documentsOf_eq, documentsOf_eq, hdocument]
  exact hservices.map _

theorem filter_swap (h : r.service ≠ r'.service) (service : Text) :
    (before ++ r' :: r :: after).filter (·.service = service) =
      (before ++ r :: r' :: after).filter (·.service = service) := by
  rw [List.filter_append, List.filter_append]
  by_cases hservice : r.service = service
  · have hother : r'.service ≠ service := fun heq => h (hservice.trans heq.symm)
    simp [hservice, hother]
  · simp [List.filter_cons, hservice]

/-! ### Grouping more records -/

theorem eraseDups_filter {α : Type} [BEq α] [LawfulBEq α] (p : α → Bool) (xs : List α) :
    (xs.filter p).eraseDups = xs.eraseDups.filter p := by
  induction xs using List.reverseRecOn with
  | nil => rfl
  | append_singleton xs x ih =>
      have hlast : ((List.filter p [x]).removeAll (xs.filter p)).eraseDups = ([x].removeAll xs).eraseDups.filter p := by
        cases hx : p x <;> by_cases hmem : x ∈ xs <;> simp [List.removeAll, List.eraseDups_cons, hx, hmem]
      rw [List.filter_append, List.eraseDups_append, List.eraseDups_append, List.filter_append, ih, hlast]

theorem documentFor_append (records later : List Record) (service : Text) :
    documentFor (records ++ later) service = (documentFor records service).followedBy (documentsOf later) := by
  simp only [documentFor, Document.followedBy, entriesIn_documentsOf, List.filter_append, List.map_append]

/-- Later records add to the documents that there are, and their other documents come after these. -/
theorem documentsOf_append (records later : List Record) :
    documentsOf (records ++ later) =
      (documentsOf records).map (·.followedBy (documentsOf later)) ++
        (documentsOf later).filter fun document => document.service ∉ services (documentsOf records) := by
  have hfirst : (records.map Record.service).eraseDups.map (documentFor (records ++ later)) =
      (documentsOf records).map (·.followedBy (documentsOf later)) := by
    rw [documentsOf_eq records, List.map_map]
    exact List.map_congr_left fun service _ => documentFor_append records later service
  have hunseen {service : Text} (h : service ∉ records.map Record.service) :
      documentFor (records ++ later) service = documentFor later service := by
    have hnone : records.filter (·.service = service) = [] := by
      simpa using h
    rw [documentFor, documentFor, List.filter_append, hnone, List.nil_append]
  have hnew : ((fun document : Document => decide (document.service ∉ services (documentsOf records))) ∘
      documentFor later) = fun service => !(records.map Record.service).elem service := by
    funext service
    rw [Bool.eq_iff_iff, Function.comp_apply, decide_eq_true_iff, mem_services_documentsOf]
    simp [documentFor]
  have hsecond : ((later.map Record.service).removeAll (records.map Record.service)).eraseDups.map
        (documentFor (records ++ later)) =
      (documentsOf later).filter fun document => document.service ∉ services (documentsOf records) := by
    rw [documentsOf_eq later, List.filter_map, hnew, List.removeAll, eraseDups_filter]
    exact List.map_congr_left fun service h => hunseen (by simpa using (List.mem_filter.mp h).2)
  rw [documentsOf_eq, List.map_append, List.eraseDups_append, List.map_append, hfirst, hsecond]

/-- **Grouping is a stable partition.** The services come as they are first seen, each document has the entries of
its records in their order, and together they have the entry of every record once and under its own service. What
is grouped later is added at the end, and records of different services may change places. -/
theorem documentsOf_partition (records : List Record) :
    services (documentsOf records) = (records.map Record.service).eraseDups ∧
      (services (documentsOf records)).Nodup ∧
      (∀ document ∈ documentsOf records,
        document.entries = (records.filter (·.service = document.service)).map Entry.ofRecord) ∧
      filed (documentsOf records) ~ records.map (fun r => (r.service, Entry.ofRecord r)) ∧
      (∀ later, documentsOf (records ++ later) =
        (documentsOf records).map (·.followedBy (documentsOf later)) ++
          (documentsOf later).filter fun document => document.service ∉ services (documentsOf records)) ∧
      ∀ before r r' after, records = before ++ r :: r' :: after → r.service ≠ r'.service →
        documentsOf (before ++ r' :: r :: after) ~ documentsOf records := by
  refine ⟨services_documentsOf records, nodup_services_documentsOf records, ?_, filed_documentsOf records,
    documentsOf_append records, ?_⟩
  · intro document hmem
    rw [← entriesIn_documentsOf, entriesIn_of_mem (nodup_services_documentsOf records) hmem]
  · rintro before r r' after rfl hservice
    exact documentsOf_perm (filter_swap hservice)

def postLetter : Record := .new ⟨"Letters".toList, "Post".toList, by decide, by decide⟩

def buyStamp : Record := .new ⟨"Stamps".toList, "Buy".toList, by decide, by decide⟩

def trackLetter : Record := .new ⟨"Letters".toList, "Track".toList, by decide, by decide⟩

theorem documentsOf_partition_letters_stamps :
    services (documentsOf [postLetter, buyStamp, trackLetter]) = ["Letters".toList, "Stamps".toList] ∧
      postLetter.service ≠ buyStamp.service ∧
      documentsOf [buyStamp, postLetter, trackLetter] ~ documentsOf [postLetter, buyStamp, trackLetter] ∧
      documentsOf [postLetter, buyStamp, trackLetter] =
        (documentsOf [postLetter]).map (·.followedBy (documentsOf [buyStamp, trackLetter])) ++
          (documentsOf [buyStamp, trackLetter]).filter fun document =>
            document.service ∉ services (documentsOf [postLetter]) := by
  obtain ⟨hservices, -, -, -, -, hswap⟩ := documentsOf_partition [postLetter, buyStamp, trackLetter]
  obtain ⟨-, -, -, -, happend, -⟩ := documentsOf_partition [postLetter]
  have hother : postLetter.service ≠ buyStamp.service := by decide
  exact ⟨hservices.trans (by decide +kernel), hother, hswap [] _ _ [trackLetter] rfl hother, happend _⟩

end Exemplar.Store
