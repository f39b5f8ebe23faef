import Exemplar.Proofs.Service.Decoded
import Exemplar.Proofs.Service.Legible
import Exemplar.Proofs.Store.Documents
import Exemplar.Proofs.Text.Split
import Mathlib.Data.List.Nodup

/-!
# Ids of examples

The first example of an operation has the operation's name for its id, the later ones have a number after
it. Two later examples never share an id, and neither do two first ones. A later example does share its id
with the first example of another operation if that operation has the name with the number. Where no
operation is named so, all ids of a service are different, and every sample of its class is found under its
own id in the document of the class.
-/

namespace Exemplar.Service

open Markup (Marker)

/-! ### Ids and numbers -/

theorem ofNat_inj {i j : Nat} : Text.ofNat i = Text.ofNat j ↔ i = j := by
  constructor
  · intro h
    have hvalue := congrArg (Nat.ofDigitChars 10 · 0) h
    simpa [Text.ofNat, Nat.ofDigitChars_toDigits] using hvalue
  · rintro rfl
    rfl

variable {s : Service} {n m : NumberedExample}

/-- What tells the examples of a service apart. -/
def NumberedExample.key (n : NumberedExample) : Text × Nat := (n.operationName, n.number)

theorem NumberedExample.id_first (h : n.number = 1) : n.id = n.operationName := if_pos h

theorem NumberedExample.id_later (h : n.number ≠ 1) :
    n.id = n.operationName ++ '_' :: Text.ofNat n.number := if_neg h

theorem NumberedExample.key_eq_of_first (hn : n.number = 1) (hm : m.number = 1) (h : n.id = m.id) :
    n.key = m.key := by
  rw [id_first hn, id_first hm] at h
  rw [key, key, h, hn, hm]

theorem NumberedExample.key_eq_of_later (hn : n.number ≠ 1) (hm : m.number ≠ 1) (h : n.id = m.id) :
    n.key = m.key := by
  have hdigits (number : Nat) : '_' ∉ Text.ofNat number := Nat.underscore_not_in_toDigits
  rw [id_later hn, id_later hm, append_cons_inj_of_not_mem (hdigits _) (hdigits _), ofNat_inj] at h
  rw [key, key, h.1, h.2]

/-! ### Clashes -/

/-- An operation that has examples is named as a later example of an operation. -/
def IdsClash (s : Service) : Prop :=
  ∃ entry ∈ s.examples, ∃ other ∈ s.examples, 0 < other.2.length ∧
    ∃ number ≤ entry.2.length, 1 < number ∧ other.1 = entry.1 ++ '_' :: Text.ofNat number

instance (s : Service) : Decidable s.IdsClash :=
  inferInstanceAs (Decidable (∃ entry ∈ s.examples, _))

theorem idsClash_of_id_eq (hn : n ∈ s.numberedExamples) (hm : m ∈ s.numberedExamples)
    (hlater : n.number ≠ 1) (hfirst : m.number = 1) (h : n.id = m.id) : s.IdsClash := by
  obtain ⟨examples, hentry, hnumber, hshown⟩ := mem_numberedExamples_iff.mp hn
  obtain ⟨others, hother, -, hothers⟩ := mem_numberedExamples_iff.mp hm
  have hlength : n.number - 1 < examples.length := (List.getElem?_eq_some_iff.mp hshown).1
  have hothersLength : m.number - 1 < others.length := (List.getElem?_eq_some_iff.mp hothers).1
  rw [NumberedExample.id_later hlater, NumberedExample.id_first hfirst] at h
  exact ⟨_, hentry, _, hother, by simp only; omega, n.number, by simp only; omega, by omega, h.symm⟩

theorem exists_id_eq_of_idsClash (h : s.IdsClash) :
    ∃ n ∈ s.numberedExamples, ∃ m ∈ s.numberedExamples, n.key ≠ m.key ∧ n.id = m.id := by
  obtain ⟨⟨operationName, examples⟩, hentry, ⟨other, others⟩, hother, hothers, number, hlength, hnumber,
    rfl⟩ := h
  simp only at hothers hlength
  let n : NumberedExample := ⟨operationName, number, examples[number - 1]⟩
  let m : NumberedExample := ⟨operationName ++ '_' :: Text.ofNat number, 1, others[0]⟩
  have hn : n ∈ s.numberedExamples :=
    mem_numberedExamples_iff.mpr ⟨examples, hentry, by simp only [n]; omega, List.getElem?_eq_getElem _⟩
  have hm : m ∈ s.numberedExamples :=
    mem_numberedExamples_iff.mpr ⟨others, hother, le_rfl, List.getElem?_eq_getElem _⟩
  have hlater : n.number ≠ 1 := by simp only [n]; omega
  refine ⟨n, hn, m, hm, ?_, ?_⟩
  · intro hkey
    exact hlater (congrArg Prod.snd hkey)
  · rw [NumberedExample.id_later hlater, NumberedExample.id_first rfl]

/-- Two examples of a service that differ in operation or number have different ids, unless ids clash. -/
theorem id_ne_iff_not_idsClash :
    (∀ n ∈ s.numberedExamples, ∀ m ∈ s.numberedExamples, n.key ≠ m.key → n.id ≠ m.id) ↔
      ¬s.IdsClash := by
  constructor
  · intro h hclash
    obtain ⟨n, hn, m, hm, hkey, hid⟩ := exists_id_eq_of_idsClash hclash
    exact h n hn m hm hkey hid
  · intro hclash n hn m hm hkey hid
    by_cases hnumber : n.number = 1
    · by_cases hother : m.number = 1
      · exact hkey (NumberedExample.key_eq_of_first hnumber hother hid)
      · exact hclash (idsClash_of_id_eq hm hn hother hnumber hid.symm)
    · by_cases hother : m.number = 1
      · exact hclash (idsClash_of_id_eq hn hm hnumber hother hid)
      · exact hkey (NumberedExample.key_eq_of_later hnumber hother hid)

/-! ### Looking up -/

theorem nodup_keys_numberedFrom (operationName : Text) (number : Nat) (examples : List Example) :
    ((numberedFrom operationName number examples).map NumberedExample.key).Nodup := by
  induction examples generalizing number with
  | nil => exact List.nodup_nil
  | cons e examples ih =>
      refine List.nodup_cons.mpr ⟨?_, ih (number + 1)⟩
      intro hmem
      obtain ⟨n, hn, hkey⟩ := List.mem_map.mp hmem
      have hnumber : n.number = number := congrArg Prod.snd hkey
      have hle := (mem_numberedFrom_iff.mp hn).2.1
      omega

theorem nodup_keys_numberedExamples (h : s.Keyed) :
    (s.numberedExamples.map NumberedExample.key).Nodup := by
  rw [numberedExamples, List.map_flatMap, List.nodup_flatMap]
  refine ⟨fun entry _ => nodup_keys_numberedFrom entry.1 1 entry.2, ?_⟩
  refine (List.pairwise_map.mp h.examples).imp ?_
  intro entry other hne key hkey hkey'
  obtain ⟨n, hn, rfl⟩ := List.mem_map.mp hkey
  obtain ⟨m, hm, heq⟩ := List.mem_map.mp hkey'
  have hname : n.operationName = entry.1 := (mem_numberedFrom_iff.mp hn).1
  have hname' : m.operationName = other.1 := (mem_numberedFrom_iff.mp hm).1
  exact hne (hname.symm.trans ((congrArg Prod.fst heq).symm.trans hname'))

theorem nodup_ids_numberedExamples (hkeys : s.Keyed) (hclash : ¬s.IdsClash) :
    (s.numberedExamples.map NumberedExample.id).Nodup := by
  have hnodup := nodup_keys_numberedExamples hkeys
  refine List.Nodup.map_on ?_ (List.Nodup.of_map _ hnodup)
  intro n hn m hm hid
  refine List.inj_on_of_nodup_map hnodup hn hm ?_
  by_contra hkey
  exact id_ne_iff_not_idsClash.mpr hclash n hn m hm hkey hid

theorem ids_of_forall₂_echoes {examples : List NumberedExample} {records : List Record}
    (h : List.Forall₂ Echoes examples records) :
    records.map Record.id = examples.map NumberedExample.id := by
  induction h with
  | nil => rfl
  | cons hecho _ ih => rw [List.map_cons, List.map_cons, hecho.id_eq, ih]

/-- Where no two records have the same id, each is found in the document of its service. -/
theorem findEntry_of_nodup_ids {records : List Record} (h : (records.map Record.id).Nodup) {r : Record}
    (hr : r ∈ records) :
    Store.findEntry r.id (Utf8.encode (Store.documentFor records r.service).fileText) =
      .ok (some (Store.Entry.ofRecord r)) := by
  rw [Store.findEntry_fileText, Store.firstWithId, Store.documentFor, List.find?_map]
  have hmem : r ∈ records.filter (·.service = r.service) := List.mem_filter.mpr ⟨hr, by simp⟩
  cases hfound : (records.filter (·.service = r.service)).find?
      ((fun e : Store.Entry => decide (e.id = some r.id)) ∘ Store.Entry.ofRecord) with
  | none => exact absurd (List.find?_eq_none.mp hfound r hmem) (by simp [Store.Entry.ofRecord])
  | some found =>
      have hid : found.id = r.id := by simpa [Store.Entry.ofRecord] using List.find?_some hfound
      have hrecord : found ∈ records := (List.mem_filter.mp (List.mem_of_find?_eq_some hfound)).1
      rw [List.inj_on_of_nodup_map h hrecord hr hid]
      rfl

/-! ### Labels of a class -/

def NumberedExample.labelLine (s : Service) (n : NumberedExample) : Text :=
  s.labelLine n.operationName n.number

theorem labelLine_inj : n.labelLine s = m.labelLine s ↔ n.id = m.id := by
  have hline (n : NumberedExample) : n.labelLine s =
      (bodyIndent ++ "//BEGIN_SAMPLE:".toList ++ s.tagName ++ ['.']) ++ n.id := by
    simp [NumberedExample.labelLine, Service.labelLine, NumberedExample.id]
  rw [hline, hline, List.append_right_inj]

theorem labelLines_sublist (methods : List (Method s)) :
    (methods.map fun method => method.labelLine s).Sublist (methods.flatMap Method.lines) := by
  induction methods with
  | nil => exact List.Sublist.refl []
  | cons method methods ih =>
      have hlabel : method.labelLine s ∈ method.lines := by
        simp [Method.lines, NumberedExample.labelLine]
      exact (List.singleton_sublist.mpr hlabel).append ih

/-- **The labels in a class are different exactly if no ids clash.** In that case, as every decoded model is
keyed, each sample that is read back from its class is found under its own id. -/
theorem labelLines_ne_iff_not_idsClash {source : Text} (h : s.classSource = .ok source) :
    (∃ lines, s.classLines = .ok lines ∧ source = lines.flatMap (· ++ ['\n']) ∧
      (s.numberedExamples.map (NumberedExample.labelLine s)).Sublist lines) ∧
    ((∀ n ∈ s.numberedExamples, ∀ m ∈ s.numberedExamples, n.key ≠ m.key →
      n.labelLine s ≠ m.labelLine s) ↔ ¬s.IdsClash) ∧
    (¬s.IdsClash → s.Keyed → ∀ file, s.ReadsBack file source →
      ∃ records, Marker.slashes.samples file source = .ok records ∧
        List.Forall₂ Echoes s.numberedExamples records ∧ ∀ r ∈ records,
          Store.findEntry r.id (Utf8.encode (Store.documentFor records r.service).fileText) =
            .ok (some (Store.Entry.ofRecord r))) := by
  refine ⟨?_, ?_, ?_⟩
  · obtain ⟨lines, hlines, rfl⟩ := map_eq_ok_iff.mp h
    obtain ⟨-, -, methods, hmethods, rfl⟩ := classLines_eq_ok_iff.mp hlines
    refine ⟨_, hlines, rfl, ?_⟩
    rw [← hmethods, List.map_map]
    exact (labelLines_sublist methods).trans
      ((List.sublist_append_right _ _).trans (List.sublist_append_left _ _))
  · simp only [ne_eq, labelLine_inj]
    exact id_ne_iff_not_idsClash
  · rintro hclash hkeys file ⟨records, hrecords, hechoes⟩
    have hids : (records.map Record.id).Nodup := by
      rw [ids_of_forall₂_echoes hechoes]
      exact nodup_ids_numberedExamples hkeys hclash
    exact ⟨records, hrecords, hechoes, fun r hr => findEntry_of_nodup_ids hids hr⟩

/-- An operation with two examples, and another one with one. -/
def sendAnd (other : Text) : Service where
  metadata := ⟨"Parcels".toList, "ParcelsClient".toList, "com.parcels".toList⟩
  operations := [("Send".toList, ⟨"send".toList, "SendRequest".toList, none⟩),
    (other, ⟨"other".toList, "OtherRequest".toList, none⟩)]
  shapes := []
  examples := [("Send".toList, [loneExample "Send a parcel".toList, loneExample "Send a letter".toList]),
    (other, [loneExample "Send it otherwise".toList])]

theorem labelLines_ne_sendAnd_track :
    ∃ source, (sendAnd "Track".toList).classSource = .ok source ∧
      ∀ n ∈ (sendAnd "Track".toList).numberedExamples, ∀ m ∈ (sendAnd "Track".toList).numberedExamples,
        n.key ≠ m.key → n.labelLine (sendAnd "Track".toList) ≠ m.labelLine (sendAnd "Track".toList) := by
  obtain ⟨source, hsource⟩ := exists_eq_ok_of_isSome
    (x := (sendAnd "Track".toList).classSource) (by decide +kernel)
  exact ⟨source, hsource, (labelLines_ne_iff_not_idsClash hsource).2.1.mpr (by decide +kernel)⟩

/-- The second example of an operation `Send` and the first of an operation `Send_2` have the same label. -/
theorem not_labelLines_ne :
    ¬∀ (s : Service) (source : Text), s.classSource = .ok source →
      ∀ n ∈ s.numberedExamples, ∀ m ∈ s.numberedExamples, n.key ≠ m.key →
        n.labelLine s ≠ m.labelLine s := by
  intro h
  obtain ⟨source, hsource⟩ := exists_eq_ok_of_isSome
    (x := (sendAnd "Send_2".toList).classSource) (by decide +kernel)
  have hsecond : (⟨"Send".toList, 2, loneExample "Send a letter".toList⟩ : NumberedExample) ∈
      (sendAnd "Send_2".toList).numberedExamples := List.mem_cons_of_mem _ List.mem_cons_self
  have hother : (⟨"Send_2".toList, 1, loneExample "Send it otherwise".toList⟩ : NumberedExample) ∈
      (sendAnd "Send_2".toList).numberedExamples :=
    List.mem_cons_of_mem _ (List.mem_cons_of_mem _ List.mem_cons_self)
  exact h _ source hsource _ hsecond _ hother (by decide) (by decide)

end Exemplar.Service
