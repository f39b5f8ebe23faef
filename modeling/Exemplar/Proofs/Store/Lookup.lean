import Exemplar.Proofs.Json.Decode
import Exemplar.Proofs.Json.Skip
import Exemplar.Store.Lookup

/-!
# Looking up and reading in full

A lookup reads a document as a stream and keeps one entry. What it finds is the first entry with the id among
all that the document lists, in all its lists and in their order.

A lookup that has found its entry only skips the lists that follow, so what such lists hold is noticed by
some lookups and not by others. In a document with one list this makes no difference: the list is read in
full whatever is looked for, and all lookups succeed together and fail for the same reason.
-/

namespace Exemplar

/-- The values of the fields with a key, in their order, as far as the fields can be read. -/
def Json.Fields.valuesUnder (key : Text) : Json.Fields → List Json.Tree
  | .cons k value rest =>
    if k.text.toOption = some key then value :: rest.valuesUnder key else rest.valuesUnder key
  | _ => []

theorem Json.Fields.valuesUnder_cons {key k : Text} {q : Json.Quoted} (hq : q.text = .ok k)
    (value : Json.Tree) (rest : Json.Fields) :
    (Json.Fields.cons q value rest).valuesUnder key =
      if k = key then value :: rest.valuesUnder key else rest.valuesUnder key := by
  rw [valuesUnder, hq]
  simp [Except.toOption]

namespace Store

open Json

/-- The values under the root keys of a document. -/
def rootValues : Tree → List Tree
  | .object fields => fields.valuesUnder rootKey
  | _ => []

/-- The entries that a value lists. A value that is no list of entries lists none. -/
def listedIn (room : Nat) (value : Tree) : List Entry := ((decodeEntries room value).toOption).getD []

/-- All that the lists of a document hold, one after the other. -/
def listedEntries (bytes : List UInt8) : List Entry :=
  (rootValues (Reading.ofBytes bytes).root).flatMap (listedIn (Decode.room - 1))

/-! ### Reading in full -/

def readFields (room : Nat) : Fields → Decode (List Entry)
  | .closed => .ok []
  | .broken failure => .error failure
  | .cons key value rest => do
    if (← key.text) = rootKey then
      let first ← decodeEntries room value
      let others ← readFields room rest
      pure (first ++ others)
    else
      value.skip
      readFields room rest

def readTree : Tree → Decode (List Entry)
  | .object fields => readFields (Decode.room - 1) fields
  | tree => .error (Decode.mismatch tree)

/-- Reads a document with all its entries; each of its lists must be one of entries. -/
def readDocument (bytes : List UInt8) : Decode (List Entry) := Decode.whole readTree bytes

variable {room : Nat} {id : Text} {found result : Option Entry} {entries : List Entry}

theorem firstWithId_append (id : Text) (left right : List Entry) :
    firstWithId id (left ++ right) = (firstWithId id left).or (firstWithId id right) :=
  List.find?_append

/-- What is read as entries can be skipped. -/
theorem skips_decodeEntries (room : Nat) : Decode.Skips (decodeEntries room) := by
  apply Decode.Skips.listOf
  intro room tree entry h
  obtain ⟨draft, hdraft, -⟩ := bind_eq_ok_iff.mp h
  refine Decode.skips_recordOf ?_ _ room hdraft
  intro _ field hfield
  have hread : Decode.Skips (Decode.orNull Decode.text) := Decode.skips_text.orNull
  simp only [Entry.fields, List.mem_cons, List.not_mem_nil, or_false] at hfield
  rcases hfield with rfl | rfl | rfl | rfl <;> exact Decode.Field.skips_of hread

theorem eq_listed_of_readFields : ∀ {fields : Fields} {entries : List Entry},
    readFields room fields = .ok entries →
      entries = (fields.valuesUnder rootKey).flatMap (listedIn room)
  | .closed, _, h => by
      cases h
      rfl
  | .broken failure, _, h => by cases h
  | .cons key value rest, _, h => by
      rw [readFields] at h
      obtain ⟨k, hkey, hrest⟩ := bind_eq_ok_iff.mp h
      rw [Fields.valuesUnder_cons hkey]
      by_cases hroot : k = rootKey
      · rw [if_pos hroot] at hrest
        obtain ⟨first, hfirst, hmore⟩ := bind_eq_ok_iff.mp hrest
        obtain ⟨others, hothers, hlast⟩ := bind_eq_ok_iff.mp hmore
        cases hlast
        rw [if_pos hroot, List.flatMap_cons, listedIn, hfirst, eq_listed_of_readFields hothers]
        rfl
      · rw [if_neg hroot] at hrest
        obtain ⟨⟨⟩, -, hlater⟩ := bind_eq_ok_iff.mp hrest
        rw [if_neg hroot]
        exact eq_listed_of_readFields hlater

/-! ### What a lookup finds -/

theorem findInFields_eq_ok : ∀ {fields : Fields} {found : Option Entry},
    findInFields room id found fields = .ok result →
      result = found.or (firstWithId id ((fields.valuesUnder rootKey).flatMap (listedIn room)))
  | .closed, found, h => by
      cases h
      exact (Option.or_none).symm
  | .broken failure, _, h => by cases h
  | .cons key value rest, found, h => by
      rw [findInFields] at h
      obtain ⟨k, hkey, hrest⟩ := bind_eq_ok_iff.mp h
      rw [Fields.valuesUnder_cons hkey]
      by_cases hroot : k = rootKey
      · rw [if_pos hroot, List.flatMap_cons, firstWithId_append]
        cases found with
        | none =>
            rw [if_pos ⟨hroot, rfl⟩] at hrest
            obtain ⟨entries, hentries, hlater⟩ := bind_eq_ok_iff.mp hrest
            rw [listedIn, hentries]
            exact findInFields_eq_ok hlater
        | some entry =>
            rw [if_neg (by simp)] at hrest
            obtain ⟨⟨⟩, -, hlater⟩ := bind_eq_ok_iff.mp hrest
            exact findInFields_eq_ok hlater
      · rw [if_neg hroot]
        rw [if_neg (fun h => hroot h.1)] at hrest
        obtain ⟨⟨⟩, -, hlater⟩ := bind_eq_ok_iff.mp hrest
        exact findInFields_eq_ok hlater

/-- A document that is read in full is one for every lookup, whatever its other fields hold. -/
theorem findInFields_of_readFields : ∀ {fields : Fields} {found : Option Entry} {entries : List Entry},
    readFields room fields = .ok entries →
      findInFields room id found fields = .ok (found.or (firstWithId id entries))
  | .closed, found, _, h => by
      cases h
      exact congrArg Except.ok Option.or_none.symm
  | .broken failure, _, _, h => by cases h
  | .cons key value rest, found, _, h => by
      rw [readFields] at h
      obtain ⟨k, hkey, hrest⟩ := bind_eq_ok_iff.mp h
      rw [findInFields, hkey, ok_bind]
      by_cases hroot : k = rootKey
      · rw [if_pos hroot] at hrest
        obtain ⟨first, hfirst, hmore⟩ := bind_eq_ok_iff.mp hrest
        obtain ⟨others, hothers, hlast⟩ := bind_eq_ok_iff.mp hmore
        cases hlast
        rw [firstWithId_append]
        cases found with
        | none =>
            rw [if_pos ⟨hroot, rfl⟩, hfirst, ok_bind]
            exact findInFields_of_readFields hothers
        | some entry =>
            rw [if_neg (by simp), skips_decodeEntries room hfirst, ok_bind]
            exact findInFields_of_readFields hothers
      · rw [if_neg hroot] at hrest
        obtain ⟨⟨⟩, hskip, hlater⟩ := bind_eq_ok_iff.mp hrest
        rw [if_neg (fun h => hroot h.1), hskip, ok_bind]
        exact findInFields_of_readFields hlater

/-! ### Documents with one list -/

/-- Behind the last list nothing depends on what has been found. -/
theorem findInFields_of_no_root : ∀ {fields : Fields}, fields.valuesUnder rootKey = [] →
    findInFields room id found fields = (readFields room fields).map fun _ => found
  | .closed, _ => rfl
  | .broken failure, _ => rfl
  | .cons key value rest, h => by
      rw [findInFields, readFields]
      cases hkey : key.text with
      | error failure => rfl
      | ok k =>
          rw [Fields.valuesUnder_cons hkey] at h
          have hroot : k ≠ rootKey := by
            rintro rfl
            simp at h
          rw [if_neg hroot] at h
          rw [ok_bind, ok_bind, if_neg (fun h => hroot h.1), if_neg hroot]
          cases value.skip with
          | error failure => rfl
          | ok => exact findInFields_of_no_root h

theorem findInFields_of_one_root : ∀ {fields : Fields}, (fields.valuesUnder rootKey).length ≤ 1 →
    findInFields room id none fields = (readFields room fields).map (firstWithId id)
  | .closed, _ => rfl
  | .broken failure, _ => rfl
  | .cons key value rest, h => by
      rw [findInFields, readFields]
      cases hkey : key.text with
      | error failure => rfl
      | ok k =>
          rw [Fields.valuesUnder_cons hkey] at h
          rw [ok_bind, ok_bind]
          by_cases hroot : k = rootKey
          · rw [if_pos hroot, List.length_cons] at h
            have hnone : rest.valuesUnder rootKey = [] := by
              rw [← List.length_eq_zero_iff]
              omega
            rw [if_pos ⟨hroot, rfl⟩, if_pos hroot]
            cases decodeEntries room value with
            | error failure => rfl
            | ok first =>
                rw [ok_bind, ok_bind, findInFields_of_no_root hnone]
                cases hothers : readFields room rest with
                | error failure => rfl
                | ok others =>
                    have hempty : others = [] := by
                      rw [eq_listed_of_readFields hothers, hnone, List.flatMap_nil]
                    rw [hempty, ok_bind, List.append_nil]
                    rfl
          · rw [if_neg hroot] at h
            rw [if_neg (fun h => hroot h.1), if_neg hroot]
            cases value.skip with
            | error failure => rfl
            | ok => exact findInFields_of_one_root h

/-! ### Documents -/

theorem findInTree_eq_ok {tree : Tree} (h : findInTree id tree = .ok result) :
    result = firstWithId id ((rootValues tree).flatMap (listedIn (Decode.room - 1))) := by
  cases tree with
  | object fields => exact findInFields_eq_ok h
  | _ => cases h

theorem findInTree_of_readTree {tree : Tree} (h : readTree tree = .ok entries) :
    findInTree id tree = .ok (firstWithId id entries) := by
  cases tree with
  | object fields => exact findInFields_of_readFields h
  | _ => cases h

theorem findInTree_of_one_root {tree : Tree} (h : (rootValues tree).length ≤ 1) :
    findInTree id tree = (readTree tree).map (firstWithId id) := by
  cases tree with
  | object fields => exact findInFields_of_one_root h
  | _ => rfl

/-- **A lookup gives what reading the whole document gives.** What it finds is the first entry with the id
among all that the document lists; a document that can be read in full can be looked through for every id; and
whether a document with one list is corrupt, and how, is the same for every id. -/
theorem findEntry_agrees (bytes : List UInt8) :
    (∀ id found, findEntry id bytes = .ok found → found = firstWithId id (listedEntries bytes)) ∧
      (∀ entries, readDocument bytes = .ok entries →
        ∀ id, findEntry id bytes = .ok (firstWithId id entries)) ∧
      ((rootValues (Reading.ofBytes bytes).root).length ≤ 1 →
        ∀ id other failure, findEntry id bytes = .error failure ↔ findEntry other bytes = .error failure) := by
  refine ⟨?_, ?_, ?_⟩
  · intro id found h
    obtain ⟨htree, -⟩ := Decode.whole_eq_ok_iff.mp h
    exact findInTree_eq_ok htree
  · intro entries h id
    obtain ⟨htree, hcomplete⟩ := Decode.whole_eq_ok_iff.mp h
    exact Decode.whole_eq_ok_iff.mpr ⟨findInTree_of_readTree htree, hcomplete⟩
  · intro h id other failure
    have hmap (id : Text) : findEntry id bytes = (readDocument bytes).map (firstWithId id) :=
      Decode.whole_map (findInTree_of_one_root h)
    rw [hmap, hmap, map_eq_error_iff, map_eq_error_iff]

/-- A document with two lists, each of one entry. -/
def twoLists : List UInt8 := Utf8.encode
  ("\x7b\"codeSamples\": [\x7b\"id\": \"A\"\x7d], " ++
    "\"codeSamples\": [\x7b\"id\": \"B\", \"title\": \"b\"\x7d]\x7d").toList

/-- A document that breaks off after its only list. -/
def cutAfterList : List UInt8 := Utf8.encode "\x7b\"codeSamples\": [\x7b\"id\": \"A\"\x7d], ".toList

theorem findEntry_agrees_two_lists :
    (findEntry "B".toList twoLists = .ok (some ⟨some "B".toList, some "b".toList, none, none⟩) ∧
      some ⟨some "B".toList, some "b".toList, none, none⟩ =
        firstWithId "B".toList (listedEntries twoLists)) ∧
      findEntry "C".toList twoLists = .ok (firstWithId "C".toList
        [⟨some "A".toList, none, none, none⟩, ⟨some "B".toList, some "b".toList, none, none⟩]) ∧
      (rootValues (Reading.ofBytes cutAfterList).root).length ≤ 1 ∧
      findEntry "A".toList cutAfterList = .error .truncated ∧
      findEntry "B".toList cutAfterList = .error .truncated := by
  obtain ⟨hfinds, hreads, -⟩ := findEntry_agrees twoLists
  obtain ⟨-, -, hfails⟩ := findEntry_agrees cutAfterList
  have hfound : findEntry "B".toList twoLists =
      .ok (some ⟨some "B".toList, some "b".toList, none, none⟩) := by decide +kernel
  have hread : readDocument twoLists = .ok
      [⟨some "A".toList, none, none, none⟩, ⟨some "B".toList, some "b".toList, none, none⟩] := by
    decide +kernel
  have hone : (rootValues (Reading.ofBytes cutAfterList).root).length ≤ 1 := by decide +kernel
  have hcut : findEntry "A".toList cutAfterList = .error .truncated := by decide +kernel
  exact ⟨⟨hfound, hfinds _ _ hfound⟩, hreads _ hread _, hone, hcut, (hfails hone _ _ _).mp hcut⟩

end Store

end Exemplar
