import Exemplar.Json.Decode
import Exemplar.Proofs.Outcome

/-!
# Decoding records and maps

A key that is repeated in an object keeps its first place and takes its last value, so all that is read with
free keys has different keys. A record is gathered field by field: what holds of the empty draft, and still
holds after any field was read, holds of the record.
-/

namespace Exemplar.Json.Decode

/-! ### Maps -/

section Maps

variable {α : Type}

theorem keys_put (key : Text) (value : α) (entries : List (Text × α)) :
    (put key value entries).map Prod.fst =
      if key ∈ entries.map Prod.fst then entries.map Prod.fst else entries.map Prod.fst ++ [key] := by
  induction entries with
  | nil => rfl
  | cons entry entries ih =>
      obtain ⟨k, v⟩ := entry
      rw [put]
      by_cases hk : k = key
      · simp [hk]
      · rw [if_neg hk, List.map_cons, ih]
        by_cases hmem : key ∈ entries.map Prod.fst <;> simp [hmem, Ne.symm hk]

theorem nodup_keys_put {entries : List (Text × α)} (h : (entries.map Prod.fst).Nodup) (key : Text)
    (value : α) : ((put key value entries).map Prod.fst).Nodup := by
  rw [keys_put]
  split
  · exact h
  · rename_i hkey
    refine List.nodup_append.mpr ⟨h, by simp, ?_⟩
    intro other hother _ hlast
    rw [List.mem_singleton.mp hlast]
    rintro rfl
    exact hkey hother

theorem nodup_keys_distinct (entries : List (Text × α)) : ((distinct entries).map Prod.fst).Nodup := by
  have hfold (done : List (Text × α)) (h : (done.map Prod.fst).Nodup) :
      ((entries.foldl (fun done entry => put entry.1 entry.2 done) done).map Prod.fst).Nodup := by
    induction entries generalizing done with
    | nil => exact h
    | cons entry entries ih => exact ih _ (nodup_keys_put h _ _)
  exact hfold [] List.nodup_nil

/-- **No key is repeated in what is read with free keys.** -/
theorem nodup_keys_mapOf {room : Nat} {read : Nat → Tree → Decode α} {tree : Tree}
    {entries : List (Text × α)} (h : mapOf room read tree = .ok entries) :
    (entries.map Prod.fst).Nodup := by
  unfold mapOf at h
  split at h
  · split at h
    · cases h
    · obtain ⟨given, -, rfl⟩ := map_eq_ok_iff.mp h
      exact nodup_keys_distinct given
  · cases h

end Maps

/-! ### Records -/

section Records

variable {σ : Type} {P : σ → Prop}

/-- Reading the field into a draft keeps a property of it. -/
def Field.Preserves (P : σ → Prop) (field : Field σ) : Prop :=
  ∀ {tree : Tree} {draft next : σ}, P draft → field.fill tree draft = .ok next → P next

theorem Field.preserves_of {α : Type} {name : String} {required : Bool} {get : σ → Option α}
    {set : σ → α → σ} {read : Tree → Decode α}
    (h : ∀ {tree : Tree} {draft : σ} {a : α}, P draft → read tree = .ok a → P (set draft a)) :
    (Field.of name required get set read).Preserves P := by
  intro tree draft next hdraft hfill
  obtain ⟨a, ha, rfl⟩ := map_eq_ok_iff.mp hfill
  exact h hdraft ha

theorem recordFields_preserves {known : List (Field σ)} (hknown : ∀ field ∈ known, field.Preserves P) :
    ∀ (parts : Fields) {draft record : σ}, P draft → recordFields known draft parts = .ok record →
      P record
  | .closed, draft, record, hdraft, h => by
      rw [recordFields] at h
      split at h
      · cases h
        exact hdraft
      · cases h
  | .broken failure, draft, record, hdraft, h => by simp [recordFields] at h
  | .cons key value rest, draft, record, hdraft, h => by
      rw [recordFields] at h
      obtain ⟨k, -, hfield⟩ := bind_eq_ok_iff.mp h
      split at hfield
      · rename_i field hfound
        split at hfield
        · cases hfield
        · obtain ⟨next, hfill, hrest⟩ := bind_eq_ok_iff.mp hfield
          have hnext : P next := hknown field (List.mem_of_find?_eq_some hfound) hdraft hfill
          exact recordFields_preserves hknown rest hnext hrest
      · obtain ⟨-, -, hrest⟩ := bind_eq_ok_iff.mp hfield
        exact recordFields_preserves hknown rest hdraft hrest

theorem recordItems_preserves {known : List (Field σ)} (hknown : ∀ field ∈ known, field.Preserves P)
    {parts : Items} {draft record : σ} (hdraft : P draft)
    (h : recordItems known draft parts = .ok record) : P record := by
  induction known generalizing draft parts with
  | nil =>
      cases parts with
      | closed =>
          cases h
          exact hdraft
      | broken failure => simp [recordItems] at h
      | cons item rest => simp [recordItems] at h
  | cons field known ih =>
      obtain ⟨hfield, hknown⟩ := List.forall_mem_cons.mp hknown
      cases parts with
      | closed =>
          rw [recordItems] at h
          split at h
          · cases h
          · exact ih hknown hdraft h
      | broken failure => simp [recordItems] at h
      | cons item rest =>
          rw [recordItems] at h
          obtain ⟨next, hfill, hrest⟩ := bind_eq_ok_iff.mp h
          exact ih hknown (hfield hdraft hfill) hrest

/-- **What holds of the empty draft and is kept by every field holds of the record.** -/
theorem recordOf_preserves {known : Nat → List (Field σ)} {start record : σ} {room : Nat} {tree : Tree}
    (hknown : ∀ room, ∀ field ∈ known room, field.Preserves P) (hstart : P start)
    (h : recordOf known start room tree = .ok record) : P record := by
  unfold recordOf at h
  split at h
  · split at h
    · cases h
    · exact recordFields_preserves (hknown _) _ hstart h
  · split at h
    · cases h
    · exact recordItems_preserves (hknown _) hstart h
  · cases h

end Records

/-! ### Whole texts -/

section Whole

variable {α β : Type} {read : Tree → Decode α} {bytes : List UInt8}

theorem whole_eq_ok_iff {a : α} :
    whole read bytes = .ok a ↔
      read (Reading.ofBytes bytes).root = .ok a ∧ (Reading.ofBytes bytes).complete = true := by
  unfold whole
  dsimp only
  constructor
  · intro h
    obtain ⟨b, hread, hlast⟩ := bind_eq_ok_iff.mp h
    split at hlast
    · cases hlast
      exact ⟨hread, ‹_›⟩
    · cases hlast
  · rintro ⟨hread, hcomplete⟩
    rw [hread, ok_bind, if_pos hcomplete]
    rfl

/-- A reader that differs from another one on the tree of a text only by what it makes of the value does so on
the whole text. -/
theorem whole_map {other : Tree → Decode β} {f : β → α}
    (h : read (Reading.ofBytes bytes).root = (other (Reading.ofBytes bytes).root).map f) :
    whole read bytes = (whole other bytes).map f := by
  unfold whole
  dsimp only
  rw [h]
  cases other (Reading.ofBytes bytes).root with
  | error failure => rfl
  | ok b => cases (Reading.ofBytes bytes).complete <;> rfl

end Whole

end Exemplar.Json.Decode
