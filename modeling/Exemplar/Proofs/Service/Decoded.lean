import Exemplar.Proofs.Json.Decode
import Exemplar.Service.Decode

/-!
# Decoded models

In a model that was decoded, operations have different names, and so have shapes and the operations that
examples are given for.
-/

namespace Exemplar.Service

open Json Decode

/-- A model in which no name stands for two things of a kind. -/
structure Keyed (s : Service) : Prop where
  operations : (s.operations.map Prod.fst).Nodup
  shapes : (s.shapes.map Prod.fst).Nodup
  examples : (s.examples.map Prod.fst).Nodup

/-- The same of a draft, as far as it has been filled. -/
structure Draft.Keyed (draft : Draft) : Prop where
  operations : ∀ entries ∈ draft.operations, (entries.map Prod.fst).Nodup
  shapes : ∀ entries ∈ draft.shapes, (entries.map Prod.fst).Nodup
  examples : ∀ entries ∈ draft.examples, (entries.map Prod.fst).Nodup

theorem preserves_keyed (room : Nat) : ∀ field ∈ fields room, field.Preserves Draft.Keyed := by
  have hkeys {α : Type} {read : Nat → Tree → Decode α} {tree : Tree} {entries : List (Text × α)}
      (h : mapOf room read tree = .ok entries) :
      ∀ given ∈ some entries, (given.map Prod.fst).Nodup := by
    rintro _ ⟨⟩
    exact nodup_keys_mapOf h
  simp only [fields, List.forall_mem_cons, List.not_mem_nil, false_implies, implies_true, and_true]
  refine ⟨?metadata, ?operations, ?shapes, ?examples⟩
  case metadata => exact Field.preserves_of fun hdraft _ => ⟨hdraft.1, hdraft.2, hdraft.3⟩
  case operations => exact Field.preserves_of fun hdraft hread => ⟨hkeys hread, hdraft.2, hdraft.3⟩
  case shapes => exact Field.preserves_of fun hdraft hread => ⟨hdraft.1, hkeys hread, hdraft.3⟩
  case examples => exact Field.preserves_of fun hdraft hread => ⟨hdraft.1, hdraft.2, hkeys hread⟩

theorem nodup_keys_getD {α : Type} {given : Option (List (Text × α))}
    (h : ∀ entries ∈ given, (entries.map Prod.fst).Nodup) : ((given.getD []).map Prod.fst).Nodup := by
  cases given with
  | none => exact List.nodup_nil
  | some entries => exact h entries rfl

/-- **A decoded model is keyed.** -/
theorem keyed_of_decode {bytes : List UInt8} {s : Service} (h : decode bytes = .ok s) : s.Keyed := by
  obtain ⟨htree, -⟩ := whole_eq_ok_iff.mp h
  obtain ⟨draft, hdraft, hlast⟩ := bind_eq_ok_iff.mp htree
  cases hlast
  have hkeyed : draft.Keyed := recordOf_preserves preserves_keyed ⟨by simp, by simp, by simp⟩ hdraft
  exact ⟨nodup_keys_getD hkeyed.operations, nodup_keys_getD hkeyed.shapes,
    nodup_keys_getD hkeyed.examples⟩

end Exemplar.Service
