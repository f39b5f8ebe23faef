import Exemplar.Json.Decode
import Exemplar.Proofs.Outcome

/-!
# Skipping

A part that can be read can also be skipped: skipping asks for less than any reader does. So a reader that
looks at some parts only fails on no text that a reader of all parts accepts.
-/

namespace Exemplar.Json

/-- A string that breaks off has no bytes, whatever pieces it has. -/
theorem Quoted.bytes_ne_ok (failure : Failure) (pieces : List Piece) (read : List UInt8) :
    Quoted.bytes (some failure) pieces ≠ .ok read := by
  intro h
  fun_induction Quoted.bytes (some failure) pieces generalizing read with
  | case1 hclosed => cases hclosed
  | case2 | case4 | case6 | case7 | case8 => cases h
  | case3 _ _ ih | case5 _ _ _ _ _ _ ih | case9 _ _ _ _ ih =>
      obtain ⟨later, hlater, -⟩ := map_eq_ok_iff.mp h
      exact ih later hlater

theorem Quoted.skip_of_text {q : Quoted} {t : Text} (h : q.text = .ok t) : q.skip = .ok () := by
  obtain ⟨read, hread, -⟩ := bind_eq_ok_iff.mp h
  rw [Quoted.skip]
  cases hfailure : q.failure with
  | none => rfl
  | some failure =>
      rw [hfailure] at hread
      exact absurd hread (Quoted.bytes_ne_ok failure _ _)

namespace Decode

/-- A reader that accepts nothing that could not be skipped. -/
def Skips {α : Type} (read : Tree → Decode α) : Prop :=
  ∀ ⦃tree : Tree⦄ ⦃a : α⦄, read tree = .ok a → tree.skip = .ok ()

theorem skips_text : Skips text := by
  intro tree t h
  cases tree with
  | quoted q => exact Quoted.skip_of_text h
  | _ => cases h

theorem Skips.orNull {α : Type} {read : Tree → Decode α} (hread : Skips read) : Skips (orNull read) := by
  intro tree a h
  cases tree with
  | null => rfl
  | _ =>
      obtain ⟨b, hb, -⟩ := map_eq_ok_iff.mp h
      exact hread hb

/-! ### Lists -/

theorem skip_of_items {α : Type} {read : Tree → Decode α} (hread : Skips read) :
    ∀ {parts : Items} {as : List α}, items read parts = .ok as → parts.skip = .ok ()
  | .closed, _, _ => rfl
  | .broken failure, _, h => by cases h
  | .cons item rest, _, h => by
      obtain ⟨a, ha, hrest⟩ := bind_eq_ok_iff.mp h
      obtain ⟨later, hlater, -⟩ := bind_eq_ok_iff.mp hrest
      rw [Items.skip, hread ha, ok_bind]
      exact skip_of_items hread hlater

theorem Skips.listOf {α : Type} {read : Nat → Tree → Decode α} (hread : ∀ room, Skips (read room))
    (room : Nat) : Skips (listOf room read) := by
  intro tree as h
  cases tree with
  | list parts =>
      cases room with
      | zero => cases h
      | succ room => exact skip_of_items (hread room) h
  | _ => cases h

/-! ### Records -/

variable {σ : Type}

/-- A field that fills in nothing that could not be skipped. -/
def Field.Skips (field : Field σ) : Prop :=
  ∀ ⦃tree : Tree⦄ ⦃draft next : σ⦄, field.fill tree draft = .ok next → tree.skip = .ok ()

theorem Field.skips_of {α : Type} {name : String} {required : Bool} {get : σ → Option α} {set : σ → α → σ}
    {read : Tree → Decode α} (hread : Decode.Skips read) :
    (Field.of name required get set read).Skips := by
  intro tree draft next h
  obtain ⟨a, ha, -⟩ := map_eq_ok_iff.mp h
  exact hread ha

theorem skip_of_recordFields {known : List (Field σ)} (hknown : ∀ field ∈ known, field.Skips) :
    ∀ {parts : Fields} {draft record : σ}, recordFields known draft parts = .ok record →
      parts.skip = .ok ()
  | .closed, _, _, _ => rfl
  | .broken failure, _, _, h => by simp [recordFields] at h
  | .cons key value rest, _, _, h => by
      rw [recordFields] at h
      obtain ⟨k, hkey, hfield⟩ := bind_eq_ok_iff.mp h
      rw [Fields.skip, Quoted.skip_of_text hkey, ok_bind]
      split at hfield
      · rename_i field hfound
        split at hfield
        · cases hfield
        · obtain ⟨next, hfill, hrest⟩ := bind_eq_ok_iff.mp hfield
          rw [hknown field (List.mem_of_find?_eq_some hfound) hfill, ok_bind]
          exact skip_of_recordFields hknown hrest
      · obtain ⟨⟨⟩, hvalue, hrest⟩ := bind_eq_ok_iff.mp hfield
        rw [hvalue, ok_bind]
        exact skip_of_recordFields hknown hrest

theorem skip_of_recordItems {known : List (Field σ)} (hknown : ∀ field ∈ known, field.Skips)
    {parts : Items} {draft record : σ} (h : recordItems known draft parts = .ok record) :
    parts.skip = .ok () := by
  induction known generalizing draft parts with
  | nil =>
      cases parts with
      | closed => rfl
      | broken failure => simp [recordItems] at h
      | cons item rest => simp [recordItems] at h
  | cons field known ih =>
      obtain ⟨hfield, hknown⟩ := List.forall_mem_cons.mp hknown
      cases parts with
      | closed => rfl
      | broken failure => simp [recordItems] at h
      | cons item rest =>
          rw [recordItems] at h
          obtain ⟨next, hfill, hrest⟩ := bind_eq_ok_iff.mp h
          rw [Items.skip, hfield hfill, ok_bind]
          exact ih hknown hrest

/-- **A record that can be read can be skipped**, if that holds of each of its fields. -/
theorem skips_recordOf {known : Nat → List (Field σ)} (hknown : ∀ room, ∀ field ∈ known room, field.Skips)
    (start : σ) (room : Nat) : Skips (recordOf known start room) := by
  intro tree record h
  cases tree with
  | object parts =>
      cases room with
      | zero => cases h
      | succ room => exact skip_of_recordFields (hknown room) h
  | list parts =>
      cases room with
      | zero => cases h
      | succ room => exact skip_of_recordItems (hknown room) h
  | _ => cases h

end Decode

end Exemplar.Json
