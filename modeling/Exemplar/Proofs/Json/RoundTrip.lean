import Exemplar.Proofs.Json.Decode
import Exemplar.Proofs.Json.Pretty

/-!
# Decoding pretty JSON

A pretty-printed value of strings, lists and objects is decoded as the value that was printed. A decoder has room for
so many open containers only, and of a repeated key it keeps the last value, so the value must not be nested deeper
than that and must not repeat a key in an object.
-/

namespace Exemplar.Json

open Utf8 (encode)

namespace Decode

variable {α : Type} {entries : List (Text × α)}

theorem put_of_not_mem {key : Text} (value : α) (h : key ∉ entries.map Prod.fst) :
    put key value entries = entries ++ [(key, value)] := by
  induction entries with
  | nil => rfl
  | cons entry entries ih =>
      obtain ⟨k, v⟩ := entry
      obtain ⟨hk, hentries⟩ := not_or.mp (List.mem_cons.not.mp h)
      rw [put, if_neg (Ne.symm hk), ih hentries, List.cons_append]

theorem distinct_of_nodup (h : (entries.map Prod.fst).Nodup) : distinct entries = entries := by
  have hfold (done entries : List (Text × α)) (h : ((done ++ entries).map Prod.fst).Nodup) :
      entries.foldl (fun done entry => put entry.1 entry.2 done) done = done ++ entries := by
    induction entries generalizing done with
    | nil => exact (List.append_nil done).symm
    | cons entry entries ih =>
        obtain ⟨key, value⟩ := entry
        have hkey : key ∉ done.map Prod.fst := by
          rw [List.map_append, List.nodup_append] at h
          exact fun hmem => h.2.2 key hmem key (List.mem_cons_self ..) rfl
        rw [List.append_cons] at h ⊢
        rw [List.foldl_cons, put_of_not_mem value hkey]
        exact ih _ h
  exact hfold [] entries h

end Decode

namespace Value

mutual

/-- A value with room for its containers and no repeated key. -/
def Fits (room : Nat) : Value → Prop
  | list items => ∃ inner, room = inner + 1 ∧ FitsItems inner items
  | object fields =>
    ∃ inner, room = inner + 1 ∧ (fields.map Prod.fst).Nodup ∧ FitsFields inner fields
  | _ => True

def FitsItems (room : Nat) : List Value → Prop
  | [] => True
  | item :: rest => item.Fits room ∧ FitsItems room rest

def FitsFields (room : Nat) : List (Text × Value) → Prop
  | [] => True
  | (_, value) :: rest => value.Fits room ∧ FitsFields room rest

end

mutual

theorem decode_tree : (v : Value) → v.Textual → {room : Nat} → v.Fits room →
    Decode.value room v.tree = .ok v
  | .string t, _, room, _ => by
      rw [tree, Decode.value, Quoted.text_ofText]
      rfl
  | .list items, h, room, hfits => by
      rw [Textual] at h
      rw [Fits] at hfits
      obtain ⟨inner, rfl, hitems⟩ := hfits
      rw [tree, Decode.value, decode_treeItems items h hitems]
      rfl
  | .object fields, h, room, hfits => by
      rw [Textual] at h
      rw [Fits] at hfits
      obtain ⟨inner, rfl, hkeys, hfields⟩ := hfits
      rw [tree, Decode.value, decode_treeFields fields h hfields]
      exact congrArg (Except.ok ∘ Value.object) (Decode.distinct_of_nodup hkeys)

theorem decode_treeItems : (items : List Value) → TextualItems items → {room : Nat} →
    FitsItems room items → Decode.valueItems room (treeItems items) = .ok items
  | [], _, room, _ => by
      rw [treeItems, Decode.valueItems]
  | item :: items, h, room, hfits => by
      rw [TextualItems] at h
      rw [FitsItems] at hfits
      rw [treeItems, Decode.valueItems, decode_tree item h.1 hfits.1, ok_bind,
        decode_treeItems items h.2 hfits.2]
      rfl

theorem decode_treeFields : (fields : List (Text × Value)) → TextualFields fields → {room : Nat} →
    FitsFields room fields → Decode.valueFields room (treeFields fields) = .ok fields
  | [], _, room, _ => by
      rw [treeFields, Decode.valueFields]
  | (key, value) :: fields, h, room, hfits => by
      rw [TextualFields] at h
      rw [FitsFields] at hfits
      rw [treeFields, Decode.valueFields, Quoted.text_ofText, ok_bind, decode_tree value h.1 hfits.1,
        ok_bind, decode_treeFields fields h.2 hfits.2]
      rfl

end

/-- **A pretty-printed value is decoded as the value that was printed.** -/
theorem decode_pretty {v : Value} (h : v.Textual) (hfits : v.Fits Decode.room) :
    decode (encode (v.pretty 0 ++ ['\n'])) = .ok v := by
  rw [decode, Decode.whole_eq_ok_iff, ofBytes_pretty h]
  exact ⟨decode_tree v h hfits, rfl⟩

end Value

end Exemplar.Json
