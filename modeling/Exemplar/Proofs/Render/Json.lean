import Exemplar.Proofs.Json.RoundTrip
import Exemplar.Render.Json

/-!
# Reading rendered JSON

Samples that are rendered as JSON can be read back: the text is a list with one object for each sample, which holds
the parts of the sample as they are, and one line feed stands at its end. So different samples are rendered
differently.
-/

namespace Exemplar

namespace Json.Value

/-- The value of a field of an object. -/
def field? (key : Text) : Value → Option Value
  | object fields => fields.lookup key
  | _ => none

theorem getLast?_pretty_list (level : Nat) (items : List Value) :
    ((list items).pretty level).getLast? = some ']' := by
  cases items with
  | nil => rw [pretty]; rfl
  | cons item rest => rw [pretty, List.getLast?_concat]

end Json.Value

namespace Render.Json

open Exemplar.Json (Value)

/-- An object that has the parts of a sample in its fields. -/
structure Describes (value : Value) (s : Retrieved) : Prop where
  id : value.field? "id".toList = some (.string s.id)
  service : value.field? "service".toList = some (.string s.service)
  title : value.field? "title".toList = some (.string s.title)
  description : value.field? "description".toList = some (.string s.description)
  content : value.field? "content".toList = some (.string s.content)

theorem describes_item (s : Retrieved) : Describes (item s) s := ⟨rfl, rfl, rfl, rfl, rfl⟩

theorem Describes.sample_inj {value : Value} {s s' : Retrieved} (h : Describes value s)
    (h' : Describes value s') : s = s' := by
  have htext {field : Option Value} {t t' : Text} (ht : field = some (.string t))
      (ht' : field = some (.string t')) : t = t' := by
    simpa [ht] using ht'
  obtain ⟨id, service, title, description, content, _⟩ := s
  obtain ⟨id', service', title', description', content', _⟩ := s'
  obtain rfl : id = id' := htext h.id h'.id
  obtain rfl : service = service' := htext h.service h'.service
  obtain rfl : title = title' := htext h.title h'.title
  obtain rfl : description = description' := htext h.description h'.description
  obtain rfl : content = content' := htext h.content h'.content
  rfl

theorem item_injective : Function.Injective item := by
  intro s s' h
  exact (describes_item s).sample_inj (h ▸ describes_item s')

theorem textual_item (s : Retrieved) : (item s).Textual := by
  simp [item, Value.Textual, Value.TextualFields]

theorem fits_item (s : Retrieved) (room : Nat) : (item s).Fits (room + 1) := by
  simp [item, Value.Fits, Value.FitsFields]

theorem textualItems_map_item (samples : List Retrieved) : Value.TextualItems (samples.map item) := by
  induction samples with
  | nil => trivial
  | cons s samples ih => exact ⟨textual_item s, ih⟩

theorem fitsItems_map_item (samples : List Retrieved) (room : Nat) :
    Value.FitsItems (room + 1) (samples.map item) := by
  induction samples with
  | nil => trivial
  | cons s samples ih => exact ⟨fits_item s room, ih⟩

theorem decode_render (samples : List Retrieved) :
    Value.decode (Utf8.encode (render samples)) = .ok (.list (samples.map item)) := by
  have hfits : (Value.list (samples.map item)).Fits Json.Decode.room :=
    ⟨_, rfl, fitsItems_map_item samples _⟩
  exact Value.decode_pretty (textualItems_map_item samples) hfits

theorem render_injective : Function.Injective render := by
  intro samples others h
  have hdecode := decode_render samples
  rw [h, decode_render] at hdecode
  exact List.map_injective_iff.mpr item_injective (Value.list.inj (Except.ok.inj hdecode)).symm

/-- **Nothing of a sample is lost in JSON.** The rendered text has one line feed after the end of its list, and it is
decoded as a list with one object for each sample, in their order, that has the parts of the sample in its fields. So
only the same samples are rendered as the same text. -/
theorem render_lossless (samples : List Retrieved) :
    (∃ body, render samples = body ++ ['\n'] ∧ body.getLast? = some ']') ∧
      (∃ objects, Value.decode (Utf8.encode (render samples)) = .ok (.list objects) ∧
        List.Forall₂ Describes objects samples) ∧
      ∀ others, render others = render samples → others = samples := by
  refine ⟨⟨_, rfl, Value.getLast?_pretty_list 0 _⟩, ⟨_, decode_render samples, ?_⟩, fun others h => ?_⟩
  · exact List.forall₂_map_left_iff.mpr (List.forall₂_same.mpr fun s _ => describes_item s)
  · exact render_injective h

end Render.Json

end Exemplar
