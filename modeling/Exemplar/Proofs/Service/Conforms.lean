import Exemplar.Proofs.Service.Rendered

/-!
# Values that conform

Which values can be rendered for a declared member. A value conforms to a member in a position: assigned to a
field, or as an argument. Shapes may be missing or refer to each other, so the relation goes down the value
and looks up each shape where the value has an object for it.

A value can be rendered exactly if it conforms. What is rendered, and for which field, makes no difference.
-/

namespace Exemplar.Service

open Json (Value)
open Scope (Position)

/-- A simple member takes any value, a list and a nested shape take values that conform throughout, and a map
has no place in an argument. -/
inductive Conforms (s : Service) : Position → Member → Value → Prop
  | simple (position : Position) (scalar : Scalar) (value : Value) :
      Conforms s position (.simple scalar) value
  | list {position : Position} {element : Member} {items : List Value}
      (each : ∀ item ∈ items, Conforms s .argument element item) :
      Conforms s position (.list element) (.list items)
  | map {key : Scalar} {element : Member} {entries : List (Text × Value)}
      (each : ∀ entry ∈ entries, Conforms s .argument element entry.2) :
      Conforms s .field (.map key element) (.object entries)
  | nested {position : Position} {shapeName : Text} {shape : Shape} {object : List (Text × Value)}
      (declared : s.shapes.lookup shapeName = some shape)
      (known : ∀ entry ∈ object, (shape.members.lookup entry.1).isSome)
      (each : ∀ entry ∈ object, ∀ member, shape.members.lookup entry.1 = some member →
        Conforms s .field member entry.2) :
      Conforms s position (.nested shapeName) (.object object)

/-- The fields of an object are members of a declared shape and conform to them when they are assigned. -/
def FieldsConform (s : Service) (shapeName : Text) (object : List (Text × Value)) : Prop :=
  ∃ shape, s.shapes.lookup shapeName = some shape ∧ ∀ entry ∈ object,
    ∃ member, shape.members.lookup entry.1 = some member ∧ Conforms s .field member entry.2

section Conforms

variable {s : Service} {position : Position} {key : Scalar} {element : Member} {shapeName : Text}
  {value : Value}

theorem conforms_list_iff :
    Conforms s position (.list element) value ↔
      ∃ items, value = .list items ∧ ∀ item ∈ items, Conforms s .argument element item := by
  constructor
  · rintro ⟨⟩
    exact ⟨_, rfl, ‹_›⟩
  · rintro ⟨items, rfl, hitems⟩
    exact .list hitems

theorem conforms_map_iff :
    Conforms s position (.map key element) value ↔ position = .field ∧
      ∃ entries, value = .object entries ∧ ∀ entry ∈ entries, Conforms s .argument element entry.2 := by
  constructor
  · rintro ⟨⟩
    exact ⟨rfl, _, rfl, ‹_›⟩
  · rintro ⟨rfl, entries, rfl, hentries⟩
    exact .map hentries

theorem conforms_nested_iff :
    Conforms s position (.nested shapeName) value ↔
      ∃ object, value = .object object ∧ FieldsConform s shapeName object := by
  constructor
  · intro h
    cases h with
    | nested hdeclared hknown heach =>
        refine ⟨_, rfl, _, hdeclared, ?_⟩
        intro entry hentry
        obtain ⟨member, hmember⟩ := Option.isSome_iff_exists.mp (hknown entry hentry)
        exact ⟨member, hmember, heach entry hentry member hmember⟩
  · rintro ⟨object, rfl, shape, hdeclared, heach⟩
    refine .nested hdeclared ?_ ?_
    · intro entry hentry
      obtain ⟨member, hmember, -⟩ := heach entry hentry
      simp [hmember]
    · intro entry hentry member hmember
      obtain ⟨found, hfound, hconforms⟩ := heach entry hentry
      rw [hmember] at hfound
      exact Option.some.inj hfound ▸ hconforms

end Conforms

namespace Scope

variable {scope : Scope} {field name shapeName : Text} {position : Position} {element member : Member}
  {value : Value} {shape : Shape}

/-! ### Parts that can be rendered -/

theorem not_exists_misfit {α : Type} {reason : Misfit} :
    ¬∃ a : α, scope.misfit field reason = .ok a := by
  rintro ⟨a, h⟩
  exact misfit_ne_ok h

theorem exists_members_iff {object : List (Text × Value)} :
    (∃ members, scope.members shapeName shape object = .ok members) ↔
      ∀ entry ∈ object, (shape.members.lookup entry.1).isSome := by
  induction object with
  | nil => simp [Scope.members]
  | cons entry object ih =>
      rw [List.forall_mem_cons, ← ih, Option.isSome_iff_exists, Scope.members]
      simp only [exists_bind_iff, exists_pure, and_true, exists_and_right, member_eq_ok_iff]

theorem exists_render_list_iff {items : List Value} :
    (∃ text, render scope field position (.list element) (.list items) = .ok text) ↔
      ∃ texts, renderItems scope field element items = .ok texts := by
  rw [render]
  simp only [exists_bind_iff, exists_pure, and_true]

theorem exists_render_nested_iff {object : List (Text × Value)} :
    (∃ text, render scope field position (.nested shapeName) (.object object) = .ok text) ↔
      ∃ shape, scope.service.shapes.lookup shapeName = some shape ∧
        ∃ members, scope.members shapeName shape object = .ok members ∧
          ∃ chain, renderFields scope members object = .ok chain := by
  rw [render]
  simp only [exists_bind_iff, exists_pure, and_true, shape_eq_ok_iff]

theorem exists_renderItems_cons_iff {item : Value} {rest : List Value} :
    (∃ texts, renderItems scope field element (item :: rest) = .ok texts) ↔
      (∃ first, render scope field .argument element item = .ok first) ∧
        ∃ others, renderItems scope field element rest = .ok others := by
  rw [renderItems]
  simp only [exists_bind_iff, exists_pure, and_true, exists_and_right]

theorem exists_renderEntries_cons_iff {key : Scalar} {rest : List (Text × Value)} :
    (∃ text, renderEntries scope field key element ((name, value) :: rest) = .ok text) ↔
      (∃ argument, render scope field .argument element value = .ok argument) ∧
        ∃ others, renderEntries scope field key element rest = .ok others := by
  rw [renderEntries]
  simp only [exists_bind_iff, exists_pure, and_true, exists_and_right]

theorem exists_renderFields_cons_iff {members : List Member} {rest : List (Text × Value)} :
    (∃ text, renderFields scope (member :: members) ((name, value) :: rest) = .ok text) ↔
      (∃ first, render scope name .field member value = .ok first) ∧
        ∃ others, renderFields scope members rest = .ok others := by
  rw [renderFields]
  simp only [exists_bind_iff, exists_pure, and_true, exists_and_right]

/-! ### Values that can be rendered -/

/-- **A value can be rendered exactly if it conforms.** -/
theorem exists_render_iff :
    (∃ text, render scope field position member value = .ok text) ↔
      Conforms scope.service position member value := by
  refine render.induct
    (fun field position member value =>
      (∃ text, render scope field position member value = .ok text) ↔
        Conforms scope.service position member value)
    (fun members object => ∀ {shapeName : Text} {shape : Shape},
      scope.members shapeName shape object = .ok members →
        ((∃ text, renderFields scope members object = .ok text) ↔
          ∀ entry ∈ object, ∀ member, shape.members.lookup entry.1 = some member →
            Conforms scope.service .field member entry.2))
    (fun field key element entries =>
      (∃ text, renderEntries scope field key element entries = .ok text) ↔
        ∀ entry ∈ entries, Conforms scope.service .argument element entry.2)
    (fun field element items =>
      (∃ texts, renderItems scope field element items = .ok texts) ↔
        ∀ item ∈ items, Conforms scope.service .argument element item)
    ?simple ?list ?listMisfit ?map ?mapMisfit ?mapArgument ?nested ?nestedMisfit ?noItems ?items
    ?fields ?noFields ?noEntries ?entries field position member value
  case simple =>
    intro field position scalar value
    exact iff_of_true ⟨_, by rw [render]⟩ (.simple position scalar value)
  case list =>
    intro field position element items ih
    rw [exists_render_list_iff, ih, conforms_list_iff]
    simp
  case listMisfit =>
    intro value field position element hmisfit
    rw [render]
    · apply iff_of_false not_exists_misfit
      intro hconforms
      obtain ⟨items, hitems, -⟩ := conforms_list_iff.mp hconforms
      exact hmisfit items hitems
    · exact hmisfit
  case map =>
    intro field key element entries ih
    rw [render, ih, conforms_map_iff]
    simp
  case mapMisfit =>
    intro field key element value hmisfit
    rw [render]
    · apply iff_of_false not_exists_misfit
      intro hconforms
      obtain ⟨-, entries, hentries, -⟩ := conforms_map_iff.mp hconforms
      exact hmisfit entries hentries
    · exact hmisfit
  case mapArgument =>
    intro field key element value
    rw [render]
    apply iff_of_false not_exists_misfit
    intro hconforms
    exact absurd (conforms_map_iff.mp hconforms).1 (by simp)
  case nested =>
    intro field position shapeName object ih
    rw [exists_render_nested_iff]
    constructor
    · rintro ⟨shape, hdeclared, members, hmembers, hchain⟩
      exact .nested hdeclared (exists_members_iff.mp ⟨members, hmembers⟩) ((ih members hmembers).mp hchain)
    · intro hconforms
      cases hconforms with
      | nested hdeclared hknown heach =>
          obtain ⟨members, hmembers⟩ := exists_members_iff.mpr hknown
          exact ⟨_, hdeclared, members, hmembers, (ih members hmembers).mpr heach⟩
  case nestedMisfit =>
    intro value field position shapeName hmisfit
    rw [render]
    · apply iff_of_false not_exists_misfit
      intro hconforms
      obtain ⟨object, hobject, -⟩ := conforms_nested_iff.mp hconforms
      exact hmisfit object hobject
    · exact hmisfit
  case noItems =>
    intro field element
    exact iff_of_true ⟨_, by rw [renderItems]⟩ (by simp)
  case items =>
    intro field element item rest ihItem ihRest
    rw [exists_renderItems_cons_iff, ihItem, ihRest, List.forall_mem_cons]
  case fields =>
    intro member members name value rest ihValue ihRest shapeName shape hmembers
    obtain ⟨_, _, hmember, hrest, hcons⟩ := members_cons_eq_ok_iff.mp hmembers
    obtain ⟨rfl, rfl⟩ := List.cons.inj hcons
    rw [exists_renderFields_cons_iff, ihValue, ihRest hrest, List.forall_mem_cons]
    simp [hmember]
  case noFields =>
    intro object members hnone shapeName shape hmembers
    cases object with
    | nil => exact iff_of_true ⟨_, by rw [renderFields]; simp⟩ (by simp)
    | cons entry object =>
        obtain ⟨member, others, -, -, hcons⟩ := members_cons_eq_ok_iff.mp hmembers
        exact (hnone member others entry.1 entry.2 object hcons rfl).elim
  case noEntries =>
    intro field key element
    exact iff_of_true ⟨_, by rw [renderEntries]⟩ (by simp)
  case entries =>
    intro field key element name value rest ihValue ihRest
    rw [exists_renderEntries_cons_iff, ihValue, ihRest, List.forall_mem_cons]

/-- A map has no place in an argument, but a list of no maps has. -/
example (scope : Scope) (field : Text) (key : Scalar) (element : Member) :
    render scope field .argument (.list (.map key element)) (.list []) = .ok [] := by rfl

end Scope

end Exemplar.Service
