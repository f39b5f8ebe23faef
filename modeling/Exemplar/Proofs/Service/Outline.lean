import Exemplar.Proofs.Lexical.Brackets
import Exemplar.Proofs.Service.Conforms

/-!
# Outlines of rendered values

The outline of a rendered value is what its source reads as, with every string literal emptied. It depends on the
names in the service and on which lists, maps and objects the value is made of, but not on the texts in it: if all
scalars that the value reaches are strings, each text of the value ends up inside of a literal.

Outlines are balanced. That of an assignment is a chain of calls, and so is that of a new object; between the
elements of a list stand commas.
-/

namespace Exemplar.Service

open Json (Value)
open Lexical
open Scope (Position)

/-- The type is that of a scalar or of a map key that the value reaches. -/
inductive Reaches (s : Service) : Member → Value → Scalar → Prop
  | simple (scalar : Scalar) (value : Value) : Reaches s (.simple scalar) value scalar
  | item {element : Member} {items : List Value} {item : Value} {scalar : Scalar} (hitem : item ∈ items)
      (hreached : Reaches s element item scalar) : Reaches s (.list element) (.list items) scalar
  | key {key : Scalar} {element : Member} {entries : List (Text × Value)} {entry : Text × Value}
      (hentry : entry ∈ entries) : Reaches s (.map key element) (.object entries) key
  | entry {key : Scalar} {element : Member} {entries : List (Text × Value)} {entry : Text × Value}
      {scalar : Scalar} (hentry : entry ∈ entries) (hreached : Reaches s element entry.2 scalar) :
      Reaches s (.map key element) (.object entries) scalar
  | field {shapeName : Text} {shape : Shape} {object : List (Text × Value)} {entry : Text × Value}
      {member : Member} {scalar : Scalar} (hshape : s.shapes.lookup shapeName = some shape)
      (hentry : entry ∈ object) (hmember : shape.members.lookup entry.1 = some member)
      (hreached : Reaches s member entry.2 scalar) : Reaches s (.nested shapeName) (.object object) scalar

/-- Values for the same member that differ only in what stands at scalars and in the keys of maps. -/
inductive Alike (s : Service) : Member → Value → Value → Prop
  | simple (scalar : Scalar) (value other : Value) : Alike s (.simple scalar) value other
  | list {element : Member} {items others : List Value} (length : items.length = others.length)
      (each : ∀ pair ∈ items.zip others, Alike s element pair.1 pair.2) :
      Alike s (.list element) (.list items) (.list others)
  | map {key : Scalar} {element : Member} {entries others : List (Text × Value)}
      (length : entries.length = others.length)
      (each : ∀ pair ∈ entries.zip others, Alike s element pair.1.2 pair.2.2) :
      Alike s (.map key element) (.object entries) (.object others)
  | nested {shapeName : Text} {object others : List (Text × Value)} (length : object.length = others.length)
      (names : ∀ pair ∈ object.zip others, pair.1.1 = pair.2.1)
      (each : ∀ pair ∈ object.zip others, ∀ shape member, s.shapes.lookup shapeName = some shape →
        shape.members.lookup pair.1.1 = some member → Alike s member pair.1.2 pair.2.2) :
      Alike s (.nested shapeName) (.object object) (.object others)

/-! ### Outlines -/

/-- Outlines with commas between them. -/
def joined (os : List (List Lexeme)) : List Lexeme := (plain ", ".toList).intercalate os

theorem joined_singleton (o : List Lexeme) : joined [o] = o := by
  simp [joined]

theorem joined_cons_cons (o second : List Lexeme) (os : List (List Lexeme)) :
    joined (o :: second :: os) = o ++ (plain ", ".toList ++ joined (second :: os)) := by
  simp [joined]

def Scope.Position.placed (field : Text) : Position → List Lexeme → List Lexeme
  | .field, o => call (".with".toList ++ field.capitalizeFirst) o
  | .argument, o => o

/-- A call that adds an entry to a map, with the outline of the value. -/
def entryOutline (field : Text) (o : List Lexeme) : List Lexeme :=
  call (".add".toList ++ field.capitalizeFirst ++ "Entry".toList) (.string [] :: plain ", ".toList ++ o)

theorem sizeOf_entry_lt {entries : List (Text × Value)} {entry : Text × Value} (h : entry ∈ entries) :
    sizeOf entry.2 < sizeOf entries := by
  have hentry := List.sizeOf_lt_of_mem h
  have hsize : sizeOf entry = 1 + sizeOf entry.1 + sizeOf entry.2 := rfl
  omega

/-- The outline of a value that conforms. -/
def outline (s : Service) (field : Text) (position : Position) : Member → Value → List Lexeme
  | .simple _, _ => position.placed field [.string []]
  | .list element, .list items => position.placed field (joined (items.map (outline s field .argument element)))
  | .map _ element, .object entries =>
    (entries.map fun entry => entryOutline field (outline s field .argument element entry.2)).flatten
  | .nested shapeName, .object object =>
    position.placed field (call ("new ".toList ++ shapeName) [] ++ (object.map fun entry =>
      ((s.shapes.lookup shapeName).bind (·.members.lookup entry.1)).elim []
        (outline s entry.1 .field · entry.2)).flatten)
  | _, _ => []
termination_by _ value => value
decreasing_by
  all_goals simp_wf
  all_goals first
    | (have hitem := List.sizeOf_lt_of_mem ‹_ ∈ items›; omega)
    | (have hentry := sizeOf_entry_lt ‹entry ∈ _›; omega)

/-! ### Values with the same outline -/

section Alike

variable {s : Service} {position : Position} {member : Member} {value other : Value} {scalar : Scalar}

theorem Alike.conforms (h : Alike s member value other) (hvalue : Conforms s position member value) :
    Conforms s position member other := by
  induction h generalizing position with
  | simple scalar value other => exact .simple position scalar other
  | list length each ih =>
      cases hvalue with
      | list hitems =>
          apply Conforms.list
          intro item hitem
          obtain ⟨pair, hpair, rfl⟩ := exists_mem_zip length hitem
          exact ih pair hpair (hitems _ (List.of_mem_zip hpair).1)
  | map length each ih =>
      cases hvalue with
      | map hentries =>
          apply Conforms.map
          intro entry hentry
          obtain ⟨pair, hpair, rfl⟩ := exists_mem_zip length hentry
          exact ih pair hpair (hentries _ (List.of_mem_zip hpair).1)
  | nested length names each ih =>
      obtain ⟨_, hobject, shape, hshape, hfields⟩ := conforms_nested_iff.mp hvalue
      obtain rfl := Value.object.inj hobject
      refine conforms_nested_iff.mpr ⟨_, rfl, shape, hshape, ?_⟩
      intro entry hentry
      obtain ⟨pair, hpair, rfl⟩ := exists_mem_zip length hentry
      obtain ⟨member, hmember, hconforms⟩ := hfields _ (List.of_mem_zip hpair).1
      rw [← names pair hpair]
      exact ⟨member, hmember, ih pair hpair shape member hshape hmember hconforms⟩

theorem Alike.reaches (h : Alike s member value other) (hother : Reaches s member other scalar) :
    Reaches s member value scalar := by
  induction h with
  | simple =>
      cases hother with
      | simple => exact .simple _ _
  | list length each ih =>
      cases hother with
      | item hitem hreached =>
          obtain ⟨pair, hpair, rfl⟩ := exists_mem_zip length hitem
          exact .item (List.of_mem_zip hpair).1 (ih pair hpair hreached)
  | map length each ih =>
      cases hother with
      | key hentry =>
          obtain ⟨pair, hpair, rfl⟩ := exists_mem_zip length hentry
          exact .key (List.of_mem_zip hpair).1
      | entry hentry hreached =>
          obtain ⟨pair, hpair, rfl⟩ := exists_mem_zip length hentry
          exact .entry (List.of_mem_zip hpair).1 (ih pair hpair hreached)
  | nested length names each ih =>
      cases hother with
      | field hshape hentry hmember hreached =>
          obtain ⟨pair, hpair, rfl⟩ := exists_mem_zip length hentry
          rw [← names pair hpair] at hmember
          exact .field hshape (List.of_mem_zip hpair).1 hmember (ih pair hpair _ _ hshape hmember hreached)

theorem Alike.outline_eq (h : Alike s member value other) (field : Text) (position : Position) :
    outline s field position member value = outline s field position member other := by
  induction h generalizing field position with
  | simple scalar value other => rw [outline, outline]
  | list length each ih =>
      rw [outline, outline, map_eq_map_of_zip length fun pair hpair => ih pair hpair field .argument]
  | map length each ih =>
      rw [outline, outline, map_eq_map_of_zip length]
      intro pair hpair
      rw [ih pair hpair]
  | @nested shapeName object others length names each ih =>
      rw [outline, outline, map_eq_map_of_zip length]
      intro pair hpair
      rw [names pair hpair]
      cases hmember : (s.shapes.lookup shapeName).bind (·.members.lookup pair.2.1) with
      | none => rfl
      | some member =>
          obtain ⟨shape, hshape, hmember⟩ := Option.bind_eq_some_iff.mp hmember
          rw [← names pair hpair] at hmember
          exact ih pair hpair shape member hshape hmember _ _

end Alike

/-! ### Names -/

/-- The names of the shapes and of their members. -/
def shapeNames (s : Service) : List Text := s.shapes.flatMap fun entry => entry.1 :: entry.2.members.map (·.1)

/-- No name of a shape or of a member has a character that is on the list. -/
def NamesAvoid (s : Service) (banned : List Char) : Prop := ∀ name ∈ s.shapeNames, Avoids banned name

instance decidableNamesAvoid (s : Service) (banned : List Char) : Decidable (s.NamesAvoid banned) :=
  List.decidableBAll (Avoids banned) s.shapeNames

/-- The characters that shape source text or end a line of it. -/
def marks : List Char := ['"', '\\', '(', ')', ',', '\n', '\r']

/-- A list of marks that has those of literals and of brackets. -/
structure Shaping (banned : List Char) : Prop where
  isMark : banned ⊆ marks
  needed : ['"', '\\', '(', ')'] ⊆ banned

theorem uncapital_of_mem_marks : ∀ d ∈ marks, Text.Uncapital d := by
  intro d hd
  simp only [marks, List.mem_cons, List.not_mem_nil, or_false] at hd
  rcases hd with rfl | rfl | rfl | rfl | rfl | rfl | rfl <;>
    exact ⟨by decide, by decide +kernel, by decide +kernel⟩

section Names

variable {s : Service} {banned : List Char} {shapeName name left right field : Text} {shape : Shape}
  {member : Member}

theorem NamesAvoid.avoids_shapeName (hs : s.NamesAvoid banned) (h : s.shapes.lookup shapeName = some shape) :
    Avoids banned shapeName :=
  hs _ (List.mem_flatMap_of_mem (mem_of_lookup_eq_some h) List.mem_cons_self)

theorem NamesAvoid.avoids_memberName (hs : s.NamesAvoid banned) (h : s.shapes.lookup shapeName = some shape)
    (hmember : shape.members.lookup name = some member) : Avoids banned name :=
  hs _ (List.mem_flatMap_of_mem (mem_of_lookup_eq_some h)
    (List.mem_cons_of_mem _ (List.mem_map_of_mem (mem_of_lookup_eq_some hmember))))

theorem avoids_append (hleft : Avoids banned left) (hright : Avoids banned right) :
    Avoids banned (left ++ right) :=
  fun d hd hmem => (List.mem_append.mp hmem).elim (hleft d hd) (hright d hd)

namespace Shaping

theorem avoids (hbanned : Shaping banned) (h : Avoids marks name) : Avoids banned name :=
  fun d hd => h d (hbanned.isMark hd)

theorem avoids_capitalizeFirst (hbanned : Shaping banned) (h : Avoids banned name) :
    Avoids banned name.capitalizeFirst :=
  fun d hd => Text.not_mem_capitalizeFirst (uncapital_of_mem_marks d (hbanned.isMark hd)) (h d hd)

theorem avoids_with (hbanned : Shaping banned) (hfield : Avoids banned field) :
    Avoids banned (".with".toList ++ field.capitalizeFirst) :=
  avoids_append (hbanned.avoids (by decide)) (hbanned.avoids_capitalizeFirst hfield)

theorem avoids_add (hbanned : Shaping banned) (hfield : Avoids banned field) :
    Avoids banned (".add".toList ++ field.capitalizeFirst ++ "Entry".toList) :=
  avoids_append (avoids_append (hbanned.avoids (by decide)) (hbanned.avoids_capitalizeFirst hfield))
    (hbanned.avoids (by decide))

theorem avoids_new (hbanned : Shaping banned) (hname : Avoids banned shapeName) :
    Avoids banned ("new ".toList ++ shapeName) :=
  avoids_append (hbanned.avoids (by decide)) hname

end Shaping

end Names

/-! ### Brackets of an outline -/

section Balanced

variable {s : Service} {banned : List Char} {field : Text} {position : Position} {o : List Lexeme}

theorem Shaping.balanced (hbanned : Shaping banned) (ho : CallChain banned o) : Balanced o :=
  ho.balanced (hbanned.needed (by simp)) (hbanned.needed (by simp))

theorem balanced_literal : Balanced [.string []] := balanced_of_weight (by simp)

theorem balanced_joined {os : List (List Lexeme)} (h : ∀ o ∈ os, Balanced o) : Balanced (joined os) := by
  have hcomma : Balanced (plain ", ".toList) := balanced_plain (by decide) (by decide)
  induction os with
  | nil => exact balanced_nil
  | cons o os ih =>
      obtain ⟨ho, hos⟩ := List.forall_mem_cons.mp h
      cases os with
      | nil =>
          rw [joined_singleton]
          exact ho
      | cons second os =>
          rw [joined_cons_cons]
          exact ho.append (hcomma.append (ih hos))

theorem balanced_placed (hbanned : Shaping banned) (hfield : position = .field → Avoids banned field)
    (ho : Balanced o) :
    Balanced (position.placed field o) ∧ (position = .field → CallChain banned (position.placed field o)) := by
  cases position with
  | field =>
      have hchain := CallChain.singleton (hbanned.avoids_with (hfield rfl)) ho
      exact ⟨hbanned.balanced hchain, fun _ => hchain⟩
  | argument => exact ⟨ho, by simp⟩

theorem callChain_entryOutline (hbanned : Shaping banned) (hfield : Avoids banned field) (ho : Balanced o) :
    CallChain banned (entryOutline field o) := by
  have hcomma : Balanced (plain ", ".toList) := balanced_plain (by decide) (by decide)
  exact .singleton (hbanned.avoids_add hfield) ((balanced_literal.append hcomma).append ho)

/-- A new object of the shape and its fields, one call after another. -/
def objectOutline (s : Service) (shapeName : Text) (object : List (Text × Value)) : List Lexeme :=
  call ("new ".toList ++ shapeName) [] ++ (object.map fun entry =>
    ((s.shapes.lookup shapeName).bind (·.members.lookup entry.1)).elim []
      (outline s entry.1 .field · entry.2)).flatten

theorem outline_nested (shapeName : Text) (object : List (Text × Value)) :
    outline s field position (.nested shapeName) (.object object) =
      position.placed field (objectOutline s shapeName object) := by
  rw [outline]
  rfl

theorem callChain_objectOutline (hbanned : Shaping banned) (hs : s.NamesAvoid banned) {shapeName : Text}
    {shape : Shape} {object : List (Text × Value)} (hshape : s.shapes.lookup shapeName = some shape)
    (h : ∀ entry ∈ object, ∀ member, shape.members.lookup entry.1 = some member →
      CallChain banned (outline s entry.1 .field member entry.2)) :
    CallChain banned (objectOutline s shapeName object) := by
  have hnew := CallChain.singleton (hbanned.avoids_new (hs.avoids_shapeName hshape)) balanced_nil
  apply hnew.append
  apply CallChain.flatten
  intro o ho
  obtain ⟨entry, hentry, rfl⟩ := List.mem_map.mp ho
  rw [hshape, Option.bind_some]
  cases hmember : shape.members.lookup entry.1 with
  | none => exact .nil
  | some member => exact h entry hentry member hmember

/-- An outline is balanced, and for a field it is a chain of calls. The induction is on the value as far as it
conforms, since shapes may refer to each other. -/
theorem balanced_outline (hbanned : Shaping banned) (hs : s.NamesAvoid banned) {member : Member} {value : Value}
    (hvalue : Conforms s position member value) (hfield : position = .field → Avoids banned field) :
    Balanced (outline s field position member value) ∧
      (position = .field → CallChain banned (outline s field position member value)) := by
  induction hvalue generalizing field with
  | simple position scalar value =>
      rw [outline]
      exact balanced_placed hbanned hfield balanced_literal
  | list each ih =>
      rw [outline]
      apply balanced_placed hbanned hfield
      apply balanced_joined
      intro o ho
      obtain ⟨item, hitem, rfl⟩ := List.mem_map.mp ho
      exact (ih item hitem (by simp)).1
  | @map key element entries each ih =>
      have hchain : CallChain banned (outline s field .field (.map key element) (.object entries)) := by
        rw [outline]
        apply CallChain.flatten
        intro o ho
        obtain ⟨entry, hentry, rfl⟩ := List.mem_map.mp ho
        exact callChain_entryOutline hbanned (hfield rfl) (ih entry hentry (by simp)).1
      exact ⟨hbanned.balanced hchain, fun _ => hchain⟩
  | nested declared known each ih =>
      rw [outline_nested]
      apply balanced_placed hbanned hfield
      apply hbanned.balanced
      apply callChain_objectOutline hbanned hs declared
      intro entry hentry member hmember
      exact (ih entry hentry member hmember fun _ => hs.avoids_memberName declared hmember).2 rfl

end Balanced

end Exemplar.Service
