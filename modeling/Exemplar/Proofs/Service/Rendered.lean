import Exemplar.Proofs.Json.Compact
import Exemplar.Proofs.Outcome
import Exemplar.Proofs.Service.StringLiteral
import Exemplar.Proofs.Text.Lines
import Exemplar.Service.Assignment

/-!
# Rendered values

What a rendered value takes over as it is: names of fields and shapes, and texts that stand for scalars other
than strings. If none of these breaks the line, neither does the rendered value. A rendered field is a chain of
calls: it is empty, or it starts with a dot and ends with a bracket.
-/

namespace Exemplar.Service

open Json (Value)
open Text (NoControls noControls_append noControls_cons)

/-! ### Literals -/

theorem noControls_escapeLiteral (t : Text) : NoControls (escapeLiteral t) :=
  fun _ hc => (isAscii_of_mem_escapeLiteral hc).1

/-- The text that a literal takes over as it is: a string where another type is declared. -/
def Scalar.rawTexts : Scalar → Value → List Text
  | .text, _ => []
  | _, .string t => [t]
  | _, _ => []

theorem feed_not_mem_plainText {value : Value} (h : ∀ t, value = .string t → '\n' ∉ t) :
    '\n' ∉ plainText value := by
  unfold plainText
  split
  · exact h _ rfl
  · exact (Value.noControls_compact _).feed_not_mem

theorem Scalar.feed_not_mem_literal {scalar : Scalar} {value : Value}
    (h : ∀ t ∈ scalar.rawTexts value, '\n' ∉ t) : '\n' ∉ scalar.literal value := by
  by_cases htext : scalar = .text
  · subst htext
    have hinside := (noControls_escapeLiteral (plainText value)).feed_not_mem
    simp [literal, hinside]
  · have hplain : '\n' ∉ plainText value := by
      apply feed_not_mem_plainText
      rintro t rfl
      apply h
      cases scalar <;> simp [rawTexts] at htext ⊢
    cases scalar with
    | text => exact absurd rfl htext
    | boolean => exact Text.feed_not_mem_toSmall hplain
    | long => simp [literal, hplain]
    | other name => exact hplain

/-! ### Values -/

mutual

/-- The texts that a rendered value takes over as they are. -/
def rawTexts (s : Service) : Member → Value → List Text
  | .simple scalar, value => scalar.rawTexts value
  | .list element, .list items => rawItems s element items
  | .map key element, .object entries => rawEntries s key element entries
  | .nested shapeName, .object object => shapeName :: rawFields s shapeName object
  | _, _ => []

def rawItems (s : Service) (element : Member) : List Value → List Text
  | [] => []
  | item :: rest => rawTexts s element item ++ rawItems s element rest

def rawEntries (s : Service) (key : Scalar) (element : Member) : List (Text × Value) → List Text
  | [] => []
  | (name, value) :: rest =>
    key.rawTexts (.string name) ++ rawTexts s element value ++ rawEntries s key element rest

/-- Those of an object's fields, each with its name. -/
def rawFields (s : Service) (shapeName : Text) : List (Text × Value) → List Text
  | [] => []
  | (name, value) :: rest =>
    name :: ((s.shapes.lookup shapeName).bind (·.members.lookup name)).elim [] (rawTexts s · value) ++
      rawFields s shapeName rest

end

namespace Scope

theorem misfit_ne_ok {α : Type} {scope : Scope} {field : Text} {reason : Misfit} {a : α} :
    scope.misfit field reason ≠ .ok a := by
  simp [misfit]

theorem shape_eq_ok_iff {s : Service} {name : Text} {shape : Shape} :
    s.shape name = .ok shape ↔ s.shapes.lookup name = some shape := by
  unfold Service.shape
  cases hshape : s.shapes.lookup name <;> simp

theorem member_eq_ok_iff {scope : Scope} {shapeName name : Text} {shape : Shape} {member : Member} :
    scope.member shapeName shape name = .ok member ↔ shape.members.lookup name = some member := by
  unfold Scope.member
  cases hmember : shape.members.lookup name <;> simp

theorem members_cons_eq_ok_iff {scope : Scope} {shapeName name : Text} {shape : Shape} {value : Value}
    {object : List (Text × Value)} {members : List Member} :
    scope.members shapeName shape ((name, value) :: object) = .ok members ↔
      ∃ member others, shape.members.lookup name = some member ∧
        scope.members shapeName shape object = .ok others ∧ members = member :: others := by
  rw [Scope.members]
  simp only [bind_eq_ok_iff, member_eq_ok_iff]
  constructor
  · rintro ⟨member, hmember, others, hothers, hmembers⟩
    exact ⟨member, others, hmember, hothers, (Except.ok.inj hmembers).symm⟩
  · rintro ⟨member, others, hmember, hothers, rfl⟩
    exact ⟨member, hmember, others, hothers, rfl⟩

theorem feed_not_mem_withCall {field argument : Text} (hfield : '\n' ∉ field)
    (hargument : '\n' ∉ argument) : '\n' ∉ withCall field argument := by
  have hname := Text.feed_not_mem_capitalizeFirst hfield
  unfold withCall
  -- The capital form stays a variable, so that no tactic looks into the case tables.
  generalize field.capitalizeFirst = name at hname
  simp [hname, hargument]

theorem feed_not_mem_entryCall {field key value : Text} (hfield : '\n' ∉ field) (hkey : '\n' ∉ key)
    (hvalue : '\n' ∉ value) : '\n' ∉ entryCall field key value := by
  have hname := Text.feed_not_mem_capitalizeFirst hfield
  unfold entryCall
  generalize field.capitalizeFirst = name at hname
  simp [hname, hkey, hvalue]

theorem feed_not_mem_place {position : Position} {field text : Text}
    (hfield : position = .field → '\n' ∉ field) (htext : '\n' ∉ text) :
    '\n' ∉ position.place field text := by
  cases position with
  | field => exact feed_not_mem_withCall (hfield rfl) htext
  | argument => exact htext

theorem feed_not_mem_joinWith {separator : Text} {pieces : List Text} (hseparator : '\n' ∉ separator)
    (hpieces : ∀ piece ∈ pieces, '\n' ∉ piece) : '\n' ∉ Text.joinWith separator pieces := by
  rw [Text.mem_joinWith_iff hseparator]
  rintro ⟨piece, hpiece, hfeed⟩
  exact hpieces piece hpiece hfeed

section Render

variable {scope : Scope}

theorem renderItems_cons_eq_ok_iff {field : Text} {element : Member} {item : Value}
    {rest : List Value} {texts : List Text} :
    renderItems scope field element (item :: rest) = .ok texts ↔
      ∃ first others, render scope field .argument element item = .ok first ∧
        renderItems scope field element rest = .ok others ∧ texts = first :: others := by
  rw [renderItems]
  simp only [bind_eq_ok_iff]
  constructor
  · rintro ⟨first, hfirst, others, hothers, htexts⟩
    exact ⟨first, others, hfirst, hothers, (Except.ok.inj htexts).symm⟩
  · rintro ⟨first, others, hfirst, hothers, rfl⟩
    exact ⟨first, hfirst, others, hothers, rfl⟩

theorem renderEntries_cons_eq_ok_iff {field name text : Text} {key : Scalar} {element : Member}
    {value : Value} {rest : List (Text × Value)} :
    renderEntries scope field key element ((name, value) :: rest) = .ok text ↔
      ∃ argument others, render scope field .argument element value = .ok argument ∧
        renderEntries scope field key element rest = .ok others ∧
        text = entryCall field (key.literal (.string name)) argument ++ others := by
  rw [renderEntries]
  simp only [bind_eq_ok_iff]
  constructor
  · rintro ⟨argument, hargument, others, hothers, htext⟩
    exact ⟨argument, others, hargument, hothers, (Except.ok.inj htext).symm⟩
  · rintro ⟨argument, others, hargument, hothers, rfl⟩
    exact ⟨argument, hargument, others, hothers, rfl⟩

theorem renderFields_cons_eq_ok_iff {member : Member} {members : List Member} {name text : Text}
    {value : Value} {rest : List (Text × Value)} :
    renderFields scope (member :: members) ((name, value) :: rest) = .ok text ↔
      ∃ first others, render scope name .field member value = .ok first ∧
        renderFields scope members rest = .ok others ∧ text = first ++ others := by
  rw [renderFields]
  simp only [bind_eq_ok_iff]
  constructor
  · rintro ⟨first, hfirst, others, hothers, htext⟩
    exact ⟨first, others, hfirst, hothers, (Except.ok.inj htext).symm⟩
  · rintro ⟨first, others, hfirst, hothers, rfl⟩
    exact ⟨first, hfirst, others, hothers, rfl⟩

theorem renderItems_eq_ok_iff {field : Text} {element : Member} {items : List Value} {texts : List Text} :
    renderItems scope field element items = .ok texts ↔
      List.Forall₂ (fun item text => render scope field .argument element item = .ok text) items texts := by
  induction items generalizing texts with
  | nil => rw [renderItems, List.forall₂_nil_left_iff, Except.ok.injEq, eq_comm]
  | cons item items ih =>
      rw [renderItems_cons_eq_ok_iff, List.forall₂_cons_left_iff]
      simp only [ih]

/-- Each entry is rendered by a call of its own. -/
theorem renderEntries_eq_ok_iff {field text : Text} {key : Scalar} {element : Member}
    {entries : List (Text × Value)} :
    renderEntries scope field key element entries = .ok text ↔
      ∃ calls, List.Forall₂ (fun entry call => ∃ argument,
        render scope field .argument element entry.2 = .ok argument ∧
          call = entryCall field (key.literal (.string entry.1)) argument) entries calls ∧
        text = calls.flatten := by
  induction entries generalizing text with
  | nil => simp [renderEntries, eq_comm]
  | cons entry entries ih =>
      rw [renderEntries_cons_eq_ok_iff]
      simp only [ih, List.forall₂_cons_left_iff]
      constructor
      · rintro ⟨argument, others, hargument, ⟨calls, hcalls, rfl⟩, rfl⟩
        exact ⟨_, ⟨_, calls, ⟨argument, hargument, rfl⟩, hcalls, rfl⟩, rfl⟩
      · rintro ⟨_, ⟨_, calls, ⟨argument, hargument, rfl⟩, hcalls, rfl⟩, rfl⟩
        exact ⟨argument, _, hargument, ⟨calls, hcalls, rfl⟩, rfl⟩

/-- So is each field, as the member that its shape declares under its name. -/
theorem renderFields_eq_ok_iff {shapeName text : Text} {shape : Shape} {object : List (Text × Value)}
    {members : List Member} (hmembers : scope.members shapeName shape object = .ok members) :
    renderFields scope members object = .ok text ↔
      ∃ calls, List.Forall₂ (fun entry call => ∃ member, shape.members.lookup entry.1 = some member ∧
        render scope entry.1 .field member entry.2 = .ok call) object calls ∧ text = calls.flatten := by
  induction object generalizing members text with
  | nil => simp [renderFields, eq_comm]
  | cons entry object ih =>
      obtain ⟨member, others, hmember, hothers, rfl⟩ := members_cons_eq_ok_iff.mp hmembers
      rw [renderFields_cons_eq_ok_iff]
      simp only [ih hothers, List.forall₂_cons_left_iff, hmember, Option.some.injEq, exists_eq_left']
      constructor
      · rintro ⟨first, rest, hfirst, ⟨calls, hcalls, rfl⟩, rfl⟩
        exact ⟨_, ⟨first, calls, hfirst, hcalls, rfl⟩, rfl⟩
      · rintro ⟨_, ⟨first, calls, hfirst, hcalls, rfl⟩, rfl⟩
        exact ⟨first, _, hfirst, ⟨calls, hcalls, rfl⟩, rfl⟩

/-- A rendered value keeps to one line if the texts that it takes over do. -/
theorem feed_not_mem_render {field : Text} {position : Position} {member : Member} {value : Value}
    {text : Text} (hfield : position = .field → '\n' ∉ field)
    (hraw : ∀ t ∈ rawTexts scope.service member value, '\n' ∉ t)
    (h : render scope field position member value = .ok text) : '\n' ∉ text := by
  revert text
  refine render.induct
    (fun field position member value =>
      (position = .field → '\n' ∉ field) →
        (∀ t ∈ rawTexts scope.service member value, '\n' ∉ t) →
        ∀ {text : Text}, render scope field position member value = .ok text → '\n' ∉ text)
    (fun members object => ∀ {shapeName : Text} {shape : Shape},
      scope.service.shape shapeName = .ok shape →
        scope.members shapeName shape object = .ok members →
        (∀ t ∈ rawFields scope.service shapeName object, '\n' ∉ t) →
        ∀ {text : Text}, renderFields scope members object = .ok text → '\n' ∉ text)
    (fun field key element entries => '\n' ∉ field →
      (∀ t ∈ rawEntries scope.service key element entries, '\n' ∉ t) →
        ∀ {text : Text}, renderEntries scope field key element entries = .ok text → '\n' ∉ text)
    (fun field element items => (∀ t ∈ rawItems scope.service element items, '\n' ∉ t) →
      ∀ {texts : List Text}, renderItems scope field element items = .ok texts →
        ∀ t ∈ texts, '\n' ∉ t)
    ?simple ?list ?listMisfit ?map ?mapMisfit ?mapArgument ?nested ?nestedMisfit ?noItems ?items
    ?fields ?noFields ?noEntries ?entries field position member value hfield hraw
  case simple =>
    intro field position scalar value hfield hraw text h
    rw [render] at h
    rw [rawTexts] at hraw
    rw [← Except.ok.inj h]
    exact feed_not_mem_place hfield (Scalar.feed_not_mem_literal hraw)
  case list =>
    intro field position element items ih hfield hraw text h
    rw [render] at h
    rw [rawTexts] at hraw
    obtain ⟨elements, helements, htext⟩ := bind_eq_ok_iff.mp h
    rw [← Except.ok.inj htext]
    exact feed_not_mem_place hfield (feed_not_mem_joinWith (by decide) (ih hraw helements))
  case listMisfit =>
    intro value field position element hmisfit hfield hraw text h
    rw [render] at h
    · exact absurd h misfit_ne_ok
    · exact hmisfit
  case map =>
    intro field key element entries ih hfield hraw text h
    rw [render] at h
    rw [rawTexts] at hraw
    exact ih (hfield rfl) hraw h
  case mapMisfit =>
    intro field key element value hmisfit hfield hraw text h
    rw [render] at h
    · exact absurd h misfit_ne_ok
    · exact hmisfit
  case mapArgument =>
    intro field key element value hfield hraw text h
    rw [render] at h
    exact absurd h misfit_ne_ok
  case nested =>
    intro field position shapeName object ih hfield hraw text h
    rw [render] at h
    rw [rawTexts] at hraw
    obtain ⟨hname, hraw⟩ := List.forall_mem_cons.mp hraw
    obtain ⟨shape, hshape, h⟩ := bind_eq_ok_iff.mp h
    obtain ⟨members, hmembers, h⟩ := bind_eq_ok_iff.mp h
    obtain ⟨chain, hchain, htext⟩ := bind_eq_ok_iff.mp h
    have hfeed := ih members hshape hmembers hraw hchain
    rw [← Except.ok.inj htext]
    exact feed_not_mem_place hfield (by simp [hname, hfeed])
  case nestedMisfit =>
    intro value field position shapeName hmisfit hfield hraw text h
    rw [render] at h
    · exact absurd h misfit_ne_ok
    · exact hmisfit
  case noItems =>
    intro field element hraw texts h
    rw [renderItems] at h
    simp [← Except.ok.inj h]
  case items =>
    intro field element item rest ihItem ihRest hraw texts h
    rw [rawItems, List.forall_mem_append] at hraw
    obtain ⟨first, others, hfirst, hothers, rfl⟩ := renderItems_cons_eq_ok_iff.mp h
    exact List.forall_mem_cons.mpr ⟨ihItem (by simp) hraw.1 hfirst, ihRest hraw.2 hothers⟩
  case fields =>
    intro member members name value rest ihValue ihRest shapeName shape hshape hmembers hraw text h
    obtain ⟨_, _, hmember, hrest, hcons⟩ := members_cons_eq_ok_iff.mp hmembers
    obtain ⟨rfl, rfl⟩ := List.cons.inj hcons
    rw [rawFields, shape_eq_ok_iff.mp hshape, Option.bind_some, hmember, Option.elim_some,
      List.forall_mem_append, List.forall_mem_cons] at hraw
    obtain ⟨⟨hname, hvalue⟩, hraw⟩ := hraw
    obtain ⟨first, others, hfirst, hothers, rfl⟩ := renderFields_cons_eq_ok_iff.mp h
    have hleft := ihValue (fun _ => hname) hvalue hfirst
    have hright := ihRest hshape hrest hraw hothers
    exact fun hfeed => (List.mem_append.mp hfeed).elim hleft hright
  case noFields =>
    intro object members hnone shapeName shape hshape hmembers hraw text h
    rw [renderFields] at h
    · simp [← Except.ok.inj h]
    · exact hnone
  case noEntries =>
    intro field key element hfield hraw text h
    rw [renderEntries] at h
    simp [← Except.ok.inj h]
  case entries =>
    intro field key element name value rest ihValue ihRest hfield hraw text h
    rw [rawEntries, List.forall_mem_append, List.forall_mem_append] at hraw
    obtain ⟨⟨hkey, hvalue⟩, hraw⟩ := hraw
    obtain ⟨argument, others, hargument, hothers, rfl⟩ := renderEntries_cons_eq_ok_iff.mp h
    have hcall := feed_not_mem_entryCall hfield (Scalar.feed_not_mem_literal hkey)
      (ihValue (by simp) hvalue hargument)
    have hright := ihRest hfield hraw hothers
    exact fun hfeed => (List.mem_append.mp hfeed).elim hcall hright

/-! ### Chains of calls -/

def IsCalls (t : Text) : Prop := t = [] ∨ ∃ inside, t = '.' :: inside ++ [')']

theorem isCalls_append {left right : Text} (hleft : IsCalls left) (hright : IsCalls right) :
    IsCalls (left ++ right) := by
  rcases hleft with rfl | ⟨inside, rfl⟩
  · exact hright
  · rcases hright with rfl | ⟨later, rfl⟩
    · exact .inr ⟨inside, by simp⟩
    · exact .inr ⟨inside ++ ')' :: '.' :: later, by simp⟩

theorem isCalls_withCall (field argument : Text) : IsCalls (withCall field argument) := by
  unfold withCall
  generalize field.capitalizeFirst = name
  exact .inr ⟨"with".toList ++ name ++ '(' :: argument, by simp⟩

theorem isCalls_entryCall (field key value : Text) : IsCalls (entryCall field key value) := by
  unfold entryCall
  generalize field.capitalizeFirst = name
  exact .inr ⟨"add".toList ++ name ++ "Entry(".toList ++ key ++ ", ".toList ++ value, by simp⟩

theorem isCalls_renderEntries {field text : Text} {key : Scalar} {element : Member}
    {entries : List (Text × Value)}
    (h : renderEntries scope field key element entries = .ok text) : IsCalls text := by
  induction entries generalizing text with
  | nil =>
      rw [renderEntries] at h
      exact .inl (Except.ok.inj h).symm
  | cons entry entries ih =>
      obtain ⟨argument, others, -, hothers, rfl⟩ := renderEntries_cons_eq_ok_iff.mp h
      exact isCalls_append (isCalls_entryCall ..) (ih hothers)

theorem isCalls_assignment {field text : Text} {member : Member} {value : Value}
    (h : scope.assignment field member value = .ok text) : IsCalls text := by
  unfold assignment at h
  cases member with
  | simple scalar =>
      rw [render] at h
      exact Except.ok.inj h ▸ isCalls_withCall ..
  | list element =>
      cases value with
      | list items =>
          rw [render] at h
          obtain ⟨elements, -, htext⟩ := bind_eq_ok_iff.mp h
          exact Except.ok.inj htext ▸ isCalls_withCall ..
      | _ => simp [render, misfit] at h
  | map key element =>
      cases value with
      | object entries =>
          rw [render] at h
          exact isCalls_renderEntries h
      | _ => simp [render, misfit] at h
  | nested shapeName =>
      cases value with
      | object object =>
          rw [render] at h
          obtain ⟨shape, -, h⟩ := bind_eq_ok_iff.mp h
          obtain ⟨members, -, h⟩ := bind_eq_ok_iff.mp h
          obtain ⟨chain, -, htext⟩ := bind_eq_ok_iff.mp h
          exact Except.ok.inj htext ▸ isCalls_withCall ..
      | _ => simp [render, misfit] at h

end Render

end Scope

end Exemplar.Service
