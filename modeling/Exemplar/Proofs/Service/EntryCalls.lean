import Exemplar.Proofs.Service.Sealed

/-!
# Calls that add entries

A map is assigned by one call for each of its entries, with the literal of the key and the rendered value. The
rendered value is one argument unless it comes from a list: the items of a list stand side by side, so a list
without items gives no argument, and one with several items gives several.

Which arguments a call has is read off the text. The first is the literal of the key; what follows, up to the
bracket that closes the call, is one argument if no comma parts it outside of literals and brackets.
-/

namespace Exemplar.Service

open Json (Value)
open Lexical
open Lexeme (blank)
open Scope (entryCall)

/-- The value is one expression: no list, or a list with one item that is one expression itself. -/
def Member.IsOne : Member → Value → Prop
  | .list element, .list [item] => element.IsOne item
  | .list _, _ => False
  | _, _ => True

/-- The text is one argument: it is balanced and not empty, and no comma parts it. -/
def IsArgument (t : Text) : Prop := ∃ ls, read t = some ls ∧ ls ≠ [] ∧ Balanced ls ∧ ¬HasOuterComma ls

/-- The call adds an entry under the key, with one argument for the value. -/
def IsEntryCall (field : Text) (entry : Text × Value) (call : Text) : Prop :=
  ∃ argument, IsArgument argument ∧ call = entryCall field (Scalar.text.literal (.string entry.1)) argument

/-- One call for each entry, in the order of the entries. -/
def AreEntryCalls (field : Text) (entries : List (Text × Value)) (t : Text) : Prop :=
  ∃ calls, List.Forall₂ (IsEntryCall field) entries calls ∧ t = calls.flatten

/-- The characters with which a name could break out of an argument. -/
def parting : List Char := ['"', '\\', '(', ')', ',']

theorem shaping_parting : Shaping parting := ⟨by decide, by decide⟩

/-! ### One argument -/

section Argument

variable {s : Service} {field t : Text} {member : Member} {value : Value} {o ls : List Lexeme}

/-- A comma parts the first of several items from the others. -/
theorem hasOuterComma_joined (ho : Balanced o) (second : List Lexeme) (os : List (List Lexeme)) :
    HasOuterComma (joined (o :: second :: os)) := by
  rw [joined_cons_cons, hasOuterComma_append_iff ho.closed]
  exact .inr ⟨[], .unit ' '.toNat :: joined (second :: os), rfl, rfl⟩

/-- The outline of an argument that is nonempty and that no comma parts is that of one expression. -/
theorem outline_isOne_iff (hs : s.NamesAvoid parting) (hvalue : Conforms s .argument member value) :
    (outline s field .argument member value ≠ [] ∧ ¬HasOuterComma (outline s field .argument member value)) ↔
      member.IsOne value := by
  induction member generalizing value with
  | simple scalar =>
      rw [outline]
      have hcomma : ¬HasOuterComma [.string []] := not_hasOuterComma_of_not_mem (by simp)
      exact iff_of_true ⟨List.cons_ne_nil _ _, hcomma⟩ trivial
  | list element ih =>
      obtain ⟨items, rfl, hitems⟩ := conforms_list_iff.mp hvalue
      rw [outline, Scope.Position.placed]
      rcases items with _ | ⟨item, _ | ⟨second, items⟩⟩
      · simp [joined, Member.IsOne]
      · rw [List.map_singleton, joined_singleton]
        exact ih (hitems item List.mem_cons_self)
      · have hitem : Balanced (outline s field .argument element item) :=
          (balanced_outline shaping_parting hs (hitems item List.mem_cons_self) (by simp)).1
        exact iff_of_false (fun h => h.2 (hasOuterComma_joined hitem _ _)) id
  | map key element => exact absurd (conforms_map_iff.mp hvalue).1 (by simp)
  | nested shapeName =>
      obtain ⟨object, rfl, shape, hshape, hobject⟩ := conforms_nested_iff.mp hvalue
      rw [outline_nested, Scope.Position.placed]
      have hchain : CallChain parting (objectOutline s shapeName object) := by
        apply callChain_objectOutline shaping_parting hs hshape
        intro entry hentry member hmember
        obtain ⟨found, hfound, hconforms⟩ := hobject entry hentry
        obtain rfl := Option.some.inj (hfound.symm.trans hmember)
        exact (balanced_outline shaping_parting hs hconforms fun _ => hs.avoids_memberName hshape hmember).2 rfl
      have hne : objectOutline s shapeName object ≠ [] := by simp [objectOutline, call]
      exact iff_of_true ⟨hne, hchain.not_hasOuterComma (by decide) (by decide) (by decide)⟩ trivial

theorem isArgument_iff (hls : read t = some ls) (hbalanced : Balanced ls) :
    IsArgument t ↔ ls.map blank ≠ [] ∧ ¬HasOuterComma (ls.map blank) := by
  rw [hasOuterComma_map_blank_iff, ne_eq, List.map_eq_nil_iff]
  constructor
  · rintro ⟨ms, hms, hne, -, hcomma⟩
    obtain rfl := Option.some.inj (hls.symm.trans hms)
    exact ⟨hne, hcomma⟩
  · rintro ⟨hne, hcomma⟩
    exact ⟨ls, hls, hne, hbalanced, hcomma⟩

end Argument

/-! ### One call for each entry -/

section Entries

variable {scope : Scope} {field text argument other rest later : Text} {key : Scalar} {element : Member}
  {value : Value} {entry : Text × Value} {entries : List (Text × Value)} {ls ms : List Lexeme}

/-- A call ends where its argument, which is balanced, ends. -/
theorem entryCall_append_inj {name : Text} (hls : read argument = some ls) (hbalanced : Balanced ls)
    (hms : read other = some ms) (hother : Balanced ms)
    (h : entryCall field name argument ++ rest = entryCall field name other ++ later) :
    argument = other ∧ rest = later := by
  unfold entryCall at h
  simp only [List.append_assoc, List.append_cancel_left_eq] at h
  exact append_closing_inj hls hbalanced hms hother h

theorem areEntryCalls_cons_iff (hls : read argument = some ls) (hbalanced : Balanced ls) :
    AreEntryCalls field (entry :: entries)
        (entryCall field (Scalar.text.literal (.string entry.1)) argument ++ rest) ↔
      IsArgument argument ∧ AreEntryCalls field entries rest := by
  constructor
  · rintro ⟨calls, hcalls, htext⟩
    -- The calls need not be those that were rendered, so the end of the first is found in the text.
    obtain ⟨_, others, ⟨other, hargument, rfl⟩, hothers, rfl⟩ := List.forall₂_cons_left_iff.mp hcalls
    obtain ⟨ms, hms, -, hother, -⟩ := id hargument
    obtain ⟨rfl, rfl⟩ := entryCall_append_inj hls hbalanced hms hother htext
    exact ⟨hargument, others, hothers, rfl⟩
  · rintro ⟨hargument, calls, hcalls, rfl⟩
    exact ⟨_ :: calls, .cons ⟨argument, hargument, rfl⟩ hcalls, rfl⟩

theorem areEntryCalls_renderEntries_iff (hs : scope.service.NamesAvoid parting)
    (htexts : ∀ entry ∈ entries, key = .text ∧
      ∀ scalar, Reaches scope.service element entry.2 scalar → scalar = .text)
    (h : scope.renderEntries field key element entries = .ok text) :
    AreEntryCalls field entries text ↔ ∀ entry ∈ entries, element.IsOne entry.2 := by
  induction entries generalizing text with
  | nil =>
      rw [Scope.renderEntries] at h
      exact iff_of_true ⟨[], .nil, (Except.ok.inj h).symm⟩ (by simp)
  | cons entry entries ih =>
      obtain ⟨⟨rfl, hvalue⟩, hothers⟩ := List.forall_mem_cons.mp htexts
      obtain ⟨argument, rest, hargument, hrest, rfl⟩ := Scope.renderEntries_cons_eq_ok_iff.mp h
      have hconforms := Scope.exists_render_iff.mp ⟨argument, hargument⟩
      obtain ⟨ls, hls, hblank, hbalanced⟩ := exists_read_render shaping_parting hs (by simp) hvalue hargument
      rw [areEntryCalls_cons_iff hls hbalanced, isArgument_iff hls hbalanced, hblank,
        outline_isOne_iff hs hconforms, List.forall_mem_cons, ih hothers hrest]

/-- **A map is assigned by one call with one argument for each entry exactly if each of its values is one
expression.** -/
theorem areEntryCalls_assignment_iff (hs : scope.service.NamesAvoid parting)
    (htexts : ∀ scalar, Reaches scope.service (.map key element) value scalar → scalar = .text)
    (h : scope.assignment field (.map key element) value = .ok text) :
    ∃ entries, value = .object entries ∧
      (AreEntryCalls field entries text ↔ ∀ entry ∈ entries, element.IsOne entry.2) := by
  obtain ⟨-, entries, rfl, -⟩ := conforms_map_iff.mp (Scope.exists_render_iff.mp ⟨text, h⟩)
  refine ⟨entries, rfl, ?_⟩
  rw [Scope.assignment, Scope.render] at h
  apply areEntryCalls_renderEntries_iff hs ?_ h
  intro entry hentry
  exact ⟨htexts key (.key hentry), fun scalar hreached => htexts scalar (.entry hentry hreached)⟩

end Entries

/-! ### Maps of lists -/

def labels : Member := .map .text (.list (.simple .text))

/-- Labels under one key. -/
def labelsUnder (name : Text) (texts : List Text) : Value := .object [(name, .list (texts.map .string))]

theorem areEntryCalls_oneLabel :
    ∃ text, labelled.assignment "labels".toList labels (labelsUnder "a, b".toList ["x(".toList]) = .ok text ∧
      AreEntryCalls "labels".toList [("a, b".toList, .list [.string "x(".toList])] text := by
  obtain ⟨text, htext⟩ := exists_eq_ok_of_isSome
    (x := labelled.assignment "labels".toList labels (labelsUnder "a, b".toList ["x(".toList])) (by decide +kernel)
  obtain ⟨entries, hentries, hcalls⟩ :=
    areEntryCalls_assignment_iff (by decide) (fun _ => reaches_labelled (by decide)) htext
  obtain rfl := Value.object.inj hentries
  exact ⟨text, htext, hcalls.mpr (by simp [Member.IsOne])⟩

/-- Two labels under one key give a call with three arguments. -/
theorem not_areEntryCalls_twoLabels :
    ¬∀ (scope : Scope) (field text : Text) (key : Scalar) (element : Member) (value : Value),
      (∀ name ∈ scope.service.shapeNames, name.all Char.isAlpha) →
        (∀ scalar, Reaches scope.service (.map key element) value scalar → scalar = .text) →
          scope.assignment field (.map key element) value = .ok text →
            ∃ entries, value = .object entries ∧ AreEntryCalls field entries text := by
  intro h
  have hlabels : labelled.assignment "labels".toList labels (labelsUnder "a".toList ["x".toList, "y".toList]) =
      .ok ".addLabelsEntry(\"a\", \"x\", \"y\")".toList := by decide +kernel
  obtain ⟨entries, hentries, hcalls⟩ :=
    h labelled _ _ .text _ _ (by decide) (fun _ => reaches_labelled (by decide)) hlabels
  obtain rfl := Value.object.inj hentries
  have htexts : ∀ entry ∈ [("a".toList, Value.list [.string "x".toList, .string "y".toList])],
      Scalar.text = .text ∧
        ∀ scalar, Reaches labelled.service (.list (.simple .text)) entry.2 scalar → scalar = .text :=
    fun _ _ => ⟨rfl, fun _ => reaches_labelled (by decide)⟩
  have hone := (areEntryCalls_renderEntries_iff (by decide) htexts hlabels).mp hcalls
  exact hone _ List.mem_cons_self

end Exemplar.Service
