import Exemplar.Proofs.Service.CodeLines
import Exemplar.Proofs.Service.Conforms
import Exemplar.Proofs.Service.Methods
import Exemplar.Proofs.Service.SingleLine
import Mathlib.Data.Set.List

/-!
# Well-typed services

Which services have a class. A class is written exactly if the service has a name that fits into a tag and
each of its examples is well typed: the operation is declared, the title and the description can be seen, and
the input conforms to the operation's input, with comments that stay comments.
-/

namespace Exemplar.Service

open Json (Value)
open Markup (Marker)
open Text (isBlank)

/-- No line of the comment on a field would be read as a tag in the class. -/
def Example.KeepsComment (e : Example) (field : Text) : Prop :=
  ∀ comment, e.comments.lookup field = some comment → ∀ line ∈ comment.lines,
    Marker.slashes.isTag ("//".toList ++ line) = false

/-- The input is null, or an object whose fields conform and keep their comments. -/
def Example.InputConforms (s : Service) (inputType : Text) (e : Example) : Prop :=
  e.input = .null ∨ ∃ object, e.input = .object object ∧ FieldsConform s inputType object ∧
    ∀ entry ∈ object, e.KeepsComment entry.1

structure Example.WellTyped (s : Service) (operationName : Text) (e : Example) : Prop where
  title : e.title.Visible
  description : e.description.Visible
  input : ∃ operation, s.operations.lookup operationName = some operation ∧
    e.InputConforms s operation.inputType

/-! ### Requests -/

variable {scope : Scope}

theorem isTag_chainIndent (line : Text) :
    Marker.slashes.isTag (chainIndent ++ line) = Marker.slashes.isTag line := by
  unfold Marker.isTag chainIndent
  rw [Markup.classify_indent _ isBlank_of_mem_indent]

theorem exists_commentLines_iff {context field : Text} {texts : List Text} :
    (∃ lines, commentLines context field texts = .ok lines) ↔
      ∀ text ∈ texts, Marker.slashes.isTag ("//".toList ++ text) = false := by
  induction texts with
  | nil => simp [commentLines]
  | cons text texts ih =>
      rw [List.forall_mem_cons, ← ih]
      simp only [commentLines_cons_eq_ok_iff, List.append_assoc, isTag_chainIndent]
      constructor
      · rintro ⟨lines, htag, later, hlater, -⟩
        exact ⟨htag, later, hlater⟩
      · rintro ⟨htag, later, hlater⟩
        exact ⟨_, htag, later, hlater, rfl⟩

theorem exists_comment_iff {e : Example} (context field : Text) :
    (∃ lines, commentLines context field (((e.comments.lookup field).map Text.lines).getD []) = .ok lines) ↔
      e.KeepsComment field := by
  rw [exists_commentLines_iff]
  unfold Example.KeepsComment
  cases e.comments.lookup field <;> simp

/-- A chain takes comments that stay comments and values that conform, field by field. -/
theorem exists_chainLines_iff {e : Example} {fields : List (Text × Member × Value)} :
    (∃ lines, chainLines scope e.comments fields = .ok lines) ↔
      ∀ field ∈ fields, Conforms scope.service .field field.2.1 field.2.2 ∧ e.KeepsComment field.1 := by
  induction fields with
  | nil => simp [chainLines]
  | cons field fields ih =>
      obtain ⟨name, member, value⟩ := field
      have hcalls : (∃ calls, scope.assignment name member value = .ok calls) ↔
          Conforms scope.service .field member value := Scope.exists_render_iff
      rw [List.forall_mem_cons, ← ih, ← hcalls, ← exists_comment_iff scope.context name, chainLines]
      simp only [exists_bind_iff, exists_pure, and_true, exists_and_right]
      tauto

section Fields

variable {shapeName : Text} {object : List (Text × Value)} {P : Text → Member → Value → Prop}

/-- What holds of an object's values with the members found for them, if all of them are found. -/
theorem exists_members_zip_iff (scope : Scope) (shapeName : Text) (shape : Shape) :
    (∃ members, scope.members shapeName shape object = .ok members ∧
        ∀ field ∈ members.zipWith (fun member (name, value) => (name, member, value)) object,
          P field.1 field.2.1 field.2.2) ↔
      ∀ entry ∈ object, ∃ member, shape.members.lookup entry.1 = some member ∧
        P entry.1 member entry.2 := by
  induction object with
  | nil => simp [Scope.members]
  | cons entry object ih =>
      obtain ⟨name, value⟩ := entry
      rw [List.forall_mem_cons, ← ih]
      constructor
      · rintro ⟨members, hok, hfields⟩
        obtain ⟨member, others, hmember, hothers, rfl⟩ := Scope.members_cons_eq_ok_iff.mp hok
        rw [List.zipWith_cons_cons] at hfields
        obtain ⟨hfirst, hlater⟩ := List.forall_mem_cons.mp hfields
        exact ⟨⟨member, hmember, hfirst⟩, others, hothers, hlater⟩
      · rintro ⟨⟨member, hmember, hfirst⟩, others, hothers, hlater⟩
        refine ⟨member :: others, ?_, ?_⟩
        · exact Scope.members_cons_eq_ok_iff.mpr ⟨member, others, hmember, hothers, rfl⟩
        · rw [List.zipWith_cons_cons]
          exact List.forall_mem_cons.mpr ⟨hfirst, hlater⟩

theorem exists_fields_iff :
    (∃ fields, scope.fields shapeName object = .ok fields ∧
        ∀ field ∈ fields, P field.1 field.2.1 field.2.2) ↔
      ∃ shape, scope.service.shapes.lookup shapeName = some shape ∧
        ∀ entry ∈ object, ∃ member, shape.members.lookup entry.1 = some member ∧
          P entry.1 member entry.2 := by
  unfold Scope.fields
  simp only [bind_eq_ok_iff, Scope.shape_eq_ok_iff, ← exists_members_zip_iff scope shapeName]
  constructor
  · rintro ⟨fields, ⟨shape, hshape, members, hok, hzip⟩, hfields⟩
    exact ⟨shape, hshape, members, hok, Except.ok.inj hzip ▸ hfields⟩
  · rintro ⟨shape, hshape, members, hok, hfields⟩
    exact ⟨_, ⟨shape, hshape, members, hok, rfl⟩, hfields⟩

end Fields

theorem exists_requestChain_iff {inputType : Text} {e : Example} :
    (∃ chain, requestChain scope inputType e = .ok chain) ↔
      e.InputConforms scope.service inputType := by
  unfold requestChain Example.InputConforms
  cases e.input with
  | null => simp
  | object object =>
      calc (∃ chain, (scope.fields inputType object >>= chainLines scope e.comments) = .ok chain)
          ↔ ∃ fields, scope.fields inputType object = .ok fields ∧
              ∃ chain, chainLines scope e.comments fields = .ok chain := exists_bind_iff
        _ ↔ ∃ shape, scope.service.shapes.lookup inputType = some shape ∧
              ∀ entry ∈ object, ∃ member, shape.members.lookup entry.1 = some member ∧
                Conforms scope.service .field member entry.2 ∧ e.KeepsComment entry.1 := by
            simp only [exists_chainLines_iff]
            exact exists_fields_iff (P := fun name member value =>
              Conforms scope.service .field member value ∧ e.KeepsComment name)
        _ ↔ FieldsConform scope.service inputType object ∧ ∀ entry ∈ object, e.KeepsComment entry.1 := by
            simp only [← and_assoc, exists_and_right, imp_and, forall_and, FieldsConform]
        _ ↔ _ := by simp
  | _ => simp [Scope.misfit]

/-! ### Classes -/

variable {s : Service}

/-- An example becomes a method exactly if it is well typed. -/
theorem exists_method_iff {n : NumberedExample} :
    (∃ m : Method s, m.toNumberedExample = n) ↔ n.shown.WellTyped s n.operationName := by
  constructor
  · rintro ⟨m, rfl⟩
    refine ⟨?_, ?_, m.operation, operation_eq_ok_iff.mp m.operation_eq, ?_⟩
    · exact visible_singleLine_iff.mp (Text.trim_ne_nil_iff.mp m.title_trim_ne)
    · exact visible_singleLine_iff.mp (Text.trim_ne_nil_iff.mp m.description_trim_ne)
    · exact exists_requestChain_iff.mp ⟨m.chain, m.chain_eq⟩
  · intro h
    obtain ⟨operation, hoperation, hinput⟩ := h.input
    have hchain : ∃ chain, requestChain ⟨s, n.context⟩ operation.inputType n.shown = .ok chain :=
      exists_requestChain_iff.mpr hinput
    obtain ⟨chain, hchain⟩ := hchain
    have htitle := Text.trim_ne_nil_iff.mpr (visible_singleLine_iff.mpr h.title)
    have hdescription := Text.trim_ne_nil_iff.mpr (visible_singleLine_iff.mpr h.description)
    exact ⟨⟨n, operation, chain, operation_eq_ok_iff.mpr hoperation, htitle, hdescription, hchain⟩, rfl⟩

theorem exists_methods_iff :
    (∃ methods : List (Method s), methods.map (·.toNumberedExample) = s.numberedExamples) ↔
      ∀ n ∈ s.numberedExamples, n.shown.WellTyped s n.operationName := by
  rw [← Set.mem_range, Set.range_list_map]
  simp only [Set.mem_ofPred_eq, Set.mem_range, exists_method_iff]

theorem forall_mem_numberedExamples_iff {P : Text → Example → Prop} :
    (∀ n ∈ s.numberedExamples, P n.operationName n.shown) ↔
      ∀ entry ∈ s.examples, ∀ e ∈ entry.2, P entry.1 e := by
  constructor
  · intro h entry hentry e he
    obtain ⟨place, hplace⟩ := List.mem_iff_getElem?.mp he
    have hmem : ⟨entry.1, place + 1, e⟩ ∈ s.numberedExamples :=
      mem_numberedExamples_iff.mpr ⟨entry.2, hentry, by simp, by simpa using hplace⟩
    exact h _ hmem
  · intro h n hn
    obtain ⟨examples, hentry, -, hshown⟩ := mem_numberedExamples_iff.mp hn
    exact h _ hentry _ (List.mem_of_getElem? hshown)

/-- **A class is written exactly for well-typed services.** -/
theorem exists_classSource_iff :
    (∃ source, s.classSource = .ok source) ↔
      s.tagName ≠ [] ∧ '.' ∉ s.tagName ∧
        ∀ entry ∈ s.examples, ∀ e ∈ entry.2, e.WellTyped s entry.1 := by
  calc (∃ source, s.classSource = .ok source)
      ↔ ∃ lines, s.classLines = .ok lines := by
        unfold classSource
        exact exists_map_iff
    _ ↔ s.tagName ≠ [] ∧ '.' ∉ s.tagName ∧
          ∃ methods : List (Method s), methods.map (·.toNumberedExample) = s.numberedExamples := by
        simp only [classLines_eq_ok_iff]
        constructor
        · rintro ⟨lines, hne, hdot, methods, hmethods, -⟩
          exact ⟨hne, hdot, methods, hmethods⟩
        · rintro ⟨hne, hdot, methods, hmethods⟩
          exact ⟨_, hne, hdot, methods, hmethods, rfl⟩
    _ ↔ s.tagName ≠ [] ∧ '.' ∉ s.tagName ∧
          ∀ entry ∈ s.examples, ∀ e ∈ entry.2, e.WellTyped s entry.1 := by
        rw [exists_methods_iff]
        rw [forall_mem_numberedExamples_iff (P := fun name e => e.WellTyped s name)]

end Exemplar.Service
