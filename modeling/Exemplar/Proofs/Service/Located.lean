import Exemplar.Proofs.Service.WellTyped

/-!
# Faults of examples

What the fault of a class tells about the example that it comes from. An example is rendered in a context that has
its operation and its number. Every misfit in its texts and its input carries this context, and so does a field that
is no member of its shape, however deep it stands. A look-up in the service knows of no example: for an operation or
a shape that is not declared, the fault has the missing name and the service alone.

The shapes that are looked up are those that the input reaches. If all of them are declared, and the operation is,
the fault has the example in its context.
-/

namespace Exemplar

/-- The names, fields and contexts of a fault. -/
def Fault.data : Fault → List Text
  | .lookup _ name context => [name, context]
  | .generation field _ context => [field, context]
  | _ => []

namespace Service

open Json (Value)

/-- The fault has the operation of the example in its data, and the number. -/
def NumberedExample.NamedBy (n : NumberedExample) (f : Fault) : Prop :=
  (∃ t ∈ f.data, n.operationName <:+: t) ∧ ∃ t ∈ f.data, Text.ofNat n.number <:+: t

/-- Faults that say in which context they arose. -/
inductive InContext (context : Text) : Fault → Prop
  | misfit (field : Text) (reason : Misfit) : InContext context (.generation field reason context)
  | member (name shapeName : Text) :
      InContext context (.lookup .member name ("shape ".toList ++ shapeName ++ ", ".toList ++ context))

theorem InContext.exists_infix {context : Text} {f : Fault} (h : InContext context f) :
    ∃ t ∈ f.data, context <:+: t := by
  cases h with
  | misfit field reason => exact ⟨context, by simp [Fault.data], List.infix_rfl⟩
  | member name shapeName =>
      exact ⟨"shape ".toList ++ shapeName ++ ", ".toList ++ context, List.mem_cons_of_mem _ List.mem_cons_self,
        (List.suffix_append _ context).isInfix⟩

theorem operationName_infix_exampleContext (operationName : Text) (number : Nat) :
    operationName <:+: exampleContext operationName number := by
  unfold exampleContext
  rw [List.append_assoc ("operation ".toList ++ operationName)]
  exact List.infix_append _ _ _

theorem number_infix_exampleContext (operationName : Text) (number : Nat) :
    Text.ofNat number <:+: exampleContext operationName number := by
  unfold exampleContext
  exact (List.suffix_append _ _).isInfix

theorem InContext.namedBy {n : NumberedExample} {f : Fault} (h : InContext n.context f) : n.NamedBy f := by
  obtain ⟨t, ht, hcontext⟩ := h.exists_infix
  constructor
  · exact ⟨t, ht, (operationName_infix_exampleContext _ n.number).trans hcontext⟩
  · exact ⟨t, ht, (number_infix_exampleContext n.operationName _).trans hcontext⟩

/-- In the value stands an object for the shape. -/
inductive ReachesShape (s : Service) (shapeName : Text) : Member → Value → Prop
  | object (object : List (Text × Value)) : ReachesShape s shapeName (.nested shapeName) (.object object)
  | item {element : Member} {items : List Value} {item : Value} (hitem : item ∈ items)
      (hreached : ReachesShape s shapeName element item) : ReachesShape s shapeName (.list element) (.list items)
  | entry {key : Scalar} {element : Member} {entries : List (Text × Value)} {entry : Text × Value}
      (hentry : entry ∈ entries) (hreached : ReachesShape s shapeName element entry.2) :
      ReachesShape s shapeName (.map key element) (.object entries)
  | field {outer : Text} {shape : Shape} {object : List (Text × Value)} {entry : Text × Value} {member : Member}
      (hshape : s.shapes.lookup outer = some shape) (hentry : entry ∈ object)
      (hmember : shape.members.lookup entry.1 = some member) (hreached : ReachesShape s shapeName member entry.2) :
      ReachesShape s shapeName (.nested outer) (.object object)

/-! ### Faults of values -/

/-- How rendering a value fails: in its context, or for want of a shape that the value reaches. -/
inductive FaultAt (scope : Scope) (member : Member) (value : Value) : Fault → Prop
  | inContext {f : Fault} (h : InContext scope.context f) : FaultAt scope member value f
  | shape {shapeName : Text} (reached : ReachesShape scope.service shapeName member value)
      (undeclared : scope.service.shapes.lookup shapeName = none) :
      FaultAt scope member value (.lookup .shape shapeName scope.service.place)

theorem FaultAt.mono {scope : Scope} {inner outer : Member} {value whole : Value} {f : Fault}
    (h : FaultAt scope inner value f) (hreach : ∀ shapeName, ReachesShape scope.service shapeName inner value →
      ReachesShape scope.service shapeName outer whole) : FaultAt scope outer whole f := by
  cases h with
  | inContext h => exact .inContext h
  | shape reached undeclared => exact .shape (hreach _ reached) undeclared

/-- How rendering the fields of an object fails, once the shape is found: as one of their values does. -/
def FaultInFields (scope : Scope) (shape : Shape) (object : List (Text × Value)) (f : Fault) : Prop :=
  ∃ entry ∈ object, ∃ member, shape.members.lookup entry.1 = some member ∧ FaultAt scope member entry.2 f

theorem FaultInFields.faultAt {scope : Scope} {shapeName : Text} {shape : Shape} {object : List (Text × Value)}
    {f : Fault} (h : FaultInFields scope shape object f)
    (hshape : scope.service.shapes.lookup shapeName = some shape) :
    FaultAt scope (.nested shapeName) (.object object) f := by
  obtain ⟨entry, hentry, member, hmember, hfault⟩ := h
  exact hfault.mono fun _ => .field hshape hentry hmember

namespace Scope

variable {scope : Scope} {field name shapeName : Text} {position : Position} {element member : Member}
  {value : Value} {shape : Shape} {object : List (Text × Value)} {f : Fault}

theorem inContext_of_misfit {α : Type} {reason : Misfit} (h : (scope.misfit field reason : Except Fault α) = .error f) :
    InContext scope.context f := by
  cases h
  exact .misfit field reason

theorem inContext_of_members (h : scope.members shapeName shape object = .error f) :
    InContext scope.context f := by
  induction object with
  | nil => cases h
  | cons entry object ih =>
      obtain ⟨name, value⟩ := entry
      rw [Scope.members, bind_eq_error_iff] at h
      rcases h with hmember | ⟨member, -, hrest⟩
      · unfold Scope.member at hmember
        split at hmember
        · cases hmember
        · cases hmember
          exact .member name shapeName
      · exact ih (bind_pure_eq_error_iff.mp hrest)

theorem shape_eq_error_iff {s : Service} :
    s.shape shapeName = .error f ↔ s.shapes.lookup shapeName = none ∧ .lookup .shape shapeName s.place = f := by
  unfold Service.shape
  cases s.shapes.lookup shapeName <;> simp

theorem faultAt_of_render (h : render scope field position member value = .error f) :
    FaultAt scope member value f := by
  refine render.induct
    (fun field position member value =>
      render scope field position member value = .error f → FaultAt scope member value f)
    (fun members object => ∀ {shapeName : Text} {shape : Shape},
      scope.members shapeName shape object = .ok members →
        renderFields scope members object = .error f → FaultInFields scope shape object f)
    (fun field key element entries =>
      renderEntries scope field key element entries = .error f → ∃ entry ∈ entries, FaultAt scope element entry.2 f)
    (fun field element items =>
      renderItems scope field element items = .error f → ∃ item ∈ items, FaultAt scope element item f)
    ?simple ?list ?listMisfit ?map ?mapMisfit ?mapArgument ?nested ?nestedMisfit ?noItems ?items
    ?fields ?noFields ?noEntries ?entries field position member value h
  case simple =>
    intro field position scalar value h
    rw [render] at h
    cases h
  case list =>
    intro field position element items ih h
    rw [render, bind_pure_eq_error_iff] at h
    obtain ⟨item, hitem, hfault⟩ := ih h
    exact hfault.mono fun _ => .item hitem
  case listMisfit =>
    intro value field position element hmisfit h
    rw [render] at h
    · exact .inContext (inContext_of_misfit h)
    · exact hmisfit
  case map =>
    intro field key element entries ih h
    rw [render] at h
    obtain ⟨entry, hentry, hfault⟩ := ih h
    exact hfault.mono fun _ => .entry hentry
  case mapMisfit =>
    intro field key element value hmisfit h
    rw [render] at h
    · exact .inContext (inContext_of_misfit h)
    · exact hmisfit
  case mapArgument =>
    intro field key element value h
    rw [render] at h
    exact .inContext (inContext_of_misfit h)
  case nested =>
    intro field position shapeName object ih h
    rw [render, bind_eq_error_iff] at h
    rcases h with hshape | ⟨shape, hshape, hobject⟩
    · obtain ⟨hundeclared, rfl⟩ := shape_eq_error_iff.mp hshape
      exact .shape (.object object) hundeclared
    · rw [bind_eq_error_iff] at hobject
      rcases hobject with hmembers | ⟨members, hmembers, hchain⟩
      · exact .inContext (inContext_of_members hmembers)
      · exact (ih members hmembers (bind_pure_eq_error_iff.mp hchain)).faultAt (shape_eq_ok_iff.mp hshape)
  case nestedMisfit =>
    intro value field position shapeName hmisfit h
    rw [render] at h
    · exact .inContext (inContext_of_misfit h)
    · exact hmisfit
  case noItems =>
    intro field element h
    rw [renderItems] at h
    cases h
  case items =>
    intro field element item rest ihItem ihRest h
    rw [renderItems, bind_eq_error_iff] at h
    rcases h with hitem | ⟨first, -, hrest⟩
    · exact ⟨item, List.mem_cons_self, ihItem hitem⟩
    · obtain ⟨later, hlater, hfault⟩ := ihRest (bind_pure_eq_error_iff.mp hrest)
      exact ⟨later, List.mem_cons_of_mem _ hlater, hfault⟩
  case fields =>
    intro member members name value rest ihValue ihRest shapeName shape hmembers h
    obtain ⟨_, _, hmember, hothers, hcons⟩ := members_cons_eq_ok_iff.mp hmembers
    obtain ⟨rfl, rfl⟩ := List.cons.inj hcons
    rw [renderFields, bind_eq_error_iff] at h
    rcases h with hvalue | ⟨first, -, hrest⟩
    · exact ⟨(name, value), List.mem_cons_self, member, hmember, ihValue hvalue⟩
    · obtain ⟨later, hlater, hfault⟩ := ihRest hothers (bind_pure_eq_error_iff.mp hrest)
      exact ⟨later, List.mem_cons_of_mem _ hlater, hfault⟩
  case noFields =>
    intro object members hnone shapeName shape hmembers h
    rw [renderFields] at h
    · cases h
    · exact hnone
  case noEntries =>
    intro field key element h
    rw [renderEntries] at h
    cases h
  case entries =>
    intro field key element name value rest ihValue ihRest h
    rw [renderEntries, bind_eq_error_iff] at h
    rcases h with hvalue | ⟨argument, -, hrest⟩
    · exact ⟨(name, value), List.mem_cons_self, ihValue hvalue⟩
    · obtain ⟨later, hlater, hfault⟩ := ihRest (bind_pure_eq_error_iff.mp hrest)
      exact ⟨later, List.mem_cons_of_mem _ hlater, hfault⟩

theorem mem_of_mem_zip {members : List Member} (h : scope.members shapeName shape object = .ok members)
    {field : Text × Member × Value}
    (hfield : field ∈ members.zipWith (fun member (name, value) => (name, member, value)) object) :
    (field.1, field.2.2) ∈ object ∧ shape.members.lookup field.1 = some field.2.1 := by
  induction object generalizing members with
  | nil => simp at hfield
  | cons entry object ih =>
      obtain ⟨name, value⟩ := entry
      obtain ⟨member, others, hmember, hothers, rfl⟩ := members_cons_eq_ok_iff.mp h
      rw [List.zipWith_cons_cons] at hfield
      rcases List.mem_cons.mp hfield with rfl | hlater
      · exact ⟨List.mem_cons_self, hmember⟩
      · obtain ⟨hentry, hlookup⟩ := ih hothers hlater
        exact ⟨List.mem_cons_of_mem _ hentry, hlookup⟩

end Scope

/-! ### Faults of requests -/

variable {s : Service} {scope : Scope} {f : Fault}

theorem inContext_of_commentLines {context field : Text} {texts : List Text}
    (h : commentLines context field texts = .error f) : InContext context f := by
  induction texts with
  | nil => cases h
  | cons text texts ih =>
      rw [commentLines] at h
      split at h
      · cases h
        exact .misfit field (.commentIsTag text)
      · exact ih (bind_pure_eq_error_iff.mp h)

theorem faultAt_of_chainLines {comments : List (Text × Text)} {fields : List (Text × Member × Value)}
    (h : chainLines scope comments fields = .error f) :
    ∃ field ∈ fields, FaultAt scope field.2.1 field.2.2 f := by
  induction fields with
  | nil => cases h
  | cons field fields ih =>
      obtain ⟨name, member, value⟩ := field
      rw [chainLines, bind_eq_error_iff] at h
      rcases h with hcomment | ⟨before, -, hrest⟩
      · exact ⟨_, List.mem_cons_self, .inContext (inContext_of_commentLines hcomment)⟩
      · rcases bind_eq_error_iff.mp hrest with hcalls | ⟨calls, -, hlater⟩
        · exact ⟨_, List.mem_cons_self, Scope.faultAt_of_render hcalls⟩
        · obtain ⟨field, hfield, hfault⟩ := ih (bind_pure_eq_error_iff.mp hlater)
          exact ⟨field, List.mem_cons_of_mem _ hfield, hfault⟩

theorem faultAt_of_requestChain {inputType : Text} {e : Example}
    (h : requestChain scope inputType e = .error f) : FaultAt scope (.nested inputType) e.input f := by
  unfold requestChain at h
  cases hinput : e.input with
  | null =>
      rw [hinput] at h
      cases h
  | object object =>
      rw [hinput] at h
      rcases bind_eq_error_iff.mp h with hfields | ⟨fields, hfields, hchain⟩
      · unfold Scope.fields at hfields
        rcases bind_eq_error_iff.mp hfields with hshape | ⟨shape, -, hmembers⟩
        · obtain ⟨hundeclared, rfl⟩ := Scope.shape_eq_error_iff.mp hshape
          exact .shape (.object object) hundeclared
        · exact .inContext (Scope.inContext_of_members (bind_pure_eq_error_iff.mp hmembers))
      · unfold Scope.fields at hfields
        obtain ⟨shape, hshape, hfound⟩ := bind_eq_ok_iff.mp hfields
        obtain ⟨members, hmembers, hzip⟩ := bind_eq_ok_iff.mp hfound
        obtain ⟨field, hfield, hfault⟩ := faultAt_of_chainLines hchain
        rw [← Except.ok.inj hzip] at hfield
        obtain ⟨hentry, hmember⟩ := Scope.mem_of_mem_zip hmembers hfield
        have hinFields : FaultInFields scope shape object f := ⟨_, hentry, _, hmember, hfault⟩
        exact hinFields.faultAt (Scope.shape_eq_ok_iff.mp hshape)
  | _ =>
      rw [hinput] at h
      exact .inContext (Scope.inContext_of_misfit h)

theorem inContext_of_requireText {context text : Text} {part : String}
    (h : requireText context part text = .error f) : InContext context f := by
  unfold requireText at h
  split at h
  · cases h
    exact .misfit part.toList .blank
  · cases h

/-! ### Faults of examples -/

namespace NumberedExample

variable {n : NumberedExample}

/-- The fault of an example whose operation is not declared, or whose input reaches a shape that is not. -/
inductive Undeclared (s : Service) (n : NumberedExample) : Fault → Prop
  | operation (undeclared : s.operations.lookup n.operationName = none) :
      Undeclared s n (.lookup .operation n.operationName s.place)
  | shape {operation : Operation} {shapeName : Text}
      (declared : s.operations.lookup n.operationName = some operation)
      (reached : ReachesShape s shapeName (.nested operation.inputType) n.shown.input)
      (undeclared : s.shapes.lookup shapeName = none) : Undeclared s n (.lookup .shape shapeName s.place)

/-- The service declares the operation of the example and every shape that its input reaches. -/
def Supported (s : Service) (n : NumberedExample) : Prop :=
  ∃ operation, s.operations.lookup n.operationName = some operation ∧
    ∀ shapeName, ReachesShape s shapeName (.nested operation.inputType) n.shown.input →
      (s.shapes.lookup shapeName).isSome

theorem Supported.not_undeclared (h : n.Supported s) : ¬n.Undeclared s f := by
  obtain ⟨operation, hoperation, hshapes⟩ := h
  intro hfault
  cases hfault with
  | operation hundeclared => simp [hoperation] at hundeclared
  | shape hdeclared hreached hundeclared =>
      obtain rfl : operation = _ := Option.some.inj (hoperation.symm.trans hdeclared)
      have hsome := hshapes _ hreached
      simp [hundeclared] at hsome

theorem Undeclared.not_inContext (h : n.Undeclared s f) (context : Text) : ¬InContext context f := by
  rintro ⟨⟩ <;> cases h

theorem exists_methodLines_iff :
    (∃ lines, n.methodLines s = .ok lines) ↔ n.shown.WellTyped s n.operationName := by
  rw [← exists_method_iff]
  constructor
  · rintro ⟨lines, hlines⟩
    obtain ⟨m, hm, -⟩ := methodLines_eq_ok_iff.mp hlines
    exact ⟨m, hm⟩
  · rintro ⟨m, rfl⟩
    exact ⟨m.lines.tail, methodLines_eq_ok_iff.mpr ⟨m, rfl, rfl⟩⟩

theorem inContext_or_undeclared (h : n.methodLines s = .error f) : InContext n.context f ∨ n.Undeclared s f := by
  unfold methodLines exampleLines at h
  rcases bind_eq_error_iff.mp h with hoperation | ⟨operation, hoperation, htexts⟩
  · right
    unfold Service.operation at hoperation
    split at hoperation
    · cases hoperation
    · cases hoperation
      exact .operation ‹_›
  · rcases bind_eq_error_iff.mp htexts with htitle | ⟨-, -, hrest⟩
    · exact .inl (inContext_of_requireText htitle)
    rcases bind_eq_error_iff.mp hrest with hdescription | ⟨-, -, hrequest⟩
    · exact .inl (inContext_of_requireText hdescription)
    have hfault := faultAt_of_requestChain (bind_pure_eq_error_iff.mp hrequest)
    cases hfault with
    | inContext h => exact .inl h
    | shape reached undeclared => exact .inr (.shape (operation_eq_ok_iff.mp hoperation) reached undeclared)

end NumberedExample

/-! ### Faults of classes -/

theorem classSource_eq_error_iff (hname : s.tagName ≠ []) (hdot : '.' ∉ s.tagName) :
    s.classSource = .error f ↔ ∃ before n after, s.numberedExamples = before ++ n :: after ∧
      (∀ m ∈ before, m.shown.WellTyped s m.operationName) ∧ n.methodLines s = .error f := by
  rw [classSource, map_eq_error_iff, classLines_eq_map hname hdot, map_eq_error_iff, map_eq_error_iff,
    mapM_eq_error_iff]
  simp only [NumberedExample.exists_methodLines_iff]

/-- **The fault of a class is that of its first example that is not well typed.** It has the example in its context,
unless the example lacks a declaration and the fault is the look-up of it. -/
theorem fault_of_classSource (hname : s.tagName ≠ []) (hdot : '.' ∉ s.tagName) (h : s.classSource = .error f) :
    ∃ before n after, s.numberedExamples = before ++ n :: after ∧
      (∀ m ∈ before, m.shown.WellTyped s m.operationName) ∧ ¬n.shown.WellTyped s n.operationName ∧
      (InContext n.context f ↔ ¬n.Undeclared s f) ∧ (InContext n.context f → n.NamedBy f) ∧
      (n.Supported s → n.NamedBy f) := by
  obtain ⟨before, n, after, hsplit, hbefore, hfault⟩ := (classSource_eq_error_iff hname hdot).mp h
  have hcontext : InContext n.context f ↔ ¬n.Undeclared s f := by
    constructor
    · exact fun hin hundeclared => hundeclared.not_inContext _ hin
    · exact (NumberedExample.inContext_or_undeclared hfault).resolve_right
  refine ⟨before, n, after, hsplit, hbefore, ?_, hcontext, InContext.namedBy, ?_⟩
  · rw [← NumberedExample.exists_methodLines_iff, hfault]
    rintro ⟨lines, ⟨⟩⟩
  · exact fun hsupported => (hcontext.mpr hsupported.not_undeclared).namedBy

/-- An operation `Track` that takes envelopes, with an example for each of the inputs. -/
def tracking (shapes : List (Text × Shape)) (inputs : List Value) : Service where
  metadata := ⟨"Parcels".toList, "ParcelsClient".toList, "com.parcels".toList⟩
  operations := [("Track".toList, ⟨"track".toList, "Envelope".toList, none⟩)]
  shapes := shapes
  examples := [("Track".toList, inputs.map fun input =>
    ⟨"Track a parcel".toList, "Tracks a parcel.".toList, [], input⟩)]

/-- Envelopes with stamps, the second of which has a text for its marks. -/
def stampedTwice : Service :=
  tracking [("Envelope".toList, ⟨[("stamps".toList, .list (.nested "Stamp".toList))]⟩),
      ("Stamp".toList, ⟨[("marks".toList, .map .text (.simple .long))]⟩)]
    [.null, .object [("stamps".toList, .list [.object [], .object [("marks".toList, .string "late".toList)]])]]

def lateMarks : Fault := .generation "marks".toList .wantsMap "operation Track, example 2".toList

theorem fault_of_classSource_stampedTwice :
    stampedTwice.classSource = .error lateMarks ∧
      ∃ before n after, stampedTwice.numberedExamples = before ++ n :: after ∧
        (∀ m ∈ before, m.shown.WellTyped stampedTwice m.operationName) ∧
        ¬n.shown.WellTyped stampedTwice n.operationName ∧
        (InContext n.context lateMarks ↔ ¬n.Undeclared stampedTwice lateMarks) ∧
        (InContext n.context lateMarks → n.NamedBy lateMarks) ∧ (n.Supported stampedTwice → n.NamedBy lateMarks) := by
  have hfault : stampedTwice.classSource = .error lateMarks := by decide +kernel
  exact ⟨hfault, fault_of_classSource (by decide) (by decide) hfault⟩

/-- An envelope that is not declared leaves the fault without operation and number. -/
theorem not_namedBy_unknown_envelope :
    ¬∀ (s : Service) (f : Fault), s.tagName ≠ [] → '.' ∉ s.tagName → s.classSource = .error f →
      ∃ before n after, s.numberedExamples = before ++ n :: after ∧
        (∀ m ∈ before, m.shown.WellTyped s m.operationName) ∧ ¬n.shown.WellTyped s n.operationName ∧
        n.NamedBy f := by
  intro h
  obtain ⟨before, n, after, hsplit, -, -, hoperation, -⟩ := h (tracking [] [.object []])
    (.lookup .shape "Envelope".toList "service Parcels".toList) (by decide) (by decide) (by decide +kernel)
  have hmem : n ∈ (tracking [] [.object []]).numberedExamples := by simp [hsplit]
  have hname : n.operationName = "Track".toList := by
    obtain rfl := List.mem_singleton.mp hmem
    rfl
  rw [hname] at hoperation
  exact absurd hoperation (by decide +kernel)

end Service

end Exemplar
