import Exemplar.Proofs.Outcome
import Exemplar.Service.ClassSource

/-!
# The methods of a class

A class has a method for each example, operation by operation in the order of the service. An example
becomes a method if its operation is known, its title and its description are not blank and its request can
be rendered; a class is written exactly if its service can be named in tags and all its examples become
methods.
-/

namespace Exemplar.Service

/-- An example with its operation's name and its number among the examples of that operation. -/
structure NumberedExample where
  operationName : Text
  number : Nat
  shown : Example

namespace NumberedExample

def id (n : NumberedExample) : Text := sampleId n.operationName n.number

def title (n : NumberedExample) : Text := singleLine n.shown.title

def description (n : NumberedExample) : Text := singleLine n.shown.description

def context (n : NumberedExample) : Text := exampleContext n.operationName n.number

/-- The method of the example, or why it has none. -/
def methodLines (s : Service) (n : NumberedExample) : Except Fault (List Text) :=
  s.exampleLines n.operationName n.number n.shown

end NumberedExample

def numberedFrom (operationName : Text) (number : Nat) : List Example → List NumberedExample
  | [] => []
  | e :: rest => ⟨operationName, number, e⟩ :: numberedFrom operationName (number + 1) rest

/-- The examples of a service in its order, each operation's counted from one. -/
def numberedExamples (s : Service) : List NumberedExample :=
  s.examples.flatMap fun (operationName, examples) => numberedFrom operationName 1 examples

theorem mem_numberedFrom_iff {operationName : Text} {number : Nat} {examples : List Example}
    {n : NumberedExample} :
    n ∈ numberedFrom operationName number examples ↔
      n.operationName = operationName ∧ number ≤ n.number ∧
        examples[n.number - number]? = some n.shown := by
  obtain ⟨name, k, e⟩ := n
  induction examples generalizing number with
  | nil => simp [numberedFrom]
  | cons first examples ih =>
      simp only [numberedFrom, List.mem_cons, NumberedExample.mk.injEq, ih]
      rcases Nat.lt_trichotomy k number with hlt | rfl | hlt
      · have hne : k ≠ number := by omega
        have hle : ¬number + 1 ≤ k ∧ ¬number ≤ k := by omega
        simp [hne, hle]
      · have hle : ¬k + 1 ≤ k := by omega
        simp [hle, eq_comm]
      · have hne : k ≠ number := by omega
        have hle : number + 1 ≤ k ∧ number ≤ k := by omega
        have hsub : k - number = (k - (number + 1)) + 1 := by omega
        simp [hne, hle, hsub]

/-- The numbered examples are those of the operations, each at its place. -/
theorem mem_numberedExamples_iff {s : Service} {n : NumberedExample} :
    n ∈ s.numberedExamples ↔ ∃ examples, (n.operationName, examples) ∈ s.examples ∧
      1 ≤ n.number ∧ examples[n.number - 1]? = some n.shown := by
  rw [numberedExamples, List.mem_flatMap]
  constructor
  · rintro ⟨⟨operationName, examples⟩, hentry, hn⟩
    obtain ⟨rfl, hnumber, hshown⟩ := mem_numberedFrom_iff.mp hn
    exact ⟨examples, hentry, hnumber, hshown⟩
  · rintro ⟨examples, hentry, hnumber, hshown⟩
    exact ⟨_, hentry, mem_numberedFrom_iff.mpr ⟨rfl, hnumber, hshown⟩⟩

/-- An example that becomes a method, with its operation and its chained calls. -/
structure Method (s : Service) extends NumberedExample where
  operation : Operation
  chain : List Text
  operation_eq : s.operation operationName = .ok operation
  title_trim_ne : (singleLine shown.title).trim ≠ []
  description_trim_ne : (singleLine shown.description).trim ≠ []
  chain_eq :
    requestChain ⟨s, exampleContext operationName number⟩ operation.inputType shown = .ok chain

variable {s : Service}

/-- An example becomes one method only. -/
theorem Method.eq_of_toNumberedExample_eq {m m' : Method s}
    (h : m.toNumberedExample = m'.toNumberedExample) : m = m' := by
  cases m with
  | mk n operation chain hoperation _ _ hchain =>
    cases m' with
    | mk n' operation' chain' hoperation' _ _ hchain' =>
        obtain rfl : n = n' := h
        obtain rfl : operation = operation' := Except.ok.inj (hoperation.symm.trans hoperation')
        obtain rfl : chain = chain' := Except.ok.inj (hchain.symm.trans hchain')
        rfl

/-- The lines of a method, after an empty one. -/
def Method.lines (m : Method s) : List Text :=
  [] :: entryLine m.operationName m.number :: s.labelLine m.operationName m.number ::
    titleLine m.title :: descriptionLine m.description :: s.bodyLines m.operation m.chain ++
    [endLine, closeLine]

theorem operation_eq_ok_iff {name : Text} {operation : Operation} :
    s.operation name = .ok operation ↔ s.operations.lookup name = some operation := by
  unfold Service.operation
  cases hoperation : s.operations.lookup name <;> simp

theorem requireText_eq_ok_iff {context text : Text} {part : String} {u : Unit} :
    requireText context part text = .ok u ↔ text.trim ≠ [] := by
  unfold requireText
  split <;> simp_all

theorem methodLines_eq_ok_iff {n : NumberedExample} {lines : List Text} :
    n.methodLines s = .ok lines ↔ ∃ m : Method s, m.toNumberedExample = n ∧ [] :: lines = m.lines := by
  unfold NumberedExample.methodLines exampleLines
  simp only [bind_eq_ok_iff, requireText_eq_ok_iff]
  constructor
  · rintro ⟨operation, hoperation, -, htitle, -, hdescription, chain, hchain, hlines⟩
    refine ⟨⟨n, operation, chain, hoperation, htitle, hdescription, hchain⟩, rfl, ?_⟩
    rw [← Except.ok.inj hlines]
    rfl
  · rintro ⟨⟨_, operation, chain, hoperation, htitle, hdescription, hchain⟩, rfl, hlines⟩
    refine ⟨operation, hoperation, (), htitle, (), hdescription, chain, hchain, ?_⟩
    exact congrArg Except.ok (List.cons.inj hlines).2.symm

theorem operationLines_eq_mapM {operationName : Text} {number : Nat} {examples : List Example} :
    s.operationLines operationName number examples =
      ((numberedFrom operationName number examples).mapM (NumberedExample.methodLines s)).map
        (·.flatMap ([] :: ·)) := by
  induction examples generalizing number with
  | nil => rfl
  | cons e examples ih =>
      rw [operationLines, numberedFrom, List.mapM_cons, ih, NumberedExample.methodLines]
      cases s.exampleLines operationName number e with
      | error f => rfl
      | ok first =>
          cases (numberedFrom operationName (number + 1) examples).mapM (NumberedExample.methodLines s) <;> rfl

/-- The methods are written one after the other in the order of the numbered examples. -/
theorem exampleSetLines_eq_mapM {examples : List (Text × List Example)} :
    s.exampleSetLines examples =
      ((examples.flatMap fun entry => numberedFrom entry.1 1 entry.2).mapM (NumberedExample.methodLines s)).map
        (·.flatMap ([] :: ·)) := by
  induction examples with
  | nil => rfl
  | cons entry examples ih =>
      rw [exampleSetLines, List.flatMap_cons, List.mapM_append, operationLines_eq_mapM, ih]
      cases (numberedFrom entry.1 1 entry.2).mapM (NumberedExample.methodLines s) with
      | error f => rfl
      | ok first =>
          cases (examples.flatMap fun entry => numberedFrom entry.1 1 entry.2).mapM
            (NumberedExample.methodLines s) with
          | error f => rfl
          | ok others => exact congrArg Except.ok List.flatMap_append.symm

theorem mapM_methodLines_eq_ok_iff {examples : List NumberedExample} {lines : List Text} :
    (examples.mapM (NumberedExample.methodLines s)).map (·.flatMap ([] :: ·)) = .ok lines ↔
      ∃ methods : List (Method s),
        methods.map (·.toNumberedExample) = examples ∧ lines = methods.flatMap Method.lines := by
  simp only [map_eq_ok_iff, mapM_eq_ok_iff, methodLines_eq_ok_iff]
  constructor
  · rintro ⟨bodies, hbodies, rfl⟩
    induction hbodies with
    | nil => exact ⟨[], rfl, rfl⟩
    | cons hfirst _ ih =>
        obtain ⟨m, hm, hlines⟩ := hfirst
        obtain ⟨methods, hmethods, hrest⟩ := ih
        refine ⟨m :: methods, by rw [List.map_cons, hm, hmethods], ?_⟩
        rw [List.flatMap_cons, List.flatMap_cons, hlines, hrest]
  · rintro ⟨methods, rfl, rfl⟩
    refine ⟨methods.map (·.lines.tail), ?_, ?_⟩
    · rw [List.forall₂_map_left_iff, List.forall₂_map_right_iff, List.forall₂_same]
      exact fun m _ => ⟨m, rfl, rfl⟩
    · rw [List.flatMap_map]
      rfl

/-- A class that can be named consists of the methods of all examples. -/
theorem classLines_eq_map (hname : s.tagName ≠ []) (hdot : '.' ∉ s.tagName) :
    s.classLines = ((s.numberedExamples.mapM (NumberedExample.methodLines s)).map (·.flatMap ([] :: ·))).map
      (s.headLines ++ · ++ [['\x7d']]) := by
  have hmethods : s.exampleSetLines s.examples =
      (s.numberedExamples.mapM (NumberedExample.methodLines s)).map (·.flatMap ([] :: ·)) := exampleSetLines_eq_mapM
  unfold classLines
  rw [if_neg (not_or.mpr ⟨hname, hdot⟩), hmethods]
  cases (s.numberedExamples.mapM (NumberedExample.methodLines s)).map (·.flatMap ([] :: ·)) <;> rfl

theorem classLines_eq_ok_iff {lines : List Text} :
    s.classLines = .ok lines ↔
      s.tagName ≠ [] ∧ '.' ∉ s.tagName ∧
        ∃ methods : List (Method s), methods.map (·.toNumberedExample) = s.numberedExamples ∧
          lines = s.headLines ++ methods.flatMap Method.lines ++ [['\x7d']] := by
  by_cases hname : s.tagName = [] ∨ '.' ∈ s.tagName
  · have hfault : s.classLines = .error (.invalidArgument (.serviceUnnameable s.name)) := by
      unfold classLines
      rw [if_pos hname]
      rfl
    constructor
    · intro h
      rw [hfault] at h
      cases h
    · rintro ⟨hne, hdot, -⟩
      exact absurd hname (not_or.mpr ⟨hne, hdot⟩)
  · obtain ⟨hne, hdot⟩ := not_or.mp hname
    rw [classLines_eq_map hne hdot, map_eq_ok_iff]
    simp only [mapM_methodLines_eq_ok_iff]
    constructor
    · rintro ⟨_, ⟨methods, hmethods, rfl⟩, rfl⟩
      exact ⟨hne, hdot, methods, hmethods, rfl⟩
    · rintro ⟨-, -, methods, hmethods, rfl⟩
      exact ⟨_, ⟨methods, hmethods, rfl⟩, rfl⟩

end Exemplar.Service
