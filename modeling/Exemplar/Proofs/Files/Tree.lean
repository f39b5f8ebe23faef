import Exemplar.Proofs.Files.Content

/-!
# The nodes of a tree

All nodes of a tree with the names that lead to them, depth first: an entry of a directory, what is below it, and then
the next entry. In a tree whose directories are in order these are the nodes that names lead to, and they come in the
lexicographic order of those names, because entries part at their first name and a directory stands before what is
below it.
-/

namespace Exemplar.Node

variable {node found : Node} {entries : List (Text × Node)} {names : List Text} {name : Text}

theorem lookup_of_mem (h : entries.Pairwise fun a b => a.1 < b.1) (hmem : (name, node) ∈ entries) :
    entries.lookup name = some node := by
  induction entries with
  | nil => simp at hmem
  | cons first rest ih =>
      obtain ⟨n, old⟩ := first
      obtain ⟨hfirst, hrest⟩ := List.pairwise_cons.mp h
      rw [lookup_cons_eq]
      rcases List.mem_cons.mp hmem with heq | hmem
      · cases heq
        rw [if_pos rfl]
      · have hne : name ≠ n := fun heq => List.lt_irrefl _ (heq ▸ hfirst _ hmem)
        rw [if_neg hne]
        exact ih hrest hmem

theorem ordered_of_at? (h : node.Ordered) (hat : node.at? names = some found) : found.Ordered := by
  induction names generalizing node with
  | nil =>
      cases hat
      exact h
  | cons name names ih =>
      cases node with
      | file bytes => simp [at?, child?] at hat
      | directory entries =>
          rw [at?, Option.bind_eq_some_iff] at hat
          obtain ⟨child, hchild, hat⟩ := hat
          exact ih (ordered_of_mem h.2 (mem_of_lookup hchild)) hat

/-- Induction on a tree: what holds of a directory whenever it holds of its entries holds of every node. -/
@[elab_as_elim]
theorem inductionOn {motive : Node → Prop} (node : Node) (file : ∀ bytes, motive (.file bytes))
    (directory : ∀ entries, (∀ entry ∈ entries, motive entry.2) → motive (.directory entries)) : motive node := by
  cases node with
  | file bytes => exact file bytes
  | directory entries =>
      refine directory entries fun entry hmem => ?_
      have hlt : sizeOf entry.2 < 1 + sizeOf entries := by
        have hentry := List.sizeOf_lt_of_mem hmem
        obtain ⟨name, child⟩ := entry
        simp only [Prod.mk.sizeOf_spec] at hentry ⊢
        omega
      exact inductionOn entry.2 file directory

mutual

/-- The nodes of a tree, each with the names that lead to it: a directory stands before what is below it. -/
def within : Node → List (List Text × Node)
  | file bytes => [([], file bytes)]
  | directory entries => ([], directory entries) :: withinEntries entries

def withinEntries : List (Text × Node) → List (List Text × Node)
  | [] => []
  | (name, node) :: rest => (within node).map (Prod.map (name :: ·) id) ++ withinEntries rest

end

theorem withinEntries_eq (entries : List (Text × Node)) :
    withinEntries entries = entries.flatMap fun entry => entry.2.within.map (Prod.map (entry.1 :: ·) id) := by
  induction entries with
  | nil => rfl
  | cons first rest ih =>
      obtain ⟨name, node⟩ := first
      rw [withinEntries, ih, List.flatMap_cons]

theorem mem_withinEntries_iff : (names, found) ∈ withinEntries entries ↔
    ∃ name child, (name, child) ∈ entries ∧ ∃ below, (below, found) ∈ child.within ∧ name :: below = names := by
  simp [withinEntries_eq, Prod.map]

/-- The nodes of a tree in order are those that names lead to. -/
theorem mem_within_iff (h : node.Ordered) : (names, found) ∈ node.within ↔ node.at? names = some found := by
  induction names generalizing node with
  | nil => cases node <;> simp [within, mem_withinEntries_iff, at?, eq_comm]
  | cons name names ih =>
      cases node with
      | file bytes => simp [within, at?, child?]
      | directory entries =>
          rw [within, List.mem_cons, or_iff_right (by simp), mem_withinEntries_iff, at?, child?,
            Option.bind_eq_some_iff]
          constructor
          · rintro ⟨first, child, hmem, below, hbelow, heq⟩
            obtain ⟨rfl, rfl⟩ := List.cons.inj heq
            exact ⟨child, lookup_of_mem h.1 hmem, (ih (ordered_of_mem h.2 hmem)).mp hbelow⟩
          · rintro ⟨child, hlookup, hat⟩
            have hmem := mem_of_lookup hlookup
            exact ⟨name, child, hmem, names, (ih (ordered_of_mem h.2 hmem)).mpr hat, rfl⟩

/-- **Depth first is the order of the names that lead to the nodes.** -/
theorem pairwise_within (h : node.Ordered) : node.within.Pairwise fun a b => a.1 < b.1 := by
  induction node using inductionOn with
  | file bytes => exact List.pairwise_singleton ..
  | directory entries ih =>
      rw [within, List.pairwise_cons]
      constructor
      · rintro ⟨names, found⟩ hmem
        obtain ⟨name, child, -, below, -, rfl⟩ := mem_withinEntries_iff.mp hmem
        exact List.nil_lt_cons ..
      · rw [withinEntries_eq, List.pairwise_flatMap]
        constructor
        · intro entry hmem
          have hentry := ih entry hmem (ordered_of_mem h.2 hmem)
          exact List.pairwise_map.mpr (hentry.imp fun hlt => List.Lex.cons hlt)
        · refine h.1.imp fun hlt a ha b hb => ?_
          obtain ⟨_, -, rfl⟩ := List.mem_map.mp ha
          obtain ⟨_, -, rfl⟩ := List.mem_map.mp hb
          exact List.Lex.rel hlt

end Exemplar.Node
