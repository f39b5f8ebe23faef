import Exemplar.Text.Basic

/-!
# Nodes

A node is a file with its bytes, or a directory with its entries. The entries of a directory are kept in the
order of their names, which is also the order of the names' bytes. Putting and removing nodes keep this
order, and with it that every name stands once in its directory. Names are Unicode texts, and there are no links.
-/

namespace Exemplar

inductive Node
  | file (bytes : List UInt8)
  | directory (entries : List (Text × Node))

namespace Node

mutual

/-- Every directory in the tree lists its names in strictly ascending order. -/
def Ordered : Node → Prop
  | file _ => True
  | directory entries => entries.Pairwise (fun a b => a.1 < b.1) ∧ AllOrdered entries

def AllOrdered : List (Text × Node) → Prop
  | [] => True
  | (_, node) :: rest => node.Ordered ∧ AllOrdered rest

end

/-- Puts an entry in its place among ordered entries, in place of an old one of its name. -/
def putEntry (name : Text) (node : Node) : List (Text × Node) → List (Text × Node)
  | [] => [(name, node)]
  | (n, old) :: rest =>
    if n < name then (n, old) :: putEntry name node rest
    else if n = name then (name, node) :: rest
    else (name, node) :: (n, old) :: rest

def child? (name : Text) : Node → Option Node
  | file _ => none
  | directory entries => entries.lookup name

/-- The node at a location below this one. -/
def at? : Node → List Text → Option Node
  | node, [] => some node
  | node, name :: rest => (node.child? name).bind (·.at? rest)

/-- Puts a node at a location whose directories exist. -/
def put (node : Node) (location : List Text) (new : Node) : Node :=
  match location, node with
  | [], _ => new
  | name :: rest, directory entries =>
    directory (putEntry name (((entries.lookup name).getD (directory [])).put rest new) entries)
  | _ :: _, file bytes => file bytes

/-- Removes what is at a location. -/
def remove (node : Node) (location : List Text) : Node :=
  match location, node with
  | [name], directory entries => directory (entries.filter (·.1 ≠ name))
  | name :: rest, directory entries =>
    match entries.lookup name with
    | some child => directory (putEntry name (child.remove rest) entries)
    | none => directory entries
  | _, node => node

theorem ordered_of_mem {entries : List (Text × Node)} (h : AllOrdered entries)
    {entry : Text × Node} (hmem : entry ∈ entries) : entry.2.Ordered := by
  induction entries with
  | nil => simp at hmem
  | cons first rest ih =>
    obtain ⟨name, node⟩ := first
    rcases List.mem_cons.mp hmem with rfl | hrest
    · exact h.1
    · exact ih h.2 hrest

theorem allOrdered_of_forall {entries : List (Text × Node)}
    (h : ∀ entry ∈ entries, entry.2.Ordered) : AllOrdered entries := by
  induction entries with
  | nil => trivial
  | cons first rest ih =>
    obtain ⟨name, node⟩ := first
    exact ⟨h _ (List.mem_cons_self ..), ih fun entry hmem => h entry (List.mem_cons_of_mem _ hmem)⟩

theorem mem_of_lookup {entries : List (Text × Node)} {name : Text} {node : Node}
    (h : entries.lookup name = some node) : (name, node) ∈ entries := by
  induction entries with
  | nil => simp at h
  | cons first rest ih =>
    obtain ⟨n, old⟩ := first
    rw [List.lookup_cons] at h
    split at h
    · simp_all
    · exact List.mem_cons_of_mem _ (ih h)

theorem mem_putEntry {name : Text} {node : Node} {entries : List (Text × Node)}
    {entry : Text × Node} (h : entry ∈ putEntry name node entries) :
    entry = (name, node) ∨ entry ∈ entries := by
  induction entries with
  | nil => simpa [putEntry] using h
  | cons first rest ih =>
    obtain ⟨n, old⟩ := first
    unfold putEntry at h
    split at h
    · rcases List.mem_cons.mp h with rfl | h
      · simp
      · rcases ih h with h | h <;> simp [h]
    · split at h
      · rcases List.mem_cons.mp h with h | h <;> simp [h]
      · rcases List.mem_cons.mp h with h | h
        · simp [h]
        · exact Or.inr h

theorem pairwise_putEntry {name : Text} {node : Node} {entries : List (Text × Node)}
    (h : entries.Pairwise fun a b => a.1 < b.1) :
    (putEntry name node entries).Pairwise fun a b => a.1 < b.1 := by
  induction entries with
  | nil => simp [putEntry]
  | cons first rest ih =>
    obtain ⟨n, old⟩ := first
    rw [List.pairwise_cons] at h
    unfold putEntry
    split
    · rename_i hlt
      refine List.pairwise_cons.mpr ⟨fun entry hmem => ?_, ih h.2⟩
      rcases mem_putEntry hmem with rfl | hmem
      · exact hlt
      · exact h.1 entry hmem
    · split
      · rename_i heq
        subst heq
        exact List.pairwise_cons.mpr ⟨h.1, h.2⟩
      · rename_i hlt hne
        have hname : name < n :=
          Classical.byContradiction fun hge =>
            hne (List.le_antisymm (List.not_lt.mp hge) (List.not_lt.mp hlt))
        refine List.pairwise_cons.mpr ⟨fun entry hmem => ?_, List.pairwise_cons.mpr h⟩
        rcases List.mem_cons.mp hmem with rfl | hmem
        · exact hname
        · exact List.lt_trans hname (h.1 entry hmem)

theorem ordered_putEntry {name : Text} {node : Node} {entries : List (Text × Node)}
    (hnode : node.Ordered) (h : (directory entries).Ordered) :
    (directory (putEntry name node entries)).Ordered := by
  refine ⟨pairwise_putEntry h.1, allOrdered_of_forall fun entry hmem => ?_⟩
  rcases mem_putEntry hmem with rfl | hmem
  · exact hnode
  · exact ordered_of_mem h.2 hmem

theorem ordered_put {node new : Node} {location : List Text} (hnew : new.Ordered)
    (h : node.Ordered) : (node.put location new).Ordered := by
  induction location generalizing node with
  | nil => simpa [put] using hnew
  | cons name rest ih =>
    cases node with
    | file bytes => simpa [put] using h
    | directory entries =>
      rw [put]
      refine ordered_putEntry (ih ?_) h
      cases hlookup : entries.lookup name with
      | none => exact ⟨List.Pairwise.nil, trivial⟩
      | some old => exact ordered_of_mem h.2 (mem_of_lookup hlookup)

theorem ordered_remove {node : Node} {location : List Text} (h : node.Ordered) :
    (node.remove location).Ordered := by
  induction location generalizing node with
  | nil => simpa [remove] using h
  | cons name rest ih =>
    cases node with
    | file bytes => cases rest <;> simpa [remove] using h
    | directory entries =>
      cases rest with
      | nil =>
        rw [remove]
        refine ⟨h.1.filter _, allOrdered_of_forall fun entry hmem => ?_⟩
        exact ordered_of_mem h.2 ((List.mem_filter.mp hmem).1)
      | cons second rest =>
        rw [remove]
        · split
          · exact ordered_putEntry (ih (ordered_of_mem h.2 (mem_of_lookup (by assumption)))) h
          · exact h
        · simp

end Node

end Exemplar
