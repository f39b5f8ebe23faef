import Exemplar.Files.Disk
import Mathlib.Data.List.Infix
import Mathlib.Logic.Function.Basic

/-!
# What stands at a location

A disk seen from outside: at a location stands a directory, a file with its bytes, or nothing. Putting a
file or an empty directory where no directory stands changes this at one location only, and then everything
that was a directory or a file is still one. What is put has a proper name, so all names stay proper.
-/

namespace Exemplar

inductive Content
  | directory
  | file (bytes : List UInt8)
deriving DecidableEq

def Content.isDirectory : Content → Bool
  | directory => true
  | file _ => false

namespace Node

def content : Node → Content
  | .directory _ => .directory
  | .file bytes => .file bytes

variable {node new : Node} {name other : Text} {location : List Text}

theorem lookup_cons_eq (n : Text) (old : Node) (rest : List (Text × Node)) (other : Text) :
    List.lookup other ((n, old) :: rest) = if other = n then some old else rest.lookup other := by
  rw [List.lookup_cons]
  by_cases h : other = n
  · simp [h]
  · rw [if_neg h, beq_eq_false_iff_ne.mpr h]

theorem lookup_putEntry (name : Text) (node : Node) (entries : List (Text × Node)) (other : Text) :
    (putEntry name node entries).lookup other =
      if other = name then some node else entries.lookup other := by
  induction entries with
  | nil => exact lookup_cons_eq name node [] other
  | cons first rest ih =>
      obtain ⟨n, old⟩ := first
      rw [putEntry]
      split
      · rename_i hlt
        have hne : n ≠ name := by
          rintro rfl
          exact List.lt_irrefl _ hlt
        rw [lookup_cons_eq, lookup_cons_eq, ih]
        by_cases hother : other = n
        · simp [hother, hne]
        · simp [hother]
      · split
        · rename_i heq
          subst heq
          rw [lookup_cons_eq, lookup_cons_eq]
          by_cases hother : other = n <;> simp [hother]
        · exact lookup_cons_eq name node _ other

theorem at?_append (node : Node) (location below : List Text) :
    node.at? (location ++ below) = (node.at? location).bind (·.at? below) := by
  induction location generalizing node with
  | nil => rfl
  | cons name location ih =>
      rw [List.cons_append, at?, at?]
      cases node.child? name with
      | none => rfl
      | some child => exact ih child

theorem at?_putEntry (name : Text) (node : Node) (entries : List (Text × Node)) (first : Text)
    (below : List Text) :
    (directory (putEntry name node entries)).at? (first :: below) =
      if first = name then node.at? below else (directory entries).at? (first :: below) := by
  rw [at?, child?, lookup_putEntry]
  split <;> rfl

/-- Nothing stands below a file, nor in a directory without entries. -/
def Bare (node : Node) : Prop := ∀ name below, node.at? (name :: below) = none

theorem bare_file (bytes : List UInt8) : (file bytes).Bare := fun _ _ => rfl

theorem bare_directory : (directory []).Bare := fun _ _ => rfl

theorem ordered_directory : (directory []).Ordered := ⟨.nil, trivial⟩

theorem at?_below_eq_none {below : List Text} (h : ∀ old, node.at? location = some old → old.Bare) :
    node.at? (location ++ name :: below) = none := by
  rw [at?_append]
  cases hold : node.at? location with
  | none => rfl
  | some old => exact h old hold name below

/-- A node that is put into a directory in place of nothing or a file stands there, and everything else
stands where it did. -/
theorem content_at?_put (node : Node) {location : List Text} {name : Text}
    {entries : List (Text × Node)} (hlocation : node.at? location = some (directory entries))
    (hold : ∀ old, node.at? (location ++ [name]) = some old → old.Bare) (hnew : new.Bare) :
    (fun other => ((node.put (location ++ [name]) new).at? other).map content) =
      Function.update (fun other => (node.at? other).map content) (location ++ [name])
        (some new.content) := by
  funext other
  induction location generalizing node other with
  | nil =>
      obtain rfl : node = directory entries := by simpa [at?] using hlocation
      cases other with
      | nil => rfl
      | cons first below =>
          rw [List.nil_append, put, at?_putEntry]
          by_cases hfirst : first = name
          · subst hfirst
            rw [if_pos rfl, put]
            cases below with
            | nil => simp [at?]
            | cons second below =>
                have hnone : (directory entries).at? ([first] ++ second :: below) = none :=
                  at?_below_eq_none hold
                rw [hnew, Function.update_of_ne (by simp)]
                exact congrArg (Option.map content) hnone.symm
          · rw [if_neg hfirst, Function.update_of_ne (by simp [hfirst])]
  | cons parent location ih =>
      cases node with
      | file bytes => simp [at?, child?] at hlocation
      | directory siblings =>
          cases hchild : siblings.lookup parent with
          | none => simp [at?, child?, hchild] at hlocation
          | some child =>
              have hat (below : List Text) :
                  (directory siblings).at? (parent :: below) = child.at? below := by
                simp [at?, child?, hchild]
              rw [List.cons_append, hat] at hold
              rw [hat] at hlocation
              rw [List.cons_append, put, hchild, Option.getD_some]
              cases other with
              | nil => rfl
              | cons first below =>
                  rw [at?_putEntry]
                  by_cases hfirst : first = parent
                  · rw [if_pos hfirst, ih child hlocation hold below, hfirst]
                    by_cases hbelow : below = location ++ [name]
                    · simp [hbelow]
                    · rw [Function.update_of_ne hbelow, Function.update_of_ne (by simpa using hbelow), hat]
                  · rw [if_neg hfirst, Function.update_of_ne (by simp [hfirst])]

/-- A tree that is put into an empty directory has no other names than those on the way to it. -/
theorem mem_of_at?_put_empty {home above : List Text}
    (h : (((directory []).put home (directory [])).at? (above ++ [name])).isSome) : name ∈ home := by
  induction home generalizing above with
  | nil =>
      rw [put] at h
      cases above <;> simp [at?, child?] at h
  | cons first home ih =>
      rw [put, putEntry] at h
      cases above with
      | nil =>
          rw [List.nil_append, at?, child?, lookup_cons_eq] at h
          split_ifs at h with heq
          · exact heq ▸ List.mem_cons_self ..
          · simp at h
      | cons second above =>
          rw [List.cons_append, at?, child?, lookup_cons_eq] at h
          split_ifs at h
          · exact List.mem_cons_of_mem _ (ih h)
          · simp at h

end Node

namespace Disk

def content? (d : Disk) (location : List Text) : Option Content :=
  (d.at? location).map Node.content

variable {d d' d'' : Disk} {location : List Text} {content : Content}

theorem content?_append {node : Node} (h : d.at? location = some node) (below : List Text) :
    d.content? (location ++ below) = (node.at? below).map Node.content := by
  unfold content? at? at *
  rw [Node.at?_append, h, Option.bind_some]

/-- What stands somewhere stands in a directory. -/
theorem content?_above {name : Text} {below : List Text}
    (h : (d.content? (location ++ name :: below)).isSome) : d.content? location = some .directory := by
  unfold content? at? at h ⊢
  rw [Node.at?_append] at h
  cases hnode : d.root.at? location with
  | none => simp [hnode] at h
  | some node =>
      cases node with
      | file bytes => simp [hnode, Node.at?, Node.child?] at h
      | directory entries => rfl

theorem content?_of_isPrefix {above : List Text} (habove : above <+: location)
    (h : d.content? location = some .directory) : d.content? above = some .directory := by
  obtain ⟨below, rfl⟩ := habove
  cases below with
  | nil => simpa using h
  | cons name below => exact content?_above (by rw [h]; rfl)

theorem content?_of_none {name : Text} (h : d.content? location = none) :
    d.content? (location ++ [name]) = none := by
  unfold content? at? at h ⊢
  rw [Option.map_eq_none_iff] at h
  rw [Node.at?_append, h]
  rfl

/-- A later state of a disk: directories are still directories, and files are still files. -/
structure Grows (d d' : Disk) : Prop where
  home : d'.home = d.home
  denial : d'.denial = d.denial
  content? : ∀ location content, d.content? location = some content →
    ∃ later, d'.content? location = some later ∧ later.isDirectory = content.isDirectory

theorem Grows.refl (d : Disk) : Grows d d := ⟨rfl, rfl, fun _ content h => ⟨content, h, rfl⟩⟩

theorem Grows.trans (hfirst : Grows d d') (hlast : Grows d' d'') : Grows d d'' := by
  refine ⟨hlast.home.trans hfirst.home, hlast.denial.trans hfirst.denial, ?_⟩
  intro location content h
  obtain ⟨middle, hmiddle, hkind⟩ := hfirst.content? location content h
  obtain ⟨later, hlater, hkind'⟩ := hlast.content? location middle hmiddle
  exact ⟨later, hlater, hkind'.trans hkind⟩

theorem Grows.directory (h : Grows d d') (hdirectory : d.content? location = some .directory) :
    d'.content? location = some .directory := by
  obtain ⟨later, hlater, hkind⟩ := h.content? location .directory hdirectory
  cases later with
  | directory => exact hlater
  | file bytes => simp [Content.isDirectory] at hkind

theorem Grows.file (h : Grows d d') {bytes : List UInt8}
    (hfile : d.content? location = some (.file bytes)) :
    ∃ later, d'.content? location = some (.file later) := by
  obtain ⟨later, hlater, hkind⟩ := h.content? location (.file bytes) hfile
  cases later with
  | directory => simp [Content.isDirectory] at hkind
  | file bytes => exact ⟨bytes, hlater⟩

theorem Grows.directory_or_none (h : Grows d d') (hlater : d'.content? location = some .directory) :
    d.content? location = some .directory ∨ d.content? location = none := by
  cases hcontent : d.content? location with
  | none => exact Or.inr rfl
  | some content =>
      cases content with
      | directory => exact Or.inl rfl
      | file bytes =>
          obtain ⟨later, hfile⟩ := h.file hcontent
          simp [hlater] at hfile

/-- A state of a disk with a new content at one location. -/
structure Puts (d : Disk) (location : List Text) (content : Content) (d' : Disk) : Prop where
  home : d'.home = d.home
  denial : d'.denial = d.denial
  content? : d'.content? = Function.update d.content? location (some content)
  fits : ∀ old, d.content? location = some old → old.isDirectory = content.isDirectory

theorem Puts.grows (h : Puts d location content d') : Grows d d' := by
  refine ⟨h.home, h.denial, ?_⟩
  intro other old hold
  rw [h.content?]
  by_cases hother : other = location
  · subst hother
    exact ⟨content, by simp, (h.fits old hold).symm⟩
  · exact ⟨old, by rw [Function.update_of_ne hother, hold], rfl⟩

theorem Puts.content?_self (h : Puts d location content d') : d'.content? location = some content := by
  rw [h.content?, Function.update_self]

theorem Puts.content?_of_ne (h : Puts d location content d') {other : List Text}
    (hother : other ≠ location) : d'.content? other = d.content? other := by
  rw [h.content?, Function.update_of_ne hother]

/-- A file goes where nothing or a file is, a directory where nothing is. -/
theorem puts_put {name : Text} {new : Node} (hdirectory : d.content? location = some .directory)
    (hfits : ∀ old, d.content? (location ++ [name]) = some old →
      old.isDirectory = false ∧ new.content.isDirectory = false)
    (hnew : new.Bare) (hordered : new.Ordered) :
    Puts d (location ++ [name]) new.content (d.put (location ++ [name]) new hordered) := by
  refine ⟨rfl, rfl, ?_, ?_⟩
  · obtain ⟨node, hnode, hcontent⟩ := Option.map_eq_some_iff.mp hdirectory
    cases node with
    | file bytes => simp [Node.content] at hcontent
    | directory entries =>
        refine Node.content_at?_put d.root hnode ?_ hnew
        intro old hold
        cases old with
        | file bytes => exact Node.bare_file bytes
        | directory below =>
            have h : d.content? (location ++ [name]) = some .directory := by
              unfold content? at?
              rw [hold]
              rfl
            simpa [Content.isDirectory] using (hfits _ h).1
  · intro old hold
    rw [(hfits old hold).1, (hfits old hold).2]

/-! ### Names -/

/-- A name that an entry of a directory can have. -/
structure IsName (name : Text) : Prop where
  visible : ¬(name = [] ∨ name = ['.'])
  not_up : name ≠ ['.', '.']
  no_slash : '/' ∉ name
  no_nul : Char.ofNat 0 ∉ name
  short : (Utf8.encode name).length ≤ nameLimit

instance : DecidablePred IsName := fun name =>
  decidable_of_iff
    (¬(name = [] ∨ name = ['.']) ∧ name ≠ ['.', '.'] ∧ '/' ∉ name ∧ Char.ofNat 0 ∉ name ∧
      (Utf8.encode name).length ≤ nameLimit)
    ⟨fun ⟨hvisible, hup, hslash, hnul, hshort⟩ => ⟨hvisible, hup, hslash, hnul, hshort⟩,
      fun h => ⟨h.visible, h.not_up, h.no_slash, h.no_nul, h.short⟩⟩

theorem IsName.ofPiece? {name : Text} (hname : IsName name) : Path.Component.ofPiece? name = some (.name name) := by
  rw [Path.Component.ofPiece?, if_neg hname.visible, if_neg hname.not_up]

/-- A disk whose entries have the names that a system gives them. -/
def Named (d : Disk) : Prop :=
  ∀ location name, (d.content? (location ++ [name])).isSome → IsName name

/-- A fresh disk has proper names if its working directory is at proper names. -/
theorem named_fresh {home : List Text} (h : ∀ name ∈ home, IsName name) : (fresh home).Named := by
  intro above name hname
  rw [content?, Option.isSome_map] at hname
  exact h name (Node.mem_of_at?_put_empty hname)

theorem Puts.named {name : Text} (h : Puts d (location ++ [name]) content d') (hnamed : d.Named)
    (hname : IsName name) : d'.Named := by
  intro above other hother
  by_cases hlocation : above ++ [other] = location ++ [name]
  · obtain rfl := List.singleton_inj.mp (List.append_inj' hlocation rfl).2
    exact hname
  · rw [h.content?_of_ne hlocation] at hother
    exact hnamed above other hother

end Disk

end Exemplar
