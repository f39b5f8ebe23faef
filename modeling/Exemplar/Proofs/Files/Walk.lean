import Exemplar.Proofs.Files.Collect
import Exemplar.Proofs.Files.Tree
import Exemplar.Proofs.Text.Utf8

/-!
# Walking and collecting

A walk gives files paths that are built from names alone, without a look at where they lead. On a disk with proper
names each of them leads to the node that it was built for, as far as the system takes it: a path can become
longer than it may be on the way down. So what is collected are files, but for paths that are too long. Whether they
can be read is not looked at either.
-/

namespace Exemplar

namespace Path

variable {path directory name : Text} {names : List Text} {c : Char}

/-- A path with names joined to it, one after the other. -/
def joinAll (path : Text) (names : List Text) : Text := names.foldl join path

theorem not_mem_join (hc : c ≠ '/') (hdirectory : c ∉ directory) (hname : c ∉ name) :
    c ∉ join directory name := by
  unfold join
  split_ifs <;> simp [hc, hdirectory, hname]

theorem join_ne_nil (hname : name ≠ []) : join directory name ≠ [] := by
  unfold join
  split_ifs <;> simp [hname]

theorem not_mem_joinAll (hc : c ≠ '/') (hpath : c ∉ path) (hnames : ∀ name ∈ names, c ∉ name) :
    c ∉ joinAll path names := by
  induction names generalizing path with
  | nil => exact hpath
  | cons name names ih =>
      obtain ⟨hname, hrest⟩ := List.forall_mem_cons.mp hnames
      exact ih (not_mem_join hc hpath hname) hrest

theorem joinAll_ne_nil (hpath : path ≠ []) (hnames : ∀ name ∈ names, name ≠ []) : joinAll path names ≠ [] := by
  induction names generalizing path with
  | nil => exact hpath
  | cons name names ih =>
      obtain ⟨hname, hrest⟩ := List.forall_mem_cons.mp hnames
      exact ih (join_ne_nil hname) hrest

theorem length_encode_le_join (directory : Text) (hname : isAbsolute name = false) :
    (Utf8.encode directory).length + (Utf8.encode name).length ≤ (Utf8.encode (join directory name)).length := by
  unfold join
  split_ifs with hstart hlast
  · obtain rfl : directory = [] := by simpa [hname] using hstart
    simp [Utf8.encode]
  · simp [Utf8.encode_append]
  · simp [Utf8.encode_append, Utf8.encode_cons]

end Path

namespace Node

variable {node found : Node} {path other : Text}

theorem underEntries_eq (path : Text) (entries : List (Text × Node)) :
    underEntries path entries = entries.flatMap fun entry =>
      (Path.join path entry.1, entry.2) :: entry.2.under (Path.join path entry.1) := by
  induction entries with
  | nil => rfl
  | cons first rest ih =>
      obtain ⟨name, node⟩ := first
      rw [underEntries, ih, List.flatMap_cons]

/-- A node and what is listed below it are the nodes of the tree, with their names joined to the path. -/
theorem cons_under_eq (path : Text) (node : Node) :
    (path, node) :: node.under path = node.within.map (Prod.map (Path.joinAll path) id) := by
  induction node using inductionOn generalizing path with
  | file bytes => rfl
  | directory entries ih =>
      rw [under, underEntries_eq, within, withinEntries_eq, List.map_cons, List.map_flatMap]
      refine congrArg (_ :: ·) (List.flatMap_congr fun entry hmem => ?_)
      rw [ih entry hmem, List.map_map]
      rfl

/-- What is listed from a node on stands there, under the names that its path was built from. -/
theorem at?_of_mem_under (hordered : node.Ordered) (h : (other, found) ∈ (path, node) :: node.under path) :
    ∃ names, other = Path.joinAll path names ∧ node.at? names = some found := by
  have hmem : (other, found) ∈ node.within.map (Prod.map (Path.joinAll path) id) := cons_under_eq path node ▸ h
  obtain ⟨⟨names, _⟩, hwithin, heq⟩ := List.mem_map.mp hmem
  cases heq
  exact ⟨names, rfl, (mem_within_iff hordered).mp hwithin⟩

end Node

namespace Disk

variable {d : Disk} {location names : List Text} {path name : Text} {node : Node}

theorem step_name (hname : IsName name) (hlocation : d.content? location = some .directory)
    (hchild : (d.content? (location ++ [name])).isSome) : d.step location name = .ok (location ++ [name]) := by
  rw [step_eq, hlocation]
  dsimp only
  rw [if_neg hname.visible, if_neg hname.not_up, if_neg (Nat.not_lt.mpr hname.short), if_pos hchild]

theorem content?_first (h : (d.content? (location ++ name :: names)).isSome) :
    (d.content? (location ++ [name])).isSome := by
  cases names with
  | nil => exact h
  | cons second names =>
      rw [List.append_cons] at h
      rw [content?_above h]
      rfl

theorem Named.isName_of_mem (hnamed : d.Named) (h : (d.content? (location ++ names)).isSome) :
    ∀ name ∈ names, IsName name := by
  induction names generalizing location with
  | nil => simp
  | cons name names ih =>
      have hrest : (d.content? (location ++ [name] ++ names)).isSome := by rwa [← List.append_cons]
      exact List.forall_mem_cons.mpr ⟨hnamed location name (content?_first h), ih hrest⟩

/-- Names joined to a path lead on along them. -/
theorem follow_joinAll (hnamed : d.Named) (hfollow : d.follow path = .ok location)
    (hnames : (d.content? (location ++ names)).isSome) :
    d.follow (Path.joinAll path names) = .ok (location ++ names) := by
  induction names generalizing path location with
  | nil => simpa [Path.joinAll] using hfollow
  | cons name names ih =>
      have hchild := content?_first hnames
      have hname : IsName name := hnamed location name hchild
      have hnext : d.follow (Path.join path name) = .ok (location ++ [name]) := by
        rw [follow_join d path hname.no_slash, hfollow, ok_bind, step_name hname (content?_above hchild) hchild]
      rw [List.append_cons] at hnames ⊢
      exact ih hnext hnames

/-- A path can only become too long on the way down. -/
theorem checkPath_joinAll_eq (hpath : checkPath path = .ok ()) (hnames : ∀ name ∈ names, IsName name) :
    checkPath (Path.joinAll path names) =
      if pathLimit < (Utf8.encode (Path.joinAll path names)).length then .error .nameTooLong else .ok () := by
  obtain ⟨hnul, hne, -⟩ := checkPath_eq_ok_iff.mp hpath
  have hnul' : Char.ofNat 0 ∉ Path.joinAll path names :=
    Path.not_mem_joinAll (by decide) hnul fun name hname => (hnames name hname).no_nul
  have hne' : Path.joinAll path names ≠ [] :=
    Path.joinAll_ne_nil hne fun name hname heq => (hnames name hname).visible (Or.inl heq)
  rw [checkPath, if_neg hnul', if_neg hne']

theorem find_eq_ok : d.find path = .ok node ↔ ∃ goal, d.locate path = .ok goal ∧ d.at? goal = some node := by
  unfold find
  rw [bind_eq_ok_iff]
  refine exists_congr fun goal => and_congr_right fun _ => ?_
  cases d.at? goal <;> simp [pure, Except.pure, throw, throwThe, MonadExceptOf.throw]

theorem read_of_locate {goal : List Text} (hlocate : d.locate path = .ok goal) (hnode : d.at? goal = some node) :
    d.read path = match d.denial goal with
      | some e => .error e
      | none => .ok node := by
  rw [read, hlocate, ok_bind, hnode]
  cases d.denial goal <;> rfl

theorem read_eq_ok : d.read path = .ok node ↔
    ∃ goal, d.locate path = .ok goal ∧ d.at? goal = some node ∧ d.denial goal = none := by
  unfold read
  rw [bind_eq_ok_iff]
  refine exists_congr fun goal => and_congr_right fun _ => ?_
  cases d.at? goal <;> cases d.denial goal <;> simp [pure, Except.pure, throw, throwThe, MonadExceptOf.throw]

theorem find_of_read (h : d.read path = .ok node) : d.find path = .ok node := by
  obtain ⟨goal, hlocate, hnode, -⟩ := read_eq_ok.mp h
  exact find_eq_ok.mpr ⟨goal, hlocate, hnode⟩

theorem length_le_of_isFile (h : d.isFile path) : (Utf8.encode path).length ≤ pathLimit := by
  obtain ⟨goal, -, hlocate, -⟩ := exists_locate_of_isFile h
  exact (checkPath_eq_ok_iff.mp (locate_eq_ok.mp hlocate).1).2.2

/-- What is listed from a directory on stands at names that are joined to the directory, one after the other. -/
theorem exists_names_of_mem_under {directory other : Text} {found : Node} (hnamed : d.Named)
    (hfind : d.find directory = .ok node) (h : (other, found) ∈ (directory, node) :: node.under directory) :
    ∃ location names, d.locate directory = .ok location ∧ other = Path.joinAll directory names ∧
      d.at? (location ++ names) = some found ∧ ∀ name ∈ names, IsName name := by
  obtain ⟨location, hlocate, hnode⟩ := find_eq_ok.mp hfind
  obtain ⟨names, rfl, hfound⟩ := Node.at?_of_mem_under (Node.ordered_of_at? d.ordered hnode) h
  have hat : d.at? (location ++ names) = some found := by
    unfold at? at hnode ⊢
    rw [Node.at?_append, hnode, Option.bind_some, hfound]
  have hnames : (d.content? (location ++ names)).isSome := by simp [content?, hat]
  exact ⟨location, names, hlocate, rfl, hat, hnamed.isName_of_mem hnames⟩

/-- What is listed from a directory on is what its path leads to, and only its length can keep it from being found. -/
theorem follow_of_mem_under {directory other : Text} {found : Node} (hnamed : d.Named)
    (hfind : d.find directory = .ok node) (h : (other, found) ∈ (directory, node) :: node.under directory) :
    (∃ goal, d.follow other = .ok goal ∧ d.at? goal = some found) ∧
      ((Utf8.encode other).length ≤ pathLimit → checkPath other = .ok ()) := by
  obtain ⟨location, names, hlocate, rfl, hat, hnames⟩ := exists_names_of_mem_under hnamed hfind h
  obtain ⟨hcheck, hfollow⟩ := locate_eq_ok.mp hlocate
  exact ⟨⟨_, follow_joinAll hnamed hfollow (by simp [content?, hat]), hat⟩, fun hshort => by
    rw [checkPath_joinAll_eq hcheck hnames, if_neg (Nat.not_lt.mpr hshort)]⟩

/-- What a visit does with a node before it goes on: a directory is opened. -/
def enter (d : Disk) : Text × Node → Except (Text × FileError) Unit
  | (_, .file _) => .ok ()
  | (path, .directory _) =>
    match d.read path with
    | .ok _ => .ok ()
    | .error e => .error (path, e)

/-- What a visit picks up of a node: the path of a file with the extension. -/
def pick? (extension : Text) : Text × Node → Option Text
  | (path, .file _) => if Path.hasExtension path extension then some path else none
  | (_, .directory _) => none

/-- A visit fails as the first node that it cannot enter, and else it picks up all that is to be picked up. -/
theorem visit_eq (d : Disk) (extension : Text) (nodes : List (Text × Node)) :
    d.visit extension nodes = (nodes.mapM d.enter).map fun _ => nodes.filterMap (pick? extension) := by
  induction nodes with
  | nil => rfl
  | cons first nodes ih =>
      obtain ⟨path, node⟩ := first
      rw [List.mapM_cons, List.filterMap_cons]
      cases node with
      | file bytes =>
          rw [visit, ih]
          cases nodes.mapM d.enter with
          | error failure => rfl
          | ok units =>
              simp only [enter, pick?, ok_bind, Except.map, pure, Except.pure]
              split <;> rfl
      | directory entries =>
          rw [visit, ih]
          simp only [enter, pick?]
          cases d.read path with
          | error e => rfl
          | ok node =>
              simp only [ok_bind]
              cases nodes.mapM d.enter <;> rfl

theorem exists_file_of_mem_visit {extension : Text} {nodes : List (Text × Node)} {files : List Text}
    (h : d.visit extension nodes = .ok files) (hmem : path ∈ files) :
    Path.hasExtension path extension = true ∧ ∃ bytes, (path, Node.file bytes) ∈ nodes := by
  rw [visit_eq, map_eq_ok_iff] at h
  obtain ⟨-, -, rfl⟩ := h
  obtain ⟨⟨other, node⟩, hnode, hpick⟩ := List.mem_filterMap.mp hmem
  cases node with
  | directory entries => cases hpick
  | file bytes =>
      obtain ⟨hextension, hpath⟩ := Option.ite_none_right_eq_some.mp hpick
      cases hpath
      exact ⟨hextension, bytes, hnode⟩

theorem exists_file_of_mem_walk {directory extension : Text} {files : List Text}
    (h : d.walk directory extension = .ok files) (hmem : path ∈ files) :
    Path.hasExtension path extension = true ∧
      ∃ node bytes, d.find directory = .ok node ∧
        (path, Node.file bytes) ∈ (directory, node) :: node.under directory := by
  unfold walk at h
  cases hfind : d.find directory with
  | error e =>
      rw [hfind] at h
      cases h
  | ok node =>
      rw [hfind] at h
      obtain ⟨hextension, bytes, hbytes⟩ := exists_file_of_mem_visit h hmem
      exact ⟨hextension, node, bytes, rfl, hbytes⟩

/-- A path that leads to a file, and under which the file is found unless it is too long. -/
structure LeadsToFile (d : Disk) (path : Text) : Prop where
  exists_follow : ∃ goal bytes, d.follow path = .ok goal ∧ d.content? goal = some (.file bytes)
  isFile_or_long : d.isFile path ∨ pathLimit < (Utf8.encode path).length

theorem leadsToFile_of_isFile (h : d.isFile path) : d.LeadsToFile path := by
  obtain ⟨goal, bytes, hlocate, hgoal⟩ := exists_locate_of_isFile h
  exact ⟨⟨goal, bytes, (locate_eq_ok.mp hlocate).2, hgoal⟩, Or.inl h⟩

theorem leadsToFile_of_mem_walk {directory extension : Text} {files : List Text} (hnamed : d.Named)
    (h : d.walk directory extension = .ok files) (hmem : path ∈ files) : d.LeadsToFile path := by
  obtain ⟨-, node, bytes, hfind, hbytes⟩ := exists_file_of_mem_walk h hmem
  obtain ⟨⟨goal, hfollow, hgoal⟩, hcheck⟩ := follow_of_mem_under hnamed hfind hbytes
  refine ⟨⟨goal, bytes, hfollow, by rw [content?, hgoal]; rfl⟩, ?_⟩
  rcases Nat.lt_or_ge pathLimit (Utf8.encode path).length with hlong | hshort
  · exact Or.inr hlong
  · have hopened : d.find path = .ok (.file bytes) :=
      find_eq_ok.mpr ⟨goal, locate_eq_ok.mpr ⟨hcheck hshort, hfollow⟩, hgoal⟩
    exact Or.inl (by simp [isFile, hopened])

end Disk

namespace Files

variable {d : Disk} {extension source path : Text} {sources files : List Text}

/-- A file gives its own path, a directory those of its walk, and anything else files that match it. -/
theorem cases_of_mem_ofSource (h : ofSource d extension source = .ok files) (hmem : path ∈ files) :
    (d.isFile source ∧ path = source) ∨
      (∃ walked, d.walk source extension = .ok walked ∧ path ∈ walked) ∨
      ((¬d.isFile source ∧ ¬d.isDirectory source) ∧ d.isFile path) := by
  unfold ofSource at h
  split_ifs at h with hfile hdirectory
  · cases h
    exact Or.inl ⟨hfile, List.mem_singleton.mp hmem⟩
  · cases hwalk : d.walk source extension with
    | error failure => simp [hwalk] at h
    | ok walked =>
        rw [hwalk] at h
        cases h
        exact Or.inr (Or.inl ⟨_, rfl, hmem⟩)
  · cases hexpand : Glob.expand d source with
    | error fault => simp [hexpand] at h
    | ok expanded =>
        rw [hexpand] at h
        cases h
        exact Or.inr (Or.inr ⟨⟨hfile, hdirectory⟩, (List.mem_filter.mp hmem).2⟩)

theorem leadsToFile_of_mem_ofSource (hnamed : d.Named)
    (h : ofSource d extension source = .ok files) (hmem : path ∈ files) : d.LeadsToFile path := by
  rcases cases_of_mem_ofSource h hmem with ⟨hfile, rfl⟩ | ⟨walked, hwalk, hwalked⟩ | ⟨-, hfile⟩
  · exact Disk.leadsToFile_of_isFile hfile
  · exact Disk.leadsToFile_of_mem_walk hnamed hwalk hwalked
  · exact Disk.leadsToFile_of_isFile hfile

/-- **What is collected leads to files.** -/
theorem leadsToFile_of_mem_collect (hnamed : d.Named) (h : (collect d extension sources).2 = .ok files)
    (hmem : path ∈ files) : d.LeadsToFile path := by
  obtain ⟨listed, hlisted, rfl⟩ := collect_eq_ok_iff.mp h
  obtain ⟨own, hown, hpath⟩ := List.mem_flatten.mp (mem_of_mem_distinct hmem)
  obtain ⟨source, -, hsource⟩ := exists_of_forall₂ hlisted.flip hown
  exact leadsToFile_of_mem_ofSource hnamed hsource hpath

/-- What is collected are files, but for paths that are too long. -/
theorem isFile_of_mem_collect (hnamed : d.Named) (h : (collect d extension sources).2 = .ok files)
    (hmem : path ∈ files) : d.isFile path ∨ Disk.pathLimit < (Utf8.encode path).length :=
  (leadsToFile_of_mem_collect hnamed h hmem).isFile_or_long

end Files

end Exemplar
