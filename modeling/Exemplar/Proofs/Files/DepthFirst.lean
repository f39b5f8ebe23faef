import Exemplar.Proofs.Files.Spelling
import Exemplar.Proofs.Text.Order

/-!
# The order of a walk

A walk goes through the nodes below a directory depth first, and by this it comes to them in the order of the names
that lead to them: names are compared one after the other, each by its bytes. This is not the order of the paths as
texts, where a slash comes after a dot or a hyphen. The files with the extension are picked up on the way, so each of
them is listed once and in its place.

A walk opens directories by their paths. A directory can be denied, and a path can become too long for the system on
the way down. So a walk comes to its end exactly if every directory opens under its path, and otherwise it fails at
the first one that does not.
-/

namespace Exemplar.Disk

variable {d : Disk} {directory extension : Text} {location names files : List Text} {failure : Text × FileError}
  {node found root : Node}

/-! ### The files that are looked for -/

/-- Names that lead from a location to a file that has the extension in its own name. -/
def IsSought (d : Disk) (extension : Text) (location names : List Text) : Prop :=
  (∃ bytes, d.content? (location ++ names) = some (.file bytes)) ∧
    ∃ above name, names = above ++ [name] ∧ Path.hasExtension name extension = true

/-- The files with an extension below a location, each by the names that lead to it, in the order of these names. The
order is strict, so no file is there twice. -/
structure Lists (d : Disk) (extension : Text) (location : List Text) (listed : List (List Text)) : Prop where
  mem_iff : ∀ names, names ∈ listed ↔ d.IsSought extension location names
  ordered : listed.Pairwise fun names others => names.map Utf8.encode < others.map Utf8.encode

/-- The names that lead to a node, if it is a file with the extension. -/
def sought? (extension : Text) : List Text × Node → Option (List Text)
  | (names, .file _) => if names.getLast?.any (Path.hasExtension · extension) then some names else none
  | (_, .directory _) => none

/-- The names that lead to the files with the extension, in the order of a walk. -/
def sought (extension : Text) (node : Node) : List (List Text) := node.within.filterMap (sought? extension)

theorem sought?_eq_some_iff {entry : List Text × Node} : sought? extension entry = some names ↔
    entry.1 = names ∧ (∃ bytes, entry.2 = .file bytes) ∧
      ∃ above name, names = above ++ [name] ∧ Path.hasExtension name extension = true := by
  obtain ⟨names, node⟩ := entry
  cases node with
  | directory entries => simp [sought?]
  | file bytes =>
      have hlast : names.getLast?.any (Path.hasExtension · extension) = true ↔
          ∃ above name, names = above ++ [name] ∧ Path.hasExtension name extension = true := by
        simp only [Option.any_eq_true, List.getLast?_eq_some_iff]
        exact ⟨fun ⟨name, ⟨above, h⟩, hname⟩ => ⟨above, name, h, hname⟩,
          fun ⟨above, name, h, hname⟩ => ⟨name, ⟨above, h⟩, hname⟩⟩
      simp only [sought?, Option.ite_none_right_eq_some, hlast]
      constructor
      · rintro ⟨hname, heq⟩
        cases heq
        exact ⟨rfl, ⟨bytes, rfl⟩, hname⟩
      · rintro ⟨rfl, -, hname⟩
        exact ⟨hname, rfl⟩

/-- The extension of a path that names are joined to is that of the last name. -/
theorem hasExtension_joinAll (hnames : ∀ name ∈ names, IsName name) (hne : names ≠ []) :
    Path.hasExtension (Path.joinAll directory names) extension =
      names.getLast?.any (Path.hasExtension · extension) := by
  obtain ⟨above, name, rfl⟩ := (List.eq_nil_or_concat' names).resolve_left hne
  have hname : IsName name := hnames name (by simp)
  have hfile (path : Text) : Path.fileName? (Path.join path name) = some name :=
    Path.fileName?_join path hname.no_slash hname.ofPiece?
  have hown : Path.fileName? name = some name := by simpa [Path.join] using hfile []
  rw [Path.joinAll, List.foldl_append, List.foldl_cons, List.foldl_nil, List.getLast?_concat, Option.any_some,
    Path.hasExtension, Path.hasExtension, hfile, hown]

/-! ### The nodes below a location -/

section Nodes

variable (hroot : d.at? location = some root)

include hroot

theorem mem_within_iff_at? : (names, found) ∈ root.within ↔ root.at? names = some found :=
  Node.mem_within_iff (Node.ordered_of_at? d.ordered hroot)

theorem exists_mem_within_iff {content : Content} :
    (∃ found, (names, found) ∈ root.within ∧ found.content = content) ↔
      d.content? (location ++ names) = some content := by
  simp only [mem_within_iff_at? hroot, content?_append hroot, Option.map_eq_some_iff]

theorem pairwise_within_encode :
    root.within.Pairwise fun a b => a.1.map Utf8.encode < b.1.map Utf8.encode :=
  (Node.pairwise_within (Node.ordered_of_at? d.ordered hroot)).imp fun hlt =>
    List.map_lt (fun _ _ => Utf8.encode_lt_encode) hlt

theorem isName_of_mem_within (hnamed : d.Named) (hmem : (names, found) ∈ root.within) :
    ∀ name ∈ names, IsName name := by
  have hcontent := (exists_mem_within_iff hroot).mp ⟨found, hmem, rfl⟩
  exact hnamed.isName_of_mem (by rw [hcontent]; rfl)

/-- Depth first, the files with the extension come once each and in order. -/
theorem lists_sought (extension : Text) : d.Lists extension location (sought extension root) where
  mem_iff names := by
    simp only [sought, List.mem_filterMap, IsSought, sought?_eq_some_iff]
    constructor
    · rintro ⟨⟨_, _⟩, hmem, rfl, ⟨bytes, rfl⟩, hname⟩
      exact ⟨⟨bytes, (exists_mem_within_iff hroot).mp ⟨_, hmem, rfl⟩⟩, hname⟩
    · rintro ⟨⟨bytes, hcontent⟩, hname⟩
      obtain ⟨found, hmem, hfile⟩ := (exists_mem_within_iff hroot).mpr hcontent
      cases found with
      | directory entries => cases hfile
      | file own => exact ⟨(names, .file own), hmem, rfl, ⟨own, rfl⟩, hname⟩
  ordered := by
    refine (pairwise_within_encode hroot).filterMap _ fun a b hlt names hnames others hothers => ?_
    obtain ⟨rfl, -⟩ := sought?_eq_some_iff.mp hnames
    obtain ⟨rfl, -⟩ := sought?_eq_some_iff.mp hothers
    exact hlt

/-- A visit picks up the paths of these files. -/
theorem filterMap_pick? (hnamed : d.Named) (hdirectory : root.content = .directory) :
    root.within.filterMap (fun entry => pick? extension (Path.joinAll directory entry.1, entry.2)) =
      (sought extension root).map (Path.joinAll directory) := by
  rw [sought, List.map_filterMap]
  refine List.filterMap_congr fun entry hmem => ?_
  obtain ⟨names, found⟩ := entry
  cases found with
  | directory entries => rfl
  | file bytes =>
      have hne : names ≠ [] := by
        rintro rfl
        cases (mem_within_iff_at? hroot).mp hmem
        cases hdirectory
      rw [pick?, sought?, hasExtension_joinAll (isName_of_mem_within hroot hnamed hmem) hne]
      split <;> rfl

end Nodes

/-! ### The end of a walk -/

/-- Why a path with names joined to it does not open what stands at the names, if it does not: it is too long for the
system, or what stands there is denied. -/
def barrier? (d : Disk) (directory : Text) (location names : List Text) : Option FileError :=
  if pathLimit < (Utf8.encode (Path.joinAll directory names)).length then some .nameTooLong
  else d.denial (location ++ names)

theorem barrier?_eq_none_iff : d.barrier? directory location names = none ↔
    (Utf8.encode (Path.joinAll directory names)).length ≤ pathLimit ∧ d.denial (location ++ names) = none := by
  unfold barrier?
  split_ifs with hlong
  · simpa using fun hshort => absurd hlong (Nat.not_lt.mpr hshort)
  · simpa using fun _ => Nat.not_lt.mp hlong

/-- Every directory opens under the path that a walk comes to it by. -/
def Passable (d : Disk) (directory : Text) (location : List Text) : Prop :=
  ∀ names, d.content? (location ++ names) = some .directory → d.barrier? directory location names = none

/-- Names that lead to the first directory that does not open under its path. -/
structure StopsAt (d : Disk) (directory : Text) (location names : List Text) (e : FileError) : Prop where
  content? : d.content? (location ++ names) = some .directory
  barred : d.barrier? directory location names = some e
  first : ∀ others, others.map Utf8.encode < names.map Utf8.encode →
    d.content? (location ++ others) = some .directory → d.barrier? directory location others = none

section Walk

variable (hlocate : d.locate directory = .ok location) (hroot : d.at? location = some root)

include hlocate hroot

/-- A walk is a visit of all nodes, that of the directory itself included. -/
theorem walk_eq (extension : Text) : d.walk directory extension =
    (root.within.mapM fun entry => d.enter (Path.joinAll directory entry.1, entry.2)).map fun _ =>
      root.within.filterMap fun entry => pick? extension (Path.joinAll directory entry.1, entry.2) := by
  rw [walk, find_eq_ok.mpr ⟨location, hlocate, hroot⟩]
  dsimp only
  rw [Node.cons_under_eq, visit_eq, List.mapM_map, List.filterMap_map]
  rfl

theorem read_joinAll (hnamed : d.Named) (hmem : (names, found) ∈ root.within) :
    d.read (Path.joinAll directory names) =
      match d.barrier? directory location names with
      | some e => .error e
      | none => .ok found := by
  obtain ⟨hcheck, hfollow⟩ := locate_eq_ok.mp hlocate
  have hcheck' := checkPath_joinAll_eq hcheck (isName_of_mem_within hroot hnamed hmem)
  unfold barrier?
  by_cases hlong : pathLimit < (Utf8.encode (Path.joinAll directory names)).length
  · rw [if_pos hlong] at hcheck' ⊢
    rw [read, locate_eq, hcheck']
    rfl
  · rw [if_neg hlong] at hcheck' ⊢
    have hat : d.at? (location ++ names) = some found := by
      unfold at? at hroot ⊢
      rw [Node.at?_append, hroot, Option.bind_some]
      exact (mem_within_iff_at? hroot).mp hmem
    have hgoal : d.follow (Path.joinAll directory names) = .ok (location ++ names) :=
      follow_joinAll hnamed hfollow (by simp [content?, hat])
    exact read_of_locate (locate_eq_ok.mpr ⟨hcheck', hgoal⟩) hat

theorem enter_joinAll_eq_error_iff (hnamed : d.Named) (hmem : (names, found) ∈ root.within) :
    d.enter (Path.joinAll directory names, found) = .error failure ↔
      found.content = .directory ∧ ∃ e, d.barrier? directory location names = some e ∧
        failure = (Path.joinAll directory names, e) := by
  cases found with
  | file bytes => simp [enter, Node.content]
  | directory entries =>
      rw [enter, read_joinAll hlocate hroot hnamed hmem]
      cases d.barrier? directory location names <;> simp [Node.content, eq_comm]

theorem enter_joinAll_eq_ok_iff (hnamed : d.Named) (hmem : (names, found) ∈ root.within) :
    d.enter (Path.joinAll directory names, found) = .ok () ↔
      (found.content = .directory → d.barrier? directory location names = none) := by
  cases found with
  | file bytes => simp [enter, Node.content]
  | directory entries =>
      rw [enter, read_joinAll hlocate hroot hnamed hmem]
      cases d.barrier? directory location names <;> simp [Node.content]

theorem walk_eq_ok_iff (hnamed : d.Named) (hdirectory : root.content = .directory) :
    d.walk directory extension = .ok files ↔
      d.Passable directory location ∧ (sought extension root).map (Path.joinAll directory) = files := by
  rw [walk_eq hlocate hroot, filterMap_pick? hroot hnamed hdirectory, map_eq_ok_iff]
  constructor
  · rintro ⟨units, hunits, hfiles⟩
    refine ⟨fun names hcontent => ?_, hfiles⟩
    obtain ⟨found, hmem, hfound⟩ := (exists_mem_within_iff hroot).mpr hcontent
    obtain ⟨⟨⟩, -, hok⟩ := exists_of_forall₂ (mapM_eq_ok_iff.mp hunits) hmem
    exact (enter_joinAll_eq_ok_iff hlocate hroot hnamed hmem).mp hok hfound
  · rintro ⟨hpass, hfiles⟩
    refine ⟨root.within.map fun _ => (), ?_, hfiles⟩
    rw [mapM_eq_ok_iff, List.forall₂_map_right_iff, List.forall₂_same]
    rintro ⟨names, found⟩ hmem
    refine (enter_joinAll_eq_ok_iff hlocate hroot hnamed hmem).mpr fun hfound => ?_
    exact hpass names ((exists_mem_within_iff hroot).mp ⟨found, hmem, hfound⟩)

theorem exists_stopsAt (hnamed : d.Named) (h : d.walk directory extension = .error failure) :
    ∃ names e, d.StopsAt directory location names e ∧ failure = (Path.joinAll directory names, e) := by
  rw [walk_eq hlocate hroot, map_eq_error_iff, mapM_eq_error_iff] at h
  obtain ⟨before, ⟨names, found⟩, after, hsplit, hbefore, hfails⟩ := h
  have hmem {entry : List Text × Node} (h : entry ∈ before ++ (names, found) :: after) : entry ∈ root.within :=
    hsplit ▸ h
  have hown := hmem (List.mem_append_cons_self ..)
  obtain ⟨hfound, e, hbarred, rfl⟩ := (enter_joinAll_eq_error_iff hlocate hroot hnamed hown).mp hfails
  refine ⟨names, e, ⟨(exists_mem_within_iff hroot).mp ⟨found, hown, hfound⟩, hbarred, ?_⟩, rfl⟩
  intro others hlt hcontent
  obtain ⟨other, hother, hfound⟩ := (exists_mem_within_iff hroot).mpr hcontent
  have hordered := pairwise_within_encode hroot
  rw [hsplit] at hother hordered
  obtain ⟨-, hafter, -⟩ := List.pairwise_append.mp hordered
  -- What comes earlier in the order of names comes earlier in the visit, where everything could be opened.
  rcases List.mem_append.mp hother with hin | hin
  · obtain ⟨⟨⟩, hok⟩ := hbefore _ hin
    exact (enter_joinAll_eq_ok_iff hlocate hroot hnamed (hmem hother)).mp hok hfound
  · rcases List.mem_cons.mp hin with heq | hin
    · cases heq
      exact absurd hlt (List.lt_irrefl _)
    · exact absurd hlt (List.lt_asymm ((List.pairwise_cons.mp hafter).1 _ hin))

end Walk

/-- **A walk lists the files with an extension, each once, in the order of the names that lead to them.** It lists them
under paths that lead to them and that go on along their names from the components of the directory's own path. This
is so if every directory, from the first one on, opens under the path that the walk comes to it by; otherwise the walk
fails as the first one does, in the same order, that does not. -/
theorem walk_lists_ordered (hnamed : d.Named) (hlocate : d.locate directory = .ok location)
    (hdirectory : d.content? location = some .directory) (extension : Text) :
    ∃ listed, d.Lists extension location listed ∧
      (∀ names ∈ listed, d.follow (Path.joinAll directory names) = .ok (location ++ names) ∧
        Path.components (Path.joinAll directory names) =
          Path.components directory ++ names.map Path.Component.name) ∧
      (d.Passable directory location →
        d.walk directory extension = .ok (listed.map (Path.joinAll directory))) ∧
      (¬d.Passable directory location → ∃ names e, d.StopsAt directory location names e ∧
        d.walk directory extension = .error (Path.joinAll directory names, e)) := by
  obtain ⟨root, hroot, hcontent⟩ := Option.map_eq_some_iff.mp hdirectory
  have hlists := lists_sought hroot extension
  obtain ⟨hcheck, hfollow⟩ := locate_eq_ok.mp hlocate
  refine ⟨sought extension root, hlists, fun names hmem => ?_, fun hpass => ?_, fun hpass => ?_⟩
  · obtain ⟨⟨bytes, hfile⟩, -⟩ := (hlists.mem_iff names).mp hmem
    have hsome : (d.content? (location ++ names)).isSome := by rw [hfile]; rfl
    have hne : directory ≠ [] := (checkPath_eq_ok_iff.mp hcheck).2.1
    exact ⟨follow_joinAll hnamed hfollow hsome, Path.components_joinAll hne (hnamed.isName_of_mem hsome)⟩
  · exact (walk_eq_ok_iff hlocate hroot hnamed hcontent).mpr ⟨hpass, rfl⟩
  · cases hwalk : d.walk directory extension with
    | ok files => exact absurd ((walk_eq_ok_iff hlocate hroot hnamed hcontent).mp hwalk).1 hpass
    | error failure =>
        obtain ⟨names, e, hstops, rfl⟩ := exists_stopsAt hlocate hroot hnamed hwalk
        exact ⟨names, e, hstops, rfl⟩

/-- A directory with a directory and files in it whose names begin alike. -/
def folderDisk : Disk :=
  (((Files.letterDisk.put ["src".toList, "Letters".toList] (.directory []) Node.ordered_directory).put
    ["src".toList, "Letters".toList, "Stamp.java".toList] (.file []) trivial).put
    ["src".toList, "Letters-sent.java".toList] (.file []) trivial).put
    ["src".toList, "Letters.txt".toList] (.file []) trivial

theorem named_folderDisk : folderDisk.Named := by
  have hfolder := Files.named_letterDisk.put ["src".toList] "Letters".toList (by decide) (by decide)
    Node.bare_directory Node.ordered_directory (by decide)
  have hstamp := hfolder.put ["src".toList, "Letters".toList] "Stamp.java".toList (by decide) (by decide)
    (Node.bare_file []) trivial (by decide)
  have hsent := hstamp.put ["src".toList] "Letters-sent.java".toList (by decide) (by decide)
    (Node.bare_file []) trivial (by decide)
  exact hsent.put ["src".toList] "Letters.txt".toList (by decide) (by decide)
    (Node.bare_file []) trivial (by decide)

theorem walk_lists_ordered_folder :
    folderDisk.Named ∧ folderDisk.locate "src".toList = .ok ["src".toList] ∧
      folderDisk.content? ["src".toList] = some .directory ∧ folderDisk.Passable "src".toList ["src".toList] ∧
      ∃ listed, folderDisk.Lists "java".toList ["src".toList] listed ∧
        listed.map (Path.joinAll "src".toList) =
          ["src/Letters/Stamp.java".toList, "src/Letters-sent.java".toList, "src/Letters.java".toList] := by
  have hlocate : folderDisk.locate "src".toList = .ok ["src".toList] := by decide
  have hdirectory : folderDisk.content? ["src".toList] = some .directory := by decide
  have hwalk : folderDisk.walk "src".toList "java".toList =
      .ok ["src/Letters/Stamp.java".toList, "src/Letters-sent.java".toList, "src/Letters.java".toList] := by
    decide +kernel
  obtain ⟨listed, hlists, -, hends, hstops⟩ :=
    walk_lists_ordered named_folderDisk hlocate hdirectory "java".toList
  have hpass : folderDisk.Passable "src".toList ["src".toList] := by
    by_contra hpass
    obtain ⟨names, e, -, hfails⟩ := hstops hpass
    rw [hwalk] at hfails
    cases hfails
  exact ⟨named_folderDisk, hlocate, hdirectory, hpass, listed, hlists, Except.ok.inj ((hends hpass).symm.trans hwalk)⟩

/-- A directory that cannot be listed ends the walk, whatever could be listed after it. -/
example : (folderDisk.deny ["src".toList, "Letters".toList] .accessDenied).walk "src".toList "java".toList =
    .error ("src/Letters".toList, .accessDenied) := by
  decide +kernel

/-- A file is not listed if the path of a directory that it stands in is too long. -/
theorem not_walk_lists :
    ¬∀ (d : Disk) (directory extension : Text) (location names : List Text), d.Named →
      d.locate directory = .ok location → d.content? location = some .directory →
      d.IsSought extension location names →
        ∃ files, d.walk directory extension = .ok files ∧ Path.joinAll directory names ∈ files := by
  intro h
  -- The path stays a variable from here on, so that nothing steps through it.
  obtain ⟨directory, hpath⟩ : ∃ directory, directory = Path.roundabout 2045 "src".toList := ⟨_, rfl⟩
  have hlocate : folderDisk.locate directory = .ok ["src".toList] :=
    hpath ▸ locate_roundabout (by decide) rfl (by decide) (by decide)
  have hdirectory : folderDisk.content? ["src".toList] = some .directory := by decide
  have hsought : folderDisk.IsSought "java".toList ["src".toList] ["Letters".toList, "Stamp.java".toList] :=
    ⟨⟨[], by decide⟩, ["Letters".toList], "Stamp.java".toList, rfl, by decide⟩
  obtain ⟨files, hwalk, -⟩ := h _ _ _ _ _ named_folderDisk hlocate hdirectory hsought
  obtain ⟨root, hroot, hcontent⟩ := Option.map_eq_some_iff.mp hdirectory
  have hpass := ((walk_eq_ok_iff hlocate hroot named_folderDisk hcontent).mp hwalk).1
  have hshort : (Utf8.encode (Path.join directory "Letters".toList)).length ≤ pathLimit :=
    (barrier?_eq_none_iff.mp (hpass ["Letters".toList] (by decide))).1
  have hlength : (Utf8.encode directory).length = 4093 := by
    rw [hpath, Path.length_encode_roundabout]
    rfl
  have hjoin := Path.length_encode_le_join directory (rfl : Path.isAbsolute "Letters".toList = false)
  rw [hlength] at hjoin
  exact absurd (Nat.le_trans hjoin hshort) (by decide)

end Exemplar.Disk
