import Exemplar.Proofs.Files.Walk

/-!
# Collecting from many sources

Sources are listed one after the other: more of them add the paths that are new to the end of the list, in their
order, and the same ones again add nothing. Every listed path leads to a file. A walk does not look for the files that
it lists, so one whose path is longer than the system takes is listed all the same and is not found under it.
-/

namespace Exemplar

/-! ### Long paths -/

namespace Path

/-- A path that steps onto the same place a number of times before it goes on. -/
def roundabout : Nat → Text → Text
  | 0, path => path
  | n + 1, path => '.' :: '/' :: roundabout n path

theorem length_encode_roundabout (n : Nat) (path : Text) :
    (Utf8.encode (roundabout n path)).length = 2 * n + (Utf8.encode path).length := by
  induction n with
  | zero => simp [roundabout]
  | succ n ih =>
      have hdot : (Utf8.encodeChar '.').length = 1 := by decide
      have hslash : (Utf8.encodeChar '/').length = 1 := by decide
      rw [roundabout, Utf8.encode_cons, Utf8.encode_cons, List.length_append, List.length_append, ih]
      omega

theorem mem_roundabout {c : Char} {n : Nat} {path : Text} (h : c ∈ roundabout n path) :
    c = '.' ∨ c = '/' ∨ c ∈ path := by
  induction n with
  | zero => exact Or.inr (Or.inr h)
  | succ n ih =>
      rw [roundabout, List.mem_cons, List.mem_cons] at h
      rcases h with rfl | rfl | h
      · exact Or.inl rfl
      · exact Or.inr (Or.inl rfl)
      · exact ih h

end Path

namespace Disk

variable {d : Disk}

theorem follow_roundabout (hhome : d.content? d.home = some .directory) (n : Nat) {path : Text}
    (hpath : Path.isAbsolute path = false) : d.follow (Path.roundabout n path) = d.follow path := by
  induction n with
  | zero => rfl
  | succ n ih =>
      have hstart : d.start (Path.roundabout n path) = d.home := by
        have hrelative : Path.isAbsolute (Path.roundabout n path) = false := by
          cases n with
          | zero => exact hpath
          | succ n => rfl
        simp [start, hrelative]
      have hstay : d.step d.home ['.'] = .ok d.home := by
        rw [step_eq, hhome]
        simp
      have hpieces : splitOn '/' (Path.roundabout (n + 1) path) = ['.'] :: splitOn '/' (Path.roundabout n path) :=
        splitOn_append ['.'] (Path.roundabout n path)
      have hstart' : d.start (Path.roundabout (n + 1) path) = d.home := rfl
      rw [← ih, follow, follow, hpieces, hstart, hstart', List.foldlM_cons, hstay, ok_bind]

theorem locate_roundabout (hhome : d.content? d.home = some .directory) {n : Nat} {path : Text}
    {goal : List Text} (hpath : Path.isAbsolute path = false) (hlocate : d.locate path = .ok goal)
    (hshort : 2 * n + (Utf8.encode path).length ≤ pathLimit) : d.locate (Path.roundabout n path) = .ok goal := by
  obtain ⟨hcheck, hfollow⟩ := locate_eq_ok.mp hlocate
  obtain ⟨hnul, hne, -⟩ := checkPath_eq_ok_iff.mp hcheck
  have hcheck' : checkPath (Path.roundabout n path) = .ok () := by
    refine checkPath_eq_ok_iff.mpr ⟨fun hmem => ?_, ?_, ?_⟩
    · rcases Path.mem_roundabout hmem with h | h | h
      · exact absurd h (by decide)
      · exact absurd h (by decide)
      · exact hnul h
    · cases n with
      | zero => exact hne
      | succ n => exact List.cons_ne_nil _ _
    · rwa [Path.length_encode_roundabout]
  exact locate_eq_ok.mpr ⟨hcheck', (follow_roundabout hhome n hpath).trans hfollow⟩

theorem read_roundabout (hhome : d.content? d.home = some .directory) {n : Nat} {path : Text}
    {node : Node} (hpath : Path.isAbsolute path = false) (hread : d.read path = .ok node)
    (hshort : 2 * n + (Utf8.encode path).length ≤ pathLimit) : d.read (Path.roundabout n path) = .ok node := by
  obtain ⟨goal, hlocate, hnode⟩ := read_eq_ok.mp hread
  exact read_eq_ok.mpr ⟨goal, locate_roundabout hhome hpath hlocate hshort, hnode⟩

/-- A file or an empty directory that is put where nothing stands has to have a proper name. -/
theorem Named.put {new : Node} (hnamed : d.Named) (location : List Text) (name : Text)
    (hdirectory : d.content? location = some .directory) (hnone : d.content? (location ++ [name]) = none)
    (hnew : new.Bare) (hordered : new.Ordered) (hname : IsName name) :
    (d.put (location ++ [name]) new hordered).Named :=
  (puts_put hdirectory (by simp [hnone]) hnew hordered).named hnamed hname

end Disk

namespace Files

variable {d : Disk} {extension : Text} {sources others files : List Text}

/-- A directory with one file is walked without a look at what the path of the file leads to. -/
theorem ofSource_of_lone {directory name : Text} {bytes : List UInt8}
    (hread : d.read directory = .ok (.directory [(name, .file bytes)]))
    (hextension : Path.hasExtension (Path.join directory name) extension = true) :
    ofSource d extension directory = .ok [Path.join directory name] := by
  have hfind := Disk.find_of_read hread
  have hwalk : d.walk directory extension = .ok [Path.join directory name] := by
    rw [Disk.walk, hfind]
    simp only [Node.under, Node.underEntries, List.append_nil, Disk.visit, hread, hextension, if_true, Except.map]
  simp only [ofSource, Disk.isFile, Disk.isDirectory, hfind, hwalk]
  rfl

/-! ### One source after the other -/

/-- Sources that can be collected together can be collected apart, and what the later ones add is new. -/
theorem collect_append (h : (collect d extension (sources ++ others)).2 = .ok files) :
    ∃ first second, (collect d extension sources).2 = .ok first ∧ (collect d extension others).2 = .ok second ∧
      files = first ++ unlisted first second := by
  rw [collect_eq, List.mapM_append, map_eq_ok_iff] at h
  obtain ⟨both, hboth, rfl⟩ := h
  obtain ⟨listed, hlisted, hrest⟩ := bind_eq_ok_iff.mp hboth
  obtain ⟨later, hlater, hlast⟩ := bind_eq_ok_iff.mp hrest
  cases hlast
  refine ⟨distinct listed.flatten, distinct later.flatten, ?_, ?_, ?_⟩
  · rw [collect_eq, hlisted]
    rfl
  · rw [collect_eq, hlater]
    rfl
  · rw [List.flatten_append, distinct_append]

theorem collect_append_self (d : Disk) (extension : Text) (sources : List Text) :
    (collect d extension (sources ++ sources)).2 = (collect d extension sources).2 := by
  rw [collect_eq, collect_eq, List.mapM_append]
  cases sources.mapM (ofSource d extension) with
  | error fault => rfl
  | ok listed =>
      simp only [ok_bind, pure, Except.pure, Except.map, List.flatten_append, distinct_append_self]

/-- Every path of a source is collected, though perhaps as another path of the same components. -/
theorem exists_mem_collect (h : (collect d extension sources).2 = .ok files) {source : Text}
    (hsource : source ∈ sources) : ∃ own, ofSource d extension source = .ok own ∧
      ∀ path ∈ own, ∃ listed ∈ files, Path.components listed = Path.components path := by
  obtain ⟨listed, hlisted, rfl⟩ := collect_eq_ok_iff.mp h
  obtain ⟨own, hmem, hown⟩ := exists_of_forall₂ hlisted hsource
  exact ⟨own, hown, fun path hpath => exists_mem_distinct (List.mem_flatten.mpr ⟨own, hmem, hpath⟩)⟩

theorem pairwise_collect (h : (collect d extension sources).2 = .ok files) :
    files.Pairwise fun path other => Path.components path ≠ Path.components other := by
  obtain ⟨listed, -, rfl⟩ := collect_eq_ok_iff.mp h
  exact pairwise_distinct _

/-- **Sources are collected in order, each file once, and more sources only add files.** What the first sources
list comes first, as it is alone; the others go on with what is new; and the same sources again add nothing. No two
listed paths have the same components, every path of a source has one of its components in the list, and on a disk
with proper names each listed path leads to a file, which is found there unless the path is too long. -/
theorem collect_append_ordered (h : (collect d extension (sources ++ others)).2 = .ok files) :
    (∃ first second, (collect d extension sources).2 = .ok first ∧ (collect d extension others).2 = .ok second ∧
      files = first ++ unlisted first second ∧ (collect d extension (sources ++ sources)).2 = .ok first) ∧
      (files.Pairwise fun path other => Path.components path ≠ Path.components other) ∧
      (∀ source ∈ sources ++ others, ∃ own, ofSource d extension source = .ok own ∧
        ∀ path ∈ own, ∃ listed ∈ files, Path.components listed = Path.components path) ∧
      (d.Named → ∀ path ∈ files, d.LeadsToFile path) := by
  obtain ⟨first, second, hfirst, hsecond, hfiles⟩ := collect_append h
  exact ⟨⟨first, second, hfirst, hsecond, hfiles, (collect_append_self d extension sources).trans hfirst⟩,
    pairwise_collect h, fun _ => exists_mem_collect h, fun hnamed _ => leadsToFile_of_mem_collect hnamed h⟩

/-- Two files, one of them alone in a directory. -/
def letterDisk : Disk :=
  (((Disk.fresh []).put ["Parcels.java".toList] (.file []) trivial).put ["src".toList] (.directory [])
    Node.ordered_directory).put ["src".toList, "Letters.java".toList] (.file []) trivial

theorem named_letterDisk : letterDisk.Named := by
  have hfresh : (Disk.fresh []).Named := Disk.named_fresh (by simp)
  have hparcels := hfresh.put [] "Parcels.java".toList (by decide) (by decide)
    (Node.bare_file []) trivial (by decide)
  have hsrc := hparcels.put [] "src".toList (by decide) (by decide)
    Node.bare_directory Node.ordered_directory (by decide)
  exact hsrc.put ["src".toList] "Letters.java".toList (by decide) (by decide)
    (Node.bare_file []) trivial (by decide)

theorem collect_append_ordered_letters :
    (collect letterDisk "java".toList
        (["src".toList, "Parcels.java".toList] ++ ["*.java".toList, "src//Letters.java".toList])).2 =
          .ok ["src/Letters.java".toList, "Parcels.java".toList] ∧
      (∃ first second, (collect letterDisk "java".toList ["src".toList, "Parcels.java".toList]).2 = .ok first ∧
        (collect letterDisk "java".toList ["*.java".toList, "src//Letters.java".toList]).2 = .ok second ∧
        ["src/Letters.java".toList, "Parcels.java".toList] = first ++ unlisted first second) ∧
      letterDisk.Named ∧ letterDisk.LeadsToFile "src/Letters.java".toList := by
  have hcollect : (collect letterDisk "java".toList
      (["src".toList, "Parcels.java".toList] ++ ["*.java".toList, "src//Letters.java".toList])).2 =
        .ok ["src/Letters.java".toList, "Parcels.java".toList] := by decide +kernel
  obtain ⟨⟨first, second, hfirst, hsecond, hfiles, -⟩, -, -, hleads⟩ := collect_append_ordered hcollect
  exact ⟨hcollect, ⟨first, second, hfirst, hsecond, hfiles⟩, named_letterDisk,
    hleads named_letterDisk _ (List.mem_cons_self ..)⟩

/-- A file that stands in a directory is listed under a path that is too long to find it. -/
theorem not_isFile_of_mem_collect :
    ¬∀ (d : Disk) (extension : Text) (sources others files : List Text), d.Named →
      (collect d extension (sources ++ others)).2 = .ok files → ∀ path ∈ files, d.isFile path := by
  intro h
  -- The path stays a variable from here on, so that nothing steps through it.
  obtain ⟨directory, hdirectory⟩ : ∃ directory, directory = Path.roundabout 2045 "src".toList := ⟨_, rfl⟩
  have hread : letterDisk.read directory = .ok (.directory [("Letters.java".toList, .file [])]) :=
    hdirectory ▸ Disk.read_roundabout (by decide) (by decide) rfl (by decide)
  have hextension : Path.hasExtension (Path.join directory "Letters.java".toList) "java".toList = true := by
    rw [Path.hasExtension, Path.fileName?_join directory (by decide) (by decide)]
    decide
  have hcollect : (collect letterDisk "java".toList ([directory] ++ [])).2 =
      .ok [Path.join directory "Letters.java".toList] :=
    collect_eq_ok_iff.mpr ⟨_, .cons (ofSource_of_lone hread hextension) .nil, rfl⟩
  have hlong : Disk.pathLimit < (Utf8.encode (Path.join directory "Letters.java".toList)).length := by
    have hlength : (Utf8.encode directory).length = 4093 := by
      rw [hdirectory, Path.length_encode_roundabout]
      rfl
    have hjoin := Path.length_encode_le_join directory (rfl : Path.isAbsolute "Letters.java".toList = false)
    rw [hlength] at hjoin
    exact Nat.lt_of_lt_of_le (by decide) hjoin
  have hfile := h _ _ _ _ _ named_letterDisk hcollect _ (List.mem_singleton_self _)
  exact Nat.not_le.mpr hlong (Disk.length_le_of_isFile hfile)

end Files

end Exemplar
