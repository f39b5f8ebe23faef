import Exemplar.Proofs.Files.Locate
import Mathlib.Data.List.TakeWhile

/-!
# Writing to a disk

Writing a file and making a directory put one content at one location, to which the path leads afterwards.
Making a directory with those it stands in makes directories that these paths lead to, and changes nothing
else.
-/

namespace Exemplar.Disk

variable {d d' : Disk} {path name : Text} {directory goal : List Text} {content : Content}

/-! ### Places -/

theorem getLast?_of_splitOn {pieces : List Text} (hpieces : pieces ≠ [])
    (h : splitOn '/' path = pieces ++ [[]]) : path.getLast? = some '/' := by
  have hpath := intercalate_splitOn '/' path
  rw [h] at hpath
  clear h
  induction pieces generalizing path with
  | nil => exact absurd rfl hpieces
  | cons piece pieces ih =>
      rw [← hpath]
      cases pieces with
      | nil => simp [List.intercalate_cons_cons]
      | cons second pieces =>
          have hrest := @ih (['/'].intercalate (second :: pieces ++ [[]])) (by simp) rfl
          rw [List.cons_append, List.cons_append, List.intercalate_cons_cons, ← List.cons_append,
            List.getLast?_append, hrest]
          rfl

/-- The last piece stands before nothing but slashes, and before nothing if the path does not end so. -/
theorem splitOn_of_splitLast {before : List Text} (h : splitLast path = (before, name))
    (hname : name ≠ []) :
    ∃ slashes : List Text, splitOn '/' path = before ++ name :: slashes ∧ (∀ piece ∈ slashes, piece = []) ∧
      (path.getLast? ≠ some '/' → slashes = []) := by
  have hpieces := List.takeWhile_append_dropWhile (p := List.isEmpty) (l := (splitOn '/' path).reverse)
  unfold splitLast at h
  cases hdrop : (splitOn '/' path).reverse.dropWhile (·.isEmpty) with
  | nil =>
      rw [hdrop] at h
      exact absurd (congrArg Prod.snd h).symm hname
  | cons last rest =>
      rw [hdrop] at h hpieces
      obtain ⟨rfl, rfl⟩ := Prod.mk.inj h
      have hsplit := congrArg List.reverse hpieces
      rw [List.reverse_reverse, List.reverse_append, List.reverse_cons, List.append_assoc,
        List.singleton_append] at hsplit
      have hempty : ∀ piece ∈ ((splitOn '/' path).reverse.takeWhile List.isEmpty).reverse, piece = [] := by
        intro piece hmem
        simpa using List.mem_takeWhile_imp (List.mem_reverse.mp hmem)
      refine ⟨_, hsplit.symm, hempty, ?_⟩
      intro hlast
      by_contra hslashes
      obtain ⟨slashes, slash, hslash⟩ := List.eq_nil_or_concat _ |>.resolve_left hslashes
      have hslashEmpty : slash = [] := hempty slash (by rw [hslash]; simp)
      rw [hslash, hslashEmpty] at hsplit
      have hpath : splitOn '/' path = (rest.reverse ++ last :: slashes) ++ [[]] := by
        rw [← hsplit]
        simp
      exact hlast (getLast?_of_splitOn (by simp) hpath)

theorem place_eq_ok {present : Option Node} (h : d.place path = .ok ⟨directory, some name, present⟩) :
    checkPath path = .ok () ∧ d.content? directory = some .directory ∧
      present.map Node.content = d.content? (directory ++ [name]) ∧
      ∃ before, splitLast path = (before, name) ∧
        before.foldlM d.step (d.start path) = .ok directory ∧
        ¬(name = [] ∨ name = ['.'] ∨ name = ['.', '.']) ∧
        (Utf8.encode name).length ≤ nameLimit := by
  unfold place at h
  obtain ⟨⟨⟩, hcheck, h⟩ := bind_eq_ok_iff.mp h
  cases hsplit : splitLast path with
  | mk before last =>
      rw [hsplit] at h
      obtain ⟨found, hbefore, h⟩ := bind_eq_ok_iff.mp h
      cases hnode : d.at? found with
      | none => simp [hnode] at h
      | some node =>
          cases node with
          | file bytes => simp [hnode] at h
          | directory entries =>
              simp only [hnode] at h
              split_ifs at h with hdots hlong
              · cases h
              · cases h
                refine ⟨hcheck, ?_, ?_, before, rfl, hbefore, hdots, Nat.not_lt.mp hlong⟩
                · simp [content?, hnode, Node.content]
                · exact (content?_child _ hnode).symm

/-- Whatever is put somewhere new has a proper name. -/
theorem isName_of_place {present : Option Node} (h : d.place path = .ok ⟨directory, some name, present⟩) :
    IsName name := by
  obtain ⟨hcheck, -, -, before, hsplit, -, hname, hshort⟩ := place_eq_ok h
  obtain ⟨hne, hdot, hup⟩ : name ≠ [] ∧ name ≠ ['.'] ∧ name ≠ ['.', '.'] := by simpa using hname
  obtain ⟨slashes, hpieces, -⟩ := splitOn_of_splitLast hsplit hne
  have hpiece : name ∈ splitOn '/' path := by simp [hpieces]
  exact ⟨not_or.mpr ⟨hne, hdot⟩, hup, not_mem_of_mem_splitOn hpiece,
    fun hnul => (checkPath_eq_ok_iff.mp hcheck).1 (mem_of_mem_splitOn hpiece hnul), hshort⟩

/-- Once something stands at the place of a path, the path leads there. A slash at its end asks for a
directory. -/
theorem locate_of_place {present : Option Node}
    (h : d.place path = .ok ⟨directory, some name, present⟩) (hgrows : Grows d d')
    (hcontent : d'.content? (directory ++ [name]) = some content)
    (hslash : content = .directory ∨ path.getLast? ≠ some '/') :
    d'.locate path = .ok (directory ++ [name]) := by
  obtain ⟨hcheck, hdirectory, -, before, hsplit, hbefore, hname, hlong⟩ := place_eq_ok h
  obtain ⟨slashes, hpieces, hempty, hnone⟩ := splitOn_of_splitLast hsplit (not_or.mp hname).1
  have hstep : d'.step directory name = .ok (directory ++ [name]) := by
    rw [step_eq, hgrows.directory hdirectory, hcontent]
    obtain ⟨hname, hdot, hdots⟩ : name ≠ [] ∧ name ≠ ['.'] ∧ name ≠ ['.', '.'] := by
      simpa using hname
    simp [hname, hdot, hdots, Nat.not_lt.mpr hlong]
  have hslashes : slashes.foldlM d'.step (directory ++ [name]) = .ok (directory ++ [name]) := by
    rcases hslash with rfl | hlast
    · clear hpieces hnone
      induction slashes with
      | nil => rfl
      | cons slash slashes ih =>
          have hslash : d'.step (directory ++ [name]) slash = .ok (directory ++ [name]) := by
            rw [step_eq, hcontent, hempty slash (List.mem_cons_self ..)]
            rfl
          rw [List.foldlM_cons, hslash, ok_bind]
          exact ih fun piece hmem => hempty piece (List.mem_cons_of_mem _ hmem)
    · rw [hnone hlast]
      rfl
  have hsteps : before.foldlM d'.step (d.start path) = before.foldlM d.step (d.start path) :=
    steps_of_grows hgrows (by simp [hbefore])
  refine locate_eq_ok.mpr ⟨hcheck, ?_⟩
  calc
    d'.follow path = (before ++ name :: slashes).foldlM d'.step (d.start path) := by
      rw [follow, start_of_grows hgrows, hpieces]
    _ = (name :: slashes).foldlM d'.step directory := by
      rw [List.foldlM_append, hsteps, hbefore, ok_bind]
    _ = .ok (directory ++ [name]) := by
      rw [List.foldlM_cons, hstep, ok_bind, hslashes]

/-! ### One change -/

theorem puts_of_writeFile {bytes : List UInt8} (h : d.writeFile path bytes = .ok d') :
    ∃ directory name, IsName name ∧ Puts d (directory ++ [name]) (.file bytes) d' ∧
      d'.locate path = .ok (directory ++ [name]) := by
  unfold writeFile at h
  obtain ⟨⟨directory, name, present⟩, hplace, h⟩ := bind_eq_ok_iff.mp h
  cases name with
  | none => simp at h
  | some name =>
      have hpresent : ∀ old, d.content? (directory ++ [name]) = some old → old.isDirectory = false := by
        intro old hold
        rw [← (place_eq_ok hplace).2.2.1] at hold
        obtain ⟨node, rfl, rfl⟩ := Option.map_eq_some_iff.mp hold
        cases node with
        | file old => rfl
        | directory entries => simp at h
      have hwrite : (if path.getLast? = some '/' then .error FileError.isDirectory
          else .ok (d.put (directory ++ [name]) (.file bytes) trivial)) = Except.ok d' := by
        rw [← h]
        cases present with
        | none => split_ifs <;> rfl
        | some node =>
            cases node with
            | file old => split_ifs <;> rfl
            | directory entries => simp at h
      split_ifs at hwrite with hlast
      cases hwrite
      have hputs : Puts d (directory ++ [name]) (.file bytes)
          (d.put (directory ++ [name]) (.file bytes) trivial) :=
        puts_put (place_eq_ok hplace).2.1 (fun old hold => ⟨hpresent old hold, rfl⟩)
          (Node.bare_file bytes) trivial
      exact ⟨directory, name, isName_of_place hplace, hputs,
        locate_of_place hplace hputs.grows hputs.content?_self (Or.inr hlast)⟩

theorem writeFile_eq_ok {bytes : List UInt8} (h : d.writeFile path bytes = .ok d') :
    ∃ goal, Puts d goal (.file bytes) d' ∧ d'.locate path = .ok goal := by
  obtain ⟨directory, name, -, hputs, hlocate⟩ := puts_of_writeFile h
  exact ⟨_, hputs, hlocate⟩

theorem puts_of_makeDirectory (h : d.makeDirectory path = .ok d') :
    ∃ directory name, IsName name ∧ Puts d (directory ++ [name]) .directory d' ∧
      d.content? (directory ++ [name]) = none ∧ d'.locate path = .ok (directory ++ [name]) := by
  unfold makeDirectory at h
  obtain ⟨⟨directory, name, present⟩, hplace, h⟩ := bind_eq_ok_iff.mp h
  cases name with
  | none => simp at h
  | some name =>
      cases present with
      | some node => simp at h
      | none =>
          cases h
          have hpresent := (place_eq_ok hplace).2.2.1
          have hputs : Puts d (directory ++ [name]) .directory
              (d.put (directory ++ [name]) (.directory []) ⟨List.Pairwise.nil, trivial⟩) :=
            puts_put (place_eq_ok hplace).2.1 (by simp [← hpresent]) Node.bare_directory
              ⟨List.Pairwise.nil, trivial⟩
          exact ⟨directory, name, isName_of_place hplace, hputs, hpresent.symm,
            locate_of_place hplace hputs.grows hputs.content?_self (Or.inl rfl)⟩

theorem makeDirectory_eq_ok (h : d.makeDirectory path = .ok d') :
    ∃ goal, Puts d goal .directory d' ∧ d.content? goal = none ∧ d'.locate path = .ok goal := by
  obtain ⟨directory, name, -, hputs, hmissing, hlocate⟩ := puts_of_makeDirectory h
  exact ⟨_, hputs, hmissing, hlocate⟩

/-- Writing a file keeps the names proper. -/
theorem Named.writeFile {bytes : List UInt8} (hnamed : d.Named) (h : d.writeFile path bytes = .ok d') :
    d'.Named := by
  obtain ⟨directory, name, hname, hputs, -⟩ := puts_of_writeFile h
  exact hputs.named hnamed hname

theorem Named.makeDirectory (hnamed : d.Named) (h : d.makeDirectory path = .ok d') : d'.Named := by
  obtain ⟨directory, name, hname, hputs, -⟩ := puts_of_makeDirectory h
  exact hputs.named hnamed hname

/-! ### Making directories -/

/-- A directory at a location where nothing was, and to which one of some paths leads. -/
structure MadeFor (parts : List Text) (d d' : Disk) (location : List Text) : Prop where
  missing : d.content? location = none
  made : d'.content? location = some .directory
  leads : ∃ part ∈ parts, d'.locate part = .ok location

/-- A later state of a disk that differs only in directories made for some paths. -/
structure Makes (parts : List Text) (d d' : Disk) : Prop where
  grows : Grows d d'
  same_or_made : ∀ location, d'.content? location = d.content? location ∨ MadeFor parts d d' location

variable {parts : List Text}

theorem Makes.refl (parts : List Text) (d : Disk) : Makes parts d d :=
  ⟨Grows.refl d, fun _ => Or.inl rfl⟩

theorem MadeFor.mono {more : List Text} (h : MadeFor parts d d' goal) (hparts : parts ⊆ more) :
    MadeFor more d d' goal := by
  obtain ⟨part, hpart, hlocate⟩ := h.leads
  exact ⟨h.missing, h.made, part, hparts hpart, hlocate⟩

theorem MadeFor.of_grows {d'' : Disk} (h : MadeFor parts d d' goal) (hgrows : Grows d' d'') :
    MadeFor parts d d'' goal := by
  obtain ⟨part, hpart, hlocate⟩ := h.leads
  refine ⟨h.missing, hgrows.directory h.made, part, hpart, ?_⟩
  rw [locate_of_grows hgrows (by simp [hlocate]), hlocate]

theorem Makes.mono {more : List Text} (h : Makes parts d d') (hparts : parts ⊆ more) :
    Makes more d d' :=
  ⟨h.grows, fun location => (h.same_or_made location).imp_right (·.mono hparts)⟩

theorem Makes.trans {d'' : Disk} (hfirst : Makes parts d d') (hlast : Makes parts d' d'') :
    Makes parts d d'' := by
  refine ⟨hfirst.grows.trans hlast.grows, ?_⟩
  intro location
  rcases hfirst.same_or_made location with hsame | hmade
  · rcases hlast.same_or_made location with hsame' | hmade
    · exact Or.inl (hsame'.trans hsame)
    · exact Or.inr ⟨hsame ▸ hmade.missing, hmade.made, hmade.leads⟩
  · exact Or.inr (hmade.of_grows hlast.grows)

theorem makes_of_makeDirectory (h : d.makeDirectory path = .ok d') : Makes [path] d d' := by
  obtain ⟨goal, hputs, hmissing, hlocate⟩ := makeDirectory_eq_ok h
  refine ⟨hputs.grows, ?_⟩
  intro location
  by_cases hlocation : location = goal
  · subst hlocation
    exact Or.inr ⟨hmissing, hputs.content?_self, path, List.mem_singleton_self _, hlocate⟩
  · exact Or.inl (hputs.content?_of_ne hlocation)

theorem makes_of_makeAll (d : Disk) (parts : List Text) : Makes parts d (d.makeAll parts).1 := by
  induction parts with
  | nil => exact Makes.refl [] d
  | cons part parts ih =>
      have hone {made made' : Disk} (h : made.makeDirectory part = .ok made') :
          Makes (part :: parts) made made' :=
        (makes_of_makeDirectory h).mono (by simp)
      have hrest : Makes (part :: parts) d (d.makeAll parts).1 := ih.mono (List.subset_cons_self ..)
      rw [makeAll]
      split
      · exact hone ‹_›
      · split
        · rename_i hmade
          rwa [hmade] at hrest
        · rename_i made hmade
          rw [hmade] at hrest
          split
          · exact hrest.trans (hone ‹_›)
          · exact hrest
      · exact Makes.refl _ d

/-- Making a directory keeps the names proper, whether it succeeds or not. -/
theorem Named.makeDirectories (hnamed : d.Named) (path : Text) : (d.makeDirectories path).1.Named := by
  have hall (parts : List Text) : (d.makeAll parts).1.Named := by
    induction parts with
    | nil => exact hnamed
    | cons part parts ih =>
        rw [makeAll]
        split
        · exact hnamed.makeDirectory ‹_›
        · split
          · rename_i hmade
            rwa [hmade] at ih
          · rename_i made hmade
            rw [hmade] at ih
            split
            · exact ih.makeDirectory ‹_›
            · exact ih
        · exact hnamed
  rw [Disk.makeDirectories]
  split
  · exact hnamed
  · exact hall _

theorem isDirectory_of_makeDirectory (h : d.makeDirectory path = .ok d') : d'.isDirectory path := by
  obtain ⟨goal, hputs, -, hlocate⟩ := makeDirectory_eq_ok h
  exact isDirectory_iff.mpr ⟨goal, hlocate, hputs.content?_self⟩

theorem isDirectory_of_makeAll {parents : List Text} (h : d.makeAll (path :: parents) = (d', .ok ())) :
    d'.isDirectory path := by
  have hkept {kept : Disk} {e : FileError}
      (h : (kept, if kept.isDirectory path then .ok () else .error e) = (d', Except.ok ())) :
      d'.isDirectory path := by
    obtain ⟨rfl, hresult⟩ := Prod.mk.inj h
    split at hresult
    · assumption
    · simp at hresult
  rw [makeAll] at h
  split at h
  · rename_i hmade
    cases h
    exact isDirectory_of_makeDirectory hmade
  · split at h
    · simp at h
    · split at h
      · rename_i hmade
        cases h
        exact isDirectory_of_makeDirectory hmade
      · exact hkept h
  · exact hkept h

/-- A path to a directory that could be made leads to it, and nothing has changed but that directories were
made for the path and for its parents. -/
theorem makeDirectories_eq_ok (hpath : path ≠ []) (h : d.makeDirectories path = (d', .ok ())) :
    ∃ goal, d'.locate path = .ok goal ∧ d'.content? goal = some .directory ∧
      Makes (path :: Path.parents path) d d' := by
  rw [makeDirectories, if_neg hpath] at h
  obtain ⟨goal, hlocate, hgoal⟩ := isDirectory_iff.mp (isDirectory_of_makeAll h)
  have hmakes := makes_of_makeAll d (path :: Path.parents path)
  rw [h] at hmakes
  exact ⟨goal, hlocate, hgoal, hmakes⟩

/-- Without double dots, the directories made for a path stand on the way to its goal. -/
theorem MadeFor.on_way {location : List Text} (hup : Path.Component.up ∉ Path.components path)
    (h : MadeFor (path :: Path.parents path) d d' location) (hgoal : d'.locate path = .ok goal) :
    location <+: goal := by
  obtain ⟨part, hmem, hlocate⟩ := h.leads
  have hpart : Path.Along path part := by
    rcases List.mem_cons.mp hmem with rfl | hmem
    · exact Path.Along.refl hup
    · exact Path.along_of_mem_parents hup hmem
  rw [follow_eq_ok hup (locate_eq_ok.mp hgoal).2, follow_eq_ok hpart.not_up (locate_eq_ok.mp hlocate).2, start,
    start, hpart.isAbsolute]
  exact (List.prefix_append_right_inj _).mpr hpart.names

/-! ### What is kept -/

/-- A later state of a disk in which all that stood somewhere stands there still, but for what some paths
lead to. -/
structure Keeps (paths : List Text) (d d' : Disk) : Prop where
  grows : Grows d d'
  content? : ∀ location content, d.content? location = some content →
    (∀ path ∈ paths, d'.locate path ≠ .ok location) → d'.content? location = some content

variable {paths more : List Text}

theorem Keeps.refl (d : Disk) : Keeps [] d d := ⟨Grows.refl d, fun _ _ h _ => h⟩

theorem Keeps.trans {d'' : Disk} (hfirst : Keeps paths d d') (hlast : Keeps more d' d'') :
    Keeps (paths ++ more) d d'' := by
  refine ⟨hfirst.grows.trans hlast.grows, ?_⟩
  intro location content hcontent hother
  obtain ⟨hpaths, hmore⟩ := List.forall_mem_append.mp hother
  refine hlast.content? location content (hfirst.content? location content hcontent ?_) hmore
  intro path hpath hlocate
  exact hpaths path hpath (by rw [locate_of_grows hlast.grows (by simp [hlocate]), hlocate])

/-- A path leads to what it led to, unless one of the paths leads to the same place. -/
theorem Keeps.contentOf (h : Keeps paths d d') (hcontent : d.contentOf path = .ok content)
    (hother : ∀ other ∈ paths, d'.locate other ≠ d'.locate path) :
    d'.contentOf path = .ok content := by
  obtain ⟨goal, hlocate, hgoal⟩ := contentOf_eq_ok_iff.mp hcontent
  have hlocate' : d'.locate path = .ok goal := by
    rw [locate_of_grows h.grows (by simp [hlocate]), hlocate]
  exact contentOf_eq_ok_iff.mpr ⟨goal, hlocate', h.content? goal content hgoal (hlocate' ▸ hother)⟩

end Exemplar.Disk
