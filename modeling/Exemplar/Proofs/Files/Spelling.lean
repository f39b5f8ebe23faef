import Exemplar.Proofs.Files.Join
import Exemplar.Proofs.Files.Sources
import Mathlib.Data.List.Pairwise
import Mathlib.Data.List.TakeWhile

/-!
# Spellings of a place

Without links a path leads where its components spell it: names go down, double dots go up, from the root or from the
working directory. Paths of the same components are collected once, but one place has many spellings: with a dot
before it, from the root, through double dots. A file is collected once in each of the spellings in which the sources
give it, so it is collected once exactly if they give it in one.
-/

namespace Exemplar

namespace Path

variable {path other directory name : Text} {home : List Text}

/-- Where a component leads from a location. -/
def Component.move (location : List Text) : Component → List Text
  | .name n => location ++ [n]
  | .up => location.dropLast
  | _ => location

/-- The location that the components of a path spell. -/
def spelled (home : List Text) (path : Text) : List Text :=
  (components path).foldl Component.move (if isAbsolute path then [] else home)

theorem spelled_eq (home : List Text) (path : Text) :
    spelled home path =
      ((splitOn '/' path).filterMap Component.ofPiece?).foldl Component.move
        (if isAbsolute path then [] else home) := by
  unfold spelled components
  dsimp only
  rw [List.foldl_append]
  congr 1
  split
  · rfl
  · split <;> rfl

theorem spelled_congr (h : components path = components other) : spelled home path = spelled home other := by
  rw [spelled, spelled, h, isAbsolute_congr h]

theorem foldl_move_names (location names : List Text) :
    (names.map Component.name).foldl Component.move location = location ++ names := by
  induction names generalizing location with
  | nil => exact (List.append_nil location).symm
  | cons name names ih => rw [List.map_cons, List.foldl_cons, ih, Component.move, ← List.append_cons]

theorem spelled_of_not_up (hup : Component.up ∉ components path) :
    spelled home path = (if isAbsolute path then [] else home) ++ names path := by
  rw [spelled_eq, filterMap_ofPiece?_eq_map (up_mem_components.not.mp hup), ← names_eq, foldl_move_names]

/-! ### Alike spellings -/

/-- The root or the dot that a path starts with. -/
def lead (path : Text) : List Component := (components path).takeWhile fun c => c = .root ∨ c = .here

theorem takeWhile_append_names (start : List Component) (names : List Text) :
    (start ++ names.map Component.name).takeWhile (fun c => c = .root ∨ c = .here) =
      start.takeWhile fun c => c = .root ∨ c = .here := by
  have hnames : (names.map Component.name).takeWhile (fun c => c = .root ∨ c = .here) = [] := by
    cases names <;> simp
  rw [List.takeWhile_append, hnames, List.append_nil]
  split
  · rename_i hall
    exact ((List.takeWhile_prefix _).eq_of_length hall).symm
  · rfl

/-- Without double dots there are only names after the start. -/
theorem components_of_not_up (hup : Component.up ∉ components path) :
    components path = lead path ++ (names path).map Component.name := by
  obtain ⟨start, hstart, hcomponents⟩ : ∃ start : List Component, (∀ c ∈ start, c = .root ∨ c = .here) ∧
      components path = start ++ (splitOn '/' path).filterMap Component.ofPiece? := by
    refine ⟨_, ?_, rfl⟩
    split
    · simp
    · split <;> simp
  rw [filterMap_ofPiece?_eq_map (up_mem_components.not.mp hup), ← names_eq] at hcomponents
  have hlead : lead path = start := by
    rw [lead, hcomponents, takeWhile_append_names]
    exact List.takeWhile_eq_self_iff.mpr fun c hc => decide_eq_true (hstart c hc)
  rw [hlead, hcomponents]

/-- Paths without double dots that start alike. -/
structure Alike (path other : Text) : Prop where
  lead : lead path = lead other
  not_up : Component.up ∉ components path
  not_up' : Component.up ∉ components other

theorem Alike.isAbsolute_eq (h : Alike path other) : isAbsolute path = isAbsolute other := by
  have hroot {path : Text} (hup : Component.up ∉ components path) :
      isAbsolute path = true ↔ Component.root ∈ Path.lead path := by
    rw [isAbsolute_iff, components_of_not_up hup, List.mem_append, or_iff_left (by simp)]
  rw [Bool.eq_iff_iff, hroot h.not_up, hroot h.not_up', h.lead]

/-- Paths that start alike and go down only spell a place in one way. -/
theorem Alike.components_eq (h : Alike path other) (hspelled : spelled home path = spelled home other) :
    components path = components other := by
  rw [spelled_of_not_up h.not_up, spelled_of_not_up h.not_up', h.isAbsolute_eq, List.append_cancel_left_eq] at hspelled
  rw [components_of_not_up h.not_up, components_of_not_up h.not_up', h.lead, hspelled]

end Path

namespace Disk

variable {d : Disk} {path other : Text} {goal : List Text}

/-- Two paths that lead to the same place. -/
def SamePlace (d : Disk) (path other : Text) : Prop := ∃ goal, d.follow path = .ok goal ∧ d.follow other = .ok goal

theorem SamePlace.symm (h : d.SamePlace path other) : d.SamePlace other path := by
  obtain ⟨goal, hgoal, hgoal'⟩ := h
  exact ⟨goal, hgoal', hgoal⟩

/-- Paths of which no two lead to the same place. -/
def Apart (d : Disk) (files : List Text) : Prop := files.Pairwise fun path other => ¬d.SamePlace path other

theorem step_eq_move {piece : Text} {location next : List Text} (h : d.step location piece = .ok next) :
    next = (Path.Component.ofPiece? piece).elim location (Path.Component.move location) := by
  rw [step_eq] at h
  unfold Path.Component.ofPiece?
  split at h
  · cases h
  · cases h
  · split_ifs at h ⊢ <;> cases h <;> rfl

/-- **A path that leads somewhere leads where its components spell it.** -/
theorem eq_spelled_of_follow (h : d.follow path = .ok goal) : goal = Path.spelled d.home path := by
  have hsteps {pieces : List Text} {location : List Text} (h : pieces.foldlM d.step location = .ok goal) :
      goal = (pieces.filterMap Path.Component.ofPiece?).foldl Path.Component.move location := by
    induction pieces generalizing location with
    | nil => simpa [pure, Except.pure, eq_comm] using h
    | cons piece pieces ih =>
        rw [List.foldlM_cons, bind_eq_ok_iff] at h
        obtain ⟨next, hstep, hrest⟩ := h
        rw [ih hrest, step_eq_move hstep]
        cases hpiece : Path.Component.ofPiece? piece with
        | none => rw [List.filterMap_cons_none hpiece]; rfl
        | some c => rw [List.filterMap_cons_some hpiece]; rfl
  rw [Path.spelled_eq]
  exact hsteps h

theorem samePlace_iff (hpath : d.LeadsToFile path) (hother : d.LeadsToFile other) :
    d.SamePlace path other ↔ Path.spelled d.home path = Path.spelled d.home other := by
  obtain ⟨goal, -, hgoal, -⟩ := hpath.exists_follow
  obtain ⟨goal', -, hgoal', -⟩ := hother.exists_follow
  rw [← eq_spelled_of_follow hgoal, ← eq_spelled_of_follow hgoal']
  constructor
  · rintro ⟨place, hplace, hplace'⟩
    rw [← Except.ok.inj (hplace.symm.trans hgoal), Except.ok.inj (hplace'.symm.trans hgoal')]
  · rintro rfl
    exact ⟨goal, hgoal, hgoal'⟩

end Disk

namespace Path

variable {directory path : Text} {names : List Text}

theorem components_joinAll (hdirectory : directory ≠ []) (hnames : ∀ name ∈ names, Disk.IsName name) :
    components (joinAll directory names) = components directory ++ names.map Component.name := by
  induction names generalizing directory with
  | nil => exact (List.append_nil _).symm
  | cons name names ih =>
      obtain ⟨hname, hrest⟩ := List.forall_mem_cons.mp hnames
      have hjoin : components (join directory name) = components directory ++ [.name name] := by
        rw [components_join hdirectory (isAbsolute_eq_false hname.no_slash), splitOn_of_not_mem hname.no_slash,
          List.filterMap_cons_some hname.ofPiece?, List.filterMap_nil]
      have hne : name ≠ [] := fun heq => hname.visible (Or.inl heq)
      calc
        components (joinAll (join directory name) names) =
            components directory ++ [.name name] ++ names.map Component.name := by
          rw [ih (join_ne_nil hne) hrest, hjoin]
        _ = components directory ++ (name :: names).map Component.name := (List.append_cons ..).symm

/-- Paths that go on along names from paths that are spelled alike are spelled alike themselves. -/
theorem Alike.of_names {path' other' : Text} {names' : List Text} (h : Alike path other)
    (hpath : components path' = components path ++ names.map Component.name)
    (hother : components other' = components other ++ names'.map Component.name) : Alike path' other' where
  lead := by
    rw [Path.lead, Path.lead, hpath, hother, takeWhile_append_names, takeWhile_append_names]
    exact h.lead
  not_up := by simpa [hpath] using h.not_up
  not_up' := by simpa [hother] using h.not_up'

end Path

namespace Files

open Exemplar.Path (components spelled Alike)

variable {d : Disk} {extension path other source : Text} {sources files own : List Text}

/-- A file or a directory gives paths that go on along names from its own path. -/
theorem exists_names_of_mem_ofSource (hnamed : d.Named) (hsource : d.isFile source ∨ d.isDirectory source)
    (hown : ofSource d extension source = .ok own) (hpath : path ∈ own) :
    ∃ names : List Text, components path = components source ++ names.map Path.Component.name := by
  rcases cases_of_mem_ofSource hown hpath with ⟨-, rfl⟩ | ⟨walked, hwalk, hwalked⟩ | ⟨hother, -⟩
  · exact ⟨[], (List.append_nil _).symm⟩
  · obtain ⟨-, node, bytes, hfind, hbytes⟩ := Disk.exists_file_of_mem_walk hwalk hwalked
    obtain ⟨location, names, hlocate, rfl, -, hnames⟩ := Disk.exists_names_of_mem_under hnamed hfind hbytes
    have hne : source ≠ [] := (Disk.checkPath_eq_ok_iff.mp (Disk.locate_eq_ok.mp hlocate).1).2.1
    exact ⟨names, Path.components_joinAll hne hnames⟩
  · exact absurd hsource (not_or.mpr hother)

/-- A path that one of the sources gives. -/
def Given (d : Disk) (extension : Text) (sources : List Text) (path : Text) : Prop :=
  ∃ source ∈ sources, ∃ own, ofSource d extension source = .ok own ∧ path ∈ own

theorem given_of_mem_collect (h : (collect d extension sources).2 = .ok files) (hmem : path ∈ files) :
    Given d extension sources path := by
  obtain ⟨listed, hlisted, rfl⟩ := collect_eq_ok_iff.mp h
  obtain ⟨own, hown, hpath⟩ := List.mem_flatten.mp (mem_of_mem_distinct hmem)
  obtain ⟨source, hsource, hgives⟩ := exists_of_forall₂ hlisted.flip hown
  exact ⟨source, hsource, own, hgives, hpath⟩

theorem Given.exists_mem_collect (hgiven : Given d extension sources path)
    (h : (collect d extension sources).2 = .ok files) : ∃ listed ∈ files, components listed = components path := by
  obtain ⟨source, hsource, own, hown, hpath⟩ := hgiven
  obtain ⟨own', hown', hlisted⟩ := Files.exists_mem_collect h hsource
  obtain rfl := Except.ok.inj (hown.symm.trans hown')
  exact hlisted path hpath

theorem Given.leadsToFile (hgiven : Given d extension sources path) (hnamed : d.Named) : d.LeadsToFile path := by
  obtain ⟨source, -, own, hown, hpath⟩ := hgiven
  exact leadsToFile_of_mem_ofSource hnamed hown hpath

theorem Given.alike (hpath : Given d extension sources path) (hother : Given d extension sources other)
    (hnamed : d.Named) (hplain : ∀ source ∈ sources, d.isFile source ∨ d.isDirectory source)
    (halike : ∀ source ∈ sources, ∀ next ∈ sources, Alike source next) : Alike path other := by
  obtain ⟨source, hsource, own, hown, hpath⟩ := hpath
  obtain ⟨next, hnext, own', hown', hother⟩ := hother
  obtain ⟨names, hnames⟩ := exists_names_of_mem_ofSource hnamed (hplain source hsource) hown hpath
  obtain ⟨names', hnames'⟩ := exists_names_of_mem_ofSource hnamed (hplain next hnext) hown' hother
  exact (halike source hsource next hnext).of_names hnames hnames'

theorem Given.samePlace_iff (hpath : Given d extension sources path) (hother : Given d extension sources other)
    (hnamed : d.Named) : d.SamePlace path other ↔ spelled d.home path = spelled d.home other :=
  Disk.samePlace_iff (hpath.leadsToFile hnamed) (hother.leadsToFile hnamed)

/-- The sources give each file in one spelling. -/
def SpelledOnce (d : Disk) (extension : Text) (sources : List Text) : Prop :=
  ∀ path other, Given d extension sources path → Given d extension sources other → d.SamePlace path other →
    components path = components other

theorem spelledOnce_of_apart (hnamed : d.Named) (h : (collect d extension sources).2 = .ok files)
    (hapart : d.Apart files) : SpelledOnce d extension sources := by
  intro path other hpath hother hsame
  obtain ⟨listed, hlisted, hcomponents⟩ := hpath.exists_mem_collect h
  obtain ⟨listed', hlisted', hcomponents'⟩ := hother.exists_mem_collect h
  have hsame' : d.SamePlace listed listed' := by
    rw [(given_of_mem_collect h hlisted).samePlace_iff (given_of_mem_collect h hlisted') hnamed,
      Path.spelled_congr hcomponents, Path.spelled_congr hcomponents']
    exact (hpath.samePlace_iff hother hnamed).mp hsame
  have : Std.Symm fun path other => ¬d.SamePlace path other := ⟨fun _ _ hne hsame => hne hsame.symm⟩
  have heq : listed = listed' := Classical.byContradiction fun hne => hapart.forall hlisted hlisted' hne hsame'
  rw [← hcomponents, heq, hcomponents']

theorem apart_of_spelledOnce (h : (collect d extension sources).2 = .ok files)
    (honce : SpelledOnce d extension sources) : d.Apart files := by
  refine (pairwise_collect h).imp_of_mem fun hpath hother hne hsame => hne ?_
  exact honce _ _ (given_of_mem_collect h hpath) (given_of_mem_collect h hother) hsame

/-- Sources that start alike and only go down give each file in one spelling. -/
theorem spelledOnce_of_alike (hnamed : d.Named) (hplain : ∀ source ∈ sources, d.isFile source ∨ d.isDirectory source)
    (halike : ∀ source ∈ sources, ∀ next ∈ sources, Alike source next) : SpelledOnce d extension sources := by
  intro path other hpath hother hsame
  exact (hpath.alike hother hnamed hplain halike).components_eq ((hpath.samePlace_iff hother hnamed).mp hsame)

end Files

end Exemplar
