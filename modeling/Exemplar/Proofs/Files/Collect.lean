import Exemplar.Files.Collect
import Exemplar.Proofs.Files.Locate

/-!
# Collecting files

Where a path leads depends on its components only: empty pieces and dots stay where they are. So a path that
is left out for its components leads to a file that is collected already, and files at different places are
all collected, in their order.
-/

namespace Exemplar

namespace Path

/-- The step that a component takes. The root and a dot take none. -/
def Component.move? : Component → Option Text
  | .name n => some n
  | .up => some ['.', '.']
  | _ => none

theorem moves_eq (path : Text) :
    (components path).filterMap Component.move? =
      (splitOn '/' path).filter fun piece => ¬(piece = [] ∨ piece = ['.']) := by
  have hpiece (piece : Text) :
      (Component.ofPiece? piece).bind Component.move? =
        if ¬(piece = [] ∨ piece = ['.']) then some piece else none := by
    unfold Component.ofPiece?
    by_cases hstay : piece = [] ∨ piece = ['.']
    · rw [if_pos hstay, if_neg (not_not.mpr hstay)]
      rfl
    · rw [if_neg hstay, if_pos hstay]
      by_cases hup : piece = ['.', '.']
      · rw [if_pos hup, hup]
        rfl
      · rw [if_neg hup]
        rfl
  have hstart (start : List Component) (h : start.filterMap Component.move? = []) :
      (start ++ (splitOn '/' path).filterMap Component.ofPiece?).filterMap Component.move? =
        (splitOn '/' path).filter fun piece => ¬(piece = [] ∨ piece = ['.']) := by
    rw [List.filterMap_append, h, List.nil_append, List.filterMap_filterMap, ← List.filterMap_eq_filter]
    apply List.filterMap_congr
    intro piece _
    rw [hpiece]
    simp [Option.guard]
  unfold components
  dsimp only
  apply hstart
  split
  · rfl
  · split <;> rfl

theorem isAbsolute_iff {path : Text} : isAbsolute path = true ↔ Component.root ∈ components path := by
  rcases components_cases path with ⟨habsolute, rest, hrest, -⟩ | ⟨hrelative, hroot⟩
  · simp [habsolute, hrest]
  · simp [hrelative, hroot]

theorem isAbsolute_congr {path other : Text} (h : components path = components other) :
    isAbsolute path = isAbsolute other := by
  rw [Bool.eq_iff_iff, isAbsolute_iff, isAbsolute_iff, h]

end Path

namespace Disk

variable {d : Disk} {location goal goal' : List Text} {path other : Text} {pieces : List Text}

/-- Pieces that stay where they are make no difference to steps that lead somewhere. -/
theorem steps_of_moves (h : pieces.foldlM d.step location = .ok goal) :
    (pieces.filter fun piece => ¬(piece = [] ∨ piece = ['.'])).foldlM d.step location = .ok goal := by
  induction pieces generalizing location with
  | nil => exact h
  | cons piece pieces ih =>
      rw [List.foldlM_cons, bind_eq_ok_iff] at h
      obtain ⟨next, hstep, hrest⟩ := h
      by_cases hstay : piece = [] ∨ piece = ['.']
      · have hnext : next = location := by
          have hup : piece ≠ ['.', '.'] := by
            rcases hstay with rfl | rfl <;> simp
          obtain ⟨-, rfl, -⟩ := step_eq_ok hup hstep
          simp [Path.Component.nameOfPiece?, Path.Component.ofPiece?, hstay]
        rw [List.filter_cons_of_neg (by simpa only [decide_eq_true_eq, not_not] using hstay)]
        exact ih (hnext ▸ hrest)
      · rw [List.filter_cons_of_pos (by simpa using hstay), List.foldlM_cons, hstep, ok_bind]
        exact ih hrest

/-- Paths of the same components that lead somewhere lead to the same place. -/
theorem locate_congr (h : Path.components path = Path.components other) (hpath : d.locate path = .ok goal)
    (hother : d.locate other = .ok goal') : goal = goal' := by
  have hmoves {path : Text} {goal : List Text} (hlocate : d.locate path = .ok goal) :
      ((Path.components path).filterMap Path.Component.move?).foldlM d.step (d.start path) =
        .ok goal := by
    rw [Path.moves_eq]
    exact steps_of_moves (locate_eq_ok.mp hlocate).2
  have hstart : d.start path = d.start other := by
    rw [start, start, Path.isAbsolute_congr h]
  have hgoal := hmoves hpath
  rw [h, hstart, hmoves hother] at hgoal
  exact (Except.ok.inj hgoal).symm

end Disk

namespace Files

variable {d : Disk} {extension : Text} {paths : List Text}

theorem distinct_of_pairwise
    (h : paths.Pairwise fun path other => Path.components path ≠ Path.components other) :
    distinct paths = paths := by
  induction paths with
  | nil => rfl
  | cons path paths ih =>
      obtain ⟨hfirst, hrest⟩ := List.pairwise_cons.mp h
      rw [distinct, ih hrest, List.filter_eq_self.mpr]
      intro other hother
      simpa using Ne.symm (hfirst other hother)

theorem mem_of_mem_distinct {path : Text} (h : path ∈ distinct paths) : path ∈ paths := by
  induction paths with
  | nil => exact h
  | cons first paths ih =>
      rw [distinct] at h
      rcases List.mem_cons.mp h with rfl | h
      · exact List.mem_cons_self ..
      · exact List.mem_cons_of_mem _ (ih (List.mem_filter.mp h).1)

theorem pairwise_distinct (paths : List Text) :
    (distinct paths).Pairwise fun path other => Path.components path ≠ Path.components other := by
  induction paths with
  | nil => exact List.Pairwise.nil
  | cons path paths ih =>
      refine List.pairwise_cons.mpr ⟨fun other hother => ?_, ih.filter _⟩
      exact Ne.symm (of_decide_eq_true (List.mem_filter.mp hother).2)

/-- A path that is left out has one of the same components in the list. -/
theorem exists_mem_distinct {path : Text} (h : path ∈ paths) :
    ∃ listed ∈ distinct paths, Path.components listed = Path.components path := by
  induction paths with
  | nil => simp at h
  | cons first paths ih =>
      by_cases hfirst : Path.components path = Path.components first
      · exact ⟨first, List.mem_cons_self .., hfirst.symm⟩
      · have hrest : path ∈ paths := (List.mem_cons.mp h).resolve_left fun heq => hfirst (heq ▸ rfl)
        obtain ⟨listed, hlisted, hsame⟩ := ih hrest
        refine ⟨listed, List.mem_cons_of_mem _ (List.mem_filter.mpr ⟨hlisted, ?_⟩), hsame⟩
        simpa [hsame] using hfirst

/-- The paths of a list that are not listed already. -/
def unlisted (listed paths : List Text) : List Text :=
  paths.filter fun path => ∀ other ∈ listed, Path.components path ≠ Path.components other

/-- What comes first is listed as it is alone, and what comes later goes on where it is new. -/
theorem distinct_append (paths others : List Text) :
    distinct (paths ++ others) = distinct paths ++ unlisted (distinct paths) (distinct others) := by
  induction paths with
  | nil => simp [distinct, unlisted]
  | cons path paths ih =>
      have hnew (other : Text) :
          (Path.components other ≠ Path.components path ∧
            ∀ listed ∈ distinct paths, Path.components other ≠ Path.components listed) ↔
          ∀ listed ∈ distinct (path :: paths), Path.components other ≠ Path.components listed := by
        rw [distinct, List.forall_mem_cons]
        refine and_congr_right fun hother => ⟨fun h listed hlisted => ?_, fun h listed hlisted hsame => ?_⟩
        · exact h listed (List.mem_filter.mp hlisted).1
        · exact h listed (List.mem_filter.mpr ⟨hlisted, by simpa [← hsame] using hother⟩) hsame
      have hfilter : (unlisted (distinct paths) (distinct others)).filter
            (fun other => Path.components other ≠ Path.components path) =
          unlisted (distinct (path :: paths)) (distinct others) := by
        rw [unlisted, unlisted, List.filter_filter]
        refine List.filter_congr fun other _ => ?_
        rw [← Bool.decide_and, decide_eq_decide]
        exact hnew other
      rw [List.cons_append, distinct, ih, List.filter_append, hfilter, distinct, List.cons_append]

theorem distinct_append_self (paths : List Text) : distinct (paths ++ paths) = distinct paths := by
  have hnone : unlisted (distinct paths) (distinct paths) = [] := by
    refine List.filter_eq_nil_iff.mpr fun path hpath hnew => ?_
    exact of_decide_eq_true hnew path hpath rfl
  rw [distinct_append, hnone, List.append_nil]

/-! ### Sources -/

theorem ofSources_eq (d : Disk) (extension : Text) (sources : List Text) :
    (ofSources d extension sources).2 = (sources.mapM (ofSource d extension)).map List.flatten := by
  induction sources with
  | nil => rfl
  | cons source sources ih =>
      rw [ofSources, List.mapM_cons]
      cases ofSource d extension source with
      | error fault => rfl
      | ok files =>
          rw [ok_bind]
          dsimp only
          rw [ih]
          cases sources.mapM (ofSource d extension) <;> rfl

/-- What is collected is what the sources list one after the other, each path once. -/
theorem collect_eq (d : Disk) (extension : Text) (sources : List Text) :
    (collect d extension sources).2 =
      (sources.mapM (ofSource d extension)).map fun listed => distinct listed.flatten := by
  rw [collect]
  dsimp only
  rw [ofSources_eq]
  cases sources.mapM (ofSource d extension) <;> rfl

theorem collect_eq_ok_iff {sources files : List Text} :
    (collect d extension sources).2 = .ok files ↔
      ∃ listed, List.Forall₂ (fun source own => ofSource d extension source = .ok own) sources listed ∧
        distinct listed.flatten = files := by
  rw [collect_eq, map_eq_ok_iff]
  simp only [mapM_eq_ok_iff]

theorem ofSources_of_isFile (h : ∀ path ∈ paths, d.isFile path) :
    ofSources d extension paths = ([], .ok paths) := by
  induction paths with
  | nil => rfl
  | cons path paths ih =>
      obtain ⟨hfile, hrest⟩ := List.forall_mem_cons.mp h
      have hsource : ofSource d extension path = .ok [path] := if_pos hfile
      rw [ofSources, hsource, ih hrest]
      simp [isFruitless, hfile, Except.map]

/-- **Files at different places are all collected.** -/
theorem collect_of_isFile (hfile : ∀ path ∈ paths, d.isFile path)
    (hplaces : paths.Pairwise fun path other => d.locate path ≠ d.locate other) :
    collect d extension paths = ([], .ok paths) := by
  have hcomponents : paths.Pairwise fun path other => Path.components path ≠ Path.components other := by
    refine hplaces.imp_of_mem ?_
    intro path other hpath hother hne hcomponents
    obtain ⟨goal, -, hgoal, -⟩ := Disk.exists_locate_of_isFile (hfile path hpath)
    obtain ⟨goal', -, hgoal', -⟩ := Disk.exists_locate_of_isFile (hfile other hother)
    apply hne
    rw [hgoal, hgoal', Disk.locate_congr hcomponents hgoal hgoal']
  rw [collect, ofSources_of_isFile hfile]
  simp [distinct_of_pairwise hcomponents, Except.map]

end Files

end Exemplar
