import Exemplar.Proofs.Files.Locate

/-!
# Joining paths

A relative path that is joined to a directory goes on from where the directory leads. Without double dots it leads
along its own names from there, so two such paths lead to the same place exactly if they have the same components.
An absolute path replaces the directory.
-/

namespace Exemplar

namespace Path

variable {directory path other : Text}

theorem join_of_isAbsolute (hpath : isAbsolute path = true) : join directory path = path := by
  rw [join, if_pos (Or.inl hpath)]

theorem components_join (hdirectory : directory ≠ []) (hpath : isAbsolute path = false) :
    components (join directory path) = components directory ++ (splitOn '/' path).filterMap Component.ofPiece? := by
  obtain ⟨before, hjoin, hpieces⟩ := splitOn_join_of_relative directory hpath
  have hbefore : before ≠ [] := by
    rintro rfl
    rcases hpieces with h | h
    · exact splitOn_ne_nil directory h
    · refine hdirectory ?_
      rw [← intercalate_splitOn '/' directory, h]
      rfl
  obtain ⟨first, rest, rfl⟩ := List.exists_cons_of_ne_nil hbefore
  unfold components
  dsimp only
  rw [isAbsolute_join_of_relative directory hpath, hjoin, List.filterMap_append, List.append_assoc]
  rcases hpieces with h | h
  · rw [h]
    rfl
  · rw [h, List.filterMap_append, show [[]].filterMap Component.ofPiece? = [] from rfl, List.append_nil]
    rfl

/-- Without double dots all components are names. -/
theorem filterMap_ofPiece?_eq_map {pieces : List Text} (hup : ['.', '.'] ∉ pieces) :
    pieces.filterMap Component.ofPiece? = (pieces.filterMap Component.nameOfPiece?).map Component.name := by
  induction pieces with
  | nil => rfl
  | cons piece pieces ih =>
      obtain ⟨hpiece, hpieces⟩ := not_or.mp (List.mem_cons.not.mp hup)
      rw [List.filterMap_cons, List.filterMap_cons, ih hpieces]
      unfold Component.nameOfPiece? Component.ofPiece?
      by_cases hstay : piece = [] ∨ piece = ['.']
      · simp [if_pos hstay]
      · simp [if_neg hstay, if_neg (Ne.symm hpiece), Component.name?]

theorem components_join_inj (hdirectory : directory ≠ []) (hpath : isAbsolute path = false)
    (hother : isAbsolute other = false) (hup : Component.up ∉ components path)
    (hup' : Component.up ∉ components other) :
    components (join directory path) = components (join directory other) ↔ names path = names other := by
  rw [components_join hdirectory hpath, components_join hdirectory hother, List.append_right_inj,
    filterMap_ofPiece?_eq_map (up_mem_components.not.mp hup), filterMap_ofPiece?_eq_map (up_mem_components.not.mp hup'),
    names_eq, names_eq, List.map_inj_right (fun _ _ => Component.name.inj)]

end Path

namespace Disk

variable {d : Disk} {directory path : Text} {goal location : List Text}

/-- A relative path goes on from the directory that it is joined to. -/
theorem steps_of_follow_join (hpath : Path.isAbsolute path = false)
    (hgoal : d.follow directory = .ok goal) (h : d.follow (Path.join directory path) = .ok location) :
    (splitOn '/' path).foldlM d.step goal = .ok location := by
  obtain ⟨before, hjoin, hpieces⟩ := Path.splitOn_join_of_relative directory hpath
  have hbefore : before.foldlM d.step (d.start directory) = .ok goal := by
    rcases hpieces with hsplit | hsplit
    · rw [← hsplit]
      exact hgoal
    · rw [follow, hsplit, List.foldlM_append, bind_eq_ok_iff] at hgoal
      obtain ⟨between, hbetween, hlast⟩ := hgoal
      simp only [List.foldlM_cons, List.foldlM_nil, bind_pure] at hlast
      obtain ⟨-, rfl, -⟩ := step_eq_ok (by simp) hlast
      rw [hbetween]
      exact congrArg Except.ok (List.append_nil between).symm
  rw [follow, start, Path.isAbsolute_join_of_relative directory hpath, ← start, hjoin, List.foldlM_append, hbefore]
    at h
  exact h

/-- A relative path leads along its names from the directory that it is joined to. -/
theorem eq_append_names_of_locate_join (hpath : Path.isAbsolute path = false)
    (hup : Path.Component.up ∉ Path.components path) (hgoal : d.locate directory = .ok goal)
    (h : d.locate (Path.join directory path) = .ok location) : location = goal ++ Path.names path := by
  rw [Path.names_eq]
  exact steps_eq_ok (Path.up_mem_components.not.mp hup)
    (steps_of_follow_join hpath (locate_eq_ok.mp hgoal).2 (locate_eq_ok.mp h).2)

/-- An absolute path leads along its names from the root, whatever it is joined to. -/
theorem eq_names_of_locate_join (hpath : Path.isAbsolute path = true) (hup : Path.Component.up ∉ Path.components path)
    (h : d.locate (Path.join directory path) = .ok location) : location = Path.names path := by
  rw [Path.join_of_isAbsolute hpath] at h
  rw [follow_eq_ok hup (locate_eq_ok.mp h).2, start, if_pos hpath, List.nil_append]

end Disk

end Exemplar
