import Exemplar.Files.Path
import Exemplar.Proofs.Text.Split
import Mathlib.Data.List.Infix

/-!
# The names of a path

A path without double dots leads to the names among its components, one after the other. A component that
is joined to a path adds its name, and the parents of a path go a part of its way.
-/

namespace Exemplar.Path

namespace Component

def name? : Component → Option Text
  | .name n => some n
  | _ => none

/-- The name that a piece between slashes stands for. -/
def nameOfPiece? (piece : Text) : Option Text := (ofPiece? piece).bind name?

end Component

def names (path : Text) : List Text := (components path).filterMap Component.name?

theorem names_eq (path : Text) :
    names path = (splitOn '/' path).filterMap Component.nameOfPiece? := by
  have hstart (start : List Component) (h : start.filterMap Component.name? = []) :
      (start ++ (splitOn '/' path).filterMap Component.ofPiece?).filterMap Component.name? =
        (splitOn '/' path).filterMap Component.nameOfPiece? := by
    rw [List.filterMap_append, h, List.nil_append, List.filterMap_filterMap]
    rfl
  unfold names components
  dsimp only
  apply hstart
  split
  · rfl
  · split <;> rfl

theorem ofPiece?_eq_up {piece : Text} : Component.ofPiece? piece = some .up ↔ piece = ['.', '.'] := by
  unfold Component.ofPiece?
  split
  · rename_i h
    rcases h with rfl | rfl <;> simp
  · split <;> simp_all

theorem up_mem_components {path : Text} :
    Component.up ∈ components path ↔ ['.', '.'] ∈ splitOn '/' path := by
  have hpieces : Component.up ∈ (splitOn '/' path).filterMap Component.ofPiece? ↔
      ['.', '.'] ∈ splitOn '/' path := by
    simp [List.mem_filterMap, ofPiece?_eq_up]
  rw [← hpieces]
  unfold components
  dsimp only
  rw [List.mem_append, or_iff_right]
  split
  · simp
  · split <;> simp

/-! ### Joining -/

variable {directory name : Text}

theorem isAbsolute_eq_false (hname : '/' ∉ name) : isAbsolute name = false := by
  cases name with
  | nil => rfl
  | cons c rest =>
      have hc : c ≠ '/' := by
        rintro rfl
        simp at hname
      simp [isAbsolute, hc]

theorem isAbsolute_join_of_relative {path : Text} (directory : Text) (hpath : isAbsolute path = false) :
    isAbsolute (join directory path) = isAbsolute directory := by
  unfold join
  cases directory with
  | nil =>
      rw [if_pos (Or.inr rfl), hpath]
      rfl
  | cons c rest =>
      rw [hpath, if_neg (by simp)]
      split <;> rfl

theorem isAbsolute_join (hname : '/' ∉ name) : isAbsolute (join directory name) = isAbsolute directory :=
  isAbsolute_join_of_relative directory (isAbsolute_eq_false hname)

theorem getLast?_join (directory : Text) {path : Text} (h : path ≠ []) :
    (join directory path).getLast? = path.getLast? := by
  obtain ⟨before, last, rfl⟩ := List.eq_nil_or_concat path |>.resolve_left h
  have hlast (left : Text) : (left ++ (before ++ [last])).getLast? = some last := by
    rw [← List.append_assoc, List.getLast?_concat]
  rw [List.concat_eq_append, List.getLast?_concat, join]
  split
  · exact List.getLast?_concat
  · split
    · exact hlast directory
    · exact (congrArg _ (List.append_cons directory '/' _)).trans (hlast (directory ++ ['/']))

/-- The pieces of a relative path come after those of the directory. A slash at the end of the directory gives no
piece of its own. -/
theorem splitOn_join_of_relative {path : Text} (directory : Text) (hpath : isAbsolute path = false) :
    ∃ before, splitOn '/' (join directory path) = before ++ splitOn '/' path ∧
      (splitOn '/' directory = before ∨ splitOn '/' directory = before ++ [[]]) := by
  unfold join
  rw [hpath]
  by_cases hempty : directory = []
  · refine ⟨[], ?_, Or.inr ?_⟩
    · simp [hempty]
    · simp [hempty, splitOn]
  · rw [if_neg (by simpa using hempty)]
    split
    · rename_i hlast
      obtain ⟨before, rfl⟩ := List.getLast?_eq_some_iff.mp hlast
      refine ⟨splitOn '/' before, ?_, Or.inr ?_⟩
      · rw [List.append_assoc, List.singleton_append, splitOn_append]
      · exact splitOn_append before []
    · exact ⟨splitOn '/' directory, splitOn_append directory path, Or.inl rfl⟩

/-- A name that is joined is the last piece. -/
theorem splitOn_join (directory : Text) (hname : '/' ∉ name) :
    ∃ before, splitOn '/' (join directory name) = before ++ [name] ∧
      (splitOn '/' directory = before ∨ splitOn '/' directory = before ++ [[]]) := by
  rw [← splitOn_of_not_mem hname]
  exact splitOn_join_of_relative directory (isAbsolute_eq_false hname)

theorem names_join (hname : '/' ∉ name) :
    names (join directory name) = names directory ++ (Component.nameOfPiece? name).toList := by
  obtain ⟨before, hjoin, hdirectory⟩ := splitOn_join directory hname
  have hbefore : names directory = before.filterMap Component.nameOfPiece? := by
    rw [names_eq]
    rcases hdirectory with h | h
    · rw [h]
    · rw [h, List.filterMap_append]
      exact List.append_nil _
  calc
    names (join directory name) = (before ++ [name]).filterMap Component.nameOfPiece? := by
      rw [names_eq, hjoin]
    _ = names directory ++ (Component.nameOfPiece? name).toList := by
      rw [List.filterMap_append, hbefore]
      cases h : Component.nameOfPiece? name <;> simp [h]

theorem up_mem_components_join (hname : '/' ∉ name) :
    Component.up ∈ components (join directory name) ↔
      Component.up ∈ components directory ∨ name = ['.', '.'] := by
  obtain ⟨before, hjoin, hdirectory⟩ := splitOn_join directory hname
  rw [up_mem_components, up_mem_components, hjoin, List.mem_append, List.mem_singleton,
    eq_comm (b := name)]
  rcases hdirectory with h | h
  · rw [h]
  · simp [h]

/-- What is joined is the file name. -/
theorem fileName?_join (directory : Text) {name : Text} (hname : '/' ∉ name)
    (hpiece : Component.ofPiece? name = some (.name name)) : fileName? (join directory name) = some name := by
  obtain ⟨before, hjoin, -⟩ := splitOn_join directory hname
  have hlast : (components (join directory name)).getLast? = some (.name name) := by
    unfold components
    dsimp only
    rw [hjoin, List.filterMap_append, List.filterMap_cons_some hpiece, List.filterMap_nil, ← List.append_assoc,
      List.getLast?_concat]
  rw [fileName?, hlast]

/-! ### Parents -/

/-- A part of the way of a path. -/
structure Along (path part : Text) : Prop where
  names : names part <+: names path
  isAbsolute : isAbsolute part = isAbsolute path
  not_up : Component.up ∉ components part

theorem Along.refl {path : Text} (h : Component.up ∉ components path) : Along path path :=
  ⟨List.prefix_refl _, rfl, h⟩

/-- A component after the root that does not lead upwards. -/
structure Component.Inner (c : Component) : Prop where
  no_slash : '/' ∉ componentText c
  name : nameOfPiece? (componentText c) = c.name?
  not_up : componentText c ≠ ['.', '.']

theorem Component.inner_of_mem {path : Text} {c : Component} (h : c ∈ components path)
    (hroot : c ≠ .root) (hup : c ≠ .up) : c.Inner := by
  have hhere : Component.here.Inner := ⟨by decide, rfl, by decide⟩
  unfold components at h
  rcases List.mem_append.mp h with hstart | hpiece
  · have hc : c = .here := by
      revert hstart
      split
      · simp [hroot]
      · split <;> simp
    exact hc ▸ hhere
  · obtain ⟨piece, hmem, hpiece⟩ := List.mem_filterMap.mp hpiece
    have hname : c = .name piece := by
      unfold ofPiece? at hpiece
      split at hpiece
      · simp at hpiece
      · split at hpiece
        · exact absurd (Option.some.inj hpiece).symm hup
        · exact (Option.some.inj hpiece).symm
    subst hname
    refine ⟨not_mem_of_mem_splitOn hmem, ?_, ?_⟩
    · rw [componentText, nameOfPiece?, hpiece]
      rfl
    · intro (hdots : piece = ['.', '.'])
      rw [ofPiece?_eq_up.mpr hdots] at hpiece
      exact hup (Option.some.inj hpiece).symm

theorem join_components {parts : List Component} (h : ∀ c ∈ parts, c.Inner) (base : Text) :
    let path := parts.foldl (fun path part => join path (componentText part)) base
    names path = names base ++ parts.filterMap Component.name? ∧
      isAbsolute path = isAbsolute base ∧
      (Component.up ∈ components path ↔ Component.up ∈ components base) := by
  induction parts generalizing base with
  | nil => simp
  | cons c parts ih =>
      have hc : c.Inner := h c (List.mem_cons_self ..)
      obtain ⟨hnames, habsolute, hup⟩ :=
        ih (fun c hmem => h c (List.mem_cons_of_mem _ hmem)) (join base (componentText c))
      refine ⟨?_, ?_, ?_⟩
      · rw [List.foldl_cons, hnames, names_join hc.no_slash, hc.name, List.append_assoc]
        cases hname : c.name? <;> simp [hname]
      · rw [List.foldl_cons, habsolute, isAbsolute_join hc.no_slash]
      · rw [List.foldl_cons, hup, up_mem_components_join hc.no_slash]
        simp [hc.not_up]

theorem root_not_mem_pieces (pieces : List Text) :
    Component.root ∉ pieces.filterMap Component.ofPiece? := by
  intro h
  obtain ⟨piece, -, hpiece⟩ := List.mem_filterMap.mp h
  unfold Component.ofPiece? at hpiece
  split_ifs at hpiece <;> simp at hpiece

/-- The root stands at the beginning of an absolute path and nowhere else. -/
theorem components_cases (path : Text) :
    (isAbsolute path = true ∧ ∃ rest, components path = .root :: rest ∧ .root ∉ rest) ∨
      (isAbsolute path = false ∧ .root ∉ components path) := by
  unfold components
  cases isAbsolute path with
  | true => exact Or.inl ⟨rfl, _, rfl, root_not_mem_pieces _⟩
  | false =>
      refine Or.inr ⟨rfl, ?_⟩
      dsimp only
      rw [if_neg (by simp), List.mem_append, not_or]
      refine ⟨?_, root_not_mem_pieces _⟩
      split <;> simp

theorem along_of_take {path : Text} (hup : Component.up ∉ components path) (n : Nat) (hn : 0 < n) :
    Along path (ofComponents ((components path).take n)) := by
  have hinner : ∀ c ∈ components path, c ≠ .root → c.Inner := by
    intro c hmem hroot
    apply Component.inner_of_mem hmem hroot
    rintro rfl
    exact hup hmem
  have habove : ((components path).take n).filterMap Component.name? <+: names path :=
    (List.take_prefix n _).filterMap _
  rcases components_cases path with ⟨habsolute, rest, hrest, hroot⟩ | ⟨habsolute, hroot⟩
  · obtain ⟨m, rfl⟩ := Nat.exists_eq_succ_of_ne_zero (Nat.ne_of_gt hn)
    have hparts : ∀ c ∈ rest.take m, c.Inner := by
      intro c hmem
      have hmem := List.mem_of_mem_take hmem
      apply hinner c (hrest ▸ List.mem_cons_of_mem _ hmem)
      rintro rfl
      exact hroot hmem
    obtain ⟨hnames, hstart, hdots⟩ := join_components hparts ['/']
    rw [hrest, List.take_succ_cons] at habove ⊢
    refine ⟨?_, hstart.trans habsolute.symm, hdots.not.mpr (by decide)⟩
    exact (hnames.trans (List.nil_append _)).symm ▸ habove
  · have hparts : ∀ c ∈ (components path).take n, c.Inner := by
      intro c hmem
      have hmem := List.mem_of_mem_take hmem
      apply hinner c hmem
      rintro rfl
      exact hroot hmem
    obtain ⟨hnames, hstart, hdots⟩ := join_components hparts []
    refine ⟨?_, hstart.trans habsolute.symm, hdots.not.mpr (by decide)⟩
    exact (hnames.trans (List.nil_append _)).symm ▸ habove

theorem along_of_mem_parents {path part : Text} (hup : Component.up ∉ components path)
    (h : part ∈ parents path) : Along path part := by
  obtain ⟨n, hn, rfl⟩ := List.mem_map.mp h
  have hpos : 0 < n := by
    obtain ⟨i, hi, rfl⟩ := List.getElem_of_mem (List.mem_reverse.mp hn)
    rw [List.getElem_drop, List.getElem_range]
    omega
  exact along_of_take hup _ hpos

end Exemplar.Path
