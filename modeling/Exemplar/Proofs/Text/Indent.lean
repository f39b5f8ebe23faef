import Exemplar.Proofs.Text.Lines
import Exemplar.Text.Indent

/-!
# Blocks that are moved

Spaces in front of every line of a block move the block as a whole: its common indentation grows by as many, and
dedenting takes them away again. Putting spaces in front of the lines of a text leaves its line ends as they are.
-/

namespace Exemplar.Text

def spaces (k : Nat) : Text := List.replicate k ' '

theorem isBlank_of_mem_spaces {k : Nat} {c : Char} (h : c ∈ spaces k) : isBlank c = true := by
  obtain rfl := List.eq_of_mem_replicate h
  rfl

/-! ### Blocks -/

theorem indent_spaces_append (k : Nat) (line : Text) : indent (spaces k ++ line) = k + indent line := by
  have hspaces : ∀ c ∈ spaces k, (c == ' ') = true := fun c hc => by simp [List.eq_of_mem_replicate hc]
  rw [indent, List.takeWhile_append_of_pos hspaces, List.length_append, spaces, List.length_replicate, indent]

theorem unindent_spaces_append (k depth : Nat) (line : Text) :
    unindent (k + depth) (spaces k ++ line) = unindent depth line := by
  have hlength : (spaces k).length = k := List.length_replicate
  have hdrop : (spaces k ++ line).drop ((spaces k).length + min (indent line) depth) =
      line.drop (min (indent line) depth) := List.drop_length_add_append _
  rw [hlength] at hdrop
  rw [unindent, indent_spaces_append, Nat.add_min_add_left, hdrop, unindent]

theorem commonIndent_map_spaces (k : Nat) {block : List Text} (h : block ≠ []) :
    commonIndent (block.map (spaces k ++ ·)) = k + commonIndent block := by
  obtain ⟨least, hleast⟩ : ∃ least, (block.map indent).min? = some least :=
    Option.ne_none_iff_exists'.mp (by simpa using h)
  obtain ⟨hmem, hle⟩ := List.min?_eq_some_iff.mp hleast
  have hindents : (block.map (spaces k ++ ·)).map indent = (block.map indent).map (k + ·) := by
    rw [List.map_map, List.map_map]
    apply List.map_congr_left
    intro line _
    exact indent_spaces_append k line
  have hmoved : ((block.map indent).map (k + ·)).min? = some (k + least) := by
    refine List.min?_eq_some_iff.mpr ⟨List.mem_map_of_mem hmem, ?_⟩
    intro n hn
    obtain ⟨m, hm, rfl⟩ := List.mem_map.mp hn
    exact Nat.add_le_add_left (hle m hm) k
  rw [commonIndent, hindents, hmoved, commonIndent, hleast]
  rfl

/-- **Dedenting takes away what a block was moved by.** -/
theorem dedent_map_spaces (k : Nat) (block : List Text) : dedent (block.map (spaces k ++ ·)) = dedent block := by
  by_cases hblock : block = []
  · rw [hblock]
    rfl
  · rw [dedent, dedent, commonIndent_map_spaces k hblock, shiftLeft, shiftLeft, List.map_map]
    congr 1
    apply List.map_congr_left
    intro line _
    exact unindent_spaces_append k _ line

/-! ### Texts -/

/-- Puts spaces in front of every line of a text; `starts` tells whether a line starts here. -/
def indentFrom (k : Nat) : Bool → Text → Text
  | _, [] => []
  | starts, c :: rest => (if starts then spaces k else []) ++ c :: indentFrom k (c = '\n') rest

def indentLines (k : Nat) (t : Text) : Text := indentFrom k true t

theorem indentFrom_append_feed {left : Text} (k : Nat) (starts : Bool) (right : Text) (h : '\n' ∉ left) :
    indentFrom k starts (left ++ '\n' :: right) =
      (if starts then spaces k else []) ++ left ++ '\n' :: indentFrom k true right := by
  induction left generalizing starts with
  | nil => simp [indentFrom]
  | cons c left ih =>
      obtain ⟨hc, hleft⟩ := not_or.mp (List.mem_cons.not.mp h)
      rw [List.cons_append, indentFrom, ih _ hleft]
      simp [Ne.symm hc]

theorem indentFrom_of_feed_not_mem {t : Text} (k : Nat) (starts : Bool) (h : '\n' ∉ t) (ht : t ≠ []) :
    indentFrom k starts t = (if starts then spaces k else []) ++ t := by
  induction t generalizing starts with
  | nil => exact absurd rfl ht
  | cons c rest ih =>
      obtain ⟨hc, hrest⟩ := not_or.mp (List.mem_cons.not.mp h)
      rw [indentFrom]
      cases rest with
      | nil => rfl
      | cons d rest =>
          rw [ih _ hrest (by simp)]
          simp [Ne.symm hc]

theorem feed_not_mem_spaces_append {k : Nat} {line : Text} (h : '\n' ∉ line) : '\n' ∉ spaces k ++ line := by
  intro hmem
  rcases List.mem_append.mp hmem with hspaces | hline
  · exact absurd (List.eq_of_mem_replicate hspaces) (by decide)
  · exact h hline

theorem chomp_spaces_append (k : Nat) (line : Text) : chomp (spaces k ++ line) = spaces k ++ chomp line := by
  rcases List.eq_nil_or_concat line with rfl | ⟨init, last, rfl⟩
  · have hlast : (spaces k).getLast? ≠ some '\r' := fun hlast =>
      absurd (List.eq_of_mem_replicate (List.mem_of_getLast? hlast)) (by decide)
    rw [List.append_nil, chomp_of_getLast? hlast]
    exact (List.append_nil _).symm
  · rw [List.concat_eq_append, ← List.append_assoc, chomp, chomp, List.getLast?_concat, List.getLast?_concat]
    split
    · rw [List.dropLast_concat, List.dropLast_concat]
    · rw [List.append_assoc]

/-- **The lines of the text are those of the old one, with spaces in front.** -/
theorem lines_indentLines (k : Nat) (t : Text) : (indentLines k t).lines = t.lines.map (spaces k ++ ·) := by
  by_cases hfeed : '\n' ∈ t
  · obtain ⟨left, right, rfl, hleft⟩ := List.eq_append_cons_of_mem hfeed
    calc
      (indentLines k (left ++ '\n' :: right)).lines =
          (spaces k ++ left ++ '\n' :: indentLines k right).lines := by
        rw [indentLines, indentFrom_append_feed k true right hleft]
        rfl
      _ = chomp (spaces k ++ left) :: (indentLines k right).lines := by
        rw [lines_append_feed, lines_single (feed_not_mem_spaces_append hleft)]
        rfl
      _ = (spaces k ++ chomp left) :: (lines right).map (spaces k ++ ·) := by
        rw [chomp_spaces_append, lines_indentLines k right]
      _ = (lines (left ++ '\n' :: right)).map (spaces k ++ ·) := by
        rw [lines_append_feed left, lines_single hleft]
        rfl
  · by_cases ht : t = []
    · rw [ht]
      rfl
    · have hne : spaces k ++ t ≠ [] := fun hnil => ht (List.append_eq_nil_iff.mp hnil).2
      rw [indentLines, indentFrom_of_feed_not_mem k true hfeed ht, if_pos rfl,
        lines_of_feed_not_mem (feed_not_mem_spaces_append hfeed) hne, lines_of_feed_not_mem hfeed ht,
        List.map_singleton]
termination_by t.length
decreasing_by
  simp_all only [List.length_append, List.length_cons]
  omega

example : indentLines 2 "a\r\n\n\rb".toList = "  a\r\n  \n  \rb".toList := by decide

end Exemplar.Text
