import Exemplar.Proofs.Text.Lines

/-!
# Words

The words of a text are its longest pieces without blanks. A blank cuts them apart and is in none of them, and how
many blanks stand together makes no difference. So a text keeps its words when it is trimmed, when it is cut into
lines, and when lines are put together with spaces.
-/

namespace Exemplar.Text

/-- The pieces between blanks, without the empty ones. -/
def words (t : Text) : List Text := (t.splitOnP isBlank).filter (!·.isEmpty)

theorem words_nil : words [] = [] := rfl

theorem words_append_blank {c : Char} (h : isBlank c = true) (left right : Text) :
    words (left ++ c :: right) = words left ++ words right := by
  rw [words, List.splitOnP_append_cons left right h, List.filter_append, words, words]

theorem words_blanks_append {left : Text} (h : ∀ c ∈ left, isBlank c = true) (right : Text) :
    words (left ++ right) = words right := by
  induction left with
  | nil => rfl
  | cons c left ih =>
      obtain ⟨hc, hleft⟩ := List.forall_mem_cons.mp h
      calc words (c :: left ++ right)
          = words [] ++ words (left ++ right) := words_append_blank hc [] (left ++ right)
        _ = words right := ih hleft

theorem words_append_blanks (left : Text) {right : Text} (h : ∀ c ∈ right, isBlank c = true) :
    words (left ++ right) = words left := by
  cases right with
  | nil => rw [List.append_nil]
  | cons c right =>
      obtain ⟨hc, hright⟩ := List.forall_mem_cons.mp h
      have hnone : words (right ++ []) = words [] := words_blanks_append hright []
      rw [words_append_blank hc, ← List.append_nil right, hnone, words_nil, List.append_nil]

theorem words_trimStart (t : Text) : words t.trimStart = words t := by
  have hblank : ∀ c ∈ t.takeWhile isBlank, isBlank c = true := fun c hc => List.mem_takeWhile_imp hc
  calc words t.trimStart
      = words (t.takeWhile isBlank ++ t.trimStart) := (words_blanks_append hblank _).symm
    _ = words t := by rw [trimStart, List.takeWhile_append_dropWhile]

theorem words_trimEnd (t : Text) : words t.trimEnd = words t := by
  have hblank : ∀ c ∈ (t.reverse.takeWhile isBlank).reverse, isBlank c = true := fun c hc =>
    List.mem_takeWhile_imp (List.mem_reverse.mp hc)
  calc words t.trimEnd
      = words (t.trimEnd ++ (t.reverse.takeWhile isBlank).reverse) := (words_append_blanks _ hblank).symm
    _ = words t := by
      rw [trimEnd, ← List.reverse_append, List.takeWhile_append_dropWhile, List.reverse_reverse]

theorem words_trim (t : Text) : words t.trim = words t := by rw [trim, words_trimEnd, words_trimStart]

theorem words_chomp (line : Text) : words (chomp line) = words line := by
  rw [← words_trim, trim_chomp, words_trim]

/-- **A text has the words of its lines.** -/
theorem words_lines (t : Text) : (lines t).flatMap words = words t := by
  by_cases hfeed : '\n' ∈ t
  · obtain ⟨left, right, rfl, hleft⟩ := List.eq_append_cons_of_mem hfeed
    calc (lines (left ++ '\n' :: right)).flatMap words
        = words (chomp left) ++ (lines right).flatMap words := by
          rw [lines_append_feed, lines_single hleft, List.flatMap_append, List.flatMap_singleton]
      _ = words left ++ words right := by rw [words_chomp, words_lines right]
      _ = words (left ++ '\n' :: right) := (words_append_blank (by decide) left right).symm
  · by_cases ht : t = []
    · rw [ht]
      rfl
    · rw [lines_of_feed_not_mem hfeed ht, List.flatMap_singleton]
termination_by t.length
decreasing_by
  simp_all only [List.length_append, List.length_cons]
  omega

theorem words_joinWith_space (pieces : List Text) : words (joinWith [' '] pieces) = pieces.flatMap words := by
  induction pieces with
  | nil => rfl
  | cons first rest ih =>
      cases rest with
      | nil => rw [joinWith, List.intercalate_singleton, List.flatMap_singleton]
      | cons second rest =>
          rw [joinWith] at ih ⊢
          rw [List.intercalate_cons_cons, List.append_assoc, List.singleton_append,
            words_append_blank (by decide), ih]
          rfl

/-! ### Trimmed pieces -/

theorem trim_append_of_trim {left right : Text} (between : Text) (hleft : trim left = left) (hne : left ≠ [])
    (hright : trim right = right) (hne' : right ≠ []) :
    trim (left ++ between ++ right) = left ++ between ++ right := by
  have hstart : trimStart (left ++ (between ++ right)) = left ++ (between ++ right) := by
    rw [trimStart_append _ (by rwa [trimStart_eq_self_of_trim hleft]), trimStart_eq_self_of_trim hleft]
  have hend : trimEnd (left ++ between ++ right) = left ++ between ++ right := by
    rw [trimEnd_append _ (by rwa [trimEnd_eq_self_of_trim hright]), trimEnd_eq_self_of_trim hright]
  rw [trim, List.append_assoc, hstart, ← List.append_assoc, hend]

theorem joinWith_cons_ne_nil {first : Text} (separator : Text) (rest : List Text) (h : first ≠ []) :
    joinWith separator (first :: rest) ≠ [] := by
  cases rest with
  | nil => rwa [joinWith, List.intercalate_singleton]
  | cons second rest => simp [joinWith, List.intercalate_cons_cons, h]

/-- Pieces that neither start nor end with a blank make a text that does not either. -/
theorem trim_joinWith {separator : Text} {pieces : List Text}
    (h : ∀ piece ∈ pieces, trim piece = piece ∧ piece ≠ []) :
    trim (joinWith separator pieces) = joinWith separator pieces := by
  induction pieces with
  | nil => rfl
  | cons first rest ih =>
      obtain ⟨⟨hfirst, hne⟩, hrest⟩ := List.forall_mem_cons.mp h
      cases rest with
      | nil => rwa [joinWith, List.intercalate_singleton]
      | cons second rest =>
          have hjoined : joinWith separator (second :: rest) ≠ [] :=
            joinWith_cons_ne_nil separator rest (hrest second List.mem_cons_self).2
          rw [joinWith, List.intercalate_cons_cons]
          exact trim_append_of_trim separator hfirst hne (ih hrest) hjoined

end Exemplar.Text
