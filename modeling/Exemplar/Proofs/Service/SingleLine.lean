import Exemplar.Proofs.Text.Words
import Exemplar.Service.ClassSource

/-!
# Texts on one line

A text with line breaks is put on one line by trimming its lines and joining those that are left with spaces. Its
words stay the same, and so do all its visible characters. What comes out has no line feed and, unless nothing had to
be done, no blanks at its ends; only carriage returns inside of a line can be left in it, and these a second folding
leaves where they are.
-/

namespace Exemplar.Service

open Text (isBlank)

theorem piece_of_mem_folded {t piece : Text} (h : piece ∈ (t.lines.map Text.trim).filter (!·.isEmpty)) :
    piece.trim = piece ∧ piece ≠ [] ∧ '\n' ∉ piece := by
  obtain ⟨hpiece, hne⟩ := List.mem_filter.mp h
  obtain ⟨line, hline, rfl⟩ := List.mem_map.mp hpiece
  refine ⟨Text.trim_trim line, by simpa using hne, ?_⟩
  exact fun hfeed => Text.not_mem_of_mem_lines hline (Text.mem_of_mem_trim hfeed)

theorem feed_not_mem_singleLine (t : Text) : '\n' ∉ singleLine t := by
  unfold singleLine
  split
  · rw [Text.mem_joinWith_iff (by decide)]
    rintro ⟨piece, hpiece, hfeed⟩
    exact (piece_of_mem_folded hpiece).2.2 hfeed
  · rename_i h
    exact fun hfeed => h (.inl hfeed)

/-! ### Visible characters -/

/-- A text on one line has the visible characters that it had before. -/
theorem mem_singleLine_iff {c : Char} (h : isBlank c = false) {t : Text} : c ∈ singleLine t ↔ c ∈ t := by
  have hne {blank : Char} (hblank : isBlank blank = true) : c ≠ blank := by
    rintro rfl
    simp [h] at hblank
  have hspace : c ∉ [' '] := List.mem_singleton.not.mpr (hne rfl)
  unfold singleLine
  split
  · calc c ∈ Text.joinWith [' '] ((t.lines.map Text.trim).filter (!·.isEmpty))
        ↔ ∃ line ∈ t.lines, c ∈ line.trim := by
          rw [Text.mem_joinWith_iff hspace]
          constructor
          · rintro ⟨piece, hpiece, hc⟩
            obtain ⟨line, hline, rfl⟩ := List.mem_map.mp (List.mem_filter.mp hpiece).1
            exact ⟨line, hline, hc⟩
          · rintro ⟨line, hline, hc⟩
            refine ⟨line.trim, ?_, hc⟩
            apply List.mem_filter.mpr
            exact ⟨List.mem_map_of_mem hline, by simp [List.ne_nil_of_mem hc]⟩
      _ ↔ c ∈ t.lines.flatten := by simp only [Text.mem_trim_iff h, List.mem_flatten]
      _ ↔ c ∈ t := Text.mem_flatten_lines_iff (hne rfl) (hne rfl)
  · rfl

theorem visible_singleLine_iff {t : Text} : (singleLine t).Visible ↔ t.Visible := by
  unfold Text.Visible
  apply exists_congr
  intro c
  exact and_congr_left fun hvisible => mem_singleLine_iff hvisible

/-! ### Words -/

theorem words_singleLine (t : Text) : (singleLine t).words = t.words := by
  have hfilter (pieces : List Text) : (pieces.filter (!·.isEmpty)).flatMap Text.words = pieces.flatMap Text.words := by
    induction pieces with
    | nil => rfl
    | cons piece pieces ih =>
        cases piece with
        | nil => exact ih
        | cons c piece => exact congrArg (Text.words (c :: piece) ++ ·) ih
  unfold singleLine
  split
  · calc (Text.joinWith [' '] ((t.lines.map Text.trim).filter (!·.isEmpty))).words
        = (t.lines.map Text.trim).flatMap Text.words := by rw [Text.words_joinWith_space, hfilter]
      _ = t.lines.flatMap Text.words := by
          rw [List.flatMap_map]
          simp only [Text.words_trim]
      _ = t.words := Text.words_lines t
  · rfl

theorem trim_singleLine {t : Text} (h : '\n' ∈ t ∨ '\r' ∈ t) : (singleLine t).trim = singleLine t := by
  rw [singleLine, if_pos h]
  apply Text.trim_joinWith
  intro piece hpiece
  obtain ⟨htrim, hne, -⟩ := piece_of_mem_folded hpiece
  exact ⟨htrim, hne⟩

/-- A trimmed text on one line stays as it is, also with a carriage return in it. -/
theorem singleLine_of_trim {t : Text} (hfeed : '\n' ∉ t) (htrim : t.trim = t) : singleLine t = t := by
  by_cases ht : t = []
  · rw [ht]
    rfl
  · unfold singleLine
    split
    · have hpieces : (t.lines.map Text.trim).filter (!·.isEmpty) = [t] := by
        rw [Text.lines_of_feed_not_mem hfeed ht, List.map_singleton, htrim]
        simp [ht]
      rw [hpieces, Text.joinWith, List.intercalate_singleton]
    · rfl

/-- **Putting a text on one line is safe.** -/
theorem singleLine_keeps_words (t : Text) :
    '\n' ∉ singleLine t ∧ (singleLine t).words = t.words ∧
      ('\n' ∉ t → '\r' ∉ t → singleLine t = t) ∧
      ('\n' ∈ t ∨ '\r' ∈ t → (singleLine t).trim = singleLine t) ∧
      singleLine (singleLine t) = singleLine t := by
  have hplain (hfeed : '\n' ∉ t) (hret : '\r' ∉ t) : singleLine t = t := if_neg (not_or.mpr ⟨hfeed, hret⟩)
  refine ⟨feed_not_mem_singleLine t, words_singleLine t, hplain, trim_singleLine, ?_⟩
  by_cases h : '\n' ∈ t ∨ '\r' ∈ t
  · exact singleLine_of_trim (feed_not_mem_singleLine t) (trim_singleLine h)
  · obtain ⟨hfeed, hret⟩ := not_or.mp h
    rw [hplain hfeed hret, hplain hfeed hret]

/-- Blank lines, both kinds of line ends, a carriage return of its own and a blank beyond ASCII. -/
def brokenTitle : Text := " Seal\r\n\n\u2003 a\rletter \u0085\n".toList

theorem singleLine_keeps_words_brokenTitle :
    '\n' ∈ brokenTitle ∧ singleLine brokenTitle = "Seal a\rletter".toList ∧
      (singleLine brokenTitle).words = ["Seal".toList, "a".toList, "letter".toList] ∧
      (singleLine brokenTitle).trim = singleLine brokenTitle := by
  have hfeed : '\n' ∈ brokenTitle := by decide
  obtain ⟨-, -, -, htrim, -⟩ := singleLine_keeps_words brokenTitle
  exact ⟨hfeed, by decide, by decide, htrim (.inl hfeed)⟩

end Exemplar.Service
