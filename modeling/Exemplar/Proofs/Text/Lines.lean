import Exemplar.Text.Basic
import Mathlib.Data.List.TakeWhile

/-!
# Blanks and lines

Trimming takes blanks off the ends of a text and nothing else. A text that is put together from lines, each
with a line feed after it, breaks into these lines again; only a carriage return at the end of a line is lost
to its line end.
-/

namespace Exemplar

/-- Lines after a line feed do not depend on what stands before it. -/
theorem breakLines_append_feed {α : Type} [DecidableEq α] (feed ret : α) (left right : List α) :
    breakLines feed ret (left ++ feed :: right) =
      breakLines feed ret (left ++ [feed]) ++ breakLines feed ret right := by
  have hne (xs : List α) : breakLines feed ret (xs ++ [feed]) ≠ [] := by
    induction xs with
    | nil => simp [breakLines]
    | cons x xs ih =>
        rw [List.cons_append, breakLines]
        split
        · simp
        · split
          · exact ih
          · split <;> simp
  induction left with
  | nil => simp [breakLines]
  | cons c left ih =>
      have hhead : (left ++ feed :: right).head? = (left ++ [feed]).head? := by
        cases left <;> rfl
      rw [List.cons_append, List.cons_append, breakLines, breakLines, hhead, ih]
      split
      · rfl
      · split
        · rfl
        · cases hlines : breakLines feed ret (left ++ [feed]) with
          | nil => exact absurd hlines (hne left)
          | cons line lines => rfl

namespace Text

/-! ### Trimming -/

theorem trimEnd_append (left : Text) {right : Text} (h : trimEnd right ≠ []) :
    trimEnd (left ++ right) = left ++ trimEnd right := by
  unfold trimEnd at h ⊢
  rw [List.reverse_append, List.dropWhile_append, if_neg (by simpa using h)]
  simp

theorem trimEnd_append_of_blank (left : Text) {right : Text} (h : ∀ c ∈ right, isBlank c) :
    trimEnd (left ++ right) = trimEnd left := by
  unfold trimEnd
  rw [List.reverse_append, List.dropWhile_append_of_pos (by simpa using h)]

theorem trimEnd_eq_nil_iff {t : Text} : trimEnd t = [] ↔ ∀ c ∈ t, isBlank c := by
  simp [trimEnd, List.dropWhile_eq_nil_iff]

theorem trimStart_append_of_blank {left : Text} (right : Text) (h : ∀ c ∈ left, isBlank c) :
    trimStart (left ++ right) = trimStart right :=
  List.dropWhile_append_of_pos h

theorem trimStart_eq_nil_iff {t : Text} : trimStart t = [] ↔ ∀ c ∈ t, isBlank c :=
  List.dropWhile_eq_nil_iff

theorem trimStart_append (right : Text) {left : Text} (h : trimStart left ≠ []) :
    trimStart (left ++ right) = trimStart left ++ right := by
  unfold trimStart at h ⊢
  rw [List.dropWhile_append, if_neg (by simpa using h)]

theorem trimStart_cons {c : Char} (t : Text) (h : isBlank c = false) : trimStart (c :: t) = c :: t := by
  simp [trimStart, h]

theorem trim_eq_nil_iff {t : Text} : trim t = [] ↔ ∀ c ∈ t, isBlank c := by
  constructor
  · intro h
    have hstart : ∀ c ∈ trimStart t, isBlank c := trimEnd_eq_nil_iff.mp h
    cases hdrop : trimStart t with
    | nil => exact trimStart_eq_nil_iff.mp hdrop
    | cons c rest =>
        have hvisible := List.head?_dropWhile_not isBlank t
        rw [show t.dropWhile isBlank = c :: rest from hdrop] at hvisible
        have hblank : isBlank c = true := hstart c (by simp [hdrop])
        simp [hblank] at hvisible
  · intro h
    simp [trim, trimStart_eq_nil_iff.mpr h, trimEnd]

theorem trim_append_of_blank (left : Text) {right : Text} (h : ∀ c ∈ right, isBlank c) :
    trim (left ++ right) = trim left := by
  by_cases hleft : trimStart left = []
  · have hblank : ∀ c ∈ left ++ right, isBlank c := by
      simpa [or_imp, forall_and] using ⟨trimStart_eq_nil_iff.mp hleft, h⟩
    rw [trim_eq_nil_iff.mpr hblank, trim, hleft]
    rfl
  · rw [trim, trimStart_append right hleft, trimEnd_append_of_blank _ h, trim]

theorem trim_blank_append {left : Text} (right : Text) (h : ∀ c ∈ left, isBlank c) :
    trim (left ++ right) = trim right := by
  rw [trim, trimStart_append_of_blank right h, trim]

theorem trimEnd_eq_self_iff {t : Text} : trimEnd t = t ↔ ∀ c ∈ t.getLast?, isBlank c = false := by
  rcases List.eq_nil_or_concat t with rfl | ⟨init, last, rfl⟩
  · simp [trimEnd]
  · cases hlast : isBlank last with
    | false => simp [trimEnd, hlast]
    | true =>
        have hlt := (trimEnd_isInit init).length_le
        constructor
        · intro h
          rw [List.concat_eq_append, trimEnd_append_of_blank init (by simpa using hlast)] at h
          rw [h, List.length_append, List.length_singleton] at hlt
          omega
        · intro h
          simp [hlast] at h

theorem trimEnd_eq_self_of_append {left right : Text} (h : trimEnd (left ++ right) = left ++ right) :
    trimEnd right = right := by
  rw [trimEnd_eq_self_iff] at h ⊢
  intro c hc
  exact h c (by simp_all [List.getLast?_append])

theorem trim_eq_self_of_no_blank {t : Text} (h : ∀ c ∈ t, isBlank c = false) : trim t = t := by
  cases t with
  | nil => rfl
  | cons c rest =>
      rw [trim, trimStart_cons rest (h c List.mem_cons_self), trimEnd_eq_self_iff]
      intro last hlast
      exact h last (List.mem_of_getLast? hlast)

theorem trimStart_eq_self_of_trim {t : Text} (h : trim t = t) : trimStart t = t := by
  have hle := (trimEnd_isInit (trimStart t)).length_le
  rw [show trimEnd (trimStart t) = t from h] at hle
  exact (List.dropWhile_suffix isBlank).eq_of_length_le hle

theorem trimEnd_eq_self_of_trim {t : Text} (h : trim t = t) : trimEnd t = t := by
  rw [← h, trim, trimEnd_trimEnd]

theorem mem_of_mem_trim {c : Char} {t : Text} (h : c ∈ trim t) : c ∈ t := by
  have hstart : c ∈ trimStart t := (trimEnd_isInit _).subset h
  exact (List.dropWhile_suffix isBlank).subset hstart

theorem mem_trim_iff {c : Char} {t : Text} (h : isBlank c = false) : c ∈ trim t ↔ c ∈ t := by
  have hdrop (xs : Text) (hc : c ∈ xs) : c ∈ xs.dropWhile isBlank := by
    rw [← List.takeWhile_append_dropWhile (p := isBlank) (l := xs)] at hc
    rcases List.mem_append.mp hc with htaken | hleft
    · have hblank : isBlank c = true := List.mem_takeWhile_imp htaken
      simp [h] at hblank
    · exact hleft
  constructor
  · exact mem_of_mem_trim
  · intro hc
    have hstart : c ∈ (trimStart t).reverse := List.mem_reverse.mpr (hdrop t hc)
    exact List.mem_reverse.mpr (hdrop _ hstart)

/-- A text has a visible character if it is more than blanks. -/
def Visible (t : Text) : Prop := ∃ c ∈ t, isBlank c = false

theorem trim_ne_nil_iff {t : Text} : trim t ≠ [] ↔ t.Visible := by
  rw [ne_eq, trim_eq_nil_iff, Visible]
  simp

/-! ### Lines -/

theorem lines_append_feed (left right : Text) :
    lines (left ++ '\n' :: right) = lines (left ++ ['\n']) ++ lines right :=
  breakLines_append_feed '\n' '\r' left right

theorem lines_flatMap (written : List Text) :
    lines (written.flatMap (· ++ ['\n'])) = written.flatMap fun line => lines (line ++ ['\n']) := by
  induction written with
  | nil => rfl
  | cons line written ih =>
      rw [List.flatMap_cons, List.flatMap_cons, List.append_assoc, List.singleton_append,
        lines_append_feed, ih]

/-- A line without the carriage return that a line end takes from it. -/
def chomp (line : Text) : Text := if line.getLast? = some '\r' then line.dropLast else line

theorem lines_single {line : Text} (h : '\n' ∉ line) : lines (line ++ ['\n']) = [chomp line] := by
  induction line with
  | nil => rfl
  | cons c rest ih =>
      obtain ⟨hc, hrest⟩ : '\n' ≠ c ∧ '\n' ∉ rest := by simpa using h
      have ih := ih hrest
      unfold lines at ih ⊢
      rw [List.cons_append, breakLines, if_neg (Ne.symm hc), ih]
      cases rest with
      | nil => by_cases hret : c = '\r' <;> simp [hret, chomp]
      | cons d rest =>
          have hd : d ≠ '\n' := fun heq => hrest (heq ▸ List.mem_cons_self ..)
          rw [if_neg (by simp [hd])]
          by_cases hret : (d :: rest).getLast? = some '\r' <;>
            simp [chomp, hret, List.getLast?_cons_cons]

theorem lines_of_feed_not_mem {t : Text} (h : '\n' ∉ t) (ht : t ≠ []) : lines t = [t] := by
  unfold lines
  induction t with
  | nil => exact absurd rfl ht
  | cons c rest ih =>
      obtain ⟨hc, hrest⟩ : '\n' ≠ c ∧ '\n' ∉ rest := by simpa using h
      have hhead : rest.head? ≠ some '\n' := fun hhead => hrest (List.mem_of_head? hhead)
      rw [breakLines, if_neg (Ne.symm hc), if_neg (not_and_of_not_right _ hhead)]
      cases rest with
      | nil => rfl
      | cons d rest => rw [ih hrest (by simp)]

theorem chomp_of_getLast? {line : Text} (h : line.getLast? ≠ some '\r') : chomp line = line := if_neg h

theorem trim_chomp (line : Text) : (chomp line).trim = line.trim := by
  unfold chomp
  split
  · rename_i hret
    obtain ⟨init, rfl⟩ := List.getLast?_eq_some_iff.mp hret
    rw [List.dropLast_concat, trim_append_of_blank init (List.forall_mem_singleton.mpr rfl)]
  · rfl

theorem mem_of_mem_lines {t line : Text} {c : Char} (h : line ∈ lines t) (hc : c ∈ line) : c ∈ t := by
  unfold lines at h
  induction t generalizing line with
  | nil => simp [breakLines] at h
  | cons d rest ih =>
      rw [breakLines] at h
      split at h
      · rcases List.mem_cons.mp h with rfl | h
        · simp at hc
        · exact List.mem_cons_of_mem _ (ih h hc)
      · split at h
        · exact List.mem_cons_of_mem _ (ih h hc)
        · split at h
          · simp_all
          · rename_i first later hlines
            rcases List.mem_cons.mp h with rfl | h
            · rcases List.mem_cons.mp hc with rfl | hc
              · exact List.mem_cons_self
              · exact List.mem_cons_of_mem _ (ih (hlines ▸ List.mem_cons_self ..) hc)
            · exact List.mem_cons_of_mem _ (ih (hlines ▸ List.mem_cons_of_mem _ h) hc)

/-- Only line ends get lost when a text is cut into lines. -/
theorem count_flatten_lines {c : Char} (hfeed : c ≠ '\n') (hret : c ≠ '\r') (t : Text) :
    (lines t).flatten.count c = t.count c := by
  unfold lines
  induction t with
  | nil => rfl
  | cons d rest ih =>
      rw [breakLines]
      split
      · rename_i hd
        simpa [List.count_cons, hd, Ne.symm hfeed] using ih
      · split
        · rename_i hd
          simpa [List.count_cons, hd.1, Ne.symm hret] using ih
        · split
          · rename_i hlines
            rw [hlines] at ih
            rw [List.count_cons, ← ih]
            simp [List.count_cons]
          · rename_i line later hlines
            rw [hlines] at ih
            simp only [List.flatten_cons, List.cons_append, List.count_cons] at ih ⊢
            rw [ih]

theorem mem_flatten_lines_iff {c : Char} (hfeed : c ≠ '\n') (hret : c ≠ '\r') {t : Text} :
    c ∈ (lines t).flatten ↔ c ∈ t := by
  rw [← List.count_pos_iff, ← List.count_pos_iff, count_flatten_lines hfeed hret]

theorem mem_joinWith_iff {c : Char} {separator : Text} (h : c ∉ separator) {pieces : List Text} :
    c ∈ joinWith separator pieces ↔ ∃ piece ∈ pieces, c ∈ piece := by
  induction pieces with
  | nil => simp [joinWith]
  | cons first rest ih =>
      cases rest with
      | nil => simp [joinWith]
      | cons second rest =>
          rw [joinWith] at ih ⊢
          rw [List.intercalate_cons_cons, List.mem_append, List.mem_append, ih]
          simp [h]

theorem not_mem_of_mem_lines {t line : Text} (h : line ∈ lines t) : '\n' ∉ line := by
  unfold lines at h
  induction t generalizing line with
  | nil => simp [breakLines] at h
  | cons c rest ih =>
      rw [breakLines] at h
      split at h
      · rcases List.mem_cons.mp h with rfl | h
        · simp
        · exact ih h
      · rename_i hc
        split at h
        · exact ih h
        · split at h
          · simp_all [eq_comm]
          · rename_i first later hlines
            rcases List.mem_cons.mp h with rfl | h
            · have hfirst := ih (hlines ▸ List.mem_cons_self ..)
              simp [hfirst, Ne.symm hc]
            · exact ih (hlines ▸ List.mem_cons_of_mem _ h)

end Text

end Exemplar
