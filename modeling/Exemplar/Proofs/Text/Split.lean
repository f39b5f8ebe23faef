import Exemplar.Text.Basic

/-!
# Splitting at a separator

The pieces hold no separator, and joining them with it gives the text again.
-/

namespace Exemplar

variable {α : Type} [DecidableEq α] {separator : α}

theorem splitOn_ne_nil (t : List α) : splitOn separator t ≠ [] := by
  cases t with
  | nil => simp [splitOn]
  | cons c rest =>
      rw [splitOn]
      split
      · simp
      · split <;> simp

theorem splitOn_append (left right : List α) :
    splitOn separator (left ++ separator :: right) =
      splitOn separator left ++ splitOn separator right := by
  induction left with
  | nil => simp [splitOn]
  | cons c left ih =>
      rw [List.cons_append, splitOn, splitOn, ih]
      split
      · rfl
      · cases hpieces : splitOn separator left with
        | nil => exact absurd hpieces (splitOn_ne_nil left)
        | cons piece pieces => rfl

theorem splitOn_of_not_mem {t : List α} (h : separator ∉ t) : splitOn separator t = [t] := by
  induction t with
  | nil => rfl
  | cons c rest ih =>
      obtain ⟨hc, hrest⟩ : separator ≠ c ∧ separator ∉ rest := by simpa using h
      rw [splitOn, if_neg (Ne.symm hc), ih hrest]

/-- What is added at the end is added to the last piece. -/
theorem splitOn_append_of_not_mem {added : List α} (hadded : separator ∉ added) (t : List α) :
    ∃ before last, splitOn separator t = before ++ [last] ∧
      splitOn separator (t ++ added) = before ++ [last ++ added] := by
  induction t with
  | nil => exact ⟨[], [], rfl, splitOn_of_not_mem hadded⟩
  | cons first rest ih =>
      obtain ⟨before, last, hrest, happend⟩ := ih
      rw [List.cons_append, splitOn, splitOn, hrest, happend]
      split
      · exact ⟨[] :: before, last, rfl, rfl⟩
      · cases before with
        | nil => exact ⟨[], first :: last, rfl, rfl⟩
        | cons piece before => exact ⟨(first :: piece) :: before, last, rfl, rfl⟩

theorem exists_last_piece {c : α} {t : List α} (hlast : t.getLast? = some c) (hc : c ≠ separator) :
    ∃ before last, splitOn separator t = before ++ [last] ∧ last.getLast? = some c := by
  obtain ⟨rest, rfl⟩ := List.getLast?_eq_some_iff.mp hlast
  have hnot : separator ∉ [c] := by simpa using Ne.symm hc
  obtain ⟨before, last, -, hpieces⟩ := splitOn_append_of_not_mem hnot rest
  exact ⟨before, last ++ [c], hpieces, List.getLast?_concat⟩

theorem not_mem_of_mem_splitOn {t piece : List α} (h : piece ∈ splitOn separator t) :
    separator ∉ piece := by
  induction t generalizing piece with
  | nil => simp_all [splitOn]
  | cons c rest ih =>
      rw [splitOn] at h
      split at h
      · rcases List.mem_cons.mp h with rfl | h
        · simp
        · exact ih h
      · rename_i hc
        split at h
        · simp_all [eq_comm]
        · rename_i first later hpieces
          rcases List.mem_cons.mp h with rfl | h
          · have hfirst := ih (hpieces ▸ List.mem_cons_self ..)
            simp [hfirst, Ne.symm hc]
          · exact ih (hpieces ▸ List.mem_cons_of_mem _ h)

theorem mem_of_mem_splitOn {c : α} {t piece : List α} (hpiece : piece ∈ splitOn separator t) (hc : c ∈ piece) :
    c ∈ t := by
  induction t generalizing piece with
  | nil => simp_all [splitOn]
  | cons first rest ih =>
      rw [splitOn] at hpiece
      split at hpiece
      · rcases List.mem_cons.mp hpiece with rfl | hpiece
        · simp at hc
        · exact List.mem_cons_of_mem _ (ih hpiece hc)
      · split at hpiece
        · simp_all
        · rename_i head later hpieces
          rcases List.mem_cons.mp hpiece with rfl | hpiece
          · rcases List.mem_cons.mp hc with rfl | hc
            · exact List.mem_cons_self ..
            · exact List.mem_cons_of_mem _ (ih (hpieces ▸ List.mem_cons_self ..) hc)
          · exact List.mem_cons_of_mem _ (ih (hpieces ▸ List.mem_cons_of_mem _ hpiece) hc)

theorem intercalate_splitOn (separator : α) (t : List α) :
    [separator].intercalate (splitOn separator t) = t := by
  induction t with
  | nil => rfl
  | cons c rest ih =>
      rw [splitOn]
      cases hpieces : splitOn separator rest with
      | nil => exact absurd hpieces (splitOn_ne_nil rest)
      | cons piece pieces =>
          rw [hpieces] at ih
          split
          · rename_i hc
            rw [List.intercalate_cons_cons, ih, hc]
            rfl
          · cases pieces <;> simp_all [List.intercalate_cons_cons]

theorem splitOn_intercalate {pieces : List (List α)} (hne : pieces ≠ [])
    (h : ∀ piece ∈ pieces, separator ∉ piece) : splitOn separator ([separator].intercalate pieces) = pieces := by
  induction pieces with
  | nil => exact absurd rfl hne
  | cons first rest ih =>
      obtain ⟨hfirst, hrest⟩ := List.forall_mem_cons.mp h
      cases rest with
      | nil => rw [List.intercalate_singleton, splitOn_of_not_mem hfirst]
      | cons second rest =>
          rw [List.intercalate_cons_cons, List.append_assoc, List.singleton_append, splitOn_append,
            splitOn_of_not_mem hfirst, ih (List.cons_ne_nil _ _) hrest, List.singleton_append]

/-- The last occurrence of a separator parts a text in one way only. -/
theorem append_cons_inj_of_not_mem {α : Type} {c : α} {a b rest rest' : List α} (hrest : c ∉ rest)
    (hrest' : c ∉ rest') : a ++ c :: rest = b ++ c :: rest' ↔ a = b ∧ rest = rest' := by
  constructor
  · intro h
    rcases List.append_eq_append_iff.mp h with ⟨between, rfl, hbetween⟩ | ⟨between, rfl, hbetween⟩
    · cases between with
      | nil => exact ⟨(List.append_nil a).symm, (List.cons.inj hbetween).2⟩
      | cons first between =>
          have hmem : c ∈ rest := by simp [(List.cons.inj hbetween).2]
          exact absurd hmem hrest
    · cases between with
      | nil => exact ⟨List.append_nil b, (List.cons.inj hbetween).2.symm⟩
      | cons first between =>
          have hmem : c ∈ rest' := by simp [(List.cons.inj hbetween).2]
          exact absurd hmem hrest'
  · rintro ⟨rfl, rfl⟩
    rfl

end Exemplar
