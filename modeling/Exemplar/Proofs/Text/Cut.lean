import Exemplar.Proofs.Markup.Keyword
import Mathlib.Data.List.Basic

/-!
# Replacing and cutting

Replacing characters by texts one character after the other is replacing all of them at once, as long as no text
brings in a character that is replaced later.

A text can be cut in two at the first place where a mark stands. For a mark that has its first character only once,
no occurrence reaches over a place where this character stands; so a text can be searched piece by piece.
-/

namespace Exemplar.Text

/-! ### Replacing -/

/-- The text with another text for every occurrence of a character. -/
def replaceAll (t : Text) (c : Char) (new : Text) : Text := t.flatMap fun d => if d = c then new else [d]

theorem flatMap_lookup_of_not_mem {table : List (Char × Text)} {t : Text} (h : ∀ entry ∈ table, entry.1 ∉ t) :
    (t.flatMap fun c => (table.lookup c).getD [c]) = t := by
  calc (t.flatMap fun c => (table.lookup c).getD [c])
      = t.flatMap fun c => [c] := by
        apply List.flatMap_congr
        intro c hc
        have hnone : table.lookup c = none := by
          refine List.lookup_eq_none_iff.mpr ?_
          intro entry hentry
          have hne : c ≠ entry.1 := fun heq => h entry hentry (heq ▸ hc)
          simpa using hne
        rw [hnone, Option.getD_none]
    _ = t := List.flatMap_singleton' t

theorem foldl_replaceAll {table : List (Char × Text)} (h : table.Pairwise fun a b => b.1 ∉ a.2) (t : Text) :
    table.foldl (fun t entry => t.replaceAll entry.1 entry.2) t =
      t.flatMap fun c => (table.lookup c).getD [c] := by
  induction table generalizing t with
  | nil => exact (List.flatMap_singleton' t).symm
  | cons entry table ih =>
      obtain ⟨key, new⟩ := entry
      obtain ⟨hnew, htable⟩ := List.pairwise_cons.mp h
      rw [List.foldl_cons, ih htable, replaceAll, List.flatMap_assoc]
      apply List.flatMap_congr
      intro c _
      by_cases hc : c = key
      · rw [if_pos hc, flatMap_lookup_of_not_mem hnew, hc, List.lookup_cons_self, Option.getD_some]
      · have hlookup : ((key, new) :: table).lookup c = table.lookup c := by
          rw [List.lookup_cons, beq_eq_false_iff_ne.mpr hc]
        rw [if_neg hc, List.flatMap_singleton, hlookup]

/-! ### Cutting -/

/-- What stands before and after the first occurrence of a mark, which must not be empty. -/
def cut? (mark : Text) : Text → Option (Text × Text)
  | [] => none
  | c :: rest =>
    match after? mark (c :: rest) with
    | some later => some ([], later)
    | none => (cut? mark rest).map fun (before, later) => (c :: before, later)

variable {mark t before later : Text}

/-- A cut is made at a mark, and there is no mark before it. -/
theorem first_of_cut? (h : cut? mark t = some (before, later)) :
    t = before ++ mark ++ later ∧ ∀ left right, t = left ++ mark ++ right → before.length ≤ left.length := by
  induction t generalizing before with
  | nil => simp [cut?] at h
  | cons c rest ih =>
      rw [cut?] at h
      split at h
      · rename_i found hfound
        obtain ⟨rfl, rfl⟩ := Prod.mk.inj (Option.some.inj h)
        exact ⟨eq_append_of_after? hfound, fun _ _ _ => Nat.zero_le _⟩
      · rename_i hnone
        obtain ⟨⟨before', later'⟩, hcut, hpair⟩ := Option.map_eq_some_iff.mp h
        obtain ⟨rfl, rfl⟩ := Prod.mk.inj hpair
        obtain ⟨hrest, hfirst⟩ := ih hcut
        refine ⟨congrArg (c :: ·) hrest, ?_⟩
        intro left right hsplit
        cases left with
        | nil => exact absurd ⟨right, hsplit.symm⟩ (after?_eq_none_iff.mp hnone)
        | cons d left => exact Nat.succ_le_succ (hfirst left right (List.cons.inj hsplit).2)

theorem length_of_cut? (h : cut? mark t = some (before, later)) :
    before.length + mark.length + later.length = t.length := by
  rw [(first_of_cut? h).1, List.length_append, List.length_append]

theorem cut?_eq_none (h : ¬mark <:+: t) : cut? mark t = none := by
  cases hcut : cut? mark t with
  | none => rfl
  | some pair => exact absurd ⟨pair.1, pair.2, (first_of_cut? hcut).1.symm⟩ h

section Pieces

variable {first : Char} {rest piece next : Text}

/-- No occurrence starts in a piece none of whose ends could be the start of one. -/
theorem infix_of_append (hpiece : ∀ part ∈ piece.tails, part ≠ [] → ¬part <+: mark ∧ ¬mark <+: part)
    (h : mark <:+: piece ++ next) : mark <:+: next := by
  induction piece with
  | nil => exact h
  | cons c piece ih =>
      obtain ⟨hwhole, hpiece⟩ := List.forall_mem_cons.mp hpiece
      obtain ⟨hpart, hmark⟩ := hwhole (List.cons_ne_nil _ _)
      rcases List.infix_cons_iff.mp h with hprefix | hinfix
      · rcases List.prefix_or_prefix_of_prefix hprefix (List.prefix_append (c :: piece) next) with hfits | hfits
        · exact absurd hfits hmark
        · exact absurd hfits hpart
      · exact ih hpiece hinfix

/-- An occurrence of a mark does not reach into what starts with the mark's first character, if the mark has this
character only once. -/
theorem prefix_of_prefix_append (hfirst : first ∉ rest) (hnext : next.head? = some first)
    (h : first :: rest <+: piece ++ next) (hne : piece ≠ []) : first :: rest <+: piece := by
  rcases List.prefix_or_prefix_of_prefix h (List.prefix_append piece next) with hmark | ⟨between, hmark⟩
  · exact hmark
  · rw [← hmark, List.prefix_append_right_inj] at h
    cases between with
    | nil =>
        have hself : first :: rest = piece := by rw [← hmark, List.append_nil]
        exact hself ▸ List.prefix_rfl
    | cons d between =>
        obtain ⟨later, rfl⟩ := h
        obtain rfl : d = first := Option.some.inj hnext
        obtain ⟨c, piece, rfl⟩ := List.exists_cons_of_ne_nil hne
        obtain ⟨-, hrest⟩ := List.cons.inj hmark
        exact absurd (by simp [← hrest]) hfirst

/-- Such an occurrence lies on one side or on the other. -/
theorem infix_or_infix_of_append (hfirst : first ∉ rest) (hnext : next.head? = some first)
    (h : first :: rest <:+: piece ++ next) : first :: rest <:+: piece ∨ first :: rest <:+: next := by
  induction piece with
  | nil => exact .inr h
  | cons c piece ih =>
      rcases List.infix_cons_iff.mp h with hprefix | hinfix
      · have hne : c :: piece ≠ [] := List.cons_ne_nil _ _
        exact .inl (prefix_of_prefix_append hfirst hnext hprefix hne).isInfix
      · exact (ih hinfix).imp_left (List.infix_cons ·)

/-- A piece without the mark is what the mark after it cuts off. -/
theorem cut?_append (hfirst : first ∉ rest) (hpiece : ¬first :: rest <:+: piece) (later : Text) :
    cut? (first :: rest) (piece ++ first :: rest ++ later) = some (piece, later) := by
  induction piece with
  | nil => rw [List.nil_append, List.cons_append, cut?, ← List.cons_append, after?_append]
  | cons c piece ih =>
      obtain ⟨hstart, hpiece⟩ := not_or.mp (List.infix_cons_iff.not.mp hpiece)
      have hnone : after? (first :: rest) (c :: (piece ++ first :: rest ++ later)) = none := by
        refine after?_eq_none_iff.mpr fun hprefix => hstart ?_
        have hover : first :: rest <+: (c :: piece) ++ (first :: rest ++ later) := by simpa using hprefix
        exact prefix_of_prefix_append hfirst rfl hover (List.cons_ne_nil _ _)
      rw [List.cons_append, List.cons_append, cut?, hnone, ih hpiece]
      rfl

end Pieces

end Exemplar.Text
