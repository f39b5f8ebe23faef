import Exemplar.Proofs.Lexical.Reading

/-!
# Brackets

Round brackets outside of literals, counted from the left: each opening one adds to the depth and each closing one
takes from it. Lexemes are balanced if the depth never falls below zero and ends there. A comma at depth zero parts
arguments; one inside of brackets or of a literal does not.

Where a balanced part ends before a closing bracket is determined by the text, because the bracket is the first
place where the depth falls below zero.
-/

namespace Exemplar.Lexical

namespace Lexeme

abbrev opening : Lexeme := .unit '('.toNat

abbrev closing : Lexeme := .unit ')'.toNat

abbrev comma : Lexeme := .unit ','.toNat

def weight : Lexeme → Int
  | .unit n => if n = '('.toNat then 1 else if n = ')'.toNat then -1 else 0
  | .string _ => 0

/-- The lexeme with the empty literal in the place of a literal. -/
def blank : Lexeme → Lexeme
  | .unit n => .unit n
  | .string _ => .string []

@[simp]
theorem weight_opening : opening.weight = 1 := rfl

@[simp]
theorem weight_closing : closing.weight = -1 := rfl

@[simp]
theorem weight_string (value : List Nat) : (string value).weight = 0 := rfl

@[simp]
theorem weight_blank (l : Lexeme) : l.blank.weight = l.weight := by
  cases l <;> rfl

end Lexeme

open Lexeme (opening closing comma blank)

variable {ls ms left right : List Lexeme}

def depth : List Lexeme → Int
  | [] => 0
  | l :: rest => l.weight + depth rest

@[simp]
theorem depth_nil : depth [] = 0 := rfl

@[simp]
theorem depth_cons (l : Lexeme) (ls : List Lexeme) : depth (l :: ls) = l.weight + depth ls := rfl

@[simp]
theorem depth_append (ls ms : List Lexeme) : depth (ls ++ ms) = depth ls + depth ms := by
  induction ls with
  | nil => simp
  | cons l ls ih =>
      rw [List.cons_append, depth_cons, depth_cons, ih]
      omega

@[simp]
theorem depth_map_blank (ls : List Lexeme) : depth (ls.map blank) = depth ls := by
  induction ls with
  | nil => rfl
  | cons l ls ih => rw [List.map_cons, depth_cons, depth_cons, ih, Lexeme.weight_blank]

theorem depth_of_weight (h : ∀ l ∈ ls, l.weight = 0) : depth ls = 0 := by
  induction ls with
  | nil => rfl
  | cons l ls ih =>
      obtain ⟨hl, hls⟩ := List.forall_mem_cons.mp h
      rw [depth_cons, hl, ih hls, Int.add_zero]

/-- No bracket is closed that was not opened, and each one that was opened is closed. -/
structure Balanced (ls : List Lexeme) : Prop where
  nonneg : ∀ left right, ls = left ++ right → 0 ≤ depth left
  closed : depth ls = 0

/-- A comma outside of all brackets. -/
def HasOuterComma (ls : List Lexeme) : Prop := ∃ left right, ls = left ++ comma :: right ∧ depth left = 0

/-! ### Balanced parts -/

theorem balanced_nil : Balanced [] where
  nonneg := by
    intro left right h
    obtain ⟨rfl, -⟩ := List.append_eq_nil_iff.mp h.symm
    exact Int.le_refl 0
  closed := rfl

theorem Balanced.append (hls : Balanced ls) (hms : Balanced ms) : Balanced (ls ++ ms) where
  nonneg := by
    intro left right h
    rcases List.append_eq_append_iff.mp h with ⟨rest, rfl, rfl⟩ | ⟨rest, rfl, rfl⟩
    · rw [depth_append, hls.closed]
      have hrest := hms.nonneg rest right rfl
      omega
    · exact hls.nonneg left rest rfl
  closed := by rw [depth_append, hls.closed, hms.closed, Int.add_zero]

theorem balanced_of_weight (h : ∀ l ∈ ls, l.weight = 0) : Balanced ls where
  nonneg := by
    rintro left right rfl
    have hleft := depth_of_weight fun l hl => h l (List.mem_append_left _ hl)
    exact Int.le_of_eq hleft.symm
  closed := depth_of_weight h

theorem Balanced.enclosed (h : Balanced ls) : Balanced (opening :: ls ++ [closing]) where
  nonneg := by
    intro left right heq
    cases left with
    | nil => exact Int.le_refl 0
    | cons first left =>
        rw [List.cons_append, List.cons_append, List.cons.injEq] at heq
        obtain ⟨rfl, heq⟩ := heq
        have hleft : -1 ≤ depth left := by
          rcases List.append_eq_append_iff.mp heq with ⟨rest, rfl, hrest⟩ | ⟨rest, rfl, -⟩
          · rcases List.singleton_eq_append_iff.mp hrest with ⟨rfl, -⟩ | ⟨rfl, -⟩ <;> simp [h.closed]
          · have hnonneg := h.nonneg left rest rfl
            omega
        rw [depth_cons, Lexeme.weight_opening]
        omega
  closed := by simp [h.closed]

theorem balanced_of_map_blank (h : Balanced (ls.map blank)) : Balanced ls where
  nonneg := by
    rintro left right rfl
    rw [← depth_map_blank]
    exact h.nonneg _ _ List.map_append
  closed := by rw [← depth_map_blank, h.closed]

section Closing

variable {t u rest later : Text}

/-- A closing bracket after a balanced part is the first place where the depth falls below zero. -/
theorem not_balanced_of_read (ht : read t = some ls) (hls : Balanced ls)
    (hms : read (t ++ ')' :: rest) = some ms) : ¬Balanced ms := by
  intro hbalanced
  rw [read_append_closing ht] at hms
  obtain ⟨tail, -, rfl⟩ := Option.map_eq_some_iff.mp hms
  have hnonneg := hbalanced.nonneg (ls ++ [closing]) tail (by simp)
  simp [hls.closed] at hnonneg

/-- What is read as balanced ends before the same closing bracket in every reading. -/
theorem append_closing_inj (ht : read t = some ls) (hls : Balanced ls) (hu : read u = some ms) (hms : Balanced ms)
    (h : t ++ ')' :: rest = u ++ ')' :: later) : t = u ∧ rest = later := by
  rcases List.append_eq_append_iff.mp h with ⟨more, rfl, hmore⟩ | ⟨more, rfl, hmore⟩
  · cases more with
    | nil => exact ⟨(List.append_nil t).symm, (List.cons.inj hmore).2⟩
    | cons first more =>
        obtain ⟨rfl, -⟩ := List.cons.inj hmore
        exact absurd hms (not_balanced_of_read ht hls hu)
  · cases more with
    | nil => exact ⟨List.append_nil u, (List.cons.inj hmore).2.symm⟩
    | cons first more =>
        obtain ⟨rfl, -⟩ := List.cons.inj hmore
        exact absurd hls (not_balanced_of_read hu hms ht)

end Closing

/-! ### Outer commas -/

theorem not_hasOuterComma_of_not_mem (h : comma ∉ ls) : ¬HasOuterComma ls := by
  rintro ⟨left, right, rfl, -⟩
  exact h (by simp)

theorem hasOuterComma_append_iff (h : depth ls = 0) :
    HasOuterComma (ls ++ ms) ↔ HasOuterComma ls ∨ HasOuterComma ms := by
  constructor
  · rintro ⟨left, right, heq, hleft⟩
    rcases List.append_eq_append_iff.mp heq with ⟨rest, rfl, rfl⟩ | ⟨rest, rfl, hrest⟩
    · rw [depth_append, h, Int.zero_add] at hleft
      exact .inr ⟨rest, right, rfl, hleft⟩
    · cases rest with
      | nil => exact .inr ⟨[], right, hrest.symm, rfl⟩
      | cons first rest =>
          obtain ⟨rfl, -⟩ := List.cons.inj hrest
          exact .inl ⟨left, rest, rfl, hleft⟩
  · rintro (⟨left, right, rfl, hleft⟩ | ⟨left, right, rfl, hleft⟩)
    · exact ⟨left, right ++ ms, by simp, hleft⟩
    · exact ⟨ls ++ left, right, by simp, by rw [depth_append, h, hleft, Int.add_zero]⟩

/-- Brackets around a balanced part hide all of its commas. -/
theorem not_hasOuterComma_enclosed (h : Balanced ls) : ¬HasOuterComma (opening :: ls ++ [closing]) := by
  rintro ⟨left, right, heq, hleft⟩
  cases left with
  | nil => simp at heq
  | cons first left =>
      rw [List.cons_append, List.cons_append, List.cons.injEq] at heq
      obtain ⟨rfl, heq⟩ := heq
      rcases List.append_eq_append_iff.mp heq with ⟨rest, rfl, hrest⟩ | ⟨rest, rfl, -⟩
      · rcases List.singleton_eq_append_iff.mp hrest with ⟨rfl, hcomma⟩ | ⟨rfl, hcomma⟩ <;> simp at hcomma
      · have hnonneg := h.nonneg left rest rfl
        rw [depth_cons, Lexeme.weight_opening] at hleft
        omega

theorem hasOuterComma_map_blank_iff : HasOuterComma (ls.map blank) ↔ HasOuterComma ls := by
  constructor
  · rintro ⟨left, right, heq, hleft⟩
    obtain ⟨before, after, rfl, rfl, hafter⟩ := List.map_eq_append_iff.mp heq
    obtain ⟨first, later, rfl, hfirst, -⟩ := List.map_eq_cons_iff.mp hafter
    rw [depth_map_blank] at hleft
    cases first with
    | unit n => exact ⟨before, later, by rw [← hfirst]; rfl, hleft⟩
    | string value => simp [blank] at hfirst
  · rintro ⟨left, right, rfl, hleft⟩
    exact ⟨left.map blank, right.map blank, by simp [blank], by rw [depth_map_blank, hleft]⟩

/-! ### Chains of calls -/

/-- None of the characters on the list is in the text. -/
def Avoids (banned : List Char) (t : Text) : Prop := ∀ d ∈ banned, d ∉ t

instance decidableAvoids (banned : List Char) (t : Text) : Decidable (Avoids banned t) :=
  List.decidableBAll (· ∉ t) banned

variable {banned : List Char} {name : Text} {inside : List Lexeme}

theorem balanced_plain (hopening : '(' ∉ name) (hclosing : ')' ∉ name) : Balanced (plain name) := by
  apply balanced_of_weight
  intro l hl
  obtain ⟨n, -, rfl⟩ := List.mem_map.mp hl
  rw [Lexeme.weight, if_neg, if_neg]
  · rintro rfl
    exact hclosing ((mem_plain_iff (by decide)).mp hl)
  · rintro rfl
    exact hopening ((mem_plain_iff (by decide)).mp hl)

/-- A name with arguments in brackets. -/
def call (name : Text) (inside : List Lexeme) : List Lexeme := plain name ++ (opening :: inside ++ [closing])

/-- Calls one after another, with balanced arguments and names that avoid what is on the list. -/
inductive CallChain (banned : List Char) : List Lexeme → Prop
  | nil : CallChain banned []
  | cons {name : Text} {inside rest : List Lexeme} (hname : Avoids banned name) (hinside : Balanced inside)
      (hrest : CallChain banned rest) : CallChain banned (call name inside ++ rest)

theorem CallChain.singleton (hname : Avoids banned name) (hinside : Balanced inside) :
    CallChain banned (call name inside) := by
  simpa using CallChain.cons hname hinside .nil

theorem CallChain.append (hls : CallChain banned ls) (hms : CallChain banned ms) : CallChain banned (ls ++ ms) := by
  induction hls with
  | nil => exact hms
  | cons hname hinside _ ih =>
      rw [List.append_assoc]
      exact .cons hname hinside ih

theorem CallChain.flatten {os : List (List Lexeme)} (h : ∀ o ∈ os, CallChain banned o) :
    CallChain banned os.flatten := by
  induction os with
  | nil => exact .nil
  | cons o os ih =>
      obtain ⟨ho, hos⟩ := List.forall_mem_cons.mp h
      exact ho.append (ih hos)

theorem CallChain.balanced (hopening : '(' ∈ banned) (hclosing : ')' ∈ banned) (h : CallChain banned ls) :
    Balanced ls := by
  induction h with
  | nil => exact balanced_nil
  | cons hname hinside _ ih =>
      have hplain := balanced_plain (hname _ hopening) (hname _ hclosing)
      exact (hplain.append hinside.enclosed).append ih

theorem CallChain.not_hasOuterComma (hopening : '(' ∈ banned) (hclosing : ')' ∈ banned) (hcomma : ',' ∈ banned)
    (h : CallChain banned ls) : ¬HasOuterComma ls := by
  induction h with
  | nil => exact not_hasOuterComma_of_not_mem (by simp)
  | @cons name inside rest hname hinside _ ih =>
      have hplain := balanced_plain (hname _ hopening) (hname _ hclosing)
      have hnone : comma ∉ plain name := (mem_plain_iff (by decide)).not.mpr (hname _ hcomma)
      rw [call, hasOuterComma_append_iff (hplain.append hinside.enclosed).closed,
        hasOuterComma_append_iff hplain.closed]
      exact not_or.mpr ⟨not_or.mpr ⟨not_hasOuterComma_of_not_mem hnone, not_hasOuterComma_enclosed hinside⟩, ih⟩

end Exemplar.Lexical
