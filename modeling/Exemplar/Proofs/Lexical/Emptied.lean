import Exemplar.Text.Basic
import Mathlib.Logic.Basic

/-!
# Emptied literals

A source text with the insides of its string literals left out. A literal goes from one quotation mark to the next
that no backslash stands before; a backslash takes the character after it along, so two of them do not protect a
quotation mark.
-/

namespace Exemplar.Lexical

/-- Where a character stands: outside of literals, inside of one, or inside of one after a backslash. -/
inductive Side
  | outside
  | inside
  | escaped

def emptiedFrom : Side → Text → Text
  | _, [] => []
  | .outside, c :: rest => c :: emptiedFrom (if c = '"' then .inside else .outside) rest
  | .inside, c :: rest =>
    if c = '"' then c :: emptiedFrom .outside rest
    else emptiedFrom (if c = '\\' then .escaped else .inside) rest
  | .escaped, _ :: rest => emptiedFrom .inside rest

/-- The text with `""` in the place of each literal. -/
def emptied (t : Text) : Text := emptiedFrom .outside t

variable {t u w v : Text}

/-- The part with its literals emptied is the other text, whatever follows it. -/
def Empties (t w : Text) : Prop := ∀ rest, emptied (t ++ rest) = w ++ emptied rest

/-- All of the part is left out inside of a literal, whatever follows it. -/
def Omitted (t : Text) : Prop := ∀ rest, emptiedFrom .inside (t ++ rest) = emptiedFrom .inside rest

theorem Empties.append (ht : Empties t w) (hu : Empties u v) : Empties (t ++ u) (w ++ v) := by
  intro rest
  rw [List.append_assoc, ht, hu, List.append_assoc]

theorem Empties.emptied_eq (h : Empties t w) : emptied t = w := by
  have hnil : emptied [] = [] := rfl
  simpa [hnil] using h []

theorem empties_plain (h : '"' ∉ t) : Empties t t := by
  intro rest
  induction t with
  | nil => rfl
  | cons c t ih =>
      obtain ⟨hc, ht⟩ := not_or.mp (List.mem_cons.not.mp h)
      have hrest := ih ht
      unfold emptied at hrest ⊢
      rw [List.cons_append, emptiedFrom, if_neg (Ne.symm hc), hrest, List.cons_append]

theorem Omitted.append (ht : Omitted t) (hu : Omitted u) : Omitted (t ++ u) := by
  intro rest
  rw [List.append_assoc, ht, hu]

theorem omitted_nil : Omitted [] := by
  intro rest
  rfl

theorem omitted_char {c : Char} (hquote : c ≠ '"') (hslash : c ≠ '\\') : Omitted [c] := by
  intro rest
  rw [List.singleton_append, emptiedFrom, if_neg hquote, if_neg hslash]

theorem omitted_escaped (c : Char) : Omitted ['\\', c] := by
  intro rest
  rw [List.cons_append, List.singleton_append, emptiedFrom, if_neg (by decide), if_pos rfl, emptiedFrom]

/-- Only the quotation marks of a literal stay. -/
theorem empties_literal (h : Omitted t) : Empties ('"' :: t ++ ['"']) ['"', '"'] := by
  intro rest
  have hinside := h ('"' :: rest)
  rw [emptied, List.cons_append, List.cons_append, emptiedFrom, if_pos rfl, List.append_assoc,
    List.singleton_append, hinside, emptiedFrom, if_pos rfl]
  rfl

/-- A quotation mark after a backslash closes no literal, but one after two of them does. -/
example : emptied "f(\"a\\\"b\", \"\\\\\")".toList = "f(\"\", \"\")".toList := by decide

end Exemplar.Lexical
