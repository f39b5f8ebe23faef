/-!
# Texts

A text is a list of Unicode scalar values. Blank characters are those with the White_Space property,
which differs from the ASCII notion: it has the no-break space and the line separators, and it lacks
the separators U+001C to U+001F.

Lines end at a line feed, and one carriage return before the line feed belongs to the line end. A
carriage return anywhere else is an ordinary character.
-/

namespace Exemplar

abbrev Text := List Char

/-- The pieces between line ends, for any alphabet with a line feed and a carriage return. A last
piece without a line end counts only if it is not empty. -/
def breakLines {α : Type} [DecidableEq α] (feed ret : α) : List α → List (List α)
  | [] => []
  | c :: rest =>
    if c = feed then [] :: breakLines feed ret rest
    else if c = ret ∧ rest.head? = some feed then breakLines feed ret rest
    else
      match breakLines feed ret rest with
      | [] => [[c]]
      | line :: lines => (c :: line) :: lines

/-- The pieces between occurrences of a separator: one more than the occurrences. -/
def splitOn {α : Type} [DecidableEq α] (separator : α) : List α → List (List α)
  | [] => [[]]
  | c :: rest =>
    if c = separator then [] :: splitOn separator rest
    else
      match splitOn separator rest with
      | [] => [[c]]
      | piece :: pieces => (c :: piece) :: pieces

namespace Text

/-- The White_Space property of Unicode. -/
def isBlank (c : Char) : Bool :=
  let n := c.toNat
  (0x09 ≤ n && n ≤ 0x0D) || n == 0x20 || n == 0x85 || n == 0xA0 || n == 0x1680 ||
    (0x2000 ≤ n && n ≤ 0x200A) || n == 0x2028 || n == 0x2029 || n == 0x202F || n == 0x205F ||
    n == 0x3000

/-- Whether a character's code point lies in one of the ranges, ends included. -/
def inRanges (ranges : List (Nat × Nat)) (c : Char) : Bool :=
  ranges.any fun (low, high) => low ≤ c.toNat && c.toNat ≤ high

def trimStart (t : Text) : Text := t.dropWhile isBlank

def trimEnd (t : Text) : Text := (t.reverse.dropWhile isBlank).reverse

def trim (t : Text) : Text := trimEnd (trimStart t)

def lines (t : Text) : List Text := breakLines '\n' '\r' t

def joinWith (separator : Text) (pieces : List Text) : Text := separator.intercalate pieces

/-- What follows a given beginning, if the text has it. -/
def after? : Text → Text → Option Text
  | [], t => some t
  | _ :: _, [] => none
  | p :: ps, c :: cs => if p = c then after? ps cs else none

def ofNat (n : Nat) : Text := Nat.toDigits 10 n

/-- The digits of a number in base sixteen. -/
def hex (n : Nat) : Text := Nat.toDigits 16 n

/-- The four digits in base sixteen of a number of sixteen bits. -/
def hexWord (n : Nat) : Text := [n / 4096 % 16, n / 256 % 16, n / 16 % 16, n % 16].map Nat.digitChar

theorem after?_append (p t : Text) : after? p (p ++ t) = some t := by
  induction p with
  | nil => rfl
  | cons c p ih => simpa [after?] using ih

theorem eq_append_of_after? {p t rest : Text} (h : after? p t = some rest) : t = p ++ rest := by
  induction p generalizing t with
  | nil => simpa [after?] using h
  | cons c p ih =>
    cases t with
    | nil => simp [after?] at h
    | cons d t =>
      by_cases hcd : c = d
      · subst hcd
        simpa [after?] using ih (by simpa [after?] using h)
      · simp [after?, hcd] at h

theorem dropWhile_dropWhile {α : Type} (p : α → Bool) (xs : List α) :
    (xs.dropWhile p).dropWhile p = xs.dropWhile p := by
  induction xs with
  | nil => rfl
  | cons x xs ih =>
    by_cases h : p x
    · simpa [h] using ih
    · simp [h]

theorem dropWhile_eq_self_of_isInit {α : Type} (p : α → Bool) {xs ys : List α}
    (hxs : xs.dropWhile p = xs) (h : ys <+: xs) : ys.dropWhile p = ys := by
  obtain ⟨zs, rfl⟩ := h
  cases ys with
  | nil => rfl
  | cons y ys =>
    by_cases hy : p y
    · have hlt : ((y :: ys ++ zs).dropWhile p).length ≤ (ys ++ zs).length := by
        simpa [hy] using (List.dropWhile_sublist (l := ys ++ zs) p).length_le
      rw [hxs] at hlt
      simp only [List.cons_append, List.length_cons] at hlt
      omega
    · simp [hy]

theorem trimEnd_trimEnd (t : Text) : trimEnd (trimEnd t) = trimEnd t := by
  simp [trimEnd, dropWhile_dropWhile]

theorem trimEnd_isInit (t : Text) : trimEnd t <+: t := by
  have h := List.dropWhile_suffix (l := t.reverse) isBlank
  simpa [trimEnd] using List.reverse_prefix.mpr h

/-- Trimming twice is trimming once: what the first pass leaves starts and ends with no blank. -/
theorem trim_trim (t : Text) : trim (trim t) = trim t := by
  have h : trimStart (trim t) = trim t :=
    dropWhile_eq_self_of_isInit isBlank (dropWhile_dropWhile isBlank t) (trimEnd_isInit (trimStart t))
  rw [trim, h, trim, trimEnd_trimEnd]

end Text

end Exemplar
