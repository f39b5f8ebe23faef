import Exemplar.Service.Literal
import Exemplar.Json.Quoted
import Mathlib.Data.List.Basic

/-!
# Reading source text

How a class source is read as a program. The first phase is blind to literals: it replaces every unit escape,
which is a backslash, one or more `u` and four digits in base sixteen, by the code unit that it names. A backslash
begins a unit escape only if the backslashes right before it are even in number. The second phase cuts the code
units into string literals and the units between them, and decodes the escape sequences inside the literals.

Either phase refuses a text that breaks its rules. A text block, which opens with three quotation marks, is no
string literal and is not read as one.

What a part of a text reads as does not depend on what follows it, as long as the part ends where it does not leave
a phase inside an escape or a literal. So the reading of a whole is put together from that of its parts.
-/

namespace Exemplar.Lexical

open Json.Quoted (isLeading isTrailing pairValue)
open Service (codeUnits)

/-! ### Code units -/

/-- The code units of a text. -/
def units (t : Text) : List Nat := t.flatMap codeUnits

theorem units_append (t u : Text) : units (t ++ u) = units t ++ units u := List.flatMap_append

/-- The text of code units. A leading surrogate must stand right before a trailing one, and nowhere else may
either stand. -/
def textOf? : List Nat → Option Text
  | [] => some []
  | n :: rest =>
    if isTrailing n then none
    else if isLeading n then
      match rest with
      | m :: rest =>
        if isTrailing m then (textOf? rest).map (Char.ofNat (pairValue n m) :: ·) else none
      | [] => none
    else (textOf? rest).map (Char.ofNat n :: ·)

/-! ### Unit escapes -/

def hexDigit? (c : Char) : Option Nat :=
  if '0' ≤ c ∧ c ≤ '9' then some (c.toNat - '0'.toNat)
  else if 'a' ≤ c ∧ c ≤ 'f' then some (c.toNat - 'a'.toNat + 10)
  else if 'A' ≤ c ∧ c ≤ 'F' then some (c.toNat - 'A'.toNat + 10)
  else none

/-- Where the first phase stands: after an even or an odd number of backslashes, after the backslash of a unit
escape and perhaps some `u`, or after some of its digits, with their value and how many more come after the next. -/
inductive Place
  | even
  | odd
  | marker
  | digits (value more : Nat)

def translateFrom : Place → Text → Option (List Nat)
  | .even, [] => some []
  | .odd, [] => some []
  | .marker, [] => none
  | .digits _ _, [] => none
  | .even, c :: rest =>
    if c = '\\' then
      if rest.head? = some 'u' then translateFrom .marker rest
      else (translateFrom .odd rest).map (codeUnits c ++ ·)
    else (translateFrom .even rest).map (codeUnits c ++ ·)
  | .odd, c :: rest => (translateFrom .even rest).map (codeUnits c ++ ·)
  | .marker, c :: rest =>
    if c = 'u' then translateFrom .marker rest
    else (hexDigit? c).bind fun d => translateFrom (.digits d 2) rest
  | .digits value more, c :: rest =>
    (hexDigit? c).bind fun d =>
      match more with
      | 0 => (translateFrom .even rest).map ((value * 16 + d) :: ·)
      | more + 1 => translateFrom (.digits (value * 16 + d) more) rest

/-! ### Literals -/

/-- A string literal with the code units that it stands for, or a unit outside of literals. -/
inductive Lexeme
  | unit (n : Nat)
  | string (value : List Nat)
deriving DecidableEq

def quote : Nat := '"'.toNat

def backslash : Nat := '\\'.toNat

/-- The unit that a one-letter escape sequence stands for. -/
def letterEscape? (n : Nat) : Option Nat :=
  if n = 'b'.toNat then some 0x08
  else if n = 't'.toNat then some 0x09
  else if n = 'n'.toNat then some 0x0A
  else if n = 'f'.toNat then some 0x0C
  else if n = 'r'.toNat then some 0x0D
  else if n = 's'.toNat then some 0x20
  else if n = quote ∨ n = '\''.toNat ∨ n = backslash then some n
  else none

def octalDigit? (n : Nat) : Option Nat :=
  if '0'.toNat ≤ n ∧ n ≤ '7'.toNat then some (n - '0'.toNat) else none

/-- Where the second phase stands. An escape sequence of octal digits has up to three of them if the first is at
most three, and up to two otherwise. -/
inductive Spot
  | outside
  | inside (value : List Nat)
  | escaped (value : List Nat)
  | octal (value : List Nat) (code more : Nat)

/-- A unit inside a literal. No line ends there. -/
def insideStep (value : List Nat) (n : Nat) : Option (Spot × List Lexeme) :=
  if n = quote then some (.outside, [.string value])
  else if n = backslash then some (.escaped value, [])
  else if n = '\n'.toNat ∨ n = '\r'.toNat then none
  else some (.inside (value ++ [n]), [])

def Spot.step : Spot → Nat → Option (Spot × List Lexeme)
  | .outside, n => if n = quote then some (.inside [], []) else some (.outside, [.unit n])
  | .inside value, n => insideStep value n
  | .escaped value, n =>
    match letterEscape? n with
    | some m => some (.inside (value ++ [m]), [])
    | none => (octalDigit? n).map fun d => (.octal value d (if d ≤ 3 then 2 else 1), [])
  | .octal value code more, n =>
    match more, octalDigit? n with
    | more + 1, some d => some (.octal value (code * 8 + d) more, [])
    | _, _ => insideStep (value ++ [code]) n

def lexFrom : Spot → List Nat → Option (List Lexeme)
  | .outside, [] => some []
  | _, [] => none
  | spot, n :: rest => (spot.step n).bind fun step => (lexFrom step.1 rest).map (step.2 ++ ·)

/-- The lexemes of a text, by both phases. -/
def read (t : Text) : Option (List Lexeme) := (translateFrom .even t).bind (lexFrom .outside)

variable {t u left : Text} {ns : List Nat} {ls ms : List Lexeme}

/-! ### Parts of a text -/

/-- The part reads as the lexemes, whatever follows it. -/
def Reads (t : Text) (ls : List Lexeme) : Prop := ∀ rest, read (t ++ rest) = (read rest).map (ls ++ ·)

/-- The first phase turns the part into the units, whatever follows it. -/
def Translates (t : Text) (ns : List Nat) : Prop :=
  ∀ rest, translateFrom .even (t ++ rest) = (translateFrom .even rest).map (ns ++ ·)

theorem lexFrom_cons (spot : Spot) (n : Nat) (rest : List Nat) :
    lexFrom spot (n :: rest) =
      (spot.step n).bind fun step => (lexFrom step.1 rest).map (step.2 ++ ·) := by
  cases spot <;> rfl

/-- Units that the second phase reads to their end leave it outside of literals. -/
theorem lexFrom_append {spot : Spot} (h : lexFrom spot ns = some ls) (rest : List Nat) :
    lexFrom spot (ns ++ rest) = (lexFrom .outside rest).map (ls ++ ·) := by
  induction ns generalizing spot ls with
  | nil =>
      cases spot <;> simp only [lexFrom, reduceCtorEq, Option.some.injEq] at h
      subst h
      simp
  | cons n ns ih =>
      rw [lexFrom_cons] at h
      obtain ⟨⟨next, found⟩, hstep, h⟩ := Option.bind_eq_some_iff.mp h
      obtain ⟨later, hlater, rfl⟩ := Option.map_eq_some_iff.mp h
      rw [List.cons_append, lexFrom_cons, hstep, Option.bind_some, ih hlater]
      simp [Function.comp_def]

theorem Translates.reads (ht : Translates t ns) (hns : lexFrom .outside ns = some ls) : Reads t ls := by
  intro rest
  unfold read
  rw [ht rest]
  cases translateFrom .even rest with
  | none => rfl
  | some later => exact lexFrom_append hns later

theorem Translates.append {ms : List Nat} (ht : Translates t ns) (hu : Translates u ms) :
    Translates (t ++ u) (ns ++ ms) := by
  intro rest
  rw [List.append_assoc, ht, hu, Option.map_map]
  simp [Function.comp_def]

theorem Reads.append (ht : Reads t ls) (hu : Reads u ms) : Reads (t ++ u) (ls ++ ms) := by
  intro rest
  rw [List.append_assoc, ht, hu, Option.map_map]
  simp [Function.comp_def]

theorem Reads.read_eq (h : Reads t ls) : read t = some ls := by
  have hnil : read [] = some [] := rfl
  simpa [hnil] using h []

theorem reads_nil : Reads [] [] := by
  intro rest
  simp

/-! ### Characters that stand for themselves -/

theorem translates_char {c : Char} (h : c ≠ '\\') : Translates [c] (codeUnits c) := by
  intro rest
  rw [List.singleton_append, translateFrom, if_neg h]

theorem translates_units (h : '\\' ∉ t) : Translates t (units t) := by
  induction t with
  | nil =>
      intro rest
      simp [units]
  | cons c t ih =>
      obtain ⟨hc, ht⟩ := not_or.mp (List.mem_cons.not.mp h)
      exact (translates_char (Ne.symm hc)).append (ih ht)

/-- The units of a character past the basic plane are surrogates, and any other is its own unit. -/
theorem mem_codeUnits_iff_of_lt {c : Char} {n : Nat} (h : n < 0xD800) : n ∈ codeUnits c ↔ n = c.toNat := by
  unfold codeUnits
  simp only
  split
  · exact List.mem_singleton
  · rename_i hbig
    simp only [List.mem_cons, List.not_mem_nil, or_false]
    omega

theorem mem_units_iff_of_lt {c : Char} (h : c.toNat < 0xD800) : c.toNat ∈ units t ↔ c ∈ t := by
  unfold units
  simp only [List.mem_flatMap, mem_codeUnits_iff_of_lt h, Char.toNat_inj, exists_eq_right']

/-- The lexemes of a text outside of literals. -/
def plain (t : Text) : List Lexeme := (units t).map .unit

theorem mem_plain_iff {c : Char} (h : c.toNat < 0xD800) : .unit c.toNat ∈ plain t ↔ c ∈ t := by
  rw [plain, List.mem_map, ← mem_units_iff_of_lt h]
  simp

theorem lexFrom_outside (h : quote ∉ ns) : lexFrom .outside ns = some (ns.map .unit) := by
  induction ns with
  | nil => rfl
  | cons n ns ih =>
      obtain ⟨hn, hns⟩ := not_or.mp (List.mem_cons.not.mp h)
      rw [lexFrom_cons, Spot.step, if_neg (Ne.symm hn), Option.bind_some, ih hns]
      rfl

/-- A part without quotation marks and backslashes reads as its own units. -/
theorem reads_plain (hquote : '"' ∉ t) (hslash : '\\' ∉ t) : Reads t (plain t) := by
  have hunits : quote ∉ units t := (mem_units_iff_of_lt (c := '"') (by decide)).not.mpr hquote
  exact (translates_units hslash).reads (lexFrom_outside hunits)

/-! ### After a part that was read to its end

Without a promise about what may follow, a part is known only to be read by itself. A character that neither
begins nor continues a unit escape then still starts afresh. -/

theorem translateFrom_append_cons {c : Char} (hslash : c ≠ '\\') (hletter : c ≠ 'u') {place : Place}
    (h : translateFrom place t = some ns) (rest : Text) :
    translateFrom place (t ++ c :: rest) = (translateFrom .even rest).map (ns ++ codeUnits c ++ ·) := by
  induction t generalizing place ns with
  | nil =>
      cases place <;> simp only [translateFrom, reduceCtorEq, Option.some.injEq] at h
      · rw [← h, List.nil_append, translateFrom, if_neg hslash]
        rfl
      · rw [← h, List.nil_append, translateFrom]
        rfl
  | cons d t ih =>
      rw [List.cons_append]
      cases place with
      | even =>
          have hhead : (t ++ c :: rest).head? = some 'u' ↔ t.head? = some 'u' := by
            cases t <;> simp [hletter]
          rw [translateFrom] at h ⊢
          simp only [hhead]
          split at h
          · rename_i hd
            rw [if_pos hd]
            split at h
            · rename_i hmarker
              rw [if_pos hmarker, ih h]
            · rename_i hmarker
              obtain ⟨later, hlater, rfl⟩ := Option.map_eq_some_iff.mp h
              rw [if_neg hmarker, ih hlater, Option.map_map]
              simp [Function.comp_def]
          · rename_i hd
            obtain ⟨later, hlater, rfl⟩ := Option.map_eq_some_iff.mp h
            rw [if_neg hd, ih hlater, Option.map_map]
            simp [Function.comp_def]
      | odd =>
          rw [translateFrom] at h ⊢
          obtain ⟨later, hlater, rfl⟩ := Option.map_eq_some_iff.mp h
          rw [ih hlater, Option.map_map]
          simp [Function.comp_def]
      | marker =>
          rw [translateFrom] at h ⊢
          split at h
          · rename_i hd
            rw [if_pos hd, ih h]
          · rename_i hd
            obtain ⟨digit, hdigit, h⟩ := Option.bind_eq_some_iff.mp h
            rw [if_neg hd, hdigit, Option.bind_some, ih h]
      | digits value more =>
          rw [translateFrom] at h ⊢
          obtain ⟨digit, hdigit, h⟩ := Option.bind_eq_some_iff.mp h
          rw [hdigit, Option.bind_some]
          cases more with
          | zero =>
              obtain ⟨later, hlater, rfl⟩ := Option.map_eq_some_iff.mp h
              simp only
              rw [ih hlater, Option.map_map]
              simp [Function.comp_def]
          | succ more => exact ih h

theorem read_append_closing (h : read t = some ls) (rest : Text) :
    read (t ++ ')' :: rest) = (read rest).map (ls ++ .unit ')'.toNat :: ·) := by
  obtain ⟨ns, hns, hls⟩ := Option.bind_eq_some_iff.mp h
  unfold read
  rw [translateFrom_append_cons (by decide) (by decide) hns]
  cases translateFrom .even rest with
  | none => rfl
  | some later =>
      have hclosing : Spot.step .outside ')'.toNat = some (.outside, [.unit ')'.toNat]) := rfl
      have hunits : codeUnits ')' = [')'.toNat] := rfl
      rw [Option.map_some, Option.bind_some, Option.bind_some, List.append_assoc, lexFrom_append hls, hunits,
        List.singleton_append, lexFrom_cons, hclosing, Option.bind_some, Option.map_map]
      rfl

end Exemplar.Lexical
