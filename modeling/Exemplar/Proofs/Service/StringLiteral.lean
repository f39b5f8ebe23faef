import Exemplar.Proofs.Lexical.Emptied
import Exemplar.Proofs.Lexical.Reading
import Mathlib.Logic.Function.Defs
import Mathlib.Tactic.SplitIfs

/-!
# String literals

A text that is written as a string literal means the text: read by both phases, the literal is one lexeme, and its
value is the code units of the text. The first phase leaves the short escapes alone, because their backslashes come
in pairs or stand before another letter than `u`; so it is back at an even number of backslashes after each
character, whatever character comes next. The second phase then has for each character either an escape sequence
or the units of the character itself, none of which ends the literal or the line.
-/

namespace Exemplar.Service

open Json.Quoted (isLeading isTrailing pairValue)
open Lexical

/-! ### Code units and their text -/

theorem valid_toNat (c : Char) : c.toNat < 0xD800 ∨ 0xDFFF < c.toNat ∧ c.toNat < 0x110000 := c.valid

theorem lt_of_mem_codeUnits {c : Char} {n : Nat} (h : n ∈ codeUnits c) : n < 0x10000 := by
  have hvalid := valid_toNat c
  unfold codeUnits at h
  simp only at h
  split at h
  · rename_i hsmall
    exact List.mem_singleton.mp h ▸ hsmall
  · simp only [List.mem_cons, List.not_mem_nil, or_false] at h
    omega

theorem textOf?_codeUnits (c : Char) (rest : List Nat) :
    textOf? (codeUnits c ++ rest) = (textOf? rest).map (c :: ·) := by
  have hvalid := valid_toNat c
  unfold codeUnits
  simp only
  split
  · have htrailing : isTrailing c.toNat = false := by
      simp only [isTrailing, Bool.and_eq_false_iff, decide_eq_false_iff_not]
      omega
    have hleading : isLeading c.toNat = false := by
      simp only [isLeading, Bool.and_eq_false_iff, decide_eq_false_iff_not]
      omega
    rw [List.singleton_append, textOf?.eq_def]
    simp [htrailing, hleading, Char.ofNat_toNat]
  · rename_i hbig
    have hhigh : (c.toNat - 0x10000) / 0x400 < 0x400 := by omega
    have hlow : (c.toNat - 0x10000) % 0x400 < 0x400 := Nat.mod_lt _ (by decide)
    have hjoin : (c.toNat - 0x10000) / 0x400 * 0x400 + (c.toNat - 0x10000) % 0x400 = c.toNat - 0x10000 :=
      Nat.div_add_mod' ..
    generalize (c.toNat - 0x10000) / 0x400 = high at hhigh hjoin ⊢
    generalize (c.toNat - 0x10000) % 0x400 = low at hlow hjoin ⊢
    have htrailing : isTrailing (0xD800 + high) = false ∧ isTrailing (0xDC00 + low) = true := by
      simp only [isTrailing, Bool.and_eq_false_iff, Bool.and_eq_true, decide_eq_false_iff_not, decide_eq_true_eq]
      omega
    have hleading : isLeading (0xD800 + high) = true := by
      simp only [isLeading, Bool.and_eq_true, decide_eq_true_eq]
      omega
    have hpair : pairValue (0xD800 + high) (0xDC00 + low) = c.toNat := by
      unfold pairValue
      omega
    rw [List.cons_append, List.singleton_append, textOf?.eq_def]
    simp [htrailing, hleading, hpair, Char.ofNat_toNat]

theorem textOf?_units (t : Text) : textOf? (units t) = some t := by
  induction t with
  | nil => rfl
  | cons c t ih =>
      rw [units, List.flatMap_cons, textOf?_codeUnits, ← units, ih]
      rfl

theorem units_injective : Function.Injective units := by
  intro left right h
  have htext : some left = some right := by rw [← textOf?_units, h, textOf?_units]
  exact Option.some.inj htext

/-! ### The first phase -/

theorem translates_unitEscape {n : Nat} (h : n < 0x10000) : Translates (unitEscape n) [n] := by
  have hdigit : ∀ d < 16, hexDigit? (Nat.digitChar d).toUpper = some d ∧ (Nat.digitChar d).toUpper ≠ 'u' := by
    decide
  intro rest
  unfold unitEscape Text.hexWord
  obtain ⟨hfirst, hne⟩ := hdigit (n / 4096 % 16) (by omega)
  have hsecond := (hdigit (n / 256 % 16) (by omega)).1
  have hthird := (hdigit (n / 16 % 16) (by omega)).1
  have hfourth := (hdigit (n % 16) (by omega)).1
  have hvalue : ((n / 4096 % 16 * 16 + n / 256 % 16) * 16 + n / 16 % 16) * 16 + n % 16 = n := by omega
  simp [translateFrom, hfirst, hne, hsecond, hthird, hfourth, hvalue]

theorem translates_unitEscapes {ns : List Nat} (h : ∀ n ∈ ns, n < 0x10000) :
    Translates (ns.flatMap unitEscape) ns := by
  induction ns with
  | nil =>
      intro rest
      simp
  | cons n ns ih =>
      obtain ⟨hn, hns⟩ := List.forall_mem_cons.mp h
      exact (translates_unitEscape hn).append (ih hns)

/-- A backslash before another letter than `u` begins no unit escape, and the letter evens the number out. -/
theorem translates_letterEscape {c : Char} (h : c ≠ 'u') :
    Translates ['\\', c] (codeUnits '\\' ++ codeUnits c) := by
  intro rest
  have hhead : (c :: rest).head? ≠ some 'u' := by simpa using h
  rw [List.cons_append, List.singleton_append, translateFrom, if_pos rfl, if_neg hhead, translateFrom,
    Option.map_map]
  simp [Function.comp_def]

/-! ### The second phase -/

/-- Inside a literal the units stand for the value, whatever comes before and after them. -/
def Stands (ns value : List Nat) : Prop :=
  ∀ before rest, lexFrom (.inside before) (ns ++ rest) = lexFrom (.inside (before ++ value)) rest

theorem Stands.append {ns ms left right : List Nat} (hns : Stands ns left) (hms : Stands ms right) :
    Stands (ns ++ ms) (left ++ right) := by
  intro before rest
  rw [List.append_assoc, hns, hms, List.append_assoc]

theorem stands_letterEscape {n m : Nat} (h : letterEscape? n = some m) : Stands [backslash, n] [m] := by
  intro before rest
  have hopen : Spot.step (.inside before) backslash = some (.escaped before, []) := rfl
  have hletter : Spot.step (.escaped before) n = some (.inside (before ++ [m]), []) := by
    rw [Spot.step, h]
  rw [List.cons_append, List.singleton_append, lexFrom_cons, hopen, Option.bind_some, lexFrom_cons, hletter]
  simp

theorem stands_self {ns : List Nat}
    (h : ∀ n ∈ ns, n ≠ quote ∧ n ≠ backslash ∧ n ≠ '\n'.toNat ∧ n ≠ '\r'.toNat) : Stands ns ns := by
  induction ns with
  | nil =>
      intro before rest
      simp
  | cons n ns ih =>
      obtain ⟨⟨hquote, hslash, hfeed, hret⟩, hns⟩ := List.forall_mem_cons.mp h
      have hself : Stands [n] [n] := by
        intro before rest
        rw [List.singleton_append, lexFrom_cons, Spot.step, insideStep, if_neg hquote, if_neg hslash,
          if_neg (not_or.mpr ⟨hfeed, hret⟩)]
        simp
      exact hself.append (ih hns)

/-! ### Written texts -/

/-- A visible character of ASCII, or the space. -/
def IsAscii (c : Char) : Prop := 0x20 ≤ c.toNat ∧ c.toNat ≤ 0x7E

instance decidableIsAscii (c : Char) : Decidable (IsAscii c) :=
  inferInstanceAs (Decidable (0x20 ≤ c.toNat ∧ c.toNat ≤ 0x7E))

/-- The three ways in which a character is written: by a letter escape, as itself, or by the unit escapes of its
code units. -/
inductive Written (c : Char) : Text → Prop
  | letter (d : Char) (hd : IsAscii d) (hu : d ≠ 'u') (hsmall : c.toNat < 0x80)
      (hescape : letterEscape? d.toNat = some c.toNat) : Written c ['\\', d]
  | self (hc : IsAscii c) (hquote : c ≠ '"') (hslash : c ≠ '\\') : Written c [c]
  | units (hquote : c ≠ '"') (hslash : c ≠ '\\') (hfeed : c ≠ '\n') (hret : c ≠ '\r') :
      Written c ((codeUnits c).flatMap unitEscape)

theorem written_escapeChar (c : Char) : Written c (escapeChar c) := by
  have hchar {n : Nat} (hn : c.toNat = n) : c = Char.ofNat n := by
    rw [← hn, Char.ofNat_toNat]
  unfold escapeChar
  split_ifs with hquote hslash hfeed hret htab hback hform hplain
  · subst hquote
    exact .letter _ (by decide) (by decide) (by decide) rfl
  · subst hslash
    exact .letter _ (by decide) (by decide) (by decide) rfl
  · subst hfeed
    exact .letter _ (by decide) (by decide) (by decide) rfl
  · subst hret
    exact .letter _ (by decide) (by decide) (by decide) rfl
  · subst htab
    exact .letter _ (by decide) (by decide) (by decide) rfl
  · obtain rfl := hchar hback
    exact .letter _ (by decide) (by decide) (by decide) rfl
  · obtain rfl := hchar hform
    exact .letter _ (by decide) (by decide) (by decide) rfl
  · exact .self ⟨hplain.1, Nat.le_of_lt_succ hplain.2⟩ hquote hslash
  · exact .units hquote hslash hfeed hret

theorem codeUnits_of_lt {c : Char} (h : c.toNat < 0x80) : codeUnits c = [c.toNat] := by
  unfold codeUnits
  exact if_pos (by omega)

theorem stands_codeUnits {c : Char} (hquote : c ≠ '"') (hslash : c ≠ '\\') (hfeed : c ≠ '\n') (hret : c ≠ '\r') :
    Stands (codeUnits c) (codeUnits c) := by
  have hunit {d : Char} (hlow : d.toNat < 0xD800) (hne : c ≠ d) : ∀ n ∈ codeUnits c, n ≠ d.toNat := by
    rintro n hn rfl
    exact hne (Char.toNat_inj.mp ((mem_codeUnits_iff_of_lt hlow).mp hn).symm)
  apply stands_self
  intro n hn
  exact ⟨hunit (by decide) hquote n hn, hunit (by decide) hslash n hn, hunit (by decide) hfeed n hn,
    hunit (by decide) hret n hn⟩

theorem exists_stands_escapeChar (c : Char) : ∃ ns, Translates (escapeChar c) ns ∧ Stands ns (codeUnits c) := by
  have hwritten := written_escapeChar c
  generalize escapeChar c = written at hwritten ⊢
  cases hwritten with
  | letter d hd hu hsmall hescape =>
      refine ⟨_, translates_letterEscape hu, ?_⟩
      rw [codeUnits_of_lt hsmall, codeUnits_of_lt (Nat.lt_succ_of_le (Nat.le_succ_of_le hd.2))]
      exact stands_letterEscape hescape
  | self hc hquote hslash =>
      have hfeed : c ≠ '\n' := by
        rintro rfl
        exact absurd hc.1 (by decide)
      have hret : c ≠ '\r' := by
        rintro rfl
        exact absurd hc.1 (by decide)
      exact ⟨_, translates_char hslash, stands_codeUnits hquote hslash hfeed hret⟩
  | units hquote hslash hfeed hret =>
      exact ⟨_, translates_unitEscapes fun n => lt_of_mem_codeUnits, stands_codeUnits hquote hslash hfeed hret⟩

theorem exists_stands_escapeLiteral (t : Text) : ∃ ns, Translates (escapeLiteral t) ns ∧ Stands ns (units t) := by
  induction t with
  | nil => exact ⟨[], fun rest => by simp [escapeLiteral], fun before rest => by simp [units]⟩
  | cons c t ih =>
      obtain ⟨ns, hns, hvalue⟩ := exists_stands_escapeChar c
      obtain ⟨ms, hms, hlater⟩ := ih
      exact ⟨ns ++ ms, hns.append hms, hvalue.append hlater⟩

/-- A written literal reads as the code units of its text, whatever follows it. -/
theorem reads_stringLiteral (t : Text) : Reads ('"' :: escapeLiteral t ++ ['"']) [.string (units t)] := by
  obtain ⟨ns, hns, hvalue⟩ := exists_stands_escapeLiteral t
  have hquote : Translates ['"'] [quote] := translates_char (by decide)
  have hlex : lexFrom .outside ([quote] ++ ns ++ [quote]) = some [.string (units t)] := by
    have hopen : Spot.step .outside quote = some (.inside [], []) := rfl
    rw [List.append_assoc, List.singleton_append, lexFrom_cons, hopen, Option.bind_some, hvalue]
    rfl
  exact ((hquote.append hns).append hquote).reads hlex

/-! ### Emptied literals -/

theorem omitted_unitEscape (n : Nat) : Omitted (unitEscape n) := by
  have hdigit : ∀ d < 16, (Nat.digitChar d).toUpper ≠ '"' ∧ (Nat.digitChar d).toUpper ≠ '\\' := by decide
  have hdigits {ds : List Nat} (hds : ∀ d ∈ ds, d < 16) :
      Omitted ((ds.map Nat.digitChar).map Char.toUpper) := by
    induction ds with
    | nil => exact omitted_nil
    | cons d ds ih =>
        obtain ⟨hd, hds⟩ := List.forall_mem_cons.mp hds
        obtain ⟨hquote, hslash⟩ := hdigit d hd
        exact (omitted_char hquote hslash).append (ih hds)
  apply (omitted_escaped 'u').append
  apply hdigits
  intro d hd
  simp only [List.mem_cons, List.not_mem_nil, or_false] at hd
  omega

theorem omitted_unitEscapes (ns : List Nat) : Omitted (ns.flatMap unitEscape) := by
  induction ns with
  | nil => exact omitted_nil
  | cons n ns ih => exact (omitted_unitEscape n).append ih

theorem omitted_escapeChar (c : Char) : Omitted (escapeChar c) := by
  have hwritten := written_escapeChar c
  generalize escapeChar c = written at hwritten
  cases hwritten with
  | letter d => exact omitted_escaped d
  | self hc hquote hslash => exact omitted_char hquote hslash
  | units => exact omitted_unitEscapes _

theorem omitted_escapeLiteral (t : Text) : Omitted (escapeLiteral t) := by
  induction t with
  | nil => exact omitted_nil
  | cons c t ih => exact (omitted_escapeChar c).append ih

/-! ### Characters of a literal -/

theorem isAscii_of_mem_unitEscape {n : Nat} {c : Char} (h : c ∈ unitEscape n) : IsAscii c := by
  have hdigit : ∀ d < 16, IsAscii (Nat.digitChar d).toUpper := by decide
  rcases List.mem_append.mp h with hopen | hdigits
  · rcases List.mem_pair.mp hopen with rfl | rfl <;> decide
  · obtain ⟨small, hsmall, rfl⟩ := List.mem_map.mp hdigits
    obtain ⟨d, hd, rfl⟩ := List.mem_map.mp hsmall
    apply hdigit
    simp only [List.mem_cons, List.not_mem_nil, or_false] at hd
    omega

theorem isAscii_of_mem_escapeLiteral {t : Text} {c : Char} (h : c ∈ escapeLiteral t) : IsAscii c := by
  obtain ⟨source, -, hc⟩ := List.mem_flatMap.mp h
  have hwritten := written_escapeChar source
  generalize escapeChar source = written at hwritten hc
  cases hwritten with
  | letter d hd =>
      rcases List.mem_cons.mp hc with rfl | hc
      · decide
      · exact List.mem_singleton.mp hc ▸ hd
  | self hsource => exact List.mem_singleton.mp hc ▸ hsource
  | units =>
      obtain ⟨n, -, hn⟩ := List.mem_flatMap.mp hc
      exact isAscii_of_mem_unitEscape hn

theorem exists_first_escapeChar (c : Char) : ∃ first rest, escapeChar c = first :: rest ∧ first ≠ '"' := by
  have hwritten := written_escapeChar c
  generalize escapeChar c = written at hwritten ⊢
  cases hwritten with
  | letter d => exact ⟨_, _, rfl, by decide⟩
  | self hc hquote => exact ⟨_, _, rfl, hquote⟩
  | units =>
      have hunits : ∃ n ns, codeUnits c = n :: ns := by
        unfold codeUnits
        simp only
        split <;> exact ⟨_, _, rfl⟩
      obtain ⟨n, ns, hns⟩ := hunits
      rw [hns]
      exact ⟨_, _, rfl, by decide⟩

/-- A literal opens with one quotation mark, or with the two of an empty one, but never with the three of a text
block. -/
theorem not_opensBlock (t : Text) : ¬ ['"', '"', '"'] <+: '"' :: escapeLiteral t ++ ['"'] := by
  cases t with
  | nil => decide
  | cons c t =>
      obtain ⟨first, rest, hfirst, hquote⟩ := exists_first_escapeChar c
      rw [escapeLiteral, List.flatMap_cons, hfirst]
      simp [Ne.symm hquote]

/-- **A written string literal means its text.** -/
theorem stringLiteral_means_text :
    (∀ t, read ('"' :: escapeLiteral t ++ ['"']) = some [.string (units t)] ∧
      textOf? (units t) = some t ∧
      ¬ ['"', '"', '"'] <+: '"' :: escapeLiteral t ++ ['"'] ∧
      ∀ c ∈ escapeLiteral t, IsAscii c) ∧
      Function.Injective escapeLiteral := by
  constructor
  · intro t
    exact ⟨(reads_stringLiteral t).read_eq, textOf?_units t, not_opensBlock t,
      fun _ => isAscii_of_mem_escapeLiteral⟩
  · intro left right h
    have hread := (reads_stringLiteral left).read_eq
    rw [h, (reads_stringLiteral right).read_eq] at hread
    have hunits : units right = units left := by simpa using hread
    exact (units_injective hunits).symm

/-- A text that looks like a unit escape is not taken for one. -/
example : read ('"' :: escapeLiteral "\\u0041é\n".toList ++ ['"']) =
    some [.string [0x5C, 0x75, 0x30, 0x30, 0x34, 0x31, 0xE9, 0x0A]] := by decide

end Exemplar.Service
