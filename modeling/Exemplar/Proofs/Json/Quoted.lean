import Exemplar.Json.Quoted
import Exemplar.Proofs.Outcome
import Exemplar.Proofs.Text.Utf8
import Mathlib.Tactic.SplitIfs

/-!
# Printed strings

A printed string is read back as the text that was printed. Scanning finds one piece for each byte of the
text, and the code unit of a control character that has no short escape.
-/

namespace Exemplar.Json

open Utf8 (encode encodeChar encodeChar_ascii)

/-- The pieces that stand for a printed character. -/
def written (c : Char) : List Piece :=
  if c.toNat < 0x20 ∧ c.toNat ∉ [0x08, 0x09, 0x0A, 0x0C, 0x0D] then [.unit c.toNat]
  else (encodeChar c).map .byte

/-- A printed string as the scanner reads it. -/
def Quoted.ofText (t : Text) : Quoted := ⟨t.flatMap written, none⟩

namespace Quoted

theorem scan_byte {byte : UInt8} (rest : List UInt8) (hquote : byte ≠ 0x22) (hslash : byte ≠ 0x5C)
    (hlow : 0x20 ≤ byte.toNat) : scan (byte :: rest) = push (.byte byte) (scan rest) := by
  have hcontrol : ¬ byte < 0x20 := by
    rw [UInt8.lt_iff_toNat_lt]
    exact Nat.not_lt.mpr hlow
  rw [scan.eq_def]
  split
  case h_7 hinput =>
    obtain ⟨rfl, rfl⟩ := List.cons.inj hinput
    rw [if_neg hcontrol]
  all_goals simp_all

theorem scan_bytes {bytes rest : List UInt8}
    (h : ∀ byte ∈ bytes, byte ≠ 0x22 ∧ byte ≠ 0x5C ∧ 0x20 ≤ byte.toNat) :
    scan (bytes ++ rest) = (bytes.map .byte).foldr push (scan rest) := by
  induction bytes with
  | nil => rfl
  | cons byte bytes ih =>
      obtain ⟨⟨hquote, hslash, hlow⟩, hbytes⟩ := List.forall_mem_cons.mp h
      rw [List.cons_append, scan_byte _ hquote hslash hlow, ih hbytes]
      rfl

theorem plain_of_mem_encodeChar {c : Char} (hquote : c ≠ '"') (hslash : c ≠ '\\')
    (hlow : 0x20 ≤ c.toNat) :
    ∀ byte ∈ encodeChar c, byte ≠ 0x22 ∧ byte ≠ 0x5C ∧ 0x20 ≤ byte.toNat := by
  intro byte hbyte
  by_cases hascii : c.toNat < 0x80
  · rw [encodeChar_ascii hascii, List.mem_singleton] at hbyte
    have hcode : byte.toNat = c.toNat := by rw [hbyte, Utf8.toNat_ofNat (by omega)]
    refine ⟨?_, ?_, by omega⟩
    · rintro rfl
      exact hquote (Char.toNat_inj.mp hcode.symm)
    · rintro rfl
      exact hslash (Char.toNat_inj.mp hcode.symm)
  · have hpast := Utf8.le_of_mem_encodeChar (by omega) hbyte
    refine ⟨?_, ?_, by omega⟩ <;> rintro rfl <;> exact absurd hpast (by decide)

theorem scan_letter {letter byte : UInt8} (rest : List UInt8)
    (h : letterEscape? letter = some byte) (hunit : letter ≠ 0x75) :
    scan (0x5C :: letter :: rest) = push (.byte byte) (scan rest) := by
  rw [scan, h]
  all_goals simp_all

theorem scan_unit {a b c d : UInt8} {n : Nat} (rest : List UInt8) (h : unit? a b c d = some n) :
    scan (0x5C :: 0x75 :: a :: b :: c :: d :: rest) = push (.unit n) (scan rest) := by
  rw [scan, h]

theorem exists_digits_of_control {n : Nat} (h : n < 0x20) :
    ∃ a b, encode (Text.hexWord n) = [0x30, 0x30, a, b] ∧ unit? 0x30 0x30 a b = some n := by
  have hdigits : ∀ n < 0x20,
      encode (Text.hexWord n) = [0x30, 0x30, UInt8.ofNat (Nat.digitChar (n / 16)).toNat,
        UInt8.ofNat (Nat.digitChar (n % 16)).toNat] ∧
      unit? 0x30 0x30 (UInt8.ofNat (Nat.digitChar (n / 16)).toNat)
        (UInt8.ofNat (Nat.digitChar (n % 16)).toNat) = some n := by
    decide
  exact ⟨_, _, hdigits n h⟩

theorem scan_escapeChar (c : Char) (rest : List UInt8) :
    scan (encode (escapeChar c) ++ rest) = (written c).foldr push (scan rest) := by
  have hchar {n : Nat} (hn : c.toNat = n) : c = Char.ofNat n := by
    rw [← hn, Char.ofNat_toNat]
  unfold escapeChar
  split_ifs with hquote hslash hback hform hfeed hret htab hlow
  · subst hquote
    exact scan_letter rest rfl (by decide)
  · subst hslash
    exact scan_letter rest rfl (by decide)
  · obtain rfl := hchar hback
    exact scan_letter rest rfl (by decide)
  · obtain rfl := hchar hform
    exact scan_letter rest rfl (by decide)
  · subst hfeed
    exact scan_letter rest rfl (by decide)
  · subst hret
    exact scan_letter rest rfl (by decide)
  · subst htab
    exact scan_letter rest rfl (by decide)
  · obtain ⟨a, b, hdigits, hunit⟩ := exists_digits_of_control hlow
    have hother : c.toNat ∉ [0x08, 0x09, 0x0A, 0x0C, 0x0D] := by
      simp only [List.mem_cons, List.not_mem_nil, or_false, not_or]
      exact ⟨hback, fun h => htab (hchar h), fun h => hfeed (hchar h), hform, fun h => hret (hchar h)⟩
    rw [Utf8.encode_append, hdigits, written, if_pos ⟨hlow, hother⟩]
    exact scan_unit rest hunit
  · rw [written, if_neg (fun h => hlow h.1)]
    rw [show encode [c] = encodeChar c from List.flatMap_singleton ..]
    exact scan_bytes (plain_of_mem_encodeChar hquote hslash (Nat.not_lt.mp hlow))

/-- A printed string is scanned up to its closing mark. -/
theorem scan_escaped (t : Text) (rest : List UInt8) :
    scan (encode (t.flatMap escapeChar) ++ 0x22 :: rest) = (ofText t, rest) := by
  have hpush (pieces : List Piece) (rest : List UInt8) :
      pieces.foldr push (⟨[], none⟩, rest) = (⟨pieces, none⟩, rest) := by
    induction pieces with
    | nil => rfl
    | cons piece pieces ih => rw [List.foldr_cons, ih]; rfl
  have hfold : scan (encode (t.flatMap escapeChar) ++ 0x22 :: rest) =
      (t.flatMap written).foldr push (⟨[], none⟩, rest) := by
    induction t with
    | nil => rfl
    | cons c t ih =>
        rw [List.flatMap_cons, List.flatMap_cons, Utf8.encode_append, List.append_assoc,
          scan_escapeChar, ih, List.foldr_append]
  rw [hfold, hpush]
  rfl

/-! ### The text of a printed string -/

theorem bytes_map_byte (bs : List UInt8) (pieces : List Piece) :
    bytes none (bs.map .byte ++ pieces) = (bytes none pieces).map (bs ++ ·) := by
  induction bs with
  | nil => cases hbytes : bytes none pieces <;> simp [Except.map, hbytes]
  | cons b bs ih =>
      rw [List.map_cons, List.cons_append, bytes, ih]
      cases bytes none pieces <;> rfl

theorem bytes_written (c : Char) (pieces : List Piece) :
    bytes none (written c ++ pieces) = (bytes none pieces).map (encodeChar c ++ ·) := by
  unfold written
  split
  · rename_i h
    have htrailing : isTrailing c.toNat = false := by
      simp only [isTrailing, Bool.and_eq_false_iff, decide_eq_false_iff_not]
      omega
    have hleading : isLeading c.toNat = false := by
      simp only [isLeading, Bool.and_eq_false_iff, decide_eq_false_iff_not]
      omega
    rw [List.singleton_append, bytes.eq_def]
    simp [htrailing, hleading, Char.ofNat_toNat]
  · exact bytes_map_byte _ _

theorem text_ofText (t : Text) : (ofText t).text = .ok t := by
  have hbytes : bytes none (t.flatMap written) = .ok (encode t) := by
    induction t with
    | nil => rfl
    | cons c t ih =>
        rw [List.flatMap_cons, bytes_written, ih]
        rfl
  unfold text ofText
  simp only [hbytes]
  rw [ok_bind, Utf8.decode?_encode]
  rfl

end Quoted

end Exemplar.Json
