import Exemplar.Proofs.Text.Utf8

/-!
# The order of texts

Texts are ordered by their characters, and their encodings by bytes. The two orders agree: the encodings of two
characters part at a byte, and there the later character has the larger one, whatever comes after it.
-/

namespace Exemplar.Utf8

variable {c d : Char} {left right : List UInt8}

theorem cons_ofNat_lt_iff {m n : Nat} (hm : m < 256) (hn : n < 256) :
    UInt8.ofNat m :: left < UInt8.ofNat n :: right ↔ m < n ∨ m = n ∧ left < right := by
  have heq : UInt8.ofNat m = UInt8.ofNat n ↔ m = n := by
    rw [← UInt8.toNat_inj, toNat_ofNat hm, toNat_ofNat hn]
  rw [List.cons_lt_cons_iff, UInt8.lt_iff_toNat_lt, toNat_ofNat hm, toNat_ofNat hn, heq]

theorem encodeChar_append_lt (h : c < d) : encodeChar c ++ left < encodeChar d ++ right := by
  have hlt : c.toNat < d.toNat := h
  have hmax : d.toNat < 0x110000 := by
    have hvalid : d.toNat < 0xD800 ∨ 0xDFFF < d.toNat ∧ d.toNat < 0x110000 := d.valid
    omega
  unfold encodeChar
  generalize c.toNat = m at hlt
  generalize d.toNat = n at hlt hmax
  simp only
  -- The longer encoding has the larger first byte; of one length, the first bytes that differ decide.
  split_ifs <;> simp (disch := omega) only [List.cons_append, List.nil_append, cons_ofNat_lt_iff]
  all_goals omega

theorem encode_lt_encode {s t : Text} (h : s < t) : encode s < encode t := by
  induction h with
  | nil =>
      rw [encode_cons]
      obtain ⟨byte, rest, hbytes⟩ := List.exists_cons_of_ne_nil (encodeChar_ne_nil _)
      rw [hbytes]
      exact List.nil_lt_cons ..
  | rel h =>
      rw [encode_cons, encode_cons]
      exact encodeChar_append_lt h
  | cons _ ih =>
      rw [encode_cons, encode_cons]
      exact List.append_left_lt ih

end Exemplar.Utf8
