import Exemplar.Proofs.Text.Controls
import Exemplar.Text.Utf8
import Mathlib.Algebra.Group.Nat.Defs
import Mathlib.Tactic.SplitIfs

/-!
# Encoding and decoding

What was encoded decodes to the same text, whatever follows it. The bytes of a character past U+007F all lie
past 0x7F, so that no byte of the encoded text looks like an ASCII character that is not there.

Bytes that are no encoding of a text keep to this as well: an ASCII character is read exactly where its byte
stands, whatever was begun before it, and what stands on its two sides is read as if it stood alone.
-/

namespace Exemplar.Utf8

theorem encode_append (left right : Text) : encode (left ++ right) = encode left ++ encode right :=
  List.flatMap_append

theorem encode_cons (c : Char) (t : Text) : encode (c :: t) = encodeChar c ++ encode t :=
  List.flatMap_cons ..

theorem encodeChar_ne_nil (c : Char) : encodeChar c ≠ [] := by
  simp only [encodeChar]
  split_ifs <;> exact List.cons_ne_nil _ _

theorem toNat_ofNat {n : Nat} (h : n < 256) : (UInt8.ofNat n).toNat = n :=
  UInt8.toNat_ofNat_of_lt' h

/-! ### One character -/

section Character

variable {n : Nat} {rest : List UInt8}

theorem readFrom_pending {bits low high more : Nat} {byte : UInt8} (hlow : low ≤ byte.toNat)
    (hhigh : byte.toNat ≤ high) :
    readFrom (some ⟨bits, low, high, more + 1⟩) (byte :: rest) =
      readFrom (some ⟨bits * 64 + (byte.toNat - 0x80), 0x80, 0xBF, more⟩) rest := by
  rw [readFrom, if_pos ⟨hlow, hhigh⟩]

theorem toNat_continuation : (UInt8.ofNat (0x80 + n % 64)).toNat = 0x80 + n % 64 :=
  toNat_ofNat (by omega)

theorem readFrom_continuation {bits more : Nat} :
    readFrom (some ⟨bits, 0x80, 0xBF, more + 1⟩) (UInt8.ofNat (0x80 + n % 64) :: rest) =
      readFrom (some ⟨bits * 64 + n % 64, 0x80, 0xBF, more⟩) rest := by
  rw [readFrom_pending (by rw [toNat_continuation]; omega) (by rw [toNat_continuation]; omega),
    toNat_continuation, Nat.add_sub_cancel_left]

theorem readFrom_last {bits : Nat} :
    readFrom (some ⟨bits, 0x80, 0xBF, 0⟩) (UInt8.ofNat (0x80 + n % 64) :: rest) =
      some (Char.ofNat (bits * 64 + n % 64)) :: readFrom none rest := by
  have hrange : 0x80 ≤ (UInt8.ofNat (0x80 + n % 64)).toNat ∧
      (UInt8.ofNat (0x80 + n % 64)).toNat ≤ 0xBF := by
    rw [toNat_continuation]
    omega
  rw [readFrom, if_pos hrange, toNat_continuation]
  simp only [Nat.add_sub_cancel_left]

theorem readFrom_lead {byte : UInt8} {p : Pending} (h : lead byte = .opens p) :
    readFrom none (byte :: rest) = readFrom (some p) rest := by
  rw [readFrom, h]

theorem lead_two (hlow : 0x80 ≤ n) (hhigh : n < 0x800) :
    lead (UInt8.ofNat (0xC0 + n / 64)) = .opens ⟨n / 64, 0x80, 0xBF, 0⟩ := by
  have hbyte : (UInt8.ofNat (0xC0 + n / 64)).toNat = 0xC0 + n / 64 := toNat_ofNat (by omega)
  simp only [lead, hbyte]
  rw [if_neg (by omega), if_neg (by omega), if_pos (by omega), Nat.add_sub_cancel_left]

theorem lead_three (hlow : 0x800 ≤ n) (hhigh : n < 0x10000) :
    lead (UInt8.ofNat (0xE0 + n / 4096)) =
      .opens ⟨n / 4096, if n < 0x1000 then 0xA0 else 0x80,
        if n / 4096 = 0xD then 0x9F else 0xBF, 1⟩ := by
  have hbyte : (UInt8.ofNat (0xE0 + n / 4096)).toNat = 0xE0 + n / 4096 := toNat_ofNat (by omega)
  have hfirst : 0xE0 + n / 4096 = 0xE0 ↔ n < 0x1000 := by omega
  have hsurrogates : 0xE0 + n / 4096 = 0xED ↔ n / 4096 = 0xD := by omega
  simp only [lead, hbyte, hfirst, hsurrogates]
  rw [if_neg (by omega), if_neg (by omega), if_neg (by omega), if_pos (by omega),
    Nat.add_sub_cancel_left]

theorem lead_four (hlow : 0x10000 ≤ n) (hhigh : n < 0x110000) :
    lead (UInt8.ofNat (0xF0 + n / 262144)) =
      .opens ⟨n / 262144, if n < 0x40000 then 0x90 else 0x80,
        if 0x100000 ≤ n then 0x8F else 0xBF, 2⟩ := by
  have hbyte : (UInt8.ofNat (0xF0 + n / 262144)).toNat = 0xF0 + n / 262144 :=
    toNat_ofNat (by omega)
  have hfirst : 0xF0 + n / 262144 = 0xF0 ↔ n < 0x40000 := by omega
  have hlast : 0xF0 + n / 262144 = 0xF4 ↔ 0x100000 ≤ n := by omega
  simp only [lead, hbyte, hfirst, hlast]
  rw [if_neg (by omega), if_neg (by omega), if_neg (by omega), if_neg (by omega), if_pos (by omega),
    Nat.add_sub_cancel_left]

theorem readFrom_encodeChar (c : Char) (rest : List UInt8) :
    readFrom none (encodeChar c ++ rest) = some c :: readFrom none rest := by
  have hvalid : c.toNat < 0xD800 ∨ 0xDFFF < c.toNat ∧ c.toNat < 0x110000 := c.valid
  have hchar := Char.ofNat_toNat c
  unfold encodeChar
  generalize c.toNat = n at hvalid hchar ⊢
  simp only
  split
  · have hbyte : (UInt8.ofNat n).toNat = n := toNat_ofNat (by omega)
    have hlead : lead (UInt8.ofNat n) = .complete (Char.ofNat n) := by
      simp only [lead, hbyte]
      rw [if_pos (by omega)]
    rw [List.singleton_append, readFrom, hlead, hchar]
  · split
    · rw [List.cons_append, readFrom_lead (lead_two (by omega) (by omega)), List.singleton_append,
        readFrom_last, show n / 64 * 64 + n % 64 = n by omega, hchar]
    · split
      · rw [List.cons_append, readFrom_lead (lead_three (by omega) (by omega)), List.cons_append,
          readFrom_pending, toNat_continuation, List.singleton_append, readFrom_last]
        · rw [show (n / 4096 * 64 + (0x80 + n / 64 % 64 - 0x80)) * 64 + n % 64 = n by omega, hchar]
        · rw [toNat_continuation]
          split <;> omega
        · rw [toNat_continuation]
          split <;> omega
      · rw [List.cons_append, readFrom_lead (lead_four (by omega) (by omega)), List.cons_append,
          readFrom_pending, toNat_continuation, List.cons_append, readFrom_continuation,
          List.singleton_append, readFrom_last]
        · rw [show ((n / 262144 * 64 + (0x80 + n / 4096 % 64 - 0x80)) * 64 + n / 64 % 64) * 64 +
            n % 64 = n by omega, hchar]
        · rw [toNat_continuation]
          split <;> omega
        · rw [toNat_continuation]
          split <;> omega

end Character

theorem read_encode (t : Text) : read (encode t) = t.map some := by
  unfold read
  induction t with
  | nil => rfl
  | cons c t ih => rw [encode_cons, readFrom_encodeChar, ih, List.map_cons]

theorem decode?_encode (t : Text) : decode? (encode t) = some t := by
  rw [decode?, read_encode]
  induction t with
  | nil => rfl
  | cons c t ih =>
      rw [List.map_cons, List.mapM_cons, ih]
      rfl

theorem decodeLossy_encode (t : Text) : decodeLossy (encode t) = t := by
  rw [decodeLossy, read_encode, List.map_map]
  exact List.map_id t

/-! ### ASCII -/

theorem encodeChar_ascii {c : Char} (h : c.toNat < 0x80) : encodeChar c = [UInt8.ofNat c.toNat] := by
  unfold encodeChar
  exact if_pos h

/-- Past U+007F a character has no ASCII byte. -/
theorem le_of_mem_encodeChar {c : Char} (h : 0x80 ≤ c.toNat) {byte : UInt8}
    (hbyte : byte ∈ encodeChar c) : 0x80 ≤ byte.toNat := by
  have hmax : c.toNat < 0x110000 := by
    have hvalid : c.toNat < 0xD800 ∨ 0xDFFF < c.toNat ∧ c.toNat < 0x110000 := c.valid
    omega
  have hpast {k : Nat} (hlow : 0x80 ≤ k) (hhigh : k < 256) : 0x80 ≤ (UInt8.ofNat k).toNat := by
    rwa [toNat_ofNat hhigh]
  unfold encodeChar at hbyte
  generalize c.toNat = n at h hmax hbyte
  simp only at hbyte
  split at hbyte
  · omega
  · split at hbyte
    · simp only [List.mem_cons, List.not_mem_nil, or_false] at hbyte
      rcases hbyte with rfl | rfl <;> exact hpast (by omega) (by omega)
    · split at hbyte <;> simp only [List.mem_cons, List.not_mem_nil, or_false] at hbyte
      · rcases hbyte with rfl | rfl | rfl <;> exact hpast (by omega) (by omega)
      · rcases hbyte with rfl | rfl | rfl | rfl <;> exact hpast (by omega) (by omega)

/-! ### Reading around an ASCII character -/

/-- The least value that a sequence begun can become. -/
def Pending.least (p : Pending) : Nat := (p.bits * 64 + (p.low - 0x80)) * 64 ^ p.more

/-- What lies above every value that a sequence begun can become. -/
def Pending.bound (p : Pending) : Nat := (p.bits * 64 + (p.high - 0x80) + 1) * 64 ^ p.more

/-- A sequence that only bytes past ASCII carry on, to characters past ASCII and away from the surrogates. -/
structure Pending.Sound (p : Pending) : Prop where
  low : 0x80 ≤ p.low
  least : 0x80 ≤ p.least
  valid : p.bound ≤ 0xD800 ∨ 0xE000 ≤ p.least ∧ p.bound ≤ 0x110000

theorem Pending.sound_of_lead {byte : UInt8} {p : Pending} (h : lead byte = .opens p) : p.Sound := by
  unfold lead at h
  generalize byte.toNat = n at h
  simp only at h
  -- Each class of lead bytes has its own range for the byte that comes next.
  split_ifs at h <;> simp only [Lead.opens.injEq] at h <;> subst h
  all_goals
    refine ⟨?_, ?_, ?_⟩ <;> simp only [least, bound] <;> omega

theorem Pending.Sound.next {bits low high more n : Nat} (hp : Pending.Sound ⟨bits, low, high, more + 1⟩)
    (hlow : low ≤ n) (hhigh : n ≤ high) :
    Pending.Sound ⟨bits * 64 + (n - 0x80), 0x80, 0xBF, more⟩ := by
  have hleast : Pending.least ⟨bits, low, high, more + 1⟩ ≤
      Pending.least ⟨bits * 64 + (n - 0x80), 0x80, 0xBF, more⟩ := by
    simp only [Pending.least, Nat.pow_succ', ← Nat.mul_assoc]
    exact Nat.mul_le_mul_right _ (by omega)
  have hbound : Pending.bound ⟨bits * 64 + (n - 0x80), 0x80, 0xBF, more⟩ ≤
      Pending.bound ⟨bits, low, high, more + 1⟩ := by
    simp only [Pending.bound, Nat.pow_succ', ← Nat.mul_assoc]
    exact Nat.mul_le_mul_right _ (by omega)
  refine ⟨Nat.le_refl _, Nat.le_trans hp.least hleast, ?_⟩
  rcases hp.valid with h | ⟨h, hhighest⟩
  · exact Or.inl (Nat.le_trans hbound h)
  · exact Or.inr ⟨Nat.le_trans h hleast, Nat.le_trans hbound hhighest⟩

theorem Pending.Sound.le_toNat {bits low high n : Nat} (hp : Pending.Sound ⟨bits, low, high, 0⟩)
    (hlow : low ≤ n) (hhigh : n ≤ high) : 0x80 ≤ (Char.ofNat (bits * 64 + (n - 0x80))).toNat := by
  obtain ⟨-, hleast, hvalid⟩ := hp
  simp only [Pending.least, Pending.bound, Nat.pow_zero, Nat.mul_one] at hleast hvalid
  have hchar : (bits * 64 + (n - 0x80)).isValidChar := by
    unfold Nat.isValidChar
    omega
  rw [Text.toNat_ofNat hchar]
  omega

section Cut

variable {p : Option Pending} {byte : UInt8} {c : Char} {bytes : List UInt8}

theorem readFrom_miss {q : Pending} (h : ¬(q.low ≤ byte.toNat ∧ byte.toNat ≤ q.high))
    (rest : List UInt8) :
    readFrom (some q) (byte :: rest) = none :: readFrom none (byte :: rest) := by
  simp only [readFrom, if_neg h]

/-- An ASCII byte ends what was begun, as ill-formed, and is read by itself. -/
theorem readFrom_ascii (hp : ∀ q ∈ p, q.Sound) (h : byte.toNat < 0x80) (rest : List UInt8) :
    readFrom p (byte :: rest) =
      (readFrom p [] ++ [some (Char.ofNat byte.toNat)]) ++ readFrom none rest := by
  have hlead : lead byte = .complete (Char.ofNat byte.toNat) := by
    simp only [lead]
    rw [if_pos h]
  cases p with
  | none => simp [readFrom, hlead]
  | some q =>
      have hlow := (hp q rfl).low
      rw [readFrom_miss (by omega)]
      simp [readFrom, hlead]

theorem readFrom_past_none (h : 0x80 ≤ byte.toNat) :
    ∃ emitted next, (∀ q ∈ next, q.Sound) ∧ (∀ c, some c ∈ emitted → 0x80 ≤ c.toNat) ∧
      ∀ rest, readFrom none (byte :: rest) = emitted ++ readFrom next rest := by
  cases hlead : lead byte with
  | complete c =>
      simp only [lead] at hlead
      rw [if_neg (by omega)] at hlead
      split_ifs at hlead
  | opens q =>
      refine ⟨[], some q, ?_, by simp, fun rest => by simp [readFrom, hlead]⟩
      rintro _ ⟨⟩
      exact Pending.sound_of_lead hlead
  | illFormed => exact ⟨[none], none, by simp, by simp, fun rest => by simp [readFrom, hlead]⟩

/-- A byte past ASCII gives no ASCII character, be it now or later. -/
theorem readFrom_past (hp : ∀ q ∈ p, q.Sound) (h : 0x80 ≤ byte.toNat) :
    ∃ emitted next, (∀ q ∈ next, q.Sound) ∧ (∀ c, some c ∈ emitted → 0x80 ≤ c.toNat) ∧
      ∀ rest, readFrom p (byte :: rest) = emitted ++ readFrom next rest := by
  cases p with
  | none => exact readFrom_past_none h
  | some q =>
      by_cases hfits : q.low ≤ byte.toNat ∧ byte.toNat ≤ q.high
      · obtain ⟨bits, low, high, more⟩ := q
        have hq := hp _ rfl
        cases more with
        | zero =>
            refine ⟨[some (Char.ofNat (bits * 64 + (byte.toNat - 0x80)))], none, by simp, ?_, ?_⟩
            · intro c hc
              rw [Option.some.inj (List.mem_singleton.mp hc)]
              exact hq.le_toNat hfits.1 hfits.2
            · intro rest
              simp [readFrom, hfits]
        | succ more =>
            refine ⟨[], some ⟨bits * 64 + (byte.toNat - 0x80), 0x80, 0xBF, more⟩, ?_, by simp, ?_⟩
            · intro next hnext
              obtain rfl := Option.mem_some_iff.mp hnext
              exact hq.next hfits.1 hfits.2
            · exact fun rest => readFrom_pending hfits.1 hfits.2
      · obtain ⟨emitted, next, hnext, hemitted, hread⟩ := readFrom_past_none h
        refine ⟨none :: emitted, next, hnext, by simpa using hemitted, ?_⟩
        intro rest
        rw [readFrom_miss hfits, hread, List.cons_append]

theorem readFrom_append_ascii (hp : ∀ q ∈ p, q.Sound) (h : byte.toNat < 0x80) (left right : List UInt8) :
    readFrom p (left ++ byte :: right) =
      readFrom p left ++ some (Char.ofNat byte.toNat) :: readFrom none right := by
  induction left generalizing p with
  | nil =>
      rw [List.nil_append, readFrom_ascii hp h, List.append_assoc]
      rfl
  | cons first left ih =>
      rw [List.cons_append]
      by_cases hfirst : first.toNat < 0x80
      · rw [readFrom_ascii hp hfirst, readFrom_ascii hp hfirst, ih (by simp)]
        simp only [List.append_assoc]
      · obtain ⟨emitted, next, hnext, -, hread⟩ := readFrom_past hp (Nat.not_lt.mp hfirst)
        rw [hread, hread, ih hnext, List.append_assoc]

/-- What is left of an element, up to the part in front that does not have it. -/
theorem exists_of_append_eq {α : Type} {xs ys before after : List α} {z : α}
    (h : xs ++ ys = before ++ z :: after) (hz : z ∉ xs) :
    ∃ middle, before = xs ++ middle ∧ ys = middle ++ z :: after := by
  rcases List.append_eq_append_iff.mp h with ⟨middle, hbefore, hys⟩ | ⟨middle, hxs, hz'⟩
  · exact ⟨middle, hbefore, hys⟩
  · cases middle with
    | nil => exact ⟨[], by simpa using hxs.symm, by simpa using hz'.symm⟩
    | cons head middle =>
        obtain ⟨rfl, -⟩ := List.cons.inj hz'
        simp [hxs] at hz

theorem exists_ascii_of_readFrom (hp : ∀ q ∈ p, q.Sound) (hc : c.toNat < 0x80)
    {before after : List (Option Char)} (h : readFrom p bytes = before ++ some c :: after) :
    ∃ left right, bytes = left ++ UInt8.ofNat c.toNat :: right ∧ readFrom p left = before ∧
      readFrom none right = after := by
  induction bytes generalizing p before with
  | nil => cases p <;> simp [readFrom, List.cons_eq_append_iff] at h
  | cons byte bytes ih =>
      by_cases hbyte : byte.toNat < 0x80
      · rw [readFrom_ascii hp hbyte, List.append_assoc, List.singleton_append] at h
        have hnone : some c ∉ readFrom p [] := by cases p <;> simp [readFrom]
        obtain ⟨middle, rfl, hcut⟩ := exists_of_append_eq h hnone
        cases middle with
        | nil =>
            obtain ⟨hchar, hafter⟩ := List.cons.inj hcut
            have hchar : c = Char.ofNat byte.toNat := (Option.some.inj hchar).symm
            refine ⟨[], bytes, ?_, by simp, hafter⟩
            rw [hchar, Text.toNat_ofNat (by unfold Nat.isValidChar; omega), UInt8.ofNat_toNat]
            rfl
        | cons head middle =>
            obtain ⟨rfl, hrest⟩ := List.cons.inj hcut
            obtain ⟨left, right, rfl, rfl, hafter⟩ := @ih none (by simp) middle hrest
            refine ⟨byte :: left, right, rfl, ?_, hafter⟩
            rw [readFrom_ascii hp hbyte, List.append_assoc, List.singleton_append]
      · obtain ⟨emitted, next, hnext, hemitted, hread⟩ := readFrom_past hp (Nat.not_lt.mp hbyte)
        rw [hread] at h
        have hnone : some c ∉ emitted := fun hmem => absurd (hemitted c hmem) (Nat.not_le.mpr hc)
        obtain ⟨middle, rfl, hmiddle⟩ := exists_of_append_eq h hnone
        obtain ⟨left, right, rfl, rfl, hafter⟩ := ih hnext hmiddle
        exact ⟨byte :: left, right, rfl, hread left, hafter⟩

/-- An ASCII character is read exactly where its byte stands, and cuts the bytes in two that are read apart. -/
theorem decodeLossy_eq_append_iff (hc : c.toNat < 0x80) {before after : Text} :
    decodeLossy bytes = before ++ c :: after ↔
      ∃ left right, bytes = left ++ UInt8.ofNat c.toNat :: right ∧ decodeLossy left = before ∧
        decodeLossy right = after := by
  unfold decodeLossy read
  constructor
  · intro h
    obtain ⟨left, right, hread, rfl, hright⟩ := List.map_eq_append_iff.mp h
    obtain ⟨x, rest, rfl, hx, rfl⟩ := List.map_eq_cons_iff.mp hright
    obtain rfl : x = some c := by
      cases x with
      | some d => exact congrArg some hx
      | none =>
          rw [← hx] at hc
          exact absurd hc (by decide)
    obtain ⟨left, right, rfl, rfl, rfl⟩ := exists_ascii_of_readFrom (by simp) hc hread
    exact ⟨left, right, rfl, rfl, rfl⟩
  · rintro ⟨left, right, rfl, rfl, rfl⟩
    have hbyte : (UInt8.ofNat c.toNat).toNat = c.toNat := toNat_ofNat (by omega)
    rw [readFrom_append_ascii (by simp) (by omega), hbyte, Char.ofNat_toNat, List.map_append,
      List.map_cons]
    rfl

theorem decodeLossy_eq_nil_iff : decodeLossy bytes = [] ↔ bytes = [] := by
  have hpending (q : Pending) (bytes : List UInt8) : readFrom (some q) bytes ≠ [] := by
    induction bytes generalizing q with
    | nil => simp [readFrom]
    | cons byte bytes ih =>
        rw [readFrom]
        split
        · dsimp only
          split
          · simp
          · exact ih _
        · simp
  unfold decodeLossy read
  rw [List.map_eq_nil_iff]
  cases bytes with
  | nil => simp [readFrom]
  | cons byte bytes =>
      rw [readFrom]
      cases lead byte with
      | complete c => simp
      | opens q => simpa using hpending q bytes
      | illFormed => simp

end Cut

end Exemplar.Utf8
