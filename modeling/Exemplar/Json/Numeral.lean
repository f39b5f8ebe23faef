import Exemplar.Json.Value

/-!
# Numerals

The numerals of JSON as they are written: sign, digits without a leading zero, fraction, exponent.

The value of a numeral is an integer when it has neither fraction nor exponent and fits 64 bits. Any other
numeral has a binary64 value, found from a significand of 64 bits and a power of ten. Integer digits that
no longer fit the significand count as a power of ten, fraction digits that do not fit are dropped with all
that follow them, and the significand is multiplied or divided by the power, with one rounding each. A value
past the largest magnitude is refused; one below the least is zero.
-/

namespace Exemplar.Json

structure Exponent where
  negative : Bool
  digits : List Nat
deriving DecidableEq, Repr

structure Numeral where
  negative : Bool
  whole : List Nat
  fraction : List Nat
  exponent : Option Exponent
deriving DecidableEq, Repr

namespace Numeral

/-- How the reading of a numeral ends: with the bytes after it, at the end of the text inside the numeral,
or at a byte that cannot stand there. -/
inductive Scan
  | read (numeral : Numeral) (rest : List UInt8)
  | cut
  | malformed

def isDigit (byte : UInt8) : Bool := 0x30 ≤ byte && byte ≤ 0x39

def digits (bytes : List UInt8) : List Nat := (bytes.takeWhile isDigit).map (·.toNat - 0x30)

def afterDigits (bytes : List UInt8) : List UInt8 := bytes.dropWhile isDigit

/-- Where a digit is missing. -/
def missingDigit (bytes : List UInt8) : Scan := if bytes.isEmpty then .cut else .malformed

def scanExponentDigits (numeral : Numeral) (negative : Bool) (bytes : List UInt8) : Scan :=
  if (digits bytes).isEmpty then missingDigit bytes
  else .read { numeral with exponent := some ⟨negative, digits bytes⟩ } (afterDigits bytes)

def scanExponent (numeral : Numeral) : List UInt8 → Scan
  | [] => .read numeral []
  | byte :: rest =>
    if byte = 0x65 ∨ byte = 0x45 then
      match rest with
      | 0x2B :: rest => scanExponentDigits numeral false rest
      | 0x2D :: rest => scanExponentDigits numeral true rest
      | rest => scanExponentDigits numeral false rest
    else .read numeral (byte :: rest)

def scanFraction (numeral : Numeral) : List UInt8 → Scan
  | 0x2E :: rest =>
    if (digits rest).isEmpty then missingDigit rest
    else scanExponent { numeral with fraction := digits rest } (afterDigits rest)
  | bytes => scanExponent numeral bytes

def scanWhole (negative : Bool) : List UInt8 → Scan
  | [] => .cut
  | 0x30 :: rest =>
    if (rest.head?).any isDigit then .malformed else scanFraction ⟨negative, [0], [], none⟩ rest
  | byte :: rest =>
    if isDigit byte then
      scanFraction ⟨negative, digits (byte :: rest), [], none⟩ (afterDigits rest)
    else .malformed

/-- Reads the numeral at the start of the bytes, as far as it goes. -/
def scan : List UInt8 → Scan
  | 0x2D :: rest => scanWhole true rest
  | bytes => scanWhole false bytes

theorem length_afterDigits_le (bytes : List UInt8) :
    (afterDigits bytes).length ≤ bytes.length :=
  (List.dropWhile_suffix isDigit).length_le

theorem length_le_of_scanExponentDigits {numeral found : Numeral} {negative : Bool}
    {bytes rest : List UInt8}
    (h : scanExponentDigits numeral negative bytes = .read found rest) :
    rest.length ≤ bytes.length := by
  unfold scanExponentDigits missingDigit at h
  have := length_afterDigits_le bytes
  grind

theorem length_le_of_scanExponent {numeral found : Numeral} {bytes rest : List UInt8}
    (h : scanExponent numeral bytes = .read found rest) : rest.length ≤ bytes.length := by
  unfold scanExponent at h
  split at h
  · simp_all
  · split at h
    · split at h <;> have := length_le_of_scanExponentDigits h <;>
        simp only [List.length_cons] at * <;> omega
    · simp_all

theorem length_le_of_scanFraction {numeral found : Numeral} {bytes rest : List UInt8}
    (h : scanFraction numeral bytes = .read found rest) : rest.length ≤ bytes.length := by
  unfold scanFraction missingDigit at h
  split at h
  · rename_i tail
    split at h
    · split at h <;> simp at h
    · have := length_le_of_scanExponent h
      have := length_afterDigits_le tail
      simp only [List.length_cons]
      omega
  · exact length_le_of_scanExponent h

theorem length_lt_of_scanWhole {found : Numeral} {negative : Bool} {bytes rest : List UInt8}
    (h : scanWhole negative bytes = .read found rest) : rest.length < bytes.length := by
  unfold scanWhole at h
  split at h
  · simp at h
  · split at h
    · simp at h
    · have := length_le_of_scanFraction h
      simp only [List.length_cons]
      omega
  · rename_i byte tail _
    split at h
    · have := length_le_of_scanFraction h
      have := length_afterDigits_le tail
      simp only [List.length_cons]
      omega
    · simp at h

/-- A numeral has at least one byte. -/
theorem length_lt_of_scan {found : Numeral} {bytes rest : List UInt8}
    (h : scan bytes = .read found rest) : rest.length < bytes.length := by
  unfold scan at h
  split at h
  · have := length_lt_of_scanWhole h
    simp only [List.length_cons]
    omega
  · exact length_lt_of_scanWhole h

def word64 : Nat := Nat.pow 2 64

/-- A significand with the power of ten it stands for. -/
structure Significand where
  value : Nat
  power : Int

/-- Once a digit does not fit, all later integer digits only raise the power. -/
def pushWhole (s : Significand) (digit : Nat) : Significand :=
  if s.power = 0 ∧ s.value * 10 + digit < word64 then { s with value := s.value * 10 + digit }
  else { s with power := s.power + 1 }

def pushFraction (s : Significand) : List Nat → Significand
  | [] => s
  | digit :: rest =>
    if s.value * 10 + digit < word64 then
      pushFraction ⟨s.value * 10 + digit, s.power - 1⟩ rest
    else s

def significand (numeral : Numeral) : Significand :=
  pushFraction (numeral.whole.foldl pushWhole ⟨0, 0⟩) numeral.fraction

def ofDigits (digits : List Nat) : Nat := digits.foldl (fun n digit => n * 10 + digit) 0

/-- The largest power of ten that is a finite magnitude. -/
def largestPower : Nat := 308

def powerOfTen (n : Nat) : Binary64 := (Binary64.ofNat? (Nat.pow 10 n)).getD ⟨0, 0⟩

def zero : Binary64 := ⟨0, 0⟩

def divideByPower (x : Binary64) (power : Nat) : Binary64 :=
  if power ≤ largestPower then (x.div? (powerOfTen power)).getD zero
  else if x.significand = 0 then x
  else divideByPower ((x.div? (powerOfTen largestPower)).getD zero) (power - largestPower)
termination_by power
decreasing_by simp_all [largestPower]; omega

/-- The magnitude `value * 10^power`, with `none` past the largest one. -/
def magnitude? (value : Nat) (power : Int) : Option Binary64 :=
  match Binary64.ofNat? value with
  | none => none
  | some x =>
    if power < 0 then some (divideByPower x power.natAbs)
    else if power.natAbs ≤ largestPower then x.mul? (powerOfTen power.natAbs)
    else if x.significand = 0 then some x
    else none

/-- Exponents are read in 32 bits: past that the value is out of range or zero at once. -/
def real? (numeral : Numeral) : Option Binary64 :=
  let s := numeral.significand
  match numeral.exponent with
  | none => magnitude? s.value s.power
  | some exponent =>
    let n := ofDigits exponent.digits
    if Nat.pow 2 31 ≤ n then if s.value ≠ 0 ∧ !exponent.negative then none else some zero
    else magnitude? s.value (if exponent.negative then s.power - n else s.power + n)

/-- The value of a numeral, unless it is past the largest magnitude. -/
def value? (numeral : Numeral) : Option Number :=
  let n := ofDigits numeral.whole
  if numeral.fraction.isEmpty ∧ numeral.exponent.isNone ∧ !numeral.negative ∧ n < word64 then
    some (.natural n)
  else if numeral.fraction.isEmpty ∧ numeral.exponent.isNone ∧ numeral.negative ∧ 0 < n ∧
      n ≤ Nat.pow 2 63 then
    some (.negative n)
  else numeral.real?.map (.real numeral.negative)

end Numeral

end Exemplar.Json
