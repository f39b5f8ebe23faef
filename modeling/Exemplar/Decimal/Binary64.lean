/-!
# Binary64 magnitudes

The finite magnitudes of the 64-bit binary format in exact arithmetic. A magnitude is a significand
below `2^53` times a power of two, the powers counted from the least one, so that its value is
`significand * 2^exponent / 2^1074`. Arithmetic is exact and then rounded to the nearest magnitude, a
tie to the even significand.
-/

namespace Exemplar

structure Binary64 where
  significand : Nat
  exponent : Nat
deriving DecidableEq, Repr

namespace Binary64

/-- The denominator shared by all magnitudes. -/
def unit : Nat := Nat.pow 2 1074

/-- The value in units. -/
def scaled (x : Binary64) : Nat := x.significand * Nat.pow 2 x.exponent

/-- The nearest natural number to a quotient, a tie to the even one. -/
def roundQuotient (num den : Nat) : Nat :=
  let quotient := num / den
  let twice := 2 * (num % den)
  if den < twice ∨ (den = twice ∧ quotient % 2 = 1) then quotient + 1 else quotient

/-- The magnitude nearest to `num / den`, unless that is past the largest finite one. -/
def ofRatio? (num den : Nat) : Option Binary64 :=
  let num := num * unit
  let exponent := (num / den).log2 - 52
  let significand := roundQuotient num (den * Nat.pow 2 exponent)
  let rounded : Binary64 :=
    if significand = Nat.pow 2 53 then ⟨Nat.pow 2 52, exponent + 1⟩ else ⟨significand, exponent⟩
  if rounded.exponent ≤ 2045 then some rounded else none

def ofNat? (n : Nat) : Option Binary64 := ofRatio? n 1

def mul? (x y : Binary64) : Option Binary64 := ofRatio? (x.scaled * y.scaled) (unit * unit)

def div? (x y : Binary64) : Option Binary64 := ofRatio? x.scaled y.scaled

end Binary64

end Exemplar
