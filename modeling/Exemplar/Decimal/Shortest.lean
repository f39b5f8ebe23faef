import Exemplar.Decimal.Binary64

/-!
# Shortest decimals

The decimal with the fewest digits that rounds to a given magnitude. The reals that round to it form an
interval around it, ends included when its significand is even. For one digit, two digits and so on, the
two decimals around the magnitude are tried; of two that lie in the interval the nearer wins, and of two
as near the one with the even last digit.
-/

namespace Exemplar

/-- The value `digits * 10^exponent`. -/
structure Decimal where
  digits : Nat
  exponent : Int
deriving DecidableEq, Repr

/-- The interval that rounds to a magnitude, in quarters of its unit. -/
structure Binary64.Interval where
  low : Nat
  middle : Nat
  high : Nat
  closed : Bool

def Binary64.interval (x : Binary64) : Interval :=
  let step := Nat.pow 2 x.exponent
  let below := if x.significand = Nat.pow 2 52 ∧ 0 < x.exponent then step else 2 * step
  { low := 4 * x.scaled - below
    middle := 4 * x.scaled
    high := 4 * x.scaled + 2 * step
    closed := x.significand % 2 = 0 }

/-- Whether `n * scale` lies in the interval, both in the same fraction of the unit. -/
def Binary64.Interval.contains (interval : Interval) (n scale : Nat) : Bool :=
  if interval.closed then interval.low * scale ≤ n && n ≤ interval.high * scale
  else interval.low * scale < n && n < interval.high * scale

/-- A decimal of the grid `10^exponent` that rounds to the magnitude, the better of the two neighbours. -/
def Binary64.Interval.onGrid? (interval : Interval) (exponent : Int) : Option Decimal :=
  let scale := Nat.pow 10 (-exponent).toNat
  let step := 4 * Binary64.unit * Nat.pow 10 exponent.toNat
  let lower := interval.middle * scale / step
  let rest := interval.middle * scale % step
  let fitsLower := 0 < lower && interval.contains (lower * step) scale
  let fitsUpper := interval.contains ((lower + 1) * step) scale
  let preferUpper := step < 2 * rest || (step == 2 * rest && lower % 2 == 1)
  if fitsUpper && (preferUpper || !fitsLower) then some ⟨lower + 1, exponent⟩
  else if fitsLower then some ⟨lower, exponent⟩
  else none

/-- The power of ten of a magnitude's first digit. -/
def Binary64.leadingPower (x : Binary64) : Int :=
  let whole := x.scaled / Binary64.unit
  if 0 < whole then (Nat.toDigits 10 whole).length - 1
  else
    let shifted := x.scaled * Nat.pow 10 400 / Binary64.unit
    ((Nat.toDigits 10 shifted).length : Int) - 1 - 400

/-- The first hit on finer and finer grids, starting one power above the first digit. Seventeen digits
always suffice. -/
def Binary64.Interval.shortestFrom (interval : Interval) (exponent : Int) : Nat → Decimal
  | 0 => ⟨interval.middle / (4 * Binary64.unit), 0⟩
  | tries + 1 =>
    match interval.onGrid? exponent with
    | some decimal => decimal
    | none => interval.shortestFrom (exponent - 1) tries

def Binary64.shortest (x : Binary64) : Decimal :=
  if x.significand = 0 then ⟨0, 0⟩ else x.interval.shortestFrom (x.leadingPower + 1) 19

end Exemplar
