import Exemplar.Decimal.Shortest
import Exemplar.Text.Basic

/-!
# Spelling of decimals

Positional where the first digit stands at most fifteen places before the point and at most five places
after it, with `.0` where no digit follows the point; with a signed exponent of ten otherwise.
-/

namespace Exemplar

/-- Where positional spelling ends: the number of digits before the point, zero or less counting the
zeros after it. -/
structure Decimal.Style where
  leastPoint : Int
  mostPoint : Int

/-- The style of JSON numbers. -/
def Decimal.jsonStyle : Decimal.Style := ⟨-4, 16⟩

def Decimal.spellExponent (power : Int) : Text :=
  'e' :: (if power < 0 then '-' else '+') :: Text.ofNat power.natAbs

def Decimal.spell (style : Decimal.Style) (decimal : Decimal) : Text :=
  let digits := Text.ofNat decimal.digits
  let point := digits.length + decimal.exponent
  if decimal.digits = 0 then "0.0".toList
  else if style.leastPoint ≤ point ∧ point ≤ style.mostPoint then
    if 0 ≤ decimal.exponent then
      digits ++ List.replicate decimal.exponent.toNat '0' ++ ".0".toList
    else if 0 < point then
      digits.take point.toNat ++ '.' :: digits.drop point.toNat
    else "0.".toList ++ List.replicate (-point).toNat '0' ++ digits
  else
    match digits with
    | [] => []
    | [digit] => digit :: spellExponent (point - 1)
    | digit :: rest => digit :: '.' :: rest ++ spellExponent (point - 1)

end Exemplar
