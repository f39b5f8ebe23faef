import Exemplar.Decimal.Spelling

/-!
# JSON values

Objects keep the order of their fields. Numbers are natural numbers and negative integers of 64 bits, and
for the rest binary64 magnitudes with a sign.
-/

namespace Exemplar.Json

inductive Number
  | natural (n : Nat)
  | negative (n : Nat)
  | real (negative : Bool) (magnitude : Binary64)
deriving DecidableEq, Repr

def Number.text : Number → Text
  | natural n => Text.ofNat n
  | negative n => '-' :: Text.ofNat n
  | real sign magnitude =>
    (if sign then ['-'] else []) ++ Decimal.spell Decimal.jsonStyle magnitude.shortest

inductive Value
  | null
  | bool (b : Bool)
  | number (n : Number)
  | string (t : Text)
  | list (items : List Value)
  | object (fields : List (Text × Value))
deriving BEq, Repr, Inhabited

end Exemplar.Json
