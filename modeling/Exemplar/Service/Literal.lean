import Exemplar.Json.Printer
import Exemplar.Service.Model
import Exemplar.Text.Case

/-!
# Literals

Scalars as literals of the generated class. A string literal holds visible ASCII characters only: quotes,
backslashes and the usual controls have short escapes, and any other character is written by its UTF-16
code units.
-/

namespace Exemplar.Service

/-- The UTF-16 code units of a character. -/
def codeUnits (c : Char) : List Nat :=
  let n := c.toNat
  if n < 0x10000 then [n]
  else [0xD800 + (n - 0x10000) / 0x400, 0xDC00 + (n - 0x10000) % 0x400]

def unitEscape (unit : Nat) : Text := ['\\', 'u'] ++ (Text.hexWord unit).map Char.toUpper

def escapeChar (c : Char) : Text :=
  if c = '"' then ['\\', '"']
  else if c = '\\' then ['\\', '\\']
  else if c = '\n' then ['\\', 'n']
  else if c = '\r' then ['\\', 'r']
  else if c = '\t' then ['\\', 't']
  else if c.toNat = 0x08 then ['\\', 'b']
  else if c.toNat = 0x0C then ['\\', 'f']
  else if 0x20 ≤ c.toNat ∧ c.toNat < 0x7F then [c]
  else (codeUnits c).flatMap unitEscape

/-- The inside of a string literal for a text. -/
def escapeLiteral (t : Text) : Text := t.flatMap escapeChar

/-- A string as it is, any other value as compact JSON. -/
def plainText : Json.Value → Text
  | .string t => t
  | value => value.compact

def Scalar.literal (scalar : Scalar) (value : Json.Value) : Text :=
  match scalar with
  | text => '"' :: escapeLiteral (plainText value) ++ ['"']
  | boolean => (plainText value).toSmall
  | long => plainText value ++ ['L']
  | other _ => plainText value

end Exemplar.Service
