import Exemplar.Text.Basic

/-!
# UTF-8

Bytes are read by an automaton whose state is the sequence begun and not yet complete. What it reads
is a list of characters and of ill-formed parts, each part as long as it could still have become a
character: a lead byte with the continuation bytes that fit it, or one byte that begins nothing.

Lenient reading puts U+FFFD for each ill-formed part; strict reading refuses any.
-/

namespace Exemplar.Utf8

/-- A sequence begun: its bits so far, the range of the byte that must come next, and how many
continuation bytes come after that one. -/
structure Pending where
  bits : Nat
  low : Nat
  high : Nat
  more : Nat

/-- What a byte means where a character may begin. -/
inductive Lead
  | complete (c : Char)
  | opens (p : Pending)
  | illFormed

/-- The first continuation byte is narrowed after E0, ED, F0 and F4, which keeps out overlong forms,
surrogates and values past U+10FFFF. -/
def lead (byte : UInt8) : Lead :=
  let n := byte.toNat
  if n < 0x80 then .complete (Char.ofNat n)
  else if n < 0xC2 then .illFormed
  else if n < 0xE0 then .opens ⟨n - 0xC0, 0x80, 0xBF, 0⟩
  else if n < 0xF0 then
    .opens ⟨n - 0xE0, if n = 0xE0 then 0xA0 else 0x80, if n = 0xED then 0x9F else 0xBF, 1⟩
  else if n < 0xF5 then
    .opens ⟨n - 0xF0, if n = 0xF0 then 0x90 else 0x80, if n = 0xF4 then 0x8F else 0xBF, 2⟩
  else .illFormed

/-- Reads bytes after the sequence begun, if there is one; `none` stands for an ill-formed part. -/
def readFrom : Option Pending → List UInt8 → List (Option Char)
  | none, [] => []
  | some _, [] => [none]
  | none, byte :: rest =>
    match lead byte with
    | .complete c => some c :: readFrom none rest
    | .opens p => readFrom (some p) rest
    | .illFormed => none :: readFrom none rest
  | some p, byte :: rest =>
    if p.low ≤ byte.toNat ∧ byte.toNat ≤ p.high then
      let bits := p.bits * 64 + (byte.toNat - 0x80)
      match p.more with
      | 0 => some (Char.ofNat bits) :: readFrom none rest
      | more + 1 => readFrom (some ⟨bits, 0x80, 0xBF, more⟩) rest
    else
      none :: match lead byte with
        | .complete c => some c :: readFrom none rest
        | .opens q => readFrom (some q) rest
        | .illFormed => none :: readFrom none rest

def read (bytes : List UInt8) : List (Option Char) := readFrom none bytes

def replacement : Char := Char.ofNat 0xFFFD

/-- The text of any bytes, with U+FFFD for each ill-formed part. -/
def decodeLossy (bytes : List UInt8) : Text := (read bytes).map (·.getD replacement)

/-- The text of well-formed bytes. -/
def decode? (bytes : List UInt8) : Option Text := (read bytes).mapM id

def encodeChar (c : Char) : List UInt8 :=
  let n := c.toNat
  if n < 0x80 then [UInt8.ofNat n]
  else if n < 0x800 then [UInt8.ofNat (0xC0 + n / 64), UInt8.ofNat (0x80 + n % 64)]
  else if n < 0x10000 then
    [UInt8.ofNat (0xE0 + n / 4096), UInt8.ofNat (0x80 + n / 64 % 64), UInt8.ofNat (0x80 + n % 64)]
  else
    [UInt8.ofNat (0xF0 + n / 262144), UInt8.ofNat (0x80 + n / 4096 % 64),
      UInt8.ofNat (0x80 + n / 64 % 64), UInt8.ofNat (0x80 + n % 64)]

def encode (t : Text) : List UInt8 := t.flatMap encodeChar

end Exemplar.Utf8
