import Exemplar.Json.Failure
import Exemplar.Text.Utf8

/-!
# Quoted strings

What stands between the quotation marks of a JSON string, read in two passes. The first finds the closing
mark and the escapes; it fails on a control character, an unknown escape or a missing mark. The second
gives the text: it pairs surrogates and checks that the bytes are well formed. A string that is skipped
takes the first pass only.

Printing escapes the quotation mark, the backslash and the control characters below U+0020.
-/

namespace Exemplar.Json

/-- A byte of the text, or the four digits of an escape by code unit. -/
inductive Piece
  | byte (b : UInt8)
  | unit (n : Nat)
deriving DecidableEq, Repr

/-- The pieces up to the closing mark, or up to the failure met before it. -/
structure Quoted where
  pieces : List Piece
  failure : Option Failure
deriving DecidableEq, Repr

namespace Quoted

def push (piece : Piece) (read : Quoted × List UInt8) : Quoted × List UInt8 :=
  (⟨piece :: read.1.pieces, read.1.failure⟩, read.2)

def fail (failure : Failure) : Quoted × List UInt8 := (⟨[], some failure⟩, [])

/-- The byte that a one-letter escape stands for. -/
def letterEscape? (byte : UInt8) : Option UInt8 :=
  if byte = 0x22 ∨ byte = 0x5C ∨ byte = 0x2F then some byte
  else if byte = 0x62 then some 0x08
  else if byte = 0x66 then some 0x0C
  else if byte = 0x6E then some 0x0A
  else if byte = 0x72 then some 0x0D
  else if byte = 0x74 then some 0x09
  else none

def hexDigit? (byte : UInt8) : Option Nat :=
  let n := byte.toNat
  if 0x30 ≤ n ∧ n ≤ 0x39 then some (n - 0x30)
  else if 0x41 ≤ n ∧ n ≤ 0x46 then some (n - 0x41 + 10)
  else if 0x61 ≤ n ∧ n ≤ 0x66 then some (n - 0x61 + 10)
  else none

def unit? (a b c d : UInt8) : Option Nat := do
  let a ← hexDigit? a
  let b ← hexDigit? b
  let c ← hexDigit? c
  let d ← hexDigit? d
  pure (a * 4096 + b * 256 + c * 16 + d)

/-- Reads from after the opening mark; the bytes left over stand after the closing one. -/
def scan : List UInt8 → Quoted × List UInt8
  | [] => fail .truncated
  | 0x22 :: rest => (⟨[], none⟩, rest)
  | 0x5C :: 0x75 :: a :: b :: c :: d :: rest =>
    match unit? a b c d with
    | some n => push (.unit n) (scan rest)
    | none => fail .malformed
  | 0x5C :: 0x75 :: _ => fail .truncated
  | 0x5C :: letter :: rest =>
    match letterEscape? letter with
    | some byte => push (.byte byte) (scan rest)
    | none => fail .malformed
  | 0x5C :: [] => fail .truncated
  | byte :: rest => if byte < 0x20 then fail .malformed else push (.byte byte) (scan rest)

def isLeading (unit : Nat) : Bool := 0xD800 ≤ unit && unit ≤ 0xDBFF

def isTrailing (unit : Nat) : Bool := 0xDC00 ≤ unit && unit ≤ 0xDFFF

def pairValue (leading trailing : Nat) : Nat :=
  0x10000 + (leading - 0xD800) * 0x400 + (trailing - 0xDC00)

/-- The bytes of the pieces. A leading surrogate must be followed at once by a trailing one. -/
def bytes (failure : Option Failure) : List Piece → Except Failure (List UInt8)
  | [] => match failure with
    | none => .ok []
    | some failure => .error failure
  | .byte b :: rest => (bytes failure rest).map (b :: ·)
  | .unit n :: rest =>
    if isTrailing n then .error .malformed
    else if isLeading n then
      match rest with
      | .unit m :: rest =>
        if isTrailing m then
          (bytes failure rest).map (Utf8.encodeChar (Char.ofNat (pairValue n m)) ++ ·)
        else .error .malformed
      | .byte _ :: _ => .error .malformed
      | [] => .error (failure.getD .malformed)
    else (bytes failure rest).map (Utf8.encodeChar (Char.ofNat n) ++ ·)

/-- The text of a string, which must have been closed and be well formed. -/
def text (quoted : Quoted) : Except Failure Text := do
  match Utf8.decode? (← bytes quoted.failure quoted.pieces) with
  | some t => pure t
  | none => throw .malformed

/-- What a reader needs who does not want the text. -/
def skip (quoted : Quoted) : Except Failure Unit :=
  match quoted.failure with
  | none => .ok ()
  | some failure => .error failure

theorem length_scan_le (input : List UInt8) : (scan input).2.length ≤ input.length := by
  fun_induction scan input <;> simp_all [push, fail] <;> omega

end Quoted

/-- The written form of a character inside a string. -/
def escapeChar (c : Char) : Text :=
  if c = '"' then ['\\', '"']
  else if c = '\\' then ['\\', '\\']
  else if c.toNat = 0x08 then ['\\', 'b']
  else if c.toNat = 0x0C then ['\\', 'f']
  else if c = '\n' then ['\\', 'n']
  else if c = '\r' then ['\\', 'r']
  else if c = '\t' then ['\\', 't']
  else if c.toNat < 0x20 then ['\\', 'u'] ++ Text.hexWord c.toNat
  else [c]

def printString (t : Text) : Text := '"' :: t.flatMap escapeChar ++ ['"']

end Exemplar.Json
