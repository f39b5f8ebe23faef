import Exemplar.Json.Numeral
import Exemplar.Json.Quoted

/-!
# Tokens

The words of a JSON text. A misspelt token ends the list, with the reason in its place; a numeral that
the end of the text cuts off is a token of its own, because readers and skippers judge it differently.
-/

namespace Exemplar.Json

inductive Punct
  | openList
  | closeList
  | openObject
  | closeObject
  | comma
  | colon
deriving DecidableEq, Repr

inductive Token
  | punct (p : Punct)
  | null
  | bool (b : Bool)
  | numeral (n : Numeral)
  | cutNumeral
  | quoted (q : Quoted)
  | broken (failure : Failure)
deriving DecidableEq, Repr

namespace Token

def isSpace (byte : UInt8) : Bool :=
  byte == 0x20 || byte == 0x09 || byte == 0x0A || byte == 0x0D

def punct? (byte : UInt8) : Option Punct :=
  if byte = 0x5B then some .openList
  else if byte = 0x5D then some .closeList
  else if byte = 0x7B then some .openObject
  else if byte = 0x7D then some .closeObject
  else if byte = 0x2C then some .comma
  else if byte = 0x3A then some .colon
  else none

/-- Compares with the rest of a word: what follows it, or how it goes wrong. -/
def afterWord : List UInt8 → List UInt8 → Except Failure (List UInt8)
  | [], input => .ok input
  | _ :: _, [] => .error .truncated
  | w :: word, byte :: rest => if w = byte then afterWord word rest else .error .malformed

theorem length_le_of_afterWord {word input rest : List UInt8}
    (h : afterWord word input = .ok rest) : rest.length ≤ input.length := by
  fun_induction afterWord word input with
  | case1 input => simp_all
  | case2 => simp at h
  | case3 word byte input ih => have := ih h; simp only [List.length_cons]; omega
  | case4 => simp at h

/-- The token that starts with a given byte, and what follows it. Nothing follows a broken one. -/
def next (byte : UInt8) (rest : List UInt8) : Token × List UInt8 :=
  match punct? byte with
  | some p => (.punct p, rest)
  | none =>
    if byte = 0x22 then ((Quoted.scan rest).map .quoted id)
    else if byte = 0x6E then word .null [0x75, 0x6C, 0x6C]
    else if byte = 0x74 then word (.bool true) [0x72, 0x75, 0x65]
    else if byte = 0x66 then word (.bool false) [0x61, 0x6C, 0x73, 0x65]
    else
      match Numeral.scan (byte :: rest) with
      | .read n after => (.numeral n, after)
      | .cut => (.cutNumeral, [])
      | .malformed => (.broken .malformed, [])
where
  word (token : Token) (spelling : List UInt8) : Token × List UInt8 :=
    match afterWord spelling rest with
    | .ok after => (token, after)
    | .error failure => (.broken failure, [])

theorem length_word_le (token : Token) (spelling rest : List UInt8) :
    (next.word rest token spelling).2.length ≤ rest.length := by
  unfold next.word
  split
  · exact length_le_of_afterWord (by assumption)
  · simp

theorem length_next_le (byte : UInt8) (rest : List UInt8) :
    (next byte rest).2.length ≤ rest.length := by
  unfold next
  split
  · simp
  · split
    · simpa using Quoted.length_scan_le rest
    · split
      · exact length_word_le ..
      · split
        · exact length_word_le ..
        · split
          · exact length_word_le ..
          · split
            · exact Nat.le_of_lt_succ (Numeral.length_lt_of_scan (by assumption))
            · simp
            · simp

/-- The tokens of a text, up to the first misspelt one. -/
def scan : List UInt8 → List Token
  | [] => []
  | byte :: rest =>
    if isSpace byte then scan rest
    else
      have := length_next_le byte rest
      (next byte rest).1 :: scan (next byte rest).2
termination_by input => input.length

end Token

end Exemplar.Json
