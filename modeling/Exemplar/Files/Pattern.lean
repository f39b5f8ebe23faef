import Exemplar.Text.Basic

/-!
# Name patterns

Patterns with `?` for one character, `*` for any characters, `[...]` for a character of a class, `[!...]`
for one outside it, and `**`, which must be a whole path component. A class holds characters and ranges; its
first character is never the closing bracket, and there is no escape.
-/

namespace Exemplar

namespace Pattern

inductive Problem
  | starRun
  | doubleStar
  | openClass
deriving DecidableEq, Repr

/-- What is wrong with a pattern, and at which of its characters. -/
structure Fault where
  position : Nat
  problem : Problem
deriving DecidableEq, Repr

def Problem.message : Problem → Text
  | starRun => "wildcards are either regular \x60*\x60 or recursive \x60**\x60".toList
  | doubleStar => "recursive wildcards must form a single path component".toList
  | openClass => "invalid range pattern".toList

def Fault.message (fault : Fault) : Text :=
  "Pattern syntax error near position ".toList ++ Text.ofNat fault.position ++ ": ".toList ++
    fault.problem.message

/-- Both ends of a range belong to it; a single character is a range by itself. -/
structure Range where
  low : Char
  high : Char
deriving DecidableEq, Repr

inductive Element
  | char (c : Char)
  | anyChar
  | anyText
  | anyDepth
  | within (ranges : List Range)
  | outside (ranges : List Range)
deriving DecidableEq, Repr

end Pattern

abbrev Pattern := List Pattern.Element

namespace Pattern

def ranges : Text → List Range
  | low :: '-' :: high :: rest => ⟨low, high⟩ :: ranges rest
  | c :: rest => ⟨c, c⟩ :: ranges rest
  | [] => []

/-- A class from its first character on: what it holds and what follows its bracket. -/
def splitClass? (first : Char) (rest : Text) : Option (Text × Text) :=
  match rest.dropWhile (· ≠ ']') with
  | [] => none
  | _ :: after => some (first :: rest.takeWhile (· ≠ ']'), after)

theorem length_lt_of_splitClass? {first : Char} {rest held after : Text}
    (h : splitClass? first rest = some (held, after)) : after.length < rest.length := by
  unfold splitClass? at h
  have hle := (List.dropWhile_suffix (l := rest) fun c => decide (c ≠ ']')).length_le
  split at h
  · simp at h
  · rename_i heq
    simp only [Option.some.injEq, Prod.mk.injEq] at h
    rw [heq] at hle
    rw [← h.2]
    exact hle

/-- The elements from a position on, with the character before it. -/
def elements (position : Nat) (before : Option Char) : Text → Except Fault Pattern
  | [] => .ok []
  | '?' :: rest => (elements (position + 1) (some '?') rest).map (.anyChar :: ·)
  | '*' :: '*' :: '*' :: _ => .error ⟨position + 2, .starRun⟩
  | '*' :: '*' :: rest =>
    if before.all (· = '/') then
      match rest with
      | [] => .ok [.anyDepth]
      | '/' :: rest => (elements (position + 3) (some '/') rest).map (.anyDepth :: ·)
      | _ => .error ⟨position + 2, .doubleStar⟩
    else .error ⟨position - 1, .doubleStar⟩
  | '*' :: rest => (elements (position + 1) (some '*') rest).map (.anyText :: ·)
  | '[' :: '!' :: first :: rest =>
    match h : splitClass? first rest with
    | some (held, after) =>
      have := length_lt_of_splitClass? h
      (elements (position + held.length + 3) (some ']') after).map (.outside (ranges held) :: ·)
    | none => .error ⟨position, .openClass⟩
  | ['[', '!'] => .error ⟨position, .openClass⟩
  | '[' :: first :: rest =>
    match h : splitClass? first rest with
    | some (held, after) =>
      have := length_lt_of_splitClass? h
      (elements (position + held.length + 2) (some ']') after).map (.within (ranges held) :: ·)
    | none => .error ⟨position, .openClass⟩
  | ['['] => .error ⟨position, .openClass⟩
  | c :: rest => (elements (position + 1) (some c) rest).map (.char c :: ·)
termination_by t => t.length
decreasing_by all_goals simp_all <;> omega

def ofText (t : Text) : Except Fault Pattern := elements 0 none t

def inClass (ranges : List Range) (c : Char) : Bool :=
  ranges.any fun range => range.low ≤ c && c ≤ range.high

/-- A text with all its endings, the longest first. -/
def endings : Text → List Text
  | [] => [[]]
  | c :: rest => (c :: rest) :: endings rest

def Element.admits : Element → Char → Bool
  | char d, c => c == d
  | within ranges, c => inClass ranges c
  | outside ranges, c => !inClass ranges c
  | _, _ => true

/-- Whether the pattern describes the whole text. -/
def describes : Pattern → Text → Bool
  | [], t => t.isEmpty
  | .anyText :: rest, t => (endings t).any (describes rest)
  | .anyDepth :: rest, t => (endings t).any (describes rest)
  | element :: rest, t => match t with
    | [] => false
    | c :: t => element.admits c && describes rest t

/-- The text that a pattern without wildcards stands for. -/
def literal? (pattern : Pattern) : Option Text :=
  pattern.mapM fun
    | .char c => some c
    | _ => none

end Pattern

end Exemplar
