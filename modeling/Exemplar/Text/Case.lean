import Exemplar.Text.Basic
import Exemplar.Text.CaseTable

/-!
# Case

Capital and small forms of texts by the full mappings of Unicode: one character may become several
(`ß` has the capital form `SS`), and a capital sigma that ends a word becomes a final small sigma.
-/

namespace Exemplar.Text

def CaseRun.image? (run : CaseRun) (n : Nat) : Option Nat :=
  if run.first ≤ n ∧ n ≤ run.last ∧ (n - run.first) % run.step = 0 then
    some (run.target + (n - run.first))
  else none

def isCased (c : Char) : Bool := inRanges casedRanges c

def isCaseIgnorable (c : Char) : Bool := inRanges caseIgnorableRanges c

def capital (c : Char) : Text :=
  match capitalSequences.lookup c.toNat with
  | some codes => codes.map Char.ofNat
  | none => [((capitalRuns.findSome? (·.image? c.toNat)).map Char.ofNat).getD c]

/-- The small form of a character by itself; U+0130 keeps its dot as a combining mark. -/
def small (c : Char) : Text :=
  if c.toNat = 0x130 then [Char.ofNat 0x69, Char.ofNat 0x307]
  else [((smallRuns.findSome? (·.image? c.toNat)).map Char.ofNat).getD c]

/-- Whether the first character that case does not ignore is a cased one. -/
def meetsCased (t : Text) : Bool := ((t.dropWhile isCaseIgnorable).head?).any isCased

/-- The small form of what follows the given characters, which are listed last first. -/
def smallAfter : Text → Text → Text
  | _, [] => []
  | before, c :: rest =>
    let form :=
      if c.toNat = 0x3A3 then
        if meetsCased before && !meetsCased rest then [Char.ofNat 0x3C2] else [Char.ofNat 0x3C3]
      else small c
    form ++ smallAfter (c :: before) rest

def toSmall (t : Text) : Text := smallAfter [] t

/-- The text with the capital form of its first character. -/
def capitalizeFirst : Text → Text
  | [] => []
  | c :: rest => capital c ++ rest

end Exemplar.Text
