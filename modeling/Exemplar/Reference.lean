import Exemplar.Sample

/-!
# References

A reference names a stored sample as `Service.Id`. It is read off the end of a text: the last two words
that are joined by a dot and hold neither blanks nor dots. What stands before them is ignored.
-/

namespace Exemplar

structure Reference where
  service : Text
  id : Text
deriving DecidableEq, Repr

namespace Reference

def text (r : Reference) : Text := r.service ++ '.' :: r.id

def isWordChar (c : Char) : Bool := c ≠ '.' && !Text.isBlank c

/-- Splits off the longest run of word characters at the end of a reversed text. -/
def splitWord (reversed : Text) : Text × Text :=
  ((reversed.takeWhile isWordChar).reverse, reversed.dropWhile isWordChar)

def ofText? (t : Text) : Option Reference :=
  let (id, before) := splitWord t.trim.reverse
  match before with
  | '.' :: before =>
    let (service, _) := splitWord before
    if service = [] ∨ id = [] then none else some ⟨service, id⟩
  | _ => none

def ofText (t : Text) : Except Fault Reference :=
  match ofText? t with
  | some r => .ok r
  | none => .error (.invalidArgument (.malformedReference t))

end Reference

end Exemplar
