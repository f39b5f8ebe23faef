import Exemplar.Label

/-!
# Tags

What one source line means. A tag is a comment of its own: after trimming, the line starts with the comment
marker, then come any blanks and a keyword. Every other line is code.

`BEGIN_SAMPLE:` wants a service and an id around a single dot. `TITLE:` and `DESCRIPTION:` take the rest of
the line. The other keywords may be followed by anything.
-/

namespace Exemplar.Markup

/-- A comment marker: not empty, and neither starting nor ending with a blank. -/
structure Marker where
  text : Text
  trim_text : text.trim = text
  text_ne : text ≠ []

def Marker.ofText (t : Text) : Except Fault Marker :=
  if h : t.trim = [] then refuseAbsent "Comment marker must be provided"
  else .ok ⟨t.trim, t.trim_trim, h⟩

def Marker.slashes : Marker := ⟨['/', '/'], by decide, by decide⟩

inductive Tag
  | beginSample (label : Label)
  | endSample
  | beginHidden
  | endHidden
  | title (text : Text)
  | description (text : Text)
  | code
deriving DecidableEq

/-- The tag of `service.id`: both parts have characters and neither has a dot. -/
def labelTag? (t : Text) : Option Tag :=
  match splitOn '.' t with
  | [service, id] =>
    if h : service ≠ [] ∧ id ≠ [] then some (.beginSample ⟨service, id, h.1, h.2⟩) else none
  | _ => none

/-- The tag of a keyword that captures the rest of its line. -/
def captured? (tag : Text → Tag) (t : Text) : Option Tag := if '\n' ∈ t then none else some (tag t)

/-- The tag of a comment's text. -/
def Tag.ofComment? (t : Text) : Option Tag :=
  (Text.after? "BEGIN_SAMPLE:".toList t).bind labelTag?
    <|> (Text.after? "END_SAMPLE".toList t).map (fun _ => .endSample)
    <|> (Text.after? "BEGIN_HIDDEN".toList t).map (fun _ => .beginHidden)
    <|> (Text.after? "END_HIDDEN".toList t).map (fun _ => .endHidden)
    <|> (Text.after? "TITLE:".toList t).bind (captured? .title)
    <|> (Text.after? "DESCRIPTION:".toList t).bind (captured? .description)

def Marker.classify (marker : Marker) (line : Text) : Tag :=
  (((Text.after? marker.text line.trim).map Text.trimStart).bind Tag.ofComment?).getD .code

/-- Whether a line is a tag rather than code. -/
def Marker.isTag (marker : Marker) (line : Text) : Bool := marker.classify line ≠ .code

end Exemplar.Markup
