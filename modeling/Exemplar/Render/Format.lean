import Exemplar.Render.Html
import Exemplar.Render.Json
import Exemplar.Render.Markdown

/-!
# Output formats
-/

namespace Exemplar.Render

inductive Format
  | html
  | markdown
  | json
deriving DecidableEq, Repr

def Format.ofName (name : Text) : Except Fault Format :=
  if name = "html".toList then .ok html
  else if name = "markdown".toList ∨ name = "md".toList then .ok markdown
  else if name = "json".toList then .ok json
  else .error (.invalidArgument (.unknownFormat name))

def Format.render : Format → List Retrieved → Text
  | html => Html.render
  | markdown => Markdown.render
  | json => Json.render

end Exemplar.Render
