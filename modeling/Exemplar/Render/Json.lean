import Exemplar.Json.Printer
import Exemplar.Sample

/-!
# Samples as JSON

A list with one object for each sample, pretty printed, and a line feed.
-/

namespace Exemplar.Render.Json

open Exemplar.Json (Value)

def item (s : Retrieved) : Value :=
  .object [("id".toList, .string s.id), ("service".toList, .string s.service),
    ("title".toList, .string s.title), ("description".toList, .string s.description),
    ("content".toList, .string s.content)]

def render (samples : List Retrieved) : Text := (Value.list (samples.map item)).pretty 0 ++ ['\n']

end Exemplar.Render.Json
