import Exemplar.Sample

/-!
# Samples as HTML

One list block for all samples. The code is escaped; titles and descriptions are HTML already. No samples
make no block.
-/

namespace Exemplar.Render.Html

def escapeChar (c : Char) : Text :=
  if c = '&' then "&amp;".toList
  else if c = '<' then "&lt;".toList
  else if c = '>' then "&gt;".toList
  else if c = '"' then "&quot;".toList
  else [c]

def escape (t : Text) : Text := t.flatMap escapeChar

def item (s : Retrieved) : Text :=
  "<h5>".toList ++ s.title ++ "</h5>".toList ++ "<div class=\"block\">".toList ++ s.description ++
    "<br/> <pre class=\"brush: java\">".toList ++ escape s.content ++ "</pre></div>".toList

def render (samples : List Retrieved) : Text :=
  if samples = [] then []
  else
    "<br/><b>Samples:</b>".toList ++
      "<ul class=\"sampleList\"><li class=\"sampleList\">".toList ++
      samples.flatMap item ++ "</li></ul>".toList

end Exemplar.Render.Html
