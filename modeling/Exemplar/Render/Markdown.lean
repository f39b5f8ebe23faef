import Exemplar.Sample

/-!
# Samples as Markdown

A heading, the description and a fenced code block for each sample, with an empty line between samples.
-/

namespace Exemplar.Render.Markdown

def fence : Text := ['\x60', '\x60', '\x60']

def item (s : Retrieved) : Text :=
  "### ".toList ++ s.title ++ "\n\n".toList ++ s.description ++ "\n\n".toList ++ fence ++
    "java\n".toList ++ s.content ++ '\n' :: fence ++ ['\n']

def render (samples : List Retrieved) : Text := Text.joinWith ['\n'] (samples.map item)

end Exemplar.Render.Markdown
