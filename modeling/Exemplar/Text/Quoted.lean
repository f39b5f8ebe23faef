import Exemplar.Text.Basic
import Exemplar.Text.GlyphTable

/-!
# Quoted texts

How a message shows a text between quotation marks: the quotation mark and the backslash are escaped,
the usual line and tab controls and the null character by a letter, and any other character without a
glyph of its own by its code point.
-/

namespace Exemplar.Text

def isGlyphless (c : Char) : Bool := inRanges glyphlessRanges c

def quoteChar (c : Char) : Text :=
  if c = '"' then ['\\', '"']
  else if c = '\\' then ['\\', '\\']
  else if c = '\n' then ['\\', 'n']
  else if c = '\r' then ['\\', 'r']
  else if c = '\t' then ['\\', 't']
  else if c.toNat = 0 then ['\\', '0']
  else if isGlyphless c then ['\\', 'u', '\x7b'] ++ hex c.toNat ++ ['\x7d']
  else [c]

def quoted (t : Text) : Text := '"' :: t.flatMap quoteChar ++ ['"']

end Exemplar.Text
