import Exemplar.Text.Basic

/-!
# Indentation

The indentation of a line is its run of leading spaces; a tab is no indentation. A block of lines is
shifted left by the least indentation among its lines, and a blank line counts as not indented.
-/

namespace Exemplar.Text

def indent (line : Text) : Nat := (line.takeWhile (· == ' ')).length

/-- The least indentation of a block; a block with no lines has none. -/
def commonIndent (block : List Text) : Nat := ((block.map indent).min?).getD 0

/-- Removes leading spaces, at most `depth` of them. -/
def unindent (depth : Nat) (line : Text) : Text := line.drop (min (indent line) depth)

/-- The lines of a block shifted left, with a line feed between two lines and none at the end. -/
def shiftLeft (depth : Nat) (block : List Text) : Text :=
  joinWith ['\n'] (block.map (unindent depth))

def dedent (block : List Text) : Text := shiftLeft (commonIndent block) block

end Exemplar.Text
