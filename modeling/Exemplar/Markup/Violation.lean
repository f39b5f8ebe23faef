import Exemplar.Text.Basic

/-!
# Violations of the markup

The rules of sample markup that a source line can break, and the parts that a finished sample can lack.
-/

namespace Exemplar.Markup

inductive Violation
  | nestedSample
  | endOutsideSample
  | endWhileHidden
  | nestedHidden
  | hiddenOutsideSample
  | endHiddenOutsideHidden
  | titleOutsideSample
  | descriptionOutsideSample
  | unclosedSample (id : Text)
deriving DecidableEq, Repr

def Violation.message : Violation → Text
  | nestedSample => "Found a BEGIN_SAMPLE tag while already within a sample block".toList
  | endOutsideSample => "Found an END_SAMPLE tag while not within a sample block".toList
  | endWhileHidden => "Sample was still hidden when END_SAMPLE tag was encountered".toList
  | nestedHidden => "Found a BEGIN_HIDDEN tag while already within a hidden block".toList
  | hiddenOutsideSample => "Found a BEGIN_HIDDEN tag while not within a sample block".toList
  | endHiddenOutsideHidden => "Found an END_HIDDEN tag while not within a hidden block".toList
  | titleOutsideSample => "Found a TITLE tag while not within a sample block".toList
  | descriptionOutsideSample => "Found a DESCRIPTION tag while not within a sample block".toList
  | unclosedSample id => "Hit EOF with sample still open: ".toList ++ id

/-- The parts of a sample, in the order in which a lack of them is reported. -/
inductive Part
  | title
  | description
  | content
deriving DecidableEq, Repr

def Part.name : Part → Text
  | title => "title".toList
  | description => "description".toList
  | content => "content".toList

/-- What makes a source file malformed at some line. -/
inductive Breach
  | violation (v : Violation)
  | missing (part : Part)
deriving DecidableEq, Repr

def Breach.message : Breach → Text
  | violation v => v.message
  | missing part => "Required field ".toList ++ part.name ++ " was not provided".toList

end Exemplar.Markup
