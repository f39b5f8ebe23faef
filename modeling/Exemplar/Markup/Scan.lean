import Exemplar.Markup.Tag
import Exemplar.Sample
import Exemplar.Text.Stream
import Exemplar.Text.Utf8

/-!
# Scanning for samples

A file is scanned line by line in three states: outside of samples, inside one, and inside one whose lines
are hidden for the moment. A line either moves to the next state, perhaps finishing a sample, or breaks a
rule. The first broken rule ends the scan and is reported with the file and the line.
-/

namespace Exemplar.Markup

inductive State
  | outside
  | visible (sample : Record)
  | hidden (sample : Record)
deriving DecidableEq

/-- A state after a line, and the sample that the line finished. -/
structure Step where
  state : State
  finished : Option Record

def keep (state : State) : Except Breach Step := .ok ⟨state, none⟩

def refuse (v : Violation) : Except Breach Step := .error (.violation v)

/-- Ends a sample that has all its parts. -/
def finish (sample : Record) : Except Breach Step :=
  match sample.missing? with
  | none => .ok ⟨.outside, some sample⟩
  | some part => .error (.missing part)

/-- What a line does, given what it means. Titles and descriptions count in hidden parts too. -/
def State.step (line : Text) : State → Tag → Except Breach Step
  | .outside, .beginSample label => keep (.visible (.new label))
  | _, .beginSample _ => refuse .nestedSample
  | .outside, .endSample => refuse .endOutsideSample
  | .hidden _, .endSample => refuse .endWhileHidden
  | .visible sample, .endSample => finish sample
  | .outside, .beginHidden => refuse .hiddenOutsideSample
  | .hidden _, .beginHidden => refuse .nestedHidden
  | .visible sample, .beginHidden => keep (.hidden sample)
  | .hidden sample, .endHidden => keep (.visible sample)
  | _, .endHidden => refuse .endHiddenOutsideHidden
  | .outside, .title _ => refuse .titleOutsideSample
  | .outside, .description _ => refuse .descriptionOutsideSample
  | .visible sample, .title text => keep (.visible { sample with title := text })
  | .hidden sample, .title text => keep (.hidden { sample with title := text })
  | .visible sample, .description text => keep (.visible { sample with description := text })
  | .hidden sample, .description text => keep (.hidden { sample with description := text })
  | .visible sample, .code => keep (.visible (sample.withLine line))
  | state, .code => keep state

/-- What the end of a file means: no sample may be open. -/
def State.close : State → Except Breach Unit
  | .outside => .ok ()
  | .visible sample => .error (.violation (.unclosedSample sample.id))
  | .hidden sample => .error (.violation (.unclosedSample sample.id))

/-- Scans lines in a state; `before` lines came earlier. The samples are those finished from here on. -/
def scanFrom (marker : Marker) (file : Text) (before : Nat) (state : State) :
    List Text → Except Fault (List Record)
  | [] =>
    match state.close with
    | .ok () => .ok []
    | .error breach => .error (.markup breach file before)
  | line :: rest =>
    match state.step line (marker.classify line) with
    | .ok next => (scanFrom marker file (before + 1) next.state rest).map (next.finished.toList ++ ·)
    | .error breach => .error (.markup breach file (before + 1))

def Marker.samplesOfLines (marker : Marker) (file : Text) (lines : List Text) :
    Except Fault (List Record) :=
  scanFrom marker file 0 .outside lines

/-- The samples of a text; `file` is what faults call it. -/
def Marker.samples (marker : Marker) (file text : Text) : Except Fault (List Record) :=
  marker.samplesOfLines file text.lines

/-- The samples of a file's bytes, which are read and decoded line by line. -/
def Marker.samplesOfBytes (marker : Marker) (file : Text) (bytes : List UInt8) :
    Except Fault (List Record) :=
  marker.samplesOfLines file ((Stream.lines bytes).map Utf8.decodeLossy)

end Exemplar.Markup
