import Exemplar.Batch.Generate
import Exemplar.Batch.Show
import Exemplar.CommandLine.Command

/-!
# Running a command

What a run writes to its two streams, and the code it exits with: zero after success, one after a failure,
two for wrong arguments. Notices come first on the error stream, then the summary or the failure with its
causes.
-/

namespace Exemplar.CommandLine

structure Outcome where
  exit : Nat
  output : Text
  errors : Text
  disk : Disk

def noticeLine (notice : Notice) : Text := "WARN ".toList ++ notice.text ++ ['\n']

/-- A text whose lines after the first are indented. -/
def hanging (indent : Nat) (t : Text) : Text :=
  t.flatMap fun c => if c = '\n' then '\n' :: List.replicate indent ' ' else [c]

/-- A failure below what was attempted. Several causes are numbered. -/
def failureText (attempt : String) (fault : Fault) : Text :=
  let start := "Error: ".toList ++ attempt.toList ++ "\n\nCaused by:\n".toList
  match fault.causes with
  | [] => start ++ List.replicate 4 ' ' ++ hanging 4 fault.message ++ ['\n']
  | causes =>
    start ++ (fault.message :: causes).zipIdx.flatMap fun (cause, number) =>
      List.replicate 4 ' ' ++ Text.ofNat number ++ ": ".toList ++ hanging 7 cause ++ ['\n']

def extractSummary (r : Batch.Extracted) : Text :=
  "extracted ".toList ++ Text.ofNat r.samples ++ " samples from ".toList ++ Text.ofNat r.files ++
    " files into ".toList ++ Text.ofNat r.documents.length ++ " documents\n".toList

def generateSummary (r : Batch.Generated) : Text :=
  (r.classes.flatMap fun path => "generated ".toList ++ path ++ ['\n']) ++
    (r.skipped.flatMap fun path =>
      "warning: no examples in ".toList ++ path ++ ", skipped\n".toList) ++
    match r.extracted with
    | none => []
    | some e =>
      "extracted ".toList ++ Text.ofNat e.samples ++ " samples into ".toList ++
        Text.ofNat e.documents.length ++ " documents\n".toList

/-- Runs a batch from a disk; `report` gives the texts for the two streams. -/
def runBatch {α : Type} (attempt : String) (batch : Batch α) (report : α → Text × Text)
    (d : Disk) : Outcome :=
  match batch.run ⟨d, []⟩ with
  | .ok a w =>
    let (output, summary) := report a
    ⟨0, output, w.notices.flatMap noticeLine ++ summary, w.disk⟩
  | .error fault w => ⟨1, [], w.notices.flatMap noticeLine ++ failureText attempt fault, w.disk⟩

def Command.run (d : Disk) : Command → Outcome
  | .extract c =>
    runBatch "sample extraction failed" (Batch.extract c) (fun r => ([], extractSummary r)) d
  | .generate c =>
    runBatch "sample generation failed" (Batch.generate c) (fun r => ([], generateSummary r)) d
  | .display c =>
    runBatch "failed to render samples" (Batch.showSamples c) (fun text => (text, [])) d

def usage : Text :=
  ("Usage:\n" ++
    "  extract -s SOURCE... -o DIRECTORY [-e EXTENSION] [--comment-marker MARKER]\n" ++
    "  generate -m MODEL... -o DIRECTORY [--extract-to DIRECTORY]\n" ++
    "  show -d DIRECTORY [-f FORMAT] SERVICE.ID...\n").toList

/-- Runs what arguments ask for. -/
def run (d : Disk) (arguments : List Text) : Outcome :=
  match Command.ofArguments arguments with
  | .ok command => command.run d
  | .error .help => ⟨0, usage, [], d⟩
  | .error .usage => ⟨2, [], usage, d⟩

end Exemplar.CommandLine
