import Exemplar.Batch.Config
import Exemplar.Files.Collect
import Exemplar.Markup.Scan
import Exemplar.Store.Archive

/-!
# Extracting samples

Collects source files, scans all of them, and only then writes the documents, so that a malformed file
leaves everything as it was.
-/

namespace Exemplar.Batch

open Markup (Marker)

structure Extracted where
  files : Nat
  samples : Nat
  documents : List Text
deriving DecidableEq, Repr

/-- The samples of a file. It is looked for first and opened then. -/
def samplesOfFile (marker : Marker) (d : Disk) (path : Text) : Except Fault (List Record) :=
  if d.isFile path then
    match d.read path with
    | .ok (.file bytes) => marker.samplesOfBytes (Path.displayName path) bytes
    | .ok (.directory _) => .error (.io path .isDirectory)
    | .error e => .error (.io path e)
  else .error (.invalidArgument (.noSuchFile path))

/-- The samples of several files in their order; the first one that cannot be scanned ends the batch. -/
def samplesOfFiles (marker : Marker) (d : Disk) : List Text → Except Fault (List Record)
  | [] => .ok []
  | path :: rest => do
    let first ← samplesOfFile marker d path
    let others ← samplesOfFiles marker d rest
    pure (first ++ others)

/-- Collects files, with a notice for each pattern that describes none. -/
def collect (extension : Text) (sources : List Text) : Batch (List Text) := do
  let (fruitless, files) := Files.collect (← get).disk extension sources
  fruitless.forM fun source => notify (.noFilesMatched source)
  lift files

def extract (c : ExtractConfig) : Batch Extracted := do
  lift c.validate
  let marker ← lift (Marker.ofText c.commentMarker)
  let files ← collect c.bareExtension c.sources
  let samples ← lift (samplesOfFiles marker (← get).disk files)
  let documents ← Store.writeSamples samples c.outputDirectory
  pure ⟨files.length, samples.length, documents⟩

end Exemplar.Batch
