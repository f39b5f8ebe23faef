import Exemplar.Batch.Config
import Exemplar.Render.Format
import Exemplar.Store.Archive

/-!
# Showing samples

Renders the samples that references name, in the order of the references. A malformed reference and one
whose sample is not in the archive are skipped with a notice.
-/

namespace Exemplar.Batch

/-- The sample of a reference, if it can be skipped or found. -/
def resolve (directory reference : Text) : Batch (Option Retrieved) := do
  match Reference.ofText reference with
  | .error fault =>
    notify (.referenceSkipped fault)
    pure none
  | .ok r =>
    match ← lift (Store.readSample (← get).disk directory r.service r.id) with
    | some sample => pure (some sample)
    | none =>
      notify (.sampleNotFound r)
      pure none

def resolveAll (directory : Text) : List Text → Batch (List Retrieved)
  | [] => pure []
  | reference :: rest => do
    let sample ← resolve directory reference
    let samples ← resolveAll directory rest
    pure (sample.toList ++ samples)

def showSamples (c : ShowConfig) : Batch Text := do
  lift c.validate
  let format ← lift (Render.Format.ofName c.format)
  let samples ← resolveAll c.samplesDirectory c.references
  pure (format.render samples)

end Exemplar.Batch
