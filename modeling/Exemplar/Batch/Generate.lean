import Exemplar.Batch.Extract
import Exemplar.Service.ClassSource
import Exemplar.Service.Decode

/-!
# Generating sample classes

One class for each service model that has examples, written as soon as it is rendered. The classes can be
extracted at once; when there are none, nothing is extracted and a notice says so.
-/

namespace Exemplar.Batch

structure Generated where
  classes : List Text
  skipped : List Text
  extracted : Option Extracted
deriving DecidableEq, Repr

/-- The service that a model file describes. -/
def loadModel (d : Disk) (path : Text) : Except Fault Service :=
  match d.read path with
  | .error e => .error (.io path e)
  | .ok (.directory _) => .error (.model path (.unreadable .isDirectory))
  | .ok (.file bytes) =>
    match Service.decode bytes with
    | .ok service => .ok service
    | .error failure => .error (.model path failure)

/-- Writes a class under the name of its service and gives its path. -/
def writeClass (directory name source : Text) : Batch Text := do
  makeDirectories directory
  let path := Path.join directory (Service.classFileName name)
  writeFile path source
  pure path

/-- Renders and writes the class of a model, unless the model has no examples. -/
def generateClass (directory model : Text) : Batch (Option Text) := do
  let service ← lift (loadModel (← get).disk model)
  if service.hasExamples then
    let source ← lift service.classSource
    some <$> writeClass directory service.tagName source
  else pure none

/-- The classes written for models and the models skipped, both in their order. -/
def generateClasses (directory : Text) : List Text → Batch (List Text × List Text)
  | [] => pure ([], [])
  | model :: rest => do
    let written ← generateClass directory model
    let (classes, skipped) ← generateClasses directory rest
    match written with
    | some path => pure (path :: classes, skipped)
    | none => pure (classes, model :: skipped)

/-- How generated classes are extracted. The paths are texts, so they are handed on as sources without a loss. -/
def classExtraction (classes : List Text) (directory : Text) : ExtractConfig :=
  ⟨classes, Service.classExtension, directory, Markup.Marker.slashes.text⟩

def generate (c : GenerateConfig) : Batch Generated := do
  lift c.validate
  let (classes, skipped) ← generateClasses c.outputDirectory c.models
  match c.extractTo with
  | none => pure ⟨classes, skipped, none⟩
  | some directory =>
    if classes = [] then
      notify .nothingToExtract
      pure ⟨classes, skipped, none⟩
    else
      let extracted ← extract (classExtraction classes directory)
      pure ⟨classes, skipped, some extracted⟩

end Exemplar.Batch
