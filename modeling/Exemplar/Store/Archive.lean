import Exemplar.Batch.Workspace
import Exemplar.Store.Lookup

/-!
# Archives

A directory with one document for each service. Writing replaces the documents of the services at hand and
touches no other. Reading takes a missing document, a missing entry and an incomplete entry alike as no
sample, and fails on a document that cannot be read.
-/

namespace Exemplar.Store

def documentPath (directory service : Text) : Text := Path.join directory (documentName service)

def writeDocument (directory : Text) (document : Document) : Batch Text := do
  Batch.lift (checkServiceName document.service)
  let path := documentPath directory document.service
  Batch.writeFile path document.fileText
  pure path

def writeDocuments (directory : Text) : List Document → Batch (List Text)
  | [] => pure []
  | document :: rest => do
    let path ← writeDocument directory document
    let paths ← writeDocuments directory rest
    pure (path :: paths)

/-- Writes the documents of records into a directory, which is made if need be, and gives their paths. -/
def writeSamples (records : List Record) (directory : Text) : Batch (List Text) := do
  let _ ← Batch.lift
    (requireNonEmpty directory "Sample output directory must be provided".toList)
  Batch.makeDirectories directory
  writeDocuments directory (documentsOf records)

/-- The sample that a document's node holds under an id. -/
def sampleIn (service id : Text) : Node → Except Fault (Option Retrieved)
  | .directory _ => .error (.retrieval service id (.unreadable .isDirectory))
  | .file bytes =>
    match findEntry id bytes with
    | .ok entry => .ok (entry.bind (·.retrieve? service))
    | .error failure => .error (.retrieval service id failure)

/-- Looks up a sample in an archive. -/
def readSample (d : Disk) (directory service id : Text) : Except Fault (Option Retrieved) := do
  let _ ← requireNonEmpty directory "Sample directory must be provided".toList
  let _ ← requireNonEmpty service "Sample service name must be provided".toList
  let _ ← requireNonEmpty id "Sample ID must be provided".toList
  checkServiceName service
  let path := documentPath directory service
  match d.read path with
  | .ok node => sampleIn service id node
  | .error .notFound => pure none
  | .error e => throw (.io path e)

end Exemplar.Store
