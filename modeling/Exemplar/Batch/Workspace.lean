import Exemplar.Fault
import Exemplar.Files.Disk
import Exemplar.Reference

/-!
# Workspaces

What a batch works on: a disk, and the notices given so far. A batch that fails leaves what it has written
and the notices it has given.
-/

namespace Exemplar

/-- Something left out without a failure. -/
inductive Notice
  | noFilesMatched (pattern : Text)
  | referenceSkipped (fault : Fault)
  | sampleNotFound (reference : Reference)
  | nothingToExtract
deriving DecidableEq, Repr

def Notice.text : Notice → Text
  | noFilesMatched pattern => "no files matched pattern=".toList ++ pattern
  | referenceSkipped fault => "skipping reference: ".toList ++ fault.message
  | sampleNotFound reference => "sample not found, skipping reference=".toList ++ reference.text
  | nothingToExtract => "no sample classes were generated, nothing to extract".toList

structure Workspace where
  disk : Disk
  notices : List Notice

abbrev Batch := EStateM Fault Workspace

namespace Batch

def lift {α : Type} : Except Fault α → Batch α
  | .ok a => pure a
  | .error fault => throw fault

def notify (notice : Notice) : Batch Unit :=
  modify fun w => { w with notices := w.notices ++ [notice] }

def makeDirectories (path : Text) : Batch Unit := do
  let (disk, result) := (← get).disk.makeDirectories path
  modify fun w => { w with disk := disk }
  match result with
  | .ok () => pure ()
  | .error e => throw (.io path e)

def writeFile (path contents : Text) : Batch Unit := do
  match (← get).disk.writeFile path (Utf8.encode contents) with
  | .ok disk => modify fun w => { w with disk := disk }
  | .error e => throw (.io path e)

end Batch

end Exemplar
