import Exemplar.CommandLine.Run
import Exemplar.Files.Changes

/-!
# The program

The outer layer around `CommandLine.run`. What the command may read is copied from the system to a disk in
memory, the command runs there, and its changes are carried out in the system.
-/

namespace Exemplar.Program

/-- Denies what a path leads to, as the system does. -/
def denied (d : Disk) (path : Text) (e : IO.Error) : Disk :=
  let cause := match e with
    | .permissionDenied .. => FileError.accessDenied
    | _ => .deviceFailed
  ((d.locate path).toOption.map (d.deny · cause)).getD d

/-- Copies what the system has at a path, with everything below it. -/
partial def copyFrom (d : Disk) (path : Text) : IO Disk := do
  let place := (← IO.currentDir) / String.ofList path
  if ← place.isDir then
    let made := (d.makeDirectory path).toOption.getD d
    try (← place.readDir).foldlM (fun d entry => copyFrom d (Path.join path entry.fileName.toList)) made
    catch e => pure (denied made path e)
  else if ← place.pathExists then
    let written (bytes : ByteArray) := (d.writeFile path bytes.toList).toOption.getD d
    try pure (written (← IO.FS.readBinFile place))
    catch e => pure (denied (written .empty) path e)
  else pure d

/-- Copies the directories that a path leads through, then what is at the path. -/
def copyPath (d : Disk) (path : Text) : IO Disk := do
  let made ← (Path.parents path).reverse.foldlM (fun d parent => do
    if ← ((← IO.currentDir) / String.ofList parent).isDir then
      pure ((d.makeDirectory parent).toOption.getD d)
    else pure d) d
  copyFrom made path

def carryOut : Change → IO Unit
  | .makeDirectory path => IO.FS.createDirAll (String.ofList path)
  | .writeFile path bytes => IO.FS.writeBinFile (String.ofList path) ⟨bytes.toArray⟩

end Exemplar.Program

open Exemplar in
def main (arguments : List String) : IO UInt32 := do
  let arguments := arguments.map String.toList
  let home := (splitOn '/' (← IO.currentDir).toString.toList).filter (· ≠ [])
  let paths := match CommandLine.Command.ofArguments arguments with
    | .ok command => command.paths
    | .error _ => []
  let disk ← paths.foldlM Program.copyPath (.fresh home)
  let outcome := CommandLine.run disk arguments
  (disk.changesTo outcome.disk).forM Program.carryOut
  IO.print (String.ofList outcome.output)
  IO.eprint (String.ofList outcome.errors)
  pure (UInt32.ofNat outcome.exit)
