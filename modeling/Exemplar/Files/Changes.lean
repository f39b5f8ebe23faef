import Exemplar.Files.Walk

/-!
# Changes between disks

What has to be made and written to turn one disk into another that has everything the first one has.
-/

namespace Exemplar

inductive Change
  | makeDirectory (path : Text)
  | writeFile (path : Text) (bytes : List UInt8)
deriving DecidableEq, Repr

namespace Disk

/-- What brings a path to a node, if the disk does not have it there already. -/
def change? (d : Disk) (path : Text) (node : Node) : Option Change :=
  match node, d.find path with
  | .file bytes, .ok (.file old) => if old = bytes then none else some (.writeFile path bytes)
  | .file bytes, _ => some (.writeFile path bytes)
  | .directory _, .ok (.directory _) => none
  | .directory _, _ => some (.makeDirectory path)

/-- The changes that lead to a later disk, directories before what is in them. -/
def changesTo (earlier later : Disk) : List Change :=
  (later.root.under ['/']).filterMap fun (path, node) => earlier.change? path node

end Disk

end Exemplar
