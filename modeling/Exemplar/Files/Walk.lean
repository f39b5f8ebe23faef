import Exemplar.Files.Disk

/-!
# Walking directories

Everything below a directory, depth first: each entry in the order of the names, followed by what is below
it. Paths are the directory's path with the names joined to it. A walk opens the directories that it comes to, and
what it cannot open ends it; the files that it picks are not opened.
-/

namespace Exemplar

namespace Node

mutual

/-- The nodes below a node at a path, with their own paths. -/
def under (path : Text) : Node → List (Text × Node)
  | file _ => []
  | directory entries => underEntries path entries

def underEntries (path : Text) : List (Text × Node) → List (Text × Node)
  | [] => []
  | (name, node) :: rest =>
    (Path.join path name, node) :: under (Path.join path name) node ++ underEntries path rest

end

mutual

/-- The files of a tree with their contents, and its empty directories with a slash at the end. -/
def listing (path : Text) : Node → List (Text × Option (List UInt8))
  | file bytes => [(path, some bytes)]
  | directory [] => [(path ++ ['/'], none)]
  | directory (entry :: entries) => listingEntries path (entry :: entries)

def listingEntries (path : Text) : List (Text × Node) → List (Text × Option (List UInt8))
  | [] => []
  | (name, node) :: rest =>
    listing (Path.join path name) node ++ listingEntries path rest

end

end Node

namespace Disk

/-- Visits nodes with their paths and picks the files with the extension. The first directory that its path does not
open ends the walk. -/
def visit (d : Disk) (extension : Text) : List (Text × Node) → Except (Text × FileError) (List Text)
  | [] => .ok []
  | (path, .file _) :: rest =>
    (d.visit extension rest).map fun files =>
      if Path.hasExtension path extension then path :: files else files
  | (path, .directory _) :: rest =>
    match d.read path with
    | .ok _ => d.visit extension rest
    | .error e => .error (path, e)

/-- The files below a directory whose names have the extension, or the directory at which the walk ends. -/
def walk (d : Disk) (directory extension : Text) : Except (Text × FileError) (List Text) :=
  match d.find directory with
  | .ok node => d.visit extension ((directory, node) :: node.under directory)
  | .error e => .error (directory, e)

/-- The listing of the working directory. -/
def listing (d : Disk) : List (Text × Option (List UInt8)) :=
  match d.at? d.home with
  | some (.directory entries) => Node.listingEntries [] entries
  | _ => []

end Disk

end Exemplar
