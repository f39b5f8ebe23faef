import Exemplar.Fault
import Exemplar.Files.Glob

/-!
# Collecting source files

A source is a file, taken whatever its extension; or a directory, walked for files of an extension; or else
a pattern. The files come in the order of the sources, and a path that equals an earlier one by components
is left out. A directory that cannot be walked to its end and a malformed pattern end the collection.
-/

namespace Exemplar.Files

/-- The files of one source. -/
def ofSource (d : Disk) (extension source : Text) : Except Fault (List Text) :=
  if d.isFile source then .ok [source]
  else if d.isDirectory source then
    match d.walk source extension with
    | .ok paths => .ok paths
    | .error (directory, e) => .error (.io directory (.walking directory e))
  else
    match Glob.expand d source with
    | .ok paths => .ok (paths.filter d.isFile)
    | .error fault => .error (.invalidArgument (.malformedPattern source fault))

/-- Whether a source is a pattern that describes no file. -/
def isFruitless (d : Disk) (source : Text) (files : List Text) : Bool :=
  !d.isFile source && !d.isDirectory source && files.isEmpty

/-- Leaves out each path that equals one before it by components. -/
def distinct : List Text → List Text
  | [] => []
  | path :: rest =>
    path :: (distinct rest).filter fun other => Path.components other ≠ Path.components path

/-- The files of several sources with the patterns among them that describe no file. After a source that
fails no source is looked at. -/
def ofSources (d : Disk) (extension : Text) : List Text → List Text × Except Fault (List Text)
  | [] => ([], .ok [])
  | source :: rest =>
    match ofSource d extension source with
    | .error fault => ([], .error fault)
    | .ok files =>
      let (fruitless, others) := ofSources d extension rest
      ((if isFruitless d source files then [source] else []) ++ fruitless,
        others.map (files ++ ·))

/-- Collects the files of sources, each once. -/
def collect (d : Disk) (extension : Text) (sources : List Text) :
    List Text × Except Fault (List Text) :=
  let (fruitless, files) := ofSources d extension sources
  (fruitless, files.map distinct)

end Exemplar.Files
