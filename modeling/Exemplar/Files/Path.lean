import Exemplar.Text.Basic

/-!
# Paths

Paths are texts with slashes between their components, and they are shown as they were built. Two paths are
compared by components: repeated slashes and inner dots do not count, a leading dot does, and a double dot
is never resolved.
-/

namespace Exemplar.Path

inductive Component
  | root
  | here
  | up
  | name (n : Text)
deriving DecidableEq, Repr

/-- The component of a piece between slashes; empty pieces and dots have none. -/
def Component.ofPiece? (piece : Text) : Option Component :=
  if piece = [] ∨ piece = ['.'] then none
  else if piece = ['.', '.'] then some up
  else some (name piece)

def isAbsolute (path : Text) : Bool := path.head? == some '/'

def components (path : Text) : List Component :=
  let pieces := splitOn '/' path
  let start := if isAbsolute path then [.root] else if pieces.head? = some ['.'] then [.here] else []
  start ++ pieces.filterMap Component.ofPiece?

/-- The last component, if it is a name. -/
def fileName? (path : Text) : Option Text :=
  match (components path).getLast? with
  | some (.name n) => some n
  | _ => none

/-- What messages call a file. -/
def displayName (path : Text) : Text := (fileName? path).getD path

/-- A path within a directory; an absolute one replaces the directory. -/
def join (directory path : Text) : Text :=
  if isAbsolute path ∨ directory = [] then path
  else if directory.getLast? = some '/' then directory ++ path
  else directory ++ '/' :: path

def componentText : Component → Text
  | .root => ['/']
  | .here => ['.']
  | .up => ['.', '.']
  | .name n => n

def ofComponents (parts : List Component) : Text :=
  parts.foldl (fun path part => join path (componentText part)) []

/-- The directories that a path stands in, the innermost first, up to the root or the first component. -/
def parents (path : Text) : List Text :=
  let parts := components path
  ((List.range parts.length).drop 1).reverse.map fun n => ofComponents (parts.take n)

/-- Splits a name at its last dot. -/
def splitExtension? (name : Text) : Option (Text × Text) :=
  match name.reverse.dropWhile (· ≠ '.') with
  | [] => none
  | _ :: stem => some (stem.reverse, (name.reverse.takeWhile (· ≠ '.')).reverse)

/-- Whether the file name has the extension after its last dot, with something before that dot. -/
def hasExtension (path extension : Text) : Bool :=
  match (fileName? path).bind splitExtension? with
  | some (stem, e) => stem ≠ [] && e == extension
  | none => false

end Exemplar.Path
