import Exemplar.Files.Pattern
import Exemplar.Files.Walk

/-!
# Expanding patterns

The paths on a disk that a pattern describes, component by component. A component without wildcards is
joined to the path without looking into the directory, so it may also be a dot or a double dot. A component
with wildcards is compared with the names in the directory, in their order; the special names `.` and `..`
are admitted only by a component that starts with a dot, and they come before the others. The component `**`
stands for the directory and everything below it. A directory that cannot be listed has no names to compare with.

Paths in the working directory are shown without a leading dot.
-/

namespace Exemplar.Glob

inductive Segment
  | literal (name : Text)
  | anyDepth
  | wild (pattern : Pattern)
deriving DecidableEq, Repr

def Segment.ofPattern (pattern : Pattern) : Segment :=
  if .anyDepth ∈ pattern then anyDepth
  else match pattern.literal? with
    | some name => literal name
    | none => wild pattern

def Segment.describes : Segment → Text → Bool
  | literal own, name => own == name
  | anyDepth, _ => true
  | wild pattern, name => pattern.describes name

/-- Repeated `**` mean no more than one. -/
def collapse : List Segment → List Segment
  | .anyDepth :: .anyDepth :: rest => collapse (.anyDepth :: rest)
  | segment :: rest => segment :: collapse rest
  | [] => []

/-- The pieces between slashes; a slash at the end begins no further piece. -/
def pieces (t : Text) : List Text :=
  let all := splitOn '/' t
  if all.getLast? = some [] ∧ 1 < all.length then all.dropLast else all

/-- A pattern read: where it starts, and whether it wants directories only. -/
structure Query where
  start : Text
  segments : List Segment
  wantsDirectory : Bool

def Query.ofText (source : Text) : Except Pattern.Fault Query := do
  let _ ← Pattern.ofText source
  let relative := if Path.isAbsolute source then source.drop 1 else source
  let patterns ← (pieces relative).mapM Pattern.ofText
  pure {
    start := if Path.isAbsolute source then ['/'] else ['.']
    segments := collapse (patterns.map Segment.ofPattern)
    wantsDirectory := source.getLast? = some '/' }

/-- The directory that joined names are added to: nothing for the working directory. -/
def base (path : Text) : Text := if Path.components path = [.here] then [] else path

/-- Whether a path that ends the pattern may be given out. -/
def accepted (d : Disk) (wantsDirectory : Bool) (path : Text) : List Text :=
  if wantsDirectory && !d.isDirectory path then [] else [path]

/-- The special names that a pattern admits, in the order in which they are tried. -/
def specials (pattern : Pattern) : List Text :=
  if pattern.head? = some (.char '.') then
    [['.', '.'], ['.']].filter pattern.describes
  else []

/-- The special names that a pattern admits in a directory, and the children of the directory. A directory that cannot
be listed has none of either. -/
def namesIn (d : Disk) (pattern : Pattern) (path : Text) : List Text × List Text :=
  match d.read path with
  | .ok (.directory entries) =>
    ((specials pattern).map (Path.join path), entries.map fun (name, _) => Path.join (base path) name)
  | _ => ([], [])

mutual

/-- The paths that a search comes to below a node. It passes over directories that cannot be listed. -/
def reach (d : Disk) (location : List Text) (path : Text) : Node → List Text
  | .file _ => []
  | .directory entries => if (d.denial location).isSome then [] else reachEntries d location path entries

def reachEntries (d : Disk) (location : List Text) (path : Text) : List (Text × Node) → List Text
  | [] => []
  | (name, node) :: rest =>
    Path.join path name :: reach d (location ++ [name]) (Path.join path name) node ++
      reachEntries d location path rest

end

/-- Everything that a search comes to below a directory. -/
def descendants (d : Disk) (path : Text) : List Text :=
  match d.locate path with
  | .ok location => ((d.at? location).map (reach d location (base path))).getD []
  | .error _ => []

/-- The paths that the segments lead to from a path. -/
def expandFrom (d : Disk) (wantsDirectory : Bool) : List Segment → Text → List Text
  | [], path => [path]
  | .literal name :: rest, path =>
    let next := Path.join (base path) name
    let found :=
      if name = ['.'] ∨ name = ['.', '.'] then d.isDirectory path else d.pathExists next
    if !found then []
    else if rest.isEmpty then accepted d wantsDirectory next
    else expandFrom d wantsDirectory rest next
  | [.anyDepth], path => (descendants d path).filter d.isDirectory
  | .anyDepth :: segment :: rest, path =>
    (descendants d path).flatMap fun child =>
      if ((Path.fileName? child).any segment.describes) then
        if rest.isEmpty then accepted d wantsDirectory child
        else expandFrom d wantsDirectory rest child
      else []
  | .wild pattern :: rest, path =>
    let (special, named) := namesIn d pattern path
    (special.flatMap fun child =>
      if rest.isEmpty then accepted d wantsDirectory child
      else expandFrom d wantsDirectory rest child) ++
    named.flatMap fun child =>
      if (Path.fileName? child).any pattern.describes then
        if rest.isEmpty then accepted d wantsDirectory child
        else expandFrom d wantsDirectory rest child
      else []

/-- The paths that a pattern describes. -/
def expand (d : Disk) (source : Text) : Except Pattern.Fault (List Text) := do
  let query ← Query.ofText source
  pure (expandFrom d query.wantsDirectory query.segments query.start)

/-- The directory below which everything lies that a pattern can describe: the components before the first
one with a wildcard. -/
def fixedPart (source : Text) : Text :=
  let fixed := (Path.components source).takeWhile fun part =>
    (Path.componentText part).all fun c => c ≠ '*' && c ≠ '?' && c ≠ '['
  if fixed = [] then ['.'] else Path.ofComponents fixed

end Exemplar.Glob
