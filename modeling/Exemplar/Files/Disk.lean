import Exemplar.Files.FileError
import Exemplar.Files.Node
import Exemplar.Files.Path
import Exemplar.Text.Utf8

/-!
# Disks

A disk is a tree of nodes in order, with a working directory in it.

Paths are resolved step by step. A step out of anything but a directory fails, so does a name that is
missing, and a name or a whole path that is longer than it may be.

What stands at a location can be denied: it is found there, but a file cannot be read and a directory cannot be
listed, for want of permission or because a device fails.

There are no links. Every directory can be searched for a name and written to, a file that can be opened can be read
to its end, and all names and paths are Unicode texts.
-/

namespace Exemplar

structure Disk where
  root : Node
  ordered : root.Ordered
  /-- The location of the working directory. -/
  home : List Text
  /-- Why what stands at a location cannot be opened, if it cannot. -/
  denial : List Text → Option FileError := fun _ => none

namespace Disk

/-- The longest name, in bytes. -/
def nameLimit : Nat := 255

/-- The longest path, in bytes. -/
def pathLimit : Nat := 4095

/-- A disk with nothing but an empty working directory. -/
def fresh (home : List Text) : Disk where
  root := (Node.directory []).put home (.directory [])
  ordered := Node.ordered_put ⟨List.Pairwise.nil, trivial⟩ ⟨List.Pairwise.nil, trivial⟩
  home := home

def at? (d : Disk) (location : List Text) : Option Node := d.root.at? location

/-- One step of a path, from an existing location. -/
def step (d : Disk) (location : List Text) (piece : Text) : Except FileError (List Text) :=
  match d.at? location with
  | none => .error .notFound
  | some (.file _) => .error .notDirectory
  | some (.directory entries) =>
    if piece = [] ∨ piece = ['.'] then .ok location
    else if piece = ['.', '.'] then .ok location.dropLast
    else if nameLimit < (Utf8.encode piece).length then .error .nameTooLong
    else if (entries.lookup piece).isSome then .ok (location ++ [piece])
    else .error .notFound

def start (d : Disk) (path : Text) : List Text := if Path.isAbsolute path then [] else d.home

/-- A path that can be handed to the system at all. -/
def checkPath (path : Text) : Except FileError Unit :=
  if Char.ofNat 0 ∈ path then .error .nulInName
  else if path = [] then .error .notFound
  else if pathLimit < (Utf8.encode path).length then .error .nameTooLong
  else .ok ()

/-- The location of what a path leads to. -/
def locate (d : Disk) (path : Text) : Except FileError (List Text) := do
  checkPath path
  (splitOn '/' path).foldlM d.step (d.start path)

def find (d : Disk) (path : Text) : Except FileError Node := do
  match d.at? (← d.locate path) with
  | some node => pure node
  | none => throw .notFound

/-- Opens what a path leads to. -/
def read (d : Disk) (path : Text) : Except FileError Node := do
  let location ← d.locate path
  match d.at? location, d.denial location with
  | none, _ => throw .notFound
  | some _, some e => throw e
  | some node, none => pure node

def isFile (d : Disk) (path : Text) : Bool :=
  match d.find path with
  | .ok (.file _) => true
  | _ => false

def isDirectory (d : Disk) (path : Text) : Bool :=
  match d.find path with
  | .ok (.directory _) => true
  | _ => false

def pathExists (d : Disk) (path : Text) : Bool := (d.find path).isOk

/-- The pieces before the last one and the last one, slashes at the end aside. -/
def splitLast (path : Text) : List Text × Text :=
  match ((splitOn '/' path).reverse.dropWhile (·.isEmpty)) with
  | [] => ([], [])
  | last :: before => (before.reverse, last)

/-- Where a new node may be put: its directory, which must exist, and its name there with what has the name
already. The root and dots have no name to be put under. -/
structure Place where
  directory : List Text
  name : Option Text
  present : Option Node

def place (d : Disk) (path : Text) : Except FileError Place := do
  checkPath path
  let (before, last) := splitLast path
  let directory ← before.foldlM d.step (d.start path)
  match d.at? directory with
  | none => throw .notFound
  | some (.file _) => throw .notDirectory
  | some (.directory entries) =>
    if last = [] ∨ last = ['.'] ∨ last = ['.', '.'] then pure ⟨directory, none, none⟩
    else if nameLimit < (Utf8.encode last).length then throw .nameTooLong
    else pure ⟨directory, some last, entries.lookup last⟩

def put (d : Disk) (location : List Text) (new : Node) (h : new.Ordered) : Disk where
  root := d.root.put location new
  ordered := Node.ordered_put h d.ordered
  home := d.home
  denial := d.denial

/-- Denies what stands at a location, or what will stand there. -/
def deny (d : Disk) (location : List Text) (e : FileError) : Disk :=
  { d with denial := fun other => if other = location then some e else d.denial other }

/-- Creates a file, or replaces the contents of one. -/
def writeFile (d : Disk) (path : Text) (bytes : List UInt8) : Except FileError Disk := do
  let place ← d.place path
  match place.name, place.present with
  | none, _ => throw .isDirectory
  | some _, some (.directory _) => throw .isDirectory
  | some name, _ =>
    if path.getLast? = some '/' then throw .isDirectory
    pure (d.put (place.directory ++ [name]) (.file bytes) trivial)

def makeDirectory (d : Disk) (path : Text) : Except FileError Disk := do
  let place ← d.place path
  match place.name, place.present with
  | some name, none =>
    pure (d.put (place.directory ++ [name]) (.directory []) ⟨List.Pairwise.nil, trivial⟩)
  | _, _ => throw .alreadyExists

/-- Makes the first of the directories, after those it stands in where they are missing. What was made
before a failure stays. -/
def makeAll (d : Disk) : List Text → Disk × Except FileError Unit
  | [] => (d, .ok ())
  | path :: parents =>
    match d.makeDirectory path with
    | .ok made => (made, .ok ())
    | .error .notFound =>
      match d.makeAll parents with
      | (made, .error e) => (made, .error e)
      | (made, .ok ()) =>
        match made.makeDirectory path with
        | .ok made => (made, .ok ())
        | .error e => (made, if made.isDirectory path then .ok () else .error e)
    | .error e => (d, if d.isDirectory path then .ok () else .error e)

/-- Makes a directory and those it stands in; one that exists is fine, and so is the empty path. -/
def makeDirectories (d : Disk) (path : Text) : Disk × Except FileError Unit :=
  if path = [] then (d, .ok ()) else d.makeAll (path :: Path.parents path)

def removeFile (d : Disk) (path : Text) : Except FileError Disk := do
  let location ← d.locate path
  match d.at? location with
  | some (.file _) =>
    pure { d with root := d.root.remove location, ordered := Node.ordered_remove d.ordered }
  | some (.directory _) => throw .isDirectory
  | none => throw .notFound

end Disk

end Exemplar
