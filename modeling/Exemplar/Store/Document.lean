import Exemplar.Json.Printer
import Exemplar.Sample

/-!
# Sample documents

All samples of one service in one JSON document: an object whose only field lists the entries in the order
of the samples. Documents come in the order in which their services are first seen.
-/

namespace Exemplar.Store

/-- A stored sample. Any of its fields may be missing in a document that others wrote. -/
structure Entry where
  id : Option Text
  title : Option Text
  description : Option Text
  content : Option Text
deriving DecidableEq, Repr

def Entry.ofRecord (r : Record) : Entry := ⟨some r.id, some r.title, some r.description, some r.code⟩

/-- The field that lists the entries. -/
def rootKey : Text := "codeSamples".toList

structure Document where
  service : Text
  entries : List Entry
deriving DecidableEq, Repr

/-- Adds a record's entry to its service's document, which is begun at the end if there is none. -/
def addRecord (r : Record) : List Document → List Document
  | [] => [⟨r.service, [Entry.ofRecord r]⟩]
  | document :: rest =>
    if document.service = r.service then
      { document with entries := document.entries ++ [Entry.ofRecord r] } :: rest
    else document :: addRecord r rest

/-- The documents of records, one for each service. -/
def documentsOf (records : List Record) : List Document :=
  records.foldl (fun documents r => addRecord r documents) []

def Entry.toValue (e : Entry) : Json.Value :=
  .object ([("id".toList, e.id), ("title".toList, e.title), ("description".toList, e.description),
    ("content".toList, e.content)].filterMap fun (name, field) => field.map (name, .string ·))

def Document.toValue (d : Document) : Json.Value :=
  .object [(rootKey, .list (d.entries.map Entry.toValue))]

def Document.text (d : Document) : Text := d.toValue.pretty 0

/-- The contents of a document's file. -/
def Document.fileText (d : Document) : Text := d.text ++ ['\n']

/-- Service names become file names, so they must not hold a path separator. -/
def checkServiceName (service : Text) : Except Fault Unit :=
  if '/' ∈ service ∨ '\\' ∈ service then
    .error (.invalidArgument (.serviceHasSeparator service))
  else .ok ()

/-- The file name of a service's document. -/
def documentName (service : Text) : Text := service ++ ".json".toList

end Exemplar.Store
