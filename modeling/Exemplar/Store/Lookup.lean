import Exemplar.Json.Decode
import Exemplar.Store.Document

/-!
# Looking up entries

The entry of an id is found while its document is read, without keeping any other. The first entry with the
id is the one. Until an entry is found every list of entries is read in full; other fields, and lists of
entries after that, are only checked for their form.
-/

namespace Exemplar.Store

open Json

structure EntryDraft where
  id : Option (Option Text)
  title : Option (Option Text)
  description : Option (Option Text)
  content : Option (Option Text)

def Entry.fields : List (Decode.Field EntryDraft) := [
  .of "id" false (·.id) (fun d t => { d with id := some t }) (Decode.orNull Decode.text),
  .of "title" false (·.title) (fun d t => { d with title := some t }) (Decode.orNull Decode.text),
  .of "description" false (·.description) (fun d t => { d with description := some t })
    (Decode.orNull Decode.text),
  .of "content" false (·.content) (fun d t => { d with content := some t })
    (Decode.orNull Decode.text)]

def Entry.decode (room : Nat) (tree : Tree) : Decode Entry := do
  let draft ← Decode.recordOf (fun _ => fields) ⟨none, none, none, none⟩ room tree
  pure ⟨draft.id.getD none, draft.title.getD none, draft.description.getD none,
    draft.content.getD none⟩

def decodeEntries (room : Nat) (tree : Tree) : Decode (List Entry) :=
  Decode.listOf room Entry.decode tree

def firstWithId (id : Text) (entries : List Entry) : Option Entry :=
  entries.find? (·.id = some id)

def findInFields (room : Nat) (id : Text) (found : Option Entry) : Fields → Decode (Option Entry)
  | .closed => .ok found
  | .broken failure => .error failure
  | .cons key value rest => do
    if (← key.text) = rootKey ∧ found = none then
      let entries ← decodeEntries room value
      findInFields room id (firstWithId id entries) rest
    else
      value.skip
      findInFields room id found rest

def findInTree (id : Text) : Tree → Decode (Option Entry)
  | .object fields => findInFields (Decode.room - 1) id none fields
  | tree => .error (Decode.mismatch tree)

/-- The first entry with an id in a document's bytes. -/
def findEntry (id : Text) (bytes : List UInt8) : Decode (Option Entry) :=
  Decode.whole (findInTree id) bytes

/-- An entry as a sample of its service, if none of its parts is missing or empty. -/
def Entry.retrieve? (service : Text) (e : Entry) : Option Retrieved := do
  (Retrieved.ofParts (← e.id) service (← e.title) (← e.description) (← e.content)).toOption

end Exemplar.Store
