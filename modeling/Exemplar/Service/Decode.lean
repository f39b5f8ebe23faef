import Exemplar.Json.Decode
import Exemplar.Service.Model

/-!
# Service models as JSON

A member is tagged by its field `kind`, which may stand anywhere among the others. The whole member is
therefore read as a value first, with the kind checked where it is met, and its other fields are judged
afterwards.
-/

namespace Exemplar.Service

open Json

structure MetadataDraft where
  syncInterface : Option Text
  syncClient : Option Text
  packageName : Option Text

def Metadata.fields : List (Decode.Field MetadataDraft) := [
  .of "syncInterface" true (·.syncInterface) (fun d t => { d with syncInterface := some t })
    Decode.text,
  .of "syncClient" true (·.syncClient) (fun d t => { d with syncClient := some t }) Decode.text,
  .of "packageName" true (·.packageName) (fun d t => { d with packageName := some t }) Decode.text]

def Metadata.decode (room : Nat) (tree : Tree) : Decode Metadata := do
  let draft ← Decode.recordOf (fun _ => fields) ⟨none, none, none⟩ room tree
  pure ⟨draft.syncInterface.getD [], draft.syncClient.getD [], draft.packageName.getD []⟩

structure OperationDraft where
  methodName : Option Text
  inputType : Option Text
  returnType : Option (Option Text)

def Operation.fields : List (Decode.Field OperationDraft) := [
  .of "methodName" true (·.methodName) (fun d t => { d with methodName := some t }) Decode.text,
  .of "inputType" true (·.inputType) (fun d t => { d with inputType := some t }) Decode.text,
  .of "returnType" false (·.returnType) (fun d t => { d with returnType := some t })
    (Decode.orNull Decode.text)]

def Operation.decode (room : Nat) (tree : Tree) : Decode Operation := do
  let draft ← Decode.recordOf (fun _ => fields) ⟨none, none, none⟩ room tree
  pure ⟨draft.methodName.getD [], draft.inputType.getD [], draft.returnType.getD none⟩

inductive Kind
  | simple
  | list
  | map
  | nested
deriving DecidableEq

def Kind.ofName? (name : Text) : Option Kind :=
  if name = "simple".toList then some simple
  else if name = "list".toList then some list
  else if name = "map".toList then some map
  else if name = "structure".toList then some nested
  else none

def Kind.decode (tree : Tree) : Decode Kind := do
  match ofName? (← Decode.text tree) with
  | some kind => pure kind
  | none => throw .mismatched

def kindKey : Text := "kind".toList

/-- Reads the fields of a member as values; the kind must come once. -/
def Member.checkFields (room : Nat) (seen : Bool) : Fields → Decode Unit
  | .closed => if seen then .ok () else .error .mismatched
  | .broken failure => .error failure
  | .cons key value rest => do
    if (← key.text) = kindKey then
      if seen then throw .mismatched
      let _ ← Kind.decode value
      checkFields room true rest
    else
      let _ ← Decode.value room value
      checkFields room seen rest

/-- Reads a member as a value, up to its last bracket. -/
def Member.check (room : Nat) : Tree → Decode Unit
  | .object fields => match room with
    | 0 => .error .malformed
    | room + 1 => checkFields room false fields
  | .list items => match room with
    | 0 => .error .malformed
    | room + 1 => match items with
      | .closed => .error .mismatched
      | .broken failure => .error failure
      | .cons kind rest => do
        let _ ← Kind.decode kind
        let _ ← Decode.valueItems room rest
  | tree => .error (Decode.mismatch tree)

/-- What the value of a member's field can be taken for. -/
structure FieldView where
  text? : Option Text
  member? : Option Member

/-- The field of a name, if there is exactly one. -/
def only? (name : String) (fields : List (Text × FieldView)) : Option FieldView :=
  match fields.filter (·.1 = name.toList) with
  | [field] => some field.2
  | _ => none

def Member.ofFields? (fields : List (Text × FieldView)) : Option Member := do
  match ← Kind.ofName? (← (← only? "kind" fields).text?) with
  | .simple => return .simple (.ofName (← (← only? "type" fields).text?))
  | .list => return .list (← (← only? "member" fields).member?)
  | .map =>
    return .map (.ofName (← (← only? "keyType" fields).text?)) (← (← only? "value" fields).member?)
  | .nested => return .nested (← (← only? "shape" fields).text?)

def Member.ofItems? (items : List FieldView) : Option Member := do
  match items with
  | [] => none
  | kind :: rest =>
    match ← Kind.ofName? (← kind.text?), rest with
    | .simple, [scalar] => return .simple (.ofName (← scalar.text?))
    | .list, [element] => return .list (← element.member?)
    | .map, [key, value] => return .map (.ofName (← key.text?)) (← value.member?)
    | .nested, [shape] => return .nested (← shape.text?)
    | _, _ => none

mutual

/-- The member that a well-formed value describes. -/
def Member.ofTree? : Tree → Option Member
  | .object fields => Member.ofFields? (fieldViews fields)
  | .list items => Member.ofItems? (itemViews items)
  | _ => none

def fieldViews : Fields → List (Text × FieldView)
  | .cons key value rest =>
    match key.text with
    | .ok name => (name, ⟨(Decode.text value).toOption, Member.ofTree? value⟩) :: fieldViews rest
    | .error _ => fieldViews rest
  | _ => []

def itemViews : Items → List FieldView
  | .cons item rest => ⟨(Decode.text item).toOption, Member.ofTree? item⟩ :: itemViews rest
  | _ => []

end

def Member.decode (room : Nat) (tree : Tree) : Decode Member := do
  check room tree
  match ofTree? tree with
  | some member => pure member
  | none => throw .mismatched

structure ShapeDraft where
  members : Option (List (Text × Member))

def Shape.fields (room : Nat) : List (Decode.Field ShapeDraft) := [
  .of "members" false (·.members) (fun _ m => ⟨some m⟩) (Decode.mapOf room Member.decode)]

def Shape.decode (room : Nat) (tree : Tree) : Decode Shape := do
  let draft ← Decode.recordOf fields ⟨none⟩ room tree
  pure ⟨draft.members.getD []⟩

structure CommentsDraft where
  input : Option (List (Text × Text))

def commentsFields (room : Nat) : List (Decode.Field CommentsDraft) := [
  .of "input" false (·.input) (fun _ c => ⟨some c⟩) (Decode.mapOf room fun _ => Decode.text)]

def decodeComments (room : Nat) (tree : Tree) : Decode (List (Text × Text)) := do
  let draft ← Decode.recordOf commentsFields ⟨none⟩ room tree
  pure (draft.input.getD [])

structure ExampleDraft where
  title : Option Text
  description : Option Text
  comments : Option (List (Text × Text))
  input : Option Value

def Example.fields (room : Nat) : List (Decode.Field ExampleDraft) := [
  .of "title" true (·.title) (fun d t => { d with title := some t }) Decode.text,
  .of "description" true (·.description) (fun d t => { d with description := some t }) Decode.text,
  .of "comments" false (·.comments) (fun d c => { d with comments := some c })
    (decodeComments room),
  .of "input" false (·.input) (fun d v => { d with input := some v }) (Decode.value room)]

def Example.decode (room : Nat) (tree : Tree) : Decode Example := do
  let draft ← Decode.recordOf fields ⟨none, none, none, none⟩ room tree
  pure ⟨draft.title.getD [], draft.description.getD [], draft.comments.getD [],
    draft.input.getD .null⟩

structure Draft where
  metadata : Option Metadata
  operations : Option (List (Text × Operation))
  shapes : Option (List (Text × Shape))
  examples : Option (List (Text × List Example))

def fields (room : Nat) : List (Decode.Field Draft) := [
  .of "metadata" true (·.metadata) (fun d m => { d with metadata := some m })
    (Metadata.decode room),
  .of "operations" false (·.operations) (fun d o => { d with operations := some o })
    (Decode.mapOf room Operation.decode),
  .of "shapes" false (·.shapes) (fun d s => { d with shapes := some s })
    (Decode.mapOf room Shape.decode),
  .of "examples" false (·.examples) (fun d e => { d with examples := some e })
    (Decode.mapOf room fun room => Decode.listOf room Example.decode)]

def ofTree (tree : Tree) : Decode Service := do
  let draft ← Decode.recordOf fields ⟨none, none, none, none⟩ Decode.room tree
  pure ⟨draft.metadata.getD ⟨[], [], []⟩, draft.operations.getD [], draft.shapes.getD [],
    draft.examples.getD []⟩

/-- The service that a JSON text describes. -/
def decode (bytes : List UInt8) : Decode Service := Decode.whole ofTree bytes

/-- A single member as a whole JSON text. -/
def Member.decodeWhole (bytes : List UInt8) : Decode Member :=
  Decode.whole (decode Decode.room) bytes

end Exemplar.Service
