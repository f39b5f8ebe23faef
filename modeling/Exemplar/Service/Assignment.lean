import Exemplar.Service.Literal

/-!
# Assignments

Example values as chained calls on a request. A field of a request is assigned by one `.with` call, a field
that holds a map by one `.add…Entry` call for each of its entries. Inside a call stands an expression: a
literal, list elements between commas, or a new object with its own chain. A map has no expression.

The fields of an object are all looked up in their shape before any of them is rendered.
-/

namespace Exemplar.Service

open Json (Value)

/-- What assignments are rendered against, and where messages say they are. -/
structure Scope where
  service : Service
  context : Text

namespace Scope

def misfit {α : Type} (scope : Scope) (field : Text) (reason : Misfit) : Except Fault α :=
  .error (.generation field reason scope.context)

def member (scope : Scope) (shapeName : Text) (shape : Shape) (name : Text) :
    Except Fault Member :=
  match shape.members.lookup name with
  | some member => .ok member
  | none =>
    .error (.lookup .member name ("shape ".toList ++ shapeName ++ ", ".toList ++ scope.context))

/-- The members of an object's fields in their order. -/
def members (scope : Scope) (shapeName : Text) (shape : Shape) :
    List (Text × Value) → Except Fault (List Member)
  | [] => .ok []
  | (name, _) :: rest => do
    let member ← scope.member shapeName shape name
    let members ← members scope shapeName shape rest
    pure (member :: members)

/-- The fields of an object, each with its member. -/
def fields (scope : Scope) (shapeName : Text) (object : List (Text × Value)) :
    Except Fault (List (Text × Member × Value)) := do
  let shape ← scope.service.shape shapeName
  let members ← scope.members shapeName shape object
  pure (members.zipWith (fun member (name, value) => (name, member, value)) object)

def withCall (field argument : Text) : Text :=
  ".with".toList ++ field.capitalizeFirst ++ '(' :: argument ++ [')']

def entryCall (field key value : Text) : Text :=
  ".add".toList ++ field.capitalizeFirst ++ "Entry(".toList ++ key ++ ", ".toList ++ value ++ [')']

/-- Where a value stands: assigned to a field, or as an argument of a call. -/
inductive Position
  | field
  | argument
deriving DecidableEq, Repr

/-- An expression in its position: assigned to a field it becomes a call. -/
def Position.place (field : Text) : Position → Text → Text
  | .field, text => withCall field text
  | .argument, text => text

mutual

/-- Renders a value of the given member; `field` names it in calls and messages. -/
def render (scope : Scope) (field : Text) (position : Position) :
    Member → Value → Except Fault Text
  | .simple scalar, value => .ok (position.place field (scalar.literal value))
  | .list element, .list items => do
    let elements ← renderItems scope field element items
    pure (position.place field (Text.joinWith ", ".toList elements))
  | .list _, _ => scope.misfit field .wantsList
  | .map key element, value =>
    match position, value with
    | .field, .object object => renderEntries scope field key element object
    | .field, _ => scope.misfit field .wantsMap
    | .argument, _ => scope.misfit field .mapInExpression
  | .nested shapeName, .object object => do
    let shape ← scope.service.shape shapeName
    let members ← scope.members shapeName shape object
    let chain ← renderFields scope members object
    pure (position.place field ("new ".toList ++ shapeName ++ "()".toList ++ chain))
  | .nested _, _ => scope.misfit field .wantsObject

def renderItems (scope : Scope) (field : Text) (element : Member) :
    List Value → Except Fault (List Text)
  | [] => .ok []
  | item :: rest => do
    let first ← render scope field .argument element item
    let others ← renderItems scope field element rest
    pure (first :: others)

def renderEntries (scope : Scope) (field : Text) (key : Scalar) (element : Member) :
    List (Text × Value) → Except Fault Text
  | [] => .ok []
  | (name, value) :: rest => do
    let argument ← render scope field .argument element value
    let others ← renderEntries scope field key element rest
    pure (entryCall field (key.literal (.string name)) argument ++ others)

/-- The chained assignments of an object's fields, given their members. -/
def renderFields (scope : Scope) : List Member → List (Text × Value) → Except Fault Text
  | member :: members, (name, value) :: rest => do
    let first ← render scope name .field member value
    let others ← renderFields scope members rest
    pure (first ++ others)
  | _, _ => .ok []

end

/-- The calls that assign a value to a field. -/
def assignment (scope : Scope) (field : Text) (member : Member) (value : Value) :
    Except Fault Text :=
  render scope field .field member value

end Scope

end Exemplar.Service
