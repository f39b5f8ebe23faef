import Exemplar.Fault
import Exemplar.Json.Value

/-!
# Service models

A service with its operations, the shapes of their inputs and examples of requests. Everything keeps the
order in which the model declares it.
-/

namespace Exemplar

namespace Service

/-- Names of the client interface, of the class that implements it and of their package. The interface
names the service. -/
structure Metadata where
  syncInterface : Text
  syncClient : Text
  packageName : Text
deriving DecidableEq, Repr

structure Operation where
  methodName : Text
  inputType : Text
  returnType : Option Text
deriving DecidableEq, Repr

/-- The type of a scalar, as far as its literals depend on it. -/
inductive Scalar
  | text
  | boolean
  | long
  | other (name : Text)
deriving DecidableEq, Repr

def Scalar.ofName (name : Text) : Scalar :=
  if name = "String".toList then text
  else if name = "Boolean".toList then boolean
  else if name = "Long".toList then long
  else other name

/-- The declared kind of a field. -/
inductive Member
  | simple (scalar : Scalar)
  | list (element : Member)
  | map (key : Scalar) (value : Member)
  | nested (shape : Text)
deriving DecidableEq, Repr

structure Shape where
  members : List (Text × Member)
deriving DecidableEq, Repr

/-- A request with a comment for some of its fields. -/
structure Example where
  title : Text
  description : Text
  comments : List (Text × Text)
  input : Json.Value

end Service

structure Service where
  metadata : Service.Metadata
  operations : List (Text × Service.Operation)
  shapes : List (Text × Service.Shape)
  examples : List (Text × List Service.Example)

namespace Service

def name (s : Service) : Text := s.metadata.syncInterface

/-- Where a failed look-up looked. -/
def place (s : Service) : Text := "service ".toList ++ s.name

def operation (s : Service) (name : Text) : Except Fault Operation :=
  match s.operations.lookup name with
  | some operation => .ok operation
  | none => .error (.lookup .operation name s.place)

def shape (s : Service) (name : Text) : Except Fault Shape :=
  match s.shapes.lookup name with
  | some shape => .ok shape
  | none => .error (.lookup .shape name s.place)

def hasExamples (s : Service) : Bool := s.examples.any fun (_, examples) => !examples.isEmpty

end Service

end Exemplar
