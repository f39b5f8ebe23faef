import Exemplar.Files.Pattern
import Exemplar.Json.Failure
import Exemplar.Markup.Violation
import Exemplar.Text.Quoted

/-!
# Faults

Why extracting, storing, generating or showing samples fails. A fault names its cause; the wording is in
`Fault.message`, and that of the causes that a fault has of its own below it in `Fault.causes`.
-/

namespace Exemplar

/-- Why an argument is refused. `absent` stands for every argument that must not be empty and carries the
notice of that check. -/
inductive Refusal
  | absent (notice : Text)
  | noSuchFile (path : Text)
  | serviceUnnameable (name : Text)
  | serviceHasSeparator (service : Text)
  | unknownFormat (name : Text)
  | malformedReference (reference : Text)
  | malformedPattern (source : Text) (fault : Pattern.Fault)
deriving DecidableEq, Repr

def Refusal.message : Refusal → Text
  | absent notice => notice
  | noSuchFile path => "Must provide a valid existing file to parse: ".toList ++ path
  | serviceUnnameable name =>
    "Service name must be non-empty and contain no '.': ".toList ++ name.quoted
  | serviceHasSeparator service =>
    "Service name cannot contain a path separator: ".toList ++ service
  | unknownFormat name =>
    "unknown format: ".toList ++ name ++ ". Use html, markdown, or json".toList
  | malformedReference reference =>
    "Invalid sample reference ".toList ++ reference.quoted ++
      ": expected <Service>.<SampleId>".toList
  | malformedPattern source fault =>
    "invalid glob pattern ".toList ++ source ++ ": ".toList ++ fault.message

/-- What a service model can lack. -/
inductive Declared
  | operation
  | shape
  | member
deriving DecidableEq, Repr

def Declared.name : Declared → Text
  | operation => "operation".toList
  | shape => "shape".toList
  | member => "member".toList

/-- Why a field of an example cannot be rendered. -/
inductive Misfit
  | blank
  | wantsObjectInput
  | wantsList
  | wantsMap
  | wantsObject
  | mapInExpression
  | commentIsTag (comment : Text)
deriving DecidableEq, Repr

def Misfit.message : Misfit → Text
  | blank => "must not be empty".toList
  | wantsObjectInput => "expected an object".toList
  | wantsList => "expected a list".toList
  | wantsMap => "expected a map".toList
  | wantsObject => "expected an object".toList
  | mapInExpression => "a map cannot be used as a value expression".toList
  | commentIsTag comment =>
    "comment ".toList ++ comment.quoted ++ " would be read as a sample tag".toList

inductive Fault
  | markup (breach : Markup.Breach) (file : Text) (line : Nat)
  | invalidArgument (refusal : Refusal)
  | lookup (kind : Declared) (name context : Text)
  | generation (field : Text) (misfit : Misfit) (context : Text)
  | retrieval (service id : Text) (failure : Json.Failure)
  | model (path : Text) (failure : Json.Failure)
  | io (path : Text) (error : FileError)
deriving DecidableEq, Repr

namespace Fault

def message : Fault → Text
  | markup breach file line =>
    breach.message ++ " (File: ".toList ++ file ++ ", Line: ".toList ++ Text.ofNat line ++ [')']
  | invalidArgument refusal => refusal.message
  | lookup kind name context =>
    "could not find ".toList ++ kind.name ++ " '".toList ++ name ++ "' (".toList ++ context ++ [')']
  | generation field misfit context =>
    "cannot render field '".toList ++ field ++ "': ".toList ++ misfit.message ++ " (".toList ++
      context ++ [')']
  | retrieval service id _ =>
    "Could not parse sample (Service Name: ".toList ++ service ++ ", Sample ID: ".toList ++ id ++ [')']
  | model path _ => "invalid service model ".toList ++ path
  | io path _ => "i/o failure on ".toList ++ path

/-- The wording of what lies behind a fault, the nearest cause first. -/
def causes : Fault → List Text
  | retrieval _ _ failure => [failure.message]
  | model _ failure => [failure.message]
  | io _ error => error.messages
  | _ => []

end Fault

/-- Refuses an argument that must not be empty. -/
def refuseAbsent {α : Type} (notice : String) : Except Fault α :=
  .error (.invalidArgument (.absent notice.toList))

/-- Passes on an argument that is not empty and refuses an empty one with the given notice. -/
def requireNonEmpty (value notice : Text) : Except Fault Text :=
  if value = [] then .error (.invalidArgument (.absent notice)) else .ok value

end Exemplar
