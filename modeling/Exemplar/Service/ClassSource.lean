import Exemplar.Markup.Scan
import Exemplar.Service.Assignment

/-!
# Sample classes

The source of a class with one method for each example of a service. The body of the method is a marked-up
sample: the tags with its label, title and description, a client, the request as one chained expression
with the comments of its fields, and the call. A class is refused when a name, a title or a comment would
keep the samples from being found in it.
-/

namespace Exemplar.Service

open Markup (Marker)

/-- A name without its blanks. -/
def classSafe (name : Text) : Text := name.filter (!Text.isBlank ·)

/-- The service name of tags and class names. -/
def tagName (s : Service) : Text := classSafe s.name

/-- The id of the `number`th example of an operation, counting from one. The first has the name of the
operation alone. -/
def sampleId (operation : Text) (number : Nat) : Text :=
  if number = 1 then operation else operation ++ '_' :: Text.ofNat number

/-- Folds a text with line breaks into one line; a text without any stays as it is. -/
def singleLine (t : Text) : Text :=
  if '\n' ∈ t ∨ '\r' ∈ t then
    Text.joinWith [' '] ((t.lines.map Text.trim).filter (!·.isEmpty))
  else t

def methodIndent : Text := List.replicate 4 ' '

def bodyIndent : Text := List.replicate 8 ' '

def chainIndent : Text := List.replicate 16 ' '

def exampleContext (operation : Text) (number : Nat) : Text :=
  "operation ".toList ++ operation ++ ", example ".toList ++ Text.ofNat number

/-- The comment lines of a field, none of which may be a tag. -/
def commentLines (context field : Text) : List Text → Except Fault (List Text)
  | [] => .ok []
  | text :: rest => do
    let line := chainIndent ++ "//".toList ++ text
    if Marker.slashes.isTag line then throw (.generation field (.commentIsTag text) context)
    let lines ← commentLines context field rest
    pure (line :: lines)

/-- The lines of chained fields: for each its comments, then its calls. -/
def chainLines (scope : Scope) (comments : List (Text × Text)) :
    List (Text × Member × Json.Value) → Except Fault (List Text)
  | [] => .ok []
  | (name, member, value) :: rest => do
    let before ← commentLines scope.context name (((comments.lookup name).map Text.lines).getD [])
    let calls ← scope.assignment name member value
    let lines ← chainLines scope comments rest
    pure (before ++ (chainIndent ++ calls) :: lines)

def requestChain (scope : Scope) (inputType : Text) (e : Example) : Except Fault (List Text) :=
  match e.input with
  | .null => .ok []
  | .object object => do chainLines scope e.comments (← scope.fields inputType object)
  | _ => scope.misfit "input".toList .wantsObjectInput

/-- The lines of a statement that creates the request; a chain ends in a semicolon. -/
def requestLines (inputType : Text) (chain : List Text) : List Text :=
  let start := bodyIndent ++ inputType ++ " request = new ".toList ++ inputType ++ "()".toList
  match chain.getLast? with
  | none => [start ++ [';']]
  | some last => start :: chain.dropLast ++ [last ++ [';']]

def callLine (operation : Operation) : Text :=
  let call := "client.".toList ++ operation.methodName ++ "(request);".toList
  match operation.returnType with
  | some returnType => bodyIndent ++ returnType ++ " response = ".toList ++ call
  | none => bodyIndent ++ call

def requireText (context : Text) (part : String) (text : Text) : Except Fault Unit :=
  if text.trim = [] then .error (.generation part.toList .blank context) else .ok ()

def entryLine (operationName : Text) (number : Nat) : Text :=
  methodIndent ++ "public void ".toList ++ operationName ++ '_' :: Text.ofNat number ++
    "() \x7b".toList

def labelLine (s : Service) (operationName : Text) (number : Nat) : Text :=
  bodyIndent ++ "//BEGIN_SAMPLE:".toList ++ s.tagName ++ '.' :: sampleId operationName number

def titleLine (title : Text) : Text := bodyIndent ++ "//TITLE:".toList ++ title

def descriptionLine (description : Text) : Text :=
  bodyIndent ++ "//DESCRIPTION:".toList ++ description

def clientLine (s : Service) : Text :=
  bodyIndent ++ s.metadata.syncInterface ++ " client = new ".toList ++ s.metadata.syncClient ++
    "();".toList

/-- The code of a sample: a client, the request and the call. -/
def bodyLines (s : Service) (operation : Operation) (chain : List Text) : List Text :=
  s.clientLine :: requestLines operation.inputType chain ++ [callLine operation]

def endLine : Text := bodyIndent ++ "//END_SAMPLE".toList

/-- The line that closes a method. -/
def closeLine : Text := methodIndent ++ ['\x7d']

/-- The method of an example, line by line. -/
def exampleLines (s : Service) (operationName : Text) (number : Nat) (e : Example) :
    Except Fault (List Text) := do
  let context := exampleContext operationName number
  let operation ← s.operation operationName
  let title := singleLine e.title
  let description := singleLine e.description
  requireText context "title" title
  requireText context "description" description
  let chain ← requestChain ⟨s, context⟩ operation.inputType e
  pure (
    entryLine operationName number :: s.labelLine operationName number :: titleLine title ::
    descriptionLine description :: s.bodyLines operation chain ++ [endLine, closeLine])

/-- The methods of an operation's examples from a number on, each after an empty line. -/
def operationLines (s : Service) (operationName : Text) (number : Nat) :
    List Example → Except Fault (List Text)
  | [] => .ok []
  | e :: rest => do
    let first ← exampleLines s operationName number e
    let others ← operationLines s operationName (number + 1) rest
    pure ([] :: first ++ others)

def exampleSetLines (s : Service) : List (Text × List Example) → Except Fault (List Text)
  | [] => .ok []
  | (operationName, examples) :: rest => do
    let first ← operationLines s operationName 1 examples
    let others ← exampleSetLines s rest
    pure (first ++ others)

/-- The lines before the methods. -/
def headLines (s : Service) : List Text := [
  "import ".toList ++ s.metadata.packageName ++ ".*;".toList,
  "import ".toList ++ s.metadata.packageName ++ ".model.*;".toList,
  [],
  "public class ".toList ++ s.tagName ++ "GeneratedSamples \x7b".toList]

/-- The class, line by line. -/
def classLines (s : Service) : Except Fault (List Text) := do
  if s.tagName = [] ∨ '.' ∈ s.tagName then
    throw (.invalidArgument (.serviceUnnameable s.name))
  let methods ← exampleSetLines s s.examples
  pure (s.headLines ++ methods ++ [['\x7d']])

/-- The source of the class: each of its lines with a line feed after it. -/
def classSource (s : Service) : Except Fault Text :=
  s.classLines.map (·.flatMap (· ++ ['\n']))

/-- The extension of sample classes. -/
def classExtension : Text := "java".toList

/-- The file name of a service's class. -/
def classFileName (name : Text) : Text :=
  classSafe name ++ "GeneratedSamples.".toList ++ classExtension

end Exemplar.Service
