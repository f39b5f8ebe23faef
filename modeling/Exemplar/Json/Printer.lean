import Exemplar.Json.Value
import Exemplar.Json.Quoted

/-!
# Printing

Two layouts of a value. The compact one has no space at all. The pretty one gives each item and each field
a line of its own, indented by two spaces a level, and a space after the colon; an empty container stays
on its line.
-/

namespace Exemplar.Json.Value

mutual

def compact : Value → Text
  | null => "null".toList
  | bool true => "true".toList
  | bool false => "false".toList
  | number n => n.text
  | string t => printString t
  | list [] => ['[', ']']
  | list (item :: rest) => '[' :: compact item ++ compactItems rest ++ [']']
  | object [] => ['\x7b', '\x7d']
  | object ((key, value) :: rest) =>
    '\x7b' :: printString key ++ ':' :: compact value ++ compactFields rest ++ ['\x7d']

def compactItems : List Value → Text
  | [] => []
  | item :: rest => ',' :: compact item ++ compactItems rest

def compactFields : List (Text × Value) → Text
  | [] => []
  | (key, value) :: rest => ',' :: printString key ++ ':' :: compact value ++ compactFields rest

end

/-- The start of a line at a level. -/
def newLine (level : Nat) : Text := '\n' :: List.replicate (2 * level) ' '

mutual

def pretty (level : Nat) : Value → Text
  | list [] => ['[', ']']
  | list (item :: rest) =>
    '[' :: newLine (level + 1) ++ pretty (level + 1) item ++ prettyItems (level + 1) rest ++
      newLine level ++ [']']
  | object [] => ['\x7b', '\x7d']
  | object ((key, value) :: rest) =>
    '\x7b' :: newLine (level + 1) ++ printString key ++ ": ".toList ++ pretty (level + 1) value ++
      prettyFields (level + 1) rest ++ newLine level ++ ['\x7d']
  | scalar => compact scalar

def prettyItems (level : Nat) : List Value → Text
  | [] => []
  | item :: rest => ',' :: newLine level ++ pretty level item ++ prettyItems level rest

def prettyFields (level : Nat) : List (Text × Value) → Text
  | [] => []
  | (key, value) :: rest =>
    ',' :: newLine level ++ printString key ++ ": ".toList ++ pretty level value ++
      prettyFields level rest

end

end Exemplar.Json.Value
