import Exemplar.Json.Token

/-!
# Trees

The structure of a JSON text as far as it can be read. A tree exists for every text: where the text stops
being JSON, the tree has a break with the reason, and everything open around the break ends there. A reader
that visits the parts from left to right therefore meets the problems of a text in the order in which they
stand in it, whether they are of form or of shape.

Strings and numerals stay as written, so that a part can be skipped that could not be read.
-/

namespace Exemplar.Json

mutual

inductive Tree
  | broken (failure : Failure)
  | null
  | bool (b : Bool)
  | numeral (n : Numeral)
  | cutNumeral
  | quoted (q : Quoted)
  | list (items : Items)
  | object (fields : Fields)

inductive Items
  | closed
  | broken (failure : Failure)
  | cons (item : Tree) (rest : Items)

inductive Fields
  | closed
  | broken (failure : Failure)
  | cons (key : Quoted) (value : Tree) (rest : Fields)

end

/-- A tree and whether the text ends after it. -/
structure Reading where
  root : Tree
  complete : Bool

namespace Tree

/-- A list or an object around the part being read, with what stands before that part, last first. -/
inductive Frame
  | list (before : List Tree)
  | object (before : List (Quoted × Tree)) (key : Quoted)

/-- What comes next: a value, the key of a field after the given fields, or whatever may follow a value. -/
inductive Awaiting
  | value
  | key (before : List (Quoted × Tree))
  | after (value : Tree)

def Items.ofReversed (before : List Tree) (ending : Items) : Items :=
  before.foldl (fun items item => .cons item items) ending

def Fields.ofReversed (before : List (Quoted × Tree)) (ending : Fields) : Fields :=
  before.foldl (fun fields field => .cons field.1 field.2 fields) ending

/-- Ends everything open around a break. -/
def unwind : List Frame → Tree → Reading
  | [], root => ⟨root, true⟩
  | .list before :: outer, last =>
    unwind outer (.list (Items.ofReversed (last :: before) .closed))
  | .object before key :: outer, last =>
    unwind outer (.object (Fields.ofReversed ((key, last) :: before) .closed))

/-- The tree of a token that is a value by itself; punctuation is none. -/
def ofToken : Token → Tree
  | .punct _ => .broken .malformed
  | .null => .null
  | .bool b => .bool b
  | .numeral n => .numeral n
  | .cutNumeral => .cutNumeral
  | .quoted q => .quoted q
  | .broken failure => .broken failure

def read : List Frame → Awaiting → List Token → Reading
  | frames, .value, [] => unwind frames (.broken .truncated)
  | frames, .value, .punct .openList :: .punct .closeList :: rest =>
    read frames (.after (.list .closed)) rest
  | frames, .value, .punct .openList :: rest => read (.list [] :: frames) .value rest
  | frames, .value, .punct .openObject :: .punct .closeObject :: rest =>
    read frames (.after (.object .closed)) rest
  | frames, .value, .punct .openObject :: rest => read frames (.key []) rest
  | frames, .value, .punct _ :: _ => unwind frames (.broken .malformed)
  | frames, .value, token :: rest => read frames (.after (ofToken token)) rest
  | frames, .key before, .quoted key :: .punct .colon :: rest =>
    read (.object before key :: frames) .value rest
  | frames, .key before, [.quoted key] => unwind (.object before key :: frames) (.broken .truncated)
  | frames, .key before, .quoted key :: _ =>
    unwind (.object before key :: frames) (.broken .malformed)
  | frames, .key before, [] =>
    unwind frames (.object (Fields.ofReversed before (.broken .truncated)))
  | frames, .key before, _ =>
    unwind frames (.object (Fields.ofReversed before (.broken .malformed)))
  | [], .after root, rest => ⟨root, rest.isEmpty⟩
  | .list before :: outer, .after item, .punct .comma :: rest =>
    read (.list (item :: before) :: outer) .value rest
  | .list before :: outer, .after item, .punct .closeList :: rest =>
    read outer (.after (.list (Items.ofReversed (item :: before) .closed))) rest
  | .list before :: outer, .after item, [] =>
    unwind outer (.list (Items.ofReversed (item :: before) (.broken .truncated)))
  | .list before :: outer, .after item, _ =>
    unwind outer (.list (Items.ofReversed (item :: before) (.broken .malformed)))
  | .object before key :: outer, .after value, .punct .comma :: rest =>
    read outer (.key ((key, value) :: before)) rest
  | .object before key :: outer, .after value, .punct .closeObject :: rest =>
    read outer (.after (.object (Fields.ofReversed ((key, value) :: before) .closed))) rest
  | .object before key :: outer, .after value, [] =>
    unwind outer (.object (Fields.ofReversed ((key, value) :: before) (.broken .truncated)))
  | .object before key :: outer, .after value, _ =>
    unwind outer (.object (Fields.ofReversed ((key, value) :: before) (.broken .malformed)))

end Tree

def Reading.ofBytes (bytes : List UInt8) : Reading := Tree.read [] .value (Token.scan bytes)

/-! A part that nobody reads is only checked for its form. -/

mutual

def Tree.skip : Tree → Except Failure Unit
  | .broken failure => .error failure
  | .cutNumeral => .error .malformed
  | .quoted q => q.skip
  | .list items => items.skip
  | .object fields => fields.skip
  | _ => .ok ()

def Items.skip : Items → Except Failure Unit
  | .closed => .ok ()
  | .broken failure => .error failure
  | .cons item rest => do item.skip; rest.skip

def Fields.skip : Fields → Except Failure Unit
  | .closed => .ok ()
  | .broken failure => .error failure
  | .cons key value rest => do key.skip; value.skip; rest.skip

end

end Exemplar.Json
