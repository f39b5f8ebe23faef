import Exemplar.Json.Tree

/-!
# Decoding

Readers of trees. They visit a tree from left to right and stop at the first problem, be it a break in the
text or a part of the wrong shape. `room` is how many more containers may be open at once: texts nested
deeper than `Decode.room` are refused where they are read and allowed where they are skipped.

A record with known fields is written as an object, whose unknown fields are skipped and whose known fields
come at most once, or as a list of its fields in their order.
-/

namespace Exemplar.Json

abbrev Decode (α : Type) := Except Failure α

namespace Decode

def room : Nat := 127

/-- The failure of a reader that wanted something else. A part that is not even well formed fails for that
reason; only containers are not looked into. -/
def mismatch : Tree → Failure
  | .broken failure => failure
  | .cutNumeral => .truncated
  | .numeral n => if n.value?.isSome then .mismatched else .malformed
  | .quoted q => match q.text with
    | .ok _ => .mismatched
    | .error failure => failure
  | _ => .mismatched

def text : Tree → Decode Text
  | .quoted q => q.text
  | tree => .error (mismatch tree)

def orNull {α : Type} (read : Tree → Decode α) : Tree → Decode (Option α)
  | .null => .ok none
  | tree => (read tree).map some

/-- Puts a value under a key: in place of the key's old value, or at the end. -/
def put {α : Type} (key : Text) (value : α) : List (Text × α) → List (Text × α)
  | [] => [(key, value)]
  | (k, v) :: rest => if k = key then (key, value) :: rest else (k, v) :: put key value rest

/-- A repeated key keeps its first place and takes its last value. -/
def distinct {α : Type} (fields : List (Text × α)) : List (Text × α) :=
  fields.foldl (fun done (key, value) => put key value done) []

def items {α : Type} (read : Tree → Decode α) : Items → Decode (List α)
  | .closed => .ok []
  | .broken failure => .error failure
  | .cons item rest => do
    let a ← read item
    let as ← items read rest
    pure (a :: as)

def fields {α : Type} (read : Tree → Decode α) : Fields → Decode (List (Text × α))
  | .closed => .ok []
  | .broken failure => .error failure
  | .cons key value rest => do
    let k ← key.text
    let a ← read value
    let as ← fields read rest
    pure ((k, a) :: as)

def listOf {α : Type} (room : Nat) (read : Nat → Tree → Decode α) : Tree → Decode (List α)
  | .list parts => match room with
    | 0 => .error .malformed
    | room + 1 => items (read room) parts
  | tree => .error (mismatch tree)

/-- An object with free keys. -/
def mapOf {α : Type} (room : Nat) (read : Nat → Tree → Decode α) : Tree → Decode (List (Text × α))
  | .object parts => match room with
    | 0 => .error .malformed
    | room + 1 => (fields (read room) parts).map distinct
  | tree => .error (mismatch tree)

mutual

def value (room : Nat) : Tree → Decode Value
  | .broken failure => .error failure
  | .null => .ok .null
  | .bool b => .ok (.bool b)
  | .numeral n => match n.value? with
    | some n => .ok (.number n)
    | none => .error .malformed
  | .cutNumeral => .error .truncated
  | .quoted q => q.text.map .string
  | .list parts => match room with
    | 0 => .error .malformed
    | room + 1 => (valueItems room parts).map .list
  | .object parts => match room with
    | 0 => .error .malformed
    | room + 1 => (valueFields room parts).map (.object ∘ distinct)

def valueItems (room : Nat) : Items → Decode (List Value)
  | .closed => .ok []
  | .broken failure => .error failure
  | .cons item rest => do
    let v ← value room item
    let vs ← valueItems room rest
    pure (v :: vs)

def valueFields (room : Nat) : Fields → Decode (List (Text × Value))
  | .closed => .ok []
  | .broken failure => .error failure
  | .cons key item rest => do
    let k ← key.text
    let v ← value room item
    let vs ← valueFields room rest
    pure ((k, v) :: vs)

end

/-- A known field of a record that is being gathered in a draft. -/
structure Field (σ : Type) where
  name : Text
  required : Bool
  filled : σ → Bool
  fill : Tree → σ → Decode σ

/-- A field read by `read` and kept where `get` and `set` say. -/
def Field.of {σ α : Type} (name : String) (required : Bool) (get : σ → Option α)
    (set : σ → α → σ) (read : Tree → Decode α) : Field σ where
  name := name.toList
  required := required
  filled s := (get s).isSome
  fill tree s := (read tree).map (set s)

def recordFields {σ : Type} (known : List (Field σ)) (draft : σ) : Fields → Decode σ
  | .closed =>
    if known.all fun field => !field.required || field.filled draft then .ok draft
    else .error .mismatched
  | .broken failure => .error failure
  | .cons key value rest => do
    let k ← key.text
    match known.find? (·.name = k) with
    | some field =>
      if field.filled draft then throw .mismatched
      recordFields known (← field.fill value draft) rest
    | none =>
      value.skip
      recordFields known draft rest

def recordItems {σ : Type} : List (Field σ) → σ → Items → Decode σ
  | _, _, .broken failure => .error failure
  | [], draft, .closed => .ok draft
  | [], _, .cons _ _ => .error .malformed
  | field :: known, draft, .closed =>
    if field.required then .error .mismatched else recordItems known draft .closed
  | field :: known, draft, .cons item rest => do
    recordItems known (← field.fill item draft) rest

def recordOf {σ : Type} (known : Nat → List (Field σ)) (start : σ) (room : Nat) : Tree → Decode σ
  | .object parts => match room with
    | 0 => .error .malformed
    | room + 1 => recordFields (known room) start parts
  | .list parts => match room with
    | 0 => .error .malformed
    | room + 1 => recordItems (known room) start parts
  | tree => .error (mismatch tree)

/-- Reads all of a text: nothing but white space may follow its value. -/
def whole {α : Type} (read : Tree → Decode α) (bytes : List UInt8) : Decode α := do
  let reading := Reading.ofBytes bytes
  let a ← read reading.root
  if reading.complete then pure a else throw .malformed

end Decode

def Value.decode (bytes : List UInt8) : Decode Value := Decode.whole (Decode.value Decode.room) bytes

end Exemplar.Json
