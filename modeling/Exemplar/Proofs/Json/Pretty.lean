import Exemplar.Json.Decode
import Exemplar.Json.Printer
import Exemplar.Proofs.Json.Quoted

/-!
# Reading pretty JSON

A pretty-printed value of strings, lists and objects is scanned as the tokens of the value, its white space
aside, and these tokens are read as the tree of the value. Both hold with any text after the value, so that
each container is put together from its parts.
-/

namespace Exemplar.Json

open Utf8 (encode encodeChar)

namespace Value

mutual

/-- A value of strings, lists and objects only. -/
def Textual : Value → Prop
  | string _ => True
  | list items => TextualItems items
  | object fields => TextualFields fields
  | _ => False

def TextualItems : List Value → Prop
  | [] => True
  | item :: rest => item.Textual ∧ TextualItems rest

def TextualFields : List (Text × Value) → Prop
  | [] => True
  | (_, value) :: rest => value.Textual ∧ TextualFields rest

end

mutual

def tokens : Value → List Token
  | string t => [.quoted (.ofText t)]
  | list [] => [.punct .openList, .punct .closeList]
  | list (item :: rest) =>
    .punct .openList :: tokens item ++ tokensItems rest ++ [.punct .closeList]
  | object [] => [.punct .openObject, .punct .closeObject]
  | object ((key, value) :: rest) =>
    .punct .openObject :: .quoted (.ofText key) :: .punct .colon :: tokens value ++
      tokensFields rest ++ [.punct .closeObject]
  | _ => []

def tokensItems : List Value → List Token
  | [] => []
  | item :: rest => .punct .comma :: tokens item ++ tokensItems rest

def tokensFields : List (Text × Value) → List Token
  | [] => []
  | (key, value) :: rest =>
    .punct .comma :: .quoted (.ofText key) :: .punct .colon :: tokens value ++ tokensFields rest

end

mutual

def tree : Value → Tree
  | string t => .quoted (.ofText t)
  | list items => .list (treeItems items)
  | object fields => .object (treeFields fields)
  | _ => .null

def treeItems : List Value → Items
  | [] => .closed
  | item :: rest => .cons item.tree (treeItems rest)

def treeFields : List (Text × Value) → Fields
  | [] => .closed
  | (key, value) :: rest => .cons (.ofText key) value.tree (treeFields rest)

end

end Value

/-! ### Scanning -/

namespace Token

theorem scan_space {byte : UInt8} (h : isSpace byte) (rest : List UInt8) :
    scan (byte :: rest) = scan rest := by
  rw [scan, if_pos h]

theorem scan_punct {byte : UInt8} {p : Punct} (hspace : isSpace byte = false)
    (hpunct : punct? byte = some p) (rest : List UInt8) :
    scan (byte :: rest) = .punct p :: scan rest := by
  rw [scan, hspace]
  simp [next, hpunct]

theorem scan_newLine (level : Nat) (rest : List UInt8) :
    scan (encode (Value.newLine level) ++ rest) = scan rest := by
  have hspaces (n : Nat) : scan (encode (List.replicate n ' ') ++ rest) = scan rest := by
    induction n with
    | zero => rfl
    | succ n ih =>
        rw [List.replicate_succ, Utf8.encode_cons, List.append_assoc]
        exact (scan_space (by decide) _).trans ih
  rw [Value.newLine, Utf8.encode_cons, List.append_assoc]
  exact (scan_space (by decide) _).trans (hspaces _)

theorem scan_printString (t : Text) (rest : List UInt8) :
    scan (encode (printString t) ++ rest) = .quoted (.ofText t) :: scan rest := by
  have hbytes : encode (printString t) ++ rest =
      0x22 :: (encode (t.flatMap escapeChar) ++ 0x22 :: rest) := by
    rw [printString, List.cons_append, Utf8.encode_cons, Utf8.encode_append, List.append_assoc,
      List.append_assoc]
    rfl
  have hnext (input : List UInt8) : next 0x22 input = (Quoted.scan input).map .quoted id := rfl
  rw [hbytes, scan, if_neg (by decide)]
  simp only [hnext, Quoted.scan_escaped]
  rfl

theorem scan_cons {c : Char} {p : Punct} (hspace : isSpace (UInt8.ofNat c.toNat) = false)
    (hpunct : punct? (UInt8.ofNat c.toNat) = some p) (hascii : c.toNat < 0x80) (t : Text)
    (rest : List UInt8) :
    scan (encode (c :: t) ++ rest) = .punct p :: scan (encode t ++ rest) := by
  rw [Utf8.encode_cons, Utf8.encodeChar_ascii hascii, List.append_assoc, List.singleton_append,
    scan_punct hspace hpunct]

theorem scan_openList (t : Text) (rest : List UInt8) :
    scan (encode ('[' :: t) ++ rest) = .punct .openList :: scan (encode t ++ rest) :=
  scan_cons (by decide) rfl (by decide) t rest

theorem scan_closeList (rest : List UInt8) :
    scan (encode [']'] ++ rest) = .punct .closeList :: scan rest :=
  scan_cons (by decide) rfl (by decide) [] rest

theorem scan_openObject (t : Text) (rest : List UInt8) :
    scan (encode ('\x7b' :: t) ++ rest) = .punct .openObject :: scan (encode t ++ rest) :=
  scan_cons (by decide) rfl (by decide) t rest

theorem scan_closeObject (rest : List UInt8) :
    scan (encode ['\x7d'] ++ rest) = .punct .closeObject :: scan rest :=
  scan_cons (by decide) rfl (by decide) [] rest

theorem scan_comma (t : Text) (rest : List UInt8) :
    scan (encode (',' :: t) ++ rest) = .punct .comma :: scan (encode t ++ rest) :=
  scan_cons (by decide) rfl (by decide) t rest

theorem scan_colon (rest : List UInt8) :
    scan (encode ": ".toList ++ rest) = .punct .colon :: scan rest :=
  (scan_cons (by decide) rfl (by decide) [' '] rest).trans
    (congrArg _ (scan_space (by decide) rest))

mutual

theorem scan_pretty : (v : Value) → v.Textual → (level : Nat) → (rest : List UInt8) →
    scan (encode (v.pretty level) ++ rest) = v.tokens ++ scan rest
  | .string t, _, level, rest => by
      rw [Value.pretty, Value.compact, scan_printString]
      · rfl
      all_goals simp
  | .list [], _, level, rest => by
      rw [Value.pretty, scan_openList, scan_closeList]
      rfl
  | .list (item :: items), h, level, rest => by
      rw [Value.Textual, Value.TextualItems] at h
      rw [Value.pretty]
      simp only [List.cons_append, List.append_assoc]
      rw [scan_openList]
      simp only [Utf8.encode_append, List.append_assoc]
      rw [scan_newLine, scan_pretty item h.1, scan_prettyItems items h.2, scan_newLine,
        scan_closeList, Value.tokens]
      simp
  | .object [], _, level, rest => by
      rw [Value.pretty, scan_openObject, scan_closeObject]
      rfl
  | .object ((key, value) :: fields), h, level, rest => by
      rw [Value.Textual, Value.TextualFields] at h
      rw [Value.pretty]
      simp only [List.cons_append, List.append_assoc]
      rw [scan_openObject]
      simp only [Utf8.encode_append, List.append_assoc]
      rw [scan_newLine, scan_printString, scan_colon, scan_pretty value h.1,
        scan_prettyFields fields h.2, scan_newLine, scan_closeObject, Value.tokens]
      simp

theorem scan_prettyItems : (items : List Value) → Value.TextualItems items → (level : Nat) →
    (rest : List UInt8) →
    scan (encode (Value.prettyItems level items) ++ rest) = Value.tokensItems items ++ scan rest
  | [], _, level, rest => by
      rw [Value.prettyItems, Value.tokensItems]
      rfl
  | item :: items, h, level, rest => by
      rw [Value.TextualItems] at h
      rw [Value.prettyItems]
      simp only [List.cons_append]
      rw [scan_comma]
      simp only [Utf8.encode_append, List.append_assoc]
      rw [scan_newLine, scan_pretty item h.1, scan_prettyItems items h.2, Value.tokensItems]
      simp

theorem scan_prettyFields : (fields : List (Text × Value)) → Value.TextualFields fields →
    (level : Nat) → (rest : List UInt8) →
    scan (encode (Value.prettyFields level fields) ++ rest) =
      Value.tokensFields fields ++ scan rest
  | [], _, level, rest => by
      rw [Value.prettyFields, Value.tokensFields]
      rfl
  | (key, value) :: fields, h, level, rest => by
      rw [Value.TextualFields] at h
      rw [Value.prettyFields]
      simp only [List.cons_append]
      rw [scan_comma]
      simp only [Utf8.encode_append, List.append_assoc]
      rw [scan_newLine, scan_printString, scan_colon, scan_pretty value h.1,
        scan_prettyFields fields h.2, Value.tokensFields]
      simp

end

end Token

/-! ### Reading -/

namespace Tree

open Value (Textual TextualItems TextualFields tokens tokensItems tokensFields tree treeItems
  treeFields)

/-- No value starts with the end of a list. -/
theorem exists_first_token {v : Value} (h : v.Textual) :
    ∃ first rest, v.tokens = first :: rest ∧ first ≠ .punct .closeList := by
  cases v with
  | string t => simp [tokens]
  | list items => cases items <;> simp [tokens]
  | object fields => cases fields <;> simp [tokens]
  | _ => exact h.elim

theorem read_openList {frames : List Frame} {v : Value} (h : v.Textual) (rest : List Token) :
    read frames .value (.punct .openList :: (v.tokens ++ rest)) =
      read (.list [] :: frames) .value (v.tokens ++ rest) := by
  obtain ⟨first, more, hfirst, hopen⟩ := exists_first_token h
  rw [hfirst, List.cons_append, read]
  simpa using hopen

mutual

theorem read_tokens : (v : Value) → v.Textual → (frames : List Frame) → (rest : List Token) →
    read frames .value (v.tokens ++ rest) = read frames (.after v.tree) rest
  | .string t, _, frames, rest => by
      rw [tokens, tree, List.singleton_append, read]
      · rfl
      all_goals simp
  | .list [], _, frames, rest => by
      rw [tokens, tree, treeItems, List.cons_append, List.singleton_append, read]
  | .list (item :: items), h, frames, rest => by
      rw [Textual, TextualItems] at h
      simp only [tokens, tree, treeItems, List.cons_append, List.append_assoc]
      rw [read_openList h.1, read_tokens item h.1, read_tokensItems items h.2]
      rfl
  | .object [], _, frames, rest => by
      rw [tokens, tree, treeFields, List.cons_append, List.singleton_append, read]
  | .object ((key, value) :: fields), h, frames, rest => by
      rw [Textual, TextualFields] at h
      simp only [tokens, tree, treeFields, List.cons_append, List.append_assoc]
      rw [read, read, read_tokens value h.1, read_tokensFields fields h.2]
      · rfl
      · simp

/-- The items after one that has been read, up to the end of the list. -/
theorem read_tokensItems : (items : List Value) → TextualItems items → {frames : List Frame} →
    {before : List Tree} → {item : Tree} → {rest : List Token} →
    read (.list before :: frames) (.after item)
        (tokensItems items ++ .punct .closeList :: rest) =
      read frames (.after (.list (Items.ofReversed before (.cons item (treeItems items))))) rest
  | [], _, frames, before, item, rest => by
      rw [tokensItems, treeItems, List.nil_append, read]
      rfl
  | next :: items, h, frames, before, item, rest => by
      rw [TextualItems] at h
      simp only [tokensItems, treeItems, List.cons_append, List.append_assoc]
      rw [read, read_tokens next h.1, read_tokensItems items h.2]
      rfl

/-- The fields after one that has been read, up to the end of the object. -/
theorem read_tokensFields : (fields : List (Text × Value)) → TextualFields fields →
    {frames : List Frame} → {before : List (Quoted × Tree)} → {key : Quoted} → {value : Tree} →
    {rest : List Token} →
    read (.object before key :: frames) (.after value)
        (tokensFields fields ++ .punct .closeObject :: rest) =
      read frames
        (.after (.object (Fields.ofReversed before (.cons key value (treeFields fields))))) rest
  | [], _, frames, before, key, value, rest => by
      rw [tokensFields, treeFields, List.nil_append, read]
      rfl
  | (name, next) :: fields, h, frames, before, key, value, rest => by
      rw [TextualFields] at h
      simp only [tokensFields, treeFields, List.cons_append, List.append_assoc]
      rw [read, read, read_tokens next h.1, read_tokensFields fields h.2]
      rfl

end

end Tree

/-- A pretty-printed value with a line feed after it is read as the tree of the value, up to its end. -/
theorem ofBytes_pretty {v : Value} (h : v.Textual) :
    Reading.ofBytes (encode (v.pretty 0 ++ ['\n'])) = ⟨v.tree, true⟩ := by
  have hfeed : Token.scan (encode ['\n']) = [] := by
    rw [show encode ['\n'] = [0x0A] from rfl, Token.scan_space (by decide), Token.scan]
  rw [Reading.ofBytes, Utf8.encode_append, Token.scan_pretty v h, hfeed, Tree.read_tokens v h]
  rfl

end Exemplar.Json
