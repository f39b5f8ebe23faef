import Exemplar.Json.Printer
import Exemplar.Proofs.Text.Controls
import Mathlib.Tactic.SplitIfs

/-!
# Compact JSON

Compactly printed values have no control characters: strings escape them, and nothing else brings them in.
-/

namespace Exemplar.Json

open Text (NoControls noControls_cons noControls_nil)

theorem noControls_escapeChar (c : Char) : NoControls (escapeChar c) := by
  unfold escapeChar
  split_ifs
  case neg hlow => simpa using hlow
  all_goals simp [Text.noControls_hexWord]

theorem noControls_printString (t : Text) : NoControls (printString t) := by
  have hinside : NoControls (t.flatMap escapeChar) := .flatMap fun c _ => noControls_escapeChar c
  simp [printString, hinside]

theorem Number.noControls_text (n : Number) : NoControls n.text := by
  cases n with
  | natural n => exact Text.noControls_ofNat n
  | negative n => exact noControls_cons.mpr ⟨by decide, Text.noControls_ofNat n⟩
  | real sign magnitude => cases sign <;> simp [text, Decimal.noControls_spell]

namespace Value

mutual

theorem noControls_compact : (v : Value) → NoControls v.compact
  | null => by simp [compact]
  | bool true => by simp [compact]
  | bool false => by simp [compact]
  | number n => by
      rw [compact]
      exact n.noControls_text
  | string t => by
      rw [compact]
      exact noControls_printString t
  | list [] => by simp [compact]
  | list (item :: rest) => by
      simp [compact, noControls_compact item, noControls_compactItems rest]
  | object [] => by simp [compact]
  | object ((key, value) :: rest) => by
      simp [compact, noControls_printString, noControls_compact value, noControls_compactFields rest]

theorem noControls_compactItems : (items : List Value) → NoControls (compactItems items)
  | [] => noControls_nil
  | item :: rest => by
      simp [compactItems, noControls_compact item, noControls_compactItems rest]

theorem noControls_compactFields :
    (fields : List (Text × Value)) → NoControls (compactFields fields)
  | [] => noControls_nil
  | (key, value) :: rest => by
      simp [compactFields, noControls_printString, noControls_compact value,
        noControls_compactFields rest]

end

end Value

end Exemplar.Json
