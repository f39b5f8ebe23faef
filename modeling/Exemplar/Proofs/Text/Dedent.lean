import Exemplar.Proofs.Text.Indent
import Exemplar.Proofs.Text.Split
import Exemplar.Proofs.Text.Utf8
import Mathlib.Order.Bounds.Basic

/-!
# Dedented blocks

Dedenting takes the common indentation from each line of a block and nothing else: put in front of the lines again,
it gives back the block. The common indentation is the least one, so one of the lines that are left starts with no
space, and there is nothing for a second dedenting to take.

Indentation can be counted and cut in bytes as well. A space is a byte of its own, and no other character has that
byte, so the cut never goes through a character.
-/

namespace Exemplar.Text

variable {block : List Text} {line : Text} {k : Nat}

/-! ### Lines -/

theorem indent_eq_zero_iff : indent line = 0 ↔ line.head? ≠ some ' ' := by
  cases line with
  | nil => simp [indent]
  | cons c rest => simp [indent, List.takeWhile_cons]

theorem spaces_append_unindent (h : k ≤ indent line) : spaces k ++ unindent k line = line := by
  have hspaces : line.takeWhile (· == ' ') = spaces (indent line) := by
    refine List.eq_replicate_iff.mpr ⟨rfl, ?_⟩
    intro c hc
    have hspace : (c == ' ') = true := List.mem_takeWhile_imp (p := (· == ' ')) hc
    exact beq_iff_eq.mp hspace
  have htake : line.take k = spaces k := by
    calc line.take k
        = (line.takeWhile (· == ' ') ++ line.dropWhile (· == ' ')).take k := by
          rw [List.takeWhile_append_dropWhile]
      _ = (spaces (indent line)).take k := by
          rw [List.take_append_of_le_length h, hspaces]
      _ = spaces k := by rw [spaces, List.take_replicate, Nat.min_eq_left h, spaces]
  rw [unindent, Nat.min_eq_right h, ← htake, List.take_append_drop]

theorem indent_unindent (h : k ≤ indent line) : k + indent (unindent k line) = indent line := by
  rw [← indent_spaces_append, spaces_append_unindent h]

/-! ### Bytes -/

/-- How many bytes of a space a line starts with. -/
def indentBytes (bytes : List UInt8) : Nat := (bytes.takeWhile (· == 0x20)).length

theorem encode_spaces (n : Nat) : Utf8.encode (spaces n) = List.replicate n 0x20 := by
  induction n with
  | zero => rfl
  | succ n ih =>
      have hspace : Utf8.encodeChar ' ' = [0x20] := by decide
      rw [spaces, List.replicate_succ, Utf8.encode_cons, ← spaces, ih, hspace, List.replicate_succ]
      rfl

theorem space_not_mem_encodeChar {c : Char} (h : c ≠ ' ') : (0x20 : UInt8) ∉ Utf8.encodeChar c := by
  by_cases hascii : c.toNat < 0x80
  · rw [Utf8.encodeChar_ascii hascii, List.mem_singleton]
    intro hbyte
    have hcode : (UInt8.ofNat c.toNat).toNat = c.toNat := Utf8.toNat_ofNat (by omega)
    rw [← hbyte] at hcode
    exact h (Char.ext (UInt32.toNat.inj hcode.symm))
  · intro hbyte
    exact absurd (Utf8.le_of_mem_encodeChar (Nat.not_lt.mp hascii) hbyte) (by decide)

theorem indentBytes_encode (line : Text) : indentBytes (Utf8.encode line) = indent line := by
  induction line with
  | nil => rfl
  | cons c rest ih =>
      rw [Utf8.encode_cons]
      by_cases hc : c = ' '
      · subst hc
        have hbytes : indentBytes (Utf8.encodeChar ' ' ++ Utf8.encode rest) = indentBytes (Utf8.encode rest) + 1 := rfl
        have hindent : indent (' ' :: rest) = indent rest + 1 := rfl
        rw [hbytes, hindent, ih]
      · have hindent : indent (c :: rest) = 0 := indent_eq_zero_iff.mpr (by simpa using hc)
        have hspace := space_not_mem_encodeChar hc
        obtain ⟨byte, later, hbytes⟩ := List.exists_cons_of_ne_nil (Utf8.encodeChar_ne_nil c)
        have hbyte : (byte == 0x20) = false := by
          refine beq_eq_false_iff_ne.mpr ?_
          rintro rfl
          exact hspace (hbytes ▸ List.mem_cons_self)
        rw [hindent, hbytes, indentBytes, List.cons_append, List.takeWhile_cons, hbyte]
        rfl

/-- Cutting indentation off the bytes of a line leaves the bytes of a line. -/
theorem encode_unindent (depth : Nat) (line : Text) :
    Utf8.encode (unindent depth line) =
      (Utf8.encode line).drop (min (indentBytes (Utf8.encode line)) depth) := by
  have hcut : spaces (min (indent line) depth) ++ unindent depth line = line := by
    have hback := spaces_append_unindent (Nat.min_le_left (indent line) depth)
    rwa [unindent, Nat.min_eq_right (Nat.min_le_left _ _)] at hback
  have hbytes : Utf8.encode line =
      List.replicate (min (indent line) depth) 0x20 ++ Utf8.encode (unindent depth line) := by
    rw [← encode_spaces, ← Utf8.encode_append, hcut]
  rw [indentBytes_encode]
  exact (List.drop_left' List.length_replicate).symm.trans (congrArg (List.drop _) hbytes.symm)

/-! ### Blocks -/

/-- The common indentation is the least among the lines. -/
theorem isLeast_commonIndent (h : block ≠ []) :
    IsLeast {n | ∃ line ∈ block, indent line = n} (commonIndent block) := by
  obtain ⟨least, hleast⟩ : ∃ least, (block.map indent).min? = some least :=
    Option.ne_none_iff_exists'.mp (by simpa using h)
  obtain ⟨hmem, hle⟩ := List.min?_eq_some_iff.mp hleast
  rw [commonIndent, hleast, Option.getD_some]
  constructor
  · exact List.mem_map.mp hmem
  · rintro n ⟨line, hline, rfl⟩
    exact hle _ (List.mem_map_of_mem hline)

theorem splitOn_dedent (hne : block ≠ []) (hfeed : ∀ line ∈ block, '\n' ∉ line) :
    splitOn '\n' (dedent block) = block.map (unindent (commonIndent block)) := by
  refine splitOn_intercalate (by simpa using hne) ?_
  intro piece hpiece
  obtain ⟨line, hline, rfl⟩ := List.mem_map.mp hpiece
  exact fun hmem => hfeed line hline (List.mem_of_mem_drop hmem)

/-- In bytes, what is left of a line is what follows the bytes of the common indentation. -/
theorem map_encode_splitOn_dedent (hne : block ≠ []) (hfeed : ∀ line ∈ block, '\n' ∉ line) :
    (splitOn '\n' (dedent block)).map Utf8.encode =
      block.map fun line => (Utf8.encode line).drop (commonIndent block) := by
  have hleast := isLeast_commonIndent hne
  rw [splitOn_dedent hne hfeed, List.map_map]
  apply List.map_congr_left
  intro line hline
  have hle : commonIndent block ≤ indent line := hleast.2 ⟨line, hline, rfl⟩
  rw [Function.comp_apply, encode_unindent, indentBytes_encode, Nat.min_eq_right hle]

/-- **Dedenting takes the common indentation and nothing else.** The lines that are left give the block with it in
front of them, in characters as in bytes; one of them starts with no space, and dedenting them changes nothing. -/
theorem dedent_exact (hne : block ≠ []) (hfeed : ∀ line ∈ block, '\n' ∉ line) :
    IsLeast {n | ∃ line ∈ block, indent line = n} (commonIndent block) ∧
      (splitOn '\n' (dedent block)).map (spaces (commonIndent block) ++ ·) = block ∧
      (splitOn '\n' (dedent block)).map Utf8.encode =
        block.map (fun line => (Utf8.encode line).drop (commonIndent block)) ∧
      (∃ line ∈ splitOn '\n' (dedent block), line.head? ≠ some ' ') ∧
      dedent (splitOn '\n' (dedent block)) = dedent block := by
  have hleast := isLeast_commonIndent hne
  have hle : ∀ line ∈ block, commonIndent block ≤ indent line := fun line hline => hleast.2 ⟨line, hline, rfl⟩
  have hback : (splitOn '\n' (dedent block)).map (spaces (commonIndent block) ++ ·) = block := by
    calc (splitOn '\n' (dedent block)).map (spaces (commonIndent block) ++ ·)
        = block.map fun line => spaces (commonIndent block) ++ unindent (commonIndent block) line := by
          rw [splitOn_dedent hne hfeed, List.map_map]
          rfl
      _ = block.map id := List.map_congr_left fun line hline => spaces_append_unindent (hle line hline)
      _ = block := List.map_id block
  refine ⟨hleast, hback, map_encode_splitOn_dedent hne hfeed, ?_, ?_⟩
  · obtain ⟨line, hline, hindent⟩ := hleast.1
    refine ⟨unindent (commonIndent block) line, ?_, ?_⟩
    · rw [splitOn_dedent hne hfeed]
      exact List.mem_map_of_mem hline
    · have hcut := indent_unindent (hle line hline)
      exact indent_eq_zero_iff.mp (by omega)
  · calc dedent (splitOn '\n' (dedent block))
        = dedent ((splitOn '\n' (dedent block)).map (spaces (commonIndent block) ++ ·)) :=
          (dedent_map_spaces _ _).symm
      _ = dedent block := by rw [hback]

/-- A block with a tab after its spaces and a line of spaces only. -/
def tabbed : List Text := ["   fold();".toList, "  \tseal();".toList, "    ".toList]

theorem dedent_exact_tabbed :
    tabbed ≠ [] ∧ (∀ line ∈ tabbed, '\n' ∉ line) ∧
      (splitOn '\n' (dedent tabbed)).map (spaces 2 ++ ·) = tabbed ∧
      dedent (splitOn '\n' (dedent tabbed)) = " fold();\n\tseal();\n  ".toList := by
  have hne : tabbed ≠ [] := List.cons_ne_nil _ _
  have hfeed : ∀ line ∈ tabbed, '\n' ∉ line := by decide
  have hindent : commonIndent tabbed = 2 := by decide
  have hdedent : dedent tabbed = " fold();\n\tseal();\n  ".toList := by decide
  obtain ⟨-, hback, -, -, hagain⟩ := dedent_exact hne hfeed
  rw [hindent] at hback
  exact ⟨hne, hfeed, hback, hagain.trans hdedent⟩

end Exemplar.Text
