import Exemplar.Files.Path
import Exemplar.Markup.Scan
import Exemplar.Proofs.Text.Lines
import Exemplar.Proofs.Text.Utf8

/-!
# Scanning a stream

A stream that is read and decoded line by line has the lines of the text that it decodes to as a whole. So
a file gives the same samples, or the same fault at the same line, whichever way it is read, and neither way
has an ill-formed part more than the other.
-/

namespace Exemplar

/-! ### Chunks -/

namespace Stream

variable {left bytes : List UInt8}

theorem chunks_of_feed_not_mem (h : 0x0A ∉ bytes) (hbytes : bytes ≠ []) : chunks bytes = [bytes] := by
  induction bytes with
  | nil => exact absurd rfl hbytes
  | cons byte bytes ih =>
      obtain ⟨hbyte, hrest⟩ := not_or.mp (List.mem_cons.not.mp h)
      rw [chunks, if_neg (Ne.symm hbyte)]
      cases bytes with
      | nil => rfl
      | cons next bytes => rw [ih hrest (by simp)]

theorem chunks_append_feed (h : 0x0A ∉ left) (right : List UInt8) :
    chunks (left ++ 0x0A :: right) = (left ++ [0x0A]) :: chunks right := by
  induction left with
  | nil => simp [chunks]
  | cons byte left ih =>
      obtain ⟨hbyte, hrest⟩ := not_or.mp (List.mem_cons.not.mp h)
      rw [List.cons_append, chunks, if_neg (Ne.symm hbyte), ih hrest]
      rfl

theorem lineOf_append_feed (left : List UInt8) :
    lineOf (left ++ [0x0A]) = if left.getLast? = some 0x0D then left.dropLast else left := by
  rw [lineOf, if_pos List.getLast?_concat, List.dropLast_concat]

theorem lines_append_feed (h : 0x0A ∉ left) (right : List UInt8) :
    lines (left ++ 0x0A :: right) = lineOf (left ++ [0x0A]) :: lines right := by
  rw [lines, chunks_append_feed h, List.map_cons, lines]

theorem lines_of_feed_not_mem (h : 0x0A ∉ bytes) (hbytes : bytes ≠ []) : lines bytes = [bytes] := by
  have hlast : bytes.getLast? ≠ some 0x0A := fun hlast => h (List.mem_of_getLast? hlast)
  rw [lines, chunks_of_feed_not_mem h hbytes, List.map_singleton, lineOf, if_neg hlast]

end Stream

/-! ### Decoding lines -/

namespace Utf8

variable {left bytes : List UInt8}

theorem decodeLossy_append_feed (left right : List UInt8) :
    decodeLossy (left ++ 0x0A :: right) = decodeLossy left ++ '\n' :: decodeLossy right :=
  (decodeLossy_eq_append_iff (by decide)).mpr ⟨left, right, rfl, rfl, rfl⟩

theorem feed_not_mem_decodeLossy (h : 0x0A ∉ bytes) : '\n' ∉ decodeLossy bytes := by
  intro hmem
  obtain ⟨before, after, hdecode⟩ := List.append_of_mem hmem
  obtain ⟨left, right, rfl, -⟩ := (decodeLossy_eq_append_iff (by decide)).mp hdecode
  exact h (List.mem_append_right _ List.mem_cons_self)

/-- A carriage return ends a decoded text exactly if its byte ends the bytes. -/
theorem decodeLossy_eq_concat_ret_iff {before : Text} :
    decodeLossy bytes = before ++ ['\r'] ↔ ∃ left, bytes = left ++ [0x0D] ∧ decodeLossy left = before := by
  rw [decodeLossy_eq_append_iff (by decide)]
  constructor
  · rintro ⟨left, right, rfl, hleft, hright⟩
    obtain rfl := decodeLossy_eq_nil_iff.mp hright
    exact ⟨left, rfl, hleft⟩
  · rintro ⟨left, rfl, hleft⟩
    exact ⟨left, [], rfl, hleft, rfl⟩

theorem decodeLossy_lineOf (left : List UInt8) :
    decodeLossy (Stream.lineOf (left ++ [0x0A])) = Text.chomp (decodeLossy left) := by
  rw [Stream.lineOf_append_feed]
  by_cases hret : left.getLast? = some 0x0D
  · obtain ⟨before, rfl⟩ := List.getLast?_eq_some_iff.mp hret
    rw [if_pos hret, List.dropLast_concat, decodeLossy_eq_concat_ret_iff.mpr ⟨before, rfl, rfl⟩, Text.chomp,
      if_pos List.getLast?_concat, List.dropLast_concat]
  · rw [if_neg hret, Text.chomp_of_getLast?]
    intro hlast
    obtain ⟨before, hdecode⟩ := List.getLast?_eq_some_iff.mp hlast
    obtain ⟨before, rfl, -⟩ := decodeLossy_eq_concat_ret_iff.mp hdecode
    exact hret List.getLast?_concat

/-- **Decoding line by line gives the lines of the whole text.** -/
theorem lines_decodeLossy (bytes : List UInt8) :
    (decodeLossy bytes).lines = (Stream.lines bytes).map decodeLossy := by
  by_cases hfeed : 0x0A ∈ bytes
  · obtain ⟨left, right, rfl, hleft⟩ := List.eq_append_cons_of_mem hfeed
    calc
      (decodeLossy (left ++ 0x0A :: right)).lines =
          Text.chomp (decodeLossy left) :: (decodeLossy right).lines := by
        rw [decodeLossy_append_feed, Text.lines_append_feed,
          Text.lines_single (feed_not_mem_decodeLossy hleft), List.singleton_append]
      _ = decodeLossy (Stream.lineOf (left ++ [0x0A])) :: (Stream.lines right).map decodeLossy := by
        rw [decodeLossy_lineOf, lines_decodeLossy right]
      _ = (Stream.lines (left ++ 0x0A :: right)).map decodeLossy := by
        rw [Stream.lines_append_feed hleft, List.map_cons]
  · by_cases hbytes : bytes = []
    · rw [hbytes]
      rfl
    · rw [Stream.lines_of_feed_not_mem hfeed hbytes, List.map_singleton]
      exact Text.lines_of_feed_not_mem (feed_not_mem_decodeLossy hfeed)
        (decodeLossy_eq_nil_iff.not.mpr hbytes)
termination_by bytes.length
decreasing_by
  simp_all only [List.length_append, List.length_cons]
  omega

example : (Stream.lines [0xE2, 0x82, 0x0D, 0x0A, 0xC3, 0x0D]).map decodeLossy =
    [[replacement], [replacement, '\r']] := by decide

end Utf8

namespace Markup

theorem Marker.samplesOfBytes_eq (marker : Marker) (file : Text) (bytes : List UInt8) :
    marker.samplesOfBytes file bytes = marker.samples file (Utf8.decodeLossy bytes) := by
  rw [samplesOfBytes, samples, Utf8.lines_decodeLossy]

/-- **Reading a file as a stream is reading its text.** The samples or the fault are the same, and no
ill-formed part appears, vanishes or is split where the lines are cut. -/
theorem samplesOfBytes_eq_samples_decodeLossy (marker : Marker) (path : Text) (bytes : List UInt8) :
    marker.samplesOfBytes (Path.displayName path) bytes =
        marker.samples (Path.displayName path) (Utf8.decodeLossy bytes) ∧
      ((Stream.lines bytes).flatMap Utf8.decodeLossy).count Utf8.replacement =
        (Utf8.decodeLossy bytes).count Utf8.replacement := by
  refine ⟨marker.samplesOfBytes_eq _ bytes, ?_⟩
  rw [List.flatMap_def, ← Utf8.lines_decodeLossy]
  exact Text.count_flatten_lines (by decide) (by decide) _

end Markup

end Exemplar
