import Exemplar.Decimal.Spelling
import Exemplar.Text.Case

/-!
# Control characters

Spelled numbers have no control characters. Changing the case of a character neither makes nor removes a
line feed, so a text keeps to one line under both mappings. Nor does a capital form bring in any other character
that is in the capital form of no character but itself.
-/

namespace Exemplar

namespace Text

/-- A text without the controls below U+0020, line ends among them. -/
def NoControls (t : Text) : Prop := ∀ c ∈ t, 0x20 ≤ c.toNat

@[simp]
theorem noControls_nil : NoControls [] := by simp [NoControls]

@[simp]
theorem noControls_cons {c : Char} {t : Text} :
    NoControls (c :: t) ↔ 0x20 ≤ c.toNat ∧ NoControls t := by
  simp [NoControls]

@[simp]
theorem noControls_append {left right : Text} :
    NoControls (left ++ right) ↔ NoControls left ∧ NoControls right := by
  simp [NoControls, or_imp, forall_and]

theorem NoControls.mono {t u : Text} (hu : NoControls u) (h : t ⊆ u) : NoControls t :=
  fun c hc => hu c (h hc)

theorem NoControls.flatMap {t : Text} {f : Char → Text} (h : ∀ c ∈ t, NoControls (f c)) :
    NoControls (t.flatMap f) := by
  intro c hc
  obtain ⟨d, hd, hcd⟩ := List.mem_flatMap.mp hc
  exact h d hd c hcd

theorem NoControls.feed_not_mem {t : Text} (h : NoControls t) : '\n' ∉ t :=
  fun hfeed => absurd (h '\n' hfeed) (by decide)

theorem toNat_of_mem_ofNat {n : Nat} {c : Char} (h : c ∈ ofNat n) : 0x30 ≤ c.toNat ∧ c.toNat ≤ 0x39 := by
  have hdigit := Nat.isDigit_of_mem_toDigits (by omega) (by omega) h
  simp only [Char.isDigit, Bool.and_eq_true, decide_eq_true_eq, ge_iff_le,
    UInt32.le_iff_toNat_le] at hdigit
  exact hdigit

theorem noControls_ofNat (n : Nat) : NoControls (ofNat n) :=
  fun _ hc => Nat.le_trans (by decide) (toNat_of_mem_ofNat hc).1

theorem isBlank_of_mem_ofNat {n : Nat} {c : Char} (h : c ∈ ofNat n) : isBlank c = false := by
  have hdigit := toNat_of_mem_ofNat h
  simp only [isBlank, Bool.or_eq_false_iff, Bool.and_eq_false_iff, decide_eq_false_iff_not,
    beq_eq_false_iff_ne]
  omega

theorem noControls_hexWord (n : Nat) : NoControls (hexWord n) := by
  have hdigit : ∀ d < 16, 0x20 ≤ (Nat.digitChar d).toNat := by decide
  intro c hc
  obtain ⟨d, hd, rfl⟩ := List.mem_map.mp hc
  apply hdigit
  simp only [List.mem_cons, List.not_mem_nil, or_false] at hd
  omega

end Text

open Text (NoControls noControls_append noControls_cons noControls_nil noControls_ofNat)

theorem Decimal.noControls_spellExponent (power : Int) : NoControls (spellExponent power) := by
  unfold spellExponent
  refine noControls_cons.mpr ⟨by decide, noControls_cons.mpr ⟨?_, noControls_ofNat _⟩⟩
  split <;> decide

theorem Decimal.noControls_spell (style : Style) (decimal : Decimal) :
    NoControls (decimal.spell style) := by
  have hdigits := noControls_ofNat decimal.digits
  have hzeros (n : Nat) : NoControls (List.replicate n '0') := by
    intro c hc
    rw [List.eq_of_mem_replicate hc]
    decide
  have hpoint : NoControls ".0".toList ∧ NoControls "0.".toList ∧ NoControls "0.0".toList := by
    simp
  unfold spell
  simp only
  split
  · exact hpoint.2.2
  · split
    · split
      · exact noControls_append.mpr ⟨noControls_append.mpr ⟨hdigits, hzeros _⟩, hpoint.1⟩
      · split
        · refine noControls_append.mpr ⟨hdigits.mono (List.take_subset ..), ?_⟩
          exact noControls_cons.mpr ⟨by decide, hdigits.mono (List.drop_subset ..)⟩
        · exact noControls_append.mpr ⟨noControls_append.mpr ⟨hpoint.2.1, hzeros _⟩, hdigits⟩
    · split
      · exact noControls_nil
      · rename_i digit hsingle
        rw [hsingle] at hdigits
        exact noControls_cons.mpr ⟨(noControls_cons.mp hdigits).1, noControls_spellExponent _⟩
      · rename_i digit rest _ hmore
        rw [hmore] at hdigits
        obtain ⟨hdigit, hrest⟩ := noControls_cons.mp hdigits
        refine noControls_cons.mpr ⟨hdigit, ?_⟩
        exact noControls_append.mpr
          ⟨noControls_cons.mpr ⟨by decide, hrest⟩, noControls_spellExponent _⟩

/-! ### Case -/

namespace Text

theorem toNat_ofNat {n : Nat} (h : n.isValidChar) : (Char.ofNat n).toNat = n := by
  rw [Char.ofNat, dif_pos h]
  rfl

theorem ofNat_ne {d : Char} (hd : d ≠ Char.ofNat 0) {n : Nat} (h : n ≠ d.toNat) : Char.ofNat n ≠ d := by
  rintro rfl
  by_cases hn : n.isValidChar
  · exact h (toNat_ofNat hn).symm
  · rw [Char.ofNat, dif_neg hn] at hd
    exact hd rfl

/-- No character of the run is mapped to the code. -/
def CaseRun.Misses (code : Nat) (run : CaseRun) : Prop :=
  code < run.target ∨ run.target + (run.last - run.first) < code

instance CaseRun.decidableMisses (code : Nat) (run : CaseRun) : Decidable (run.Misses code) :=
  inferInstanceAs (Decidable (_ ∨ _))

theorem image?_ne {runs : List CaseRun} {code : Nat} (hruns : ∀ run ∈ runs, run.Misses code) {n image : Nat}
    (h : runs.findSome? (·.image? n) = some image) : image ≠ code := by
  obtain ⟨run, hrun, himage⟩ := List.exists_of_findSome?_eq_some h
  have hmisses := hruns run hrun
  unfold CaseRun.image? at himage
  unfold CaseRun.Misses at hmisses
  split at himage
  · have := Option.some.inj himage
    omega
  · simp at himage

theorem eq_of_mem_mapped {runs : List CaseRun} {c d : Char} (hd : d ≠ Char.ofNat 0)
    (hruns : ∀ run ∈ runs, run.Misses d.toNat)
    (h : ((runs.findSome? (·.image? c.toNat)).map Char.ofNat).getD c = d) : c = d := by
  cases hfound : runs.findSome? (·.image? c.toNat) with
  | none => simpa [hfound] using h
  | some image =>
      rw [hfound] at h
      exact absurd h (ofNat_ne hd (image?_ne hruns hfound))

/-- A character that the capital form of no other character has. -/
structure Uncapital (d : Char) : Prop where
  ne_zero : d ≠ Char.ofNat 0
  sequences : ∀ row ∈ capitalSequences, d.toNat ∉ row.2
  runs : ∀ run ∈ capitalRuns, run.Misses d.toNat

theorem eq_of_mem_capital {c d : Char} (hd : Uncapital d) (h : d ∈ capital c) : c = d := by
  unfold capital at h
  split at h
  · rename_i codes hcodes
    obtain ⟨code, hcode, hform⟩ := List.mem_map.mp h
    obtain ⟨before, after, hrows, -⟩ := List.lookup_eq_some_iff.mp hcodes
    have hrow : (c.toNat, codes) ∈ capitalSequences := by simp [hrows]
    have hne : code ≠ d.toNat := fun heq => hd.sequences _ hrow (heq ▸ hcode)
    exact absurd hform (ofNat_ne hd.ne_zero hne)
  · exact eq_of_mem_mapped hd.ne_zero hd.runs (List.mem_singleton.mp h).symm

theorem not_mem_capitalizeFirst {d : Char} (hd : Uncapital d) {t : Text} (h : d ∉ t) : d ∉ t.capitalizeFirst := by
  cases t with
  | nil => exact h
  | cons c rest =>
      intro hmem
      rcases List.mem_append.mp hmem with hfirst | hrest
      · exact h (eq_of_mem_capital hd hfirst ▸ List.mem_cons_self)
      · exact h (List.mem_cons_of_mem _ hrest)

theorem feed_not_mem_capitalizeFirst {t : Text} (h : '\n' ∉ t) : '\n' ∉ t.capitalizeFirst :=
  not_mem_capitalizeFirst ⟨by decide, by decide +kernel, by decide +kernel⟩ h

theorem eq_feed_of_mem_small {c : Char} (h : '\n' ∈ small c) : c = '\n' := by
  have hruns : ∀ run ∈ smallRuns, run.Misses '\n'.toNat := by decide +kernel
  unfold small at h
  split at h
  · exact absurd h (by decide)
  · exact eq_of_mem_mapped (by decide) hruns (List.mem_singleton.mp h).symm

theorem feed_not_mem_smallAfter {before t : Text} (h : '\n' ∉ t) : '\n' ∉ smallAfter before t := by
  induction t generalizing before with
  | nil => exact h
  | cons c rest ih =>
      obtain ⟨hc, hrest⟩ : '\n' ≠ c ∧ '\n' ∉ rest := by simpa using h
      intro hfeed
      rw [smallAfter] at hfeed
      rcases List.mem_append.mp hfeed with hform | hlater
      · split at hform
        · split at hform <;> exact absurd hform (by decide)
        · exact hc (eq_feed_of_mem_small hform).symm
      · exact ih hrest hlater

theorem feed_not_mem_toSmall {t : Text} (h : '\n' ∉ t) : '\n' ∉ t.toSmall :=
  feed_not_mem_smallAfter h

end Text

end Exemplar
