import Exemplar.Proofs.Markup.Run
import Exemplar.Proofs.Text.Lines

/-!
# Texts one after another

A text that scans without a fault leaves nothing behind but its samples and the count of its lines. What
stands after it is scanned as if it stood alone: its samples come after the earlier ones, and its fault
is the same one, as many lines further down as the earlier text has.
-/

namespace Exemplar

theorem Text.lines_append {first : Text} (rest : Text) (h : first = [] ∨ first.getLast? = some '\n') :
    Text.lines (first ++ rest) = first.lines ++ rest.lines := by
  rcases h with rfl | h
  · rfl
  · obtain ⟨before, rfl⟩ := List.getLast?_eq_some_iff.mp h
    rw [List.append_assoc, List.singleton_append, Text.lines_append_feed]

/-- The same fault some lines further down. -/
def Fault.later (lines : Nat) : Fault → Fault
  | markup breach file line => markup breach file (line + lines)
  | fault => fault

namespace Markup

variable {marker : Marker} {file : Text}

theorem exists_breach_of_scanFrom {before : Nat} {state : State} {lines : List Text} {fault : Fault}
    (h : scanFrom marker file before state lines = .error fault) :
    ∃ breach line, fault = .markup breach file line := by
  rcases exists_of_scanFrom_eq_error h with
    ⟨left, _, _, _, _, breach, -, -, -, hfault⟩ | ⟨_, _, breach, -, -, hfault⟩
  · exact ⟨breach, _, hfault⟩
  · exact ⟨breach, _, hfault⟩

/-- Lines that were counted before matter for the line of a fault only. -/
theorem scanFrom_add (before counted : Nat) (state : State) (lines : List Text) :
    scanFrom marker file (before + counted) state lines =
      (scanFrom marker file before state lines).mapError (Fault.later counted) := by
  induction lines generalizing before state with
  | nil =>
      rw [scanFrom, scanFrom]
      cases state.close <;> rfl
  | cons line rest ih =>
      rw [scanFrom, scanFrom, Nat.add_right_comm]
      cases state.step line (marker.classify line) with
      | error breach => rfl
      | ok next =>
          dsimp only
          rw [ih]
          cases scanFrom marker file (before + 1) next.state rest <;> rfl

/-- After lines that break no rule the scan goes on in the state they lead to. -/
theorem scanFrom_append {before : Nat} {first middle : State} {left : List Text} {records : List Record}
    (h : Runs first (left.map marker.symbol) middle records) (right : List Text) :
    scanFrom marker file before first (left ++ right) =
      (scanFrom marker file (before + left.length) middle right).map (records ++ ·) := by
  induction left generalizing before first records with
  | nil =>
      obtain ⟨rfl, rfl⟩ := runs_nil_iff.mp h
      cases hright : scanFrom marker file before middle right <;> simp [hright, Except.map]
  | cons line left ih =>
      obtain ⟨next, finished, later, hmove, hrest, rfl⟩ := runs_cons_iff.mp h
      rw [List.cons_append, scanFrom, step_of_moves hmove]
      dsimp only
      rw [ih hrest, List.length_cons, Nat.add_right_comm, Nat.add_assoc]
      cases scanFrom marker file (before + (left.length + 1)) middle right <;> simp [Except.map]

/-- **Scanning is compositional.** After a text of whole lines without a fault, the samples of another text
follow those of the first, and a fault of it stays the same but for the lines of the first. -/
theorem samples_append {first : Text} {before : List Record}
    (hend : first = [] ∨ first.getLast? = some '\n') (hfirst : marker.samples file first = .ok before)
    (rest : Text) :
    (∀ after, marker.samples file rest = .ok after →
      marker.samples file (first ++ rest) = .ok (before ++ after)) ∧
    ∀ fault, marker.samples file rest = .error fault → ∃ breach line, fault = .markup breach file line ∧
      marker.samples file (first ++ rest) = .error (.markup breach file (line + first.lines.length)) := by
  have hscan : marker.samples file (first ++ rest) =
      ((marker.samples file rest).mapError (Fault.later first.lines.length)).map (before ++ ·) := by
    calc
      marker.samples file (first ++ rest) =
          (scanFrom marker file (0 + first.lines.length) .outside rest.lines).map (before ++ ·) := by
        rw [Marker.samples, Marker.samplesOfLines, Text.lines_append rest hend]
        exact scanFrom_append (scanFrom_eq_ok_iff.mp hfirst) rest.lines
      _ = ((marker.samples file rest).mapError (Fault.later first.lines.length)).map (before ++ ·) := by
        rw [scanFrom_add]
        rfl
  constructor
  · intro after hafter
    rw [hscan, hafter]
    rfl
  · intro fault hfault
    obtain ⟨breach, line, rfl⟩ := exists_breach_of_scanFrom hfault
    refine ⟨breach, line, rfl, ?_⟩
    rw [hscan, hfault]
    rfl

/-- A whole sample, with carriage returns in its line ends. -/
def wholeText : Text :=
  "//BEGIN_SAMPLE:A.b\r\n//TITLE:T\r\n//DESCRIPTION:D\r\nb();\r\n//END_SAMPLE\r\n".toList

theorem samples_append_whole :
    ∃ before, Marker.slashes.samples "A.java".toList wholeText = .ok before ∧
      Marker.slashes.samples "A.java".toList (wholeText ++ wholeText) = .ok (before ++ before) ∧
      Marker.slashes.samples "A.java".toList (wholeText ++ "\n//END_SAMPLE".toList) =
        .error (.markup (.violation .endOutsideSample) "A.java".toList 7) := by
  obtain ⟨before, hbefore⟩ := exists_eq_ok_of_isSome
    (x := Marker.slashes.samples "A.java".toList wholeText) (by decide +kernel)
  have hend : Marker.slashes.samples "A.java".toList "\n//END_SAMPLE".toList =
      .error (.markup (.violation .endOutsideSample) "A.java".toList 2) := by decide +kernel
  have hlines : wholeText.lines.length = 5 := by decide +kernel
  obtain ⟨hsamples, -⟩ := samples_append (.inr (by decide)) hbefore wholeText
  obtain ⟨-, hfault⟩ := samples_append (.inr (by decide)) hbefore "\n//END_SAMPLE".toList
  obtain ⟨breach, line, hbreach, hscan⟩ := hfault _ hend
  obtain ⟨rfl, -, rfl⟩ := Fault.markup.inj hbreach
  rw [hlines] at hscan
  exact ⟨before, hbefore, hsamples before hbefore, hscan⟩

end Markup

end Exemplar
