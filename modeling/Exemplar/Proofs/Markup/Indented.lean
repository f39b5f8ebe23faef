import Exemplar.Proofs.Markup.Classify
import Exemplar.Proofs.Markup.Run
import Exemplar.Proofs.Text.Indent

/-!
# Indented texts

Spaces in front of every line of a text are seen in the raw lines of its samples only. A line means the same
behind them, and each state of the scan has its counterpart, in which the code lines have the spaces too. The
code of a record is what its lines are without their common indentation, so it is the same for both, and with it
the answer to whether a sample is complete.
-/

namespace Exemplar

open Text (spaces)

/-- The record with spaces in front of its code lines. -/
def Record.indented (k : Nat) (r : Record) : Record := { r with codeLines := r.codeLines.map (spaces k ++ ·) }

/-- All of a record but how its lines stand in the file. -/
def Record.shown (r : Record) : Label × Text × Text × Text := (r.label, r.title, r.description, r.code)

theorem Record.code_indented (k : Nat) (r : Record) : (r.indented k).code = r.code :=
  Text.dedent_map_spaces k r.codeLines

theorem Record.shown_indented (k : Nat) (r : Record) : (r.indented k).shown = r.shown := by
  rw [shown, code_indented]
  rfl

theorem Record.missing?_indented (k : Nat) (r : Record) : (r.indented k).missing? = r.missing? := by
  rw [missing?, code_indented]
  rfl

theorem Record.withLine_indented (k : Nat) (r : Record) (line : Text) :
    (r.indented k).withLine (spaces k ++ line) = (r.withLine line).indented k := by
  simp [withLine, indented]

namespace Markup

def State.indented (k : Nat) : State → State
  | .outside => .outside
  | .visible r => .visible (r.indented k)
  | .hidden r => .hidden (r.indented k)

def Step.indented (k : Nat) (s : Step) : Step := ⟨s.state.indented k, s.finished.map (Record.indented k)⟩

theorem finish_indented (k : Nat) (r : Record) :
    finish (r.indented k) = (finish r).map (Step.indented k) := by
  unfold finish
  rw [Record.missing?_indented]
  cases r.missing? <;> rfl

theorem step_indented (k : Nat) (state : State) (line : Text) (tag : Tag) :
    (state.indented k).step (spaces k ++ line) tag = (state.step line tag).map (Step.indented k) := by
  cases state with
  | outside => cases tag <;> rfl
  | visible r =>
      cases tag
      case endSample => exact finish_indented k r
      case code =>
        have hline := congrArg (fun sample => keep (.visible sample)) (r.withLine_indented k line)
        exact hline
      all_goals rfl
  | hidden r => cases tag <;> rfl

theorem close_indented (k : Nat) (state : State) : (state.indented k).close = state.close := by
  cases state <;> rfl

theorem scanFrom_indented (marker : Marker) (file : Text) (k before : Nat) (state : State) (lines : List Text) :
    scanFrom marker file before (state.indented k) (lines.map (spaces k ++ ·)) =
      (scanFrom marker file before state lines).map (List.map (Record.indented k)) := by
  induction lines generalizing before state with
  | nil =>
      rw [List.map_nil, scanFrom, close_indented, scanFrom]
      cases state.close <;> rfl
  | cons line rest ih =>
      rw [List.map_cons, scanFrom, scanFrom, classify_indent marker (fun c => Text.isBlank_of_mem_spaces),
        step_indented]
      cases state.step line (marker.classify line) with
      | error breach => rfl
      | ok next =>
          dsimp only [Except.map, Step.indented]
          rw [ih]
          cases scanFrom marker file (before + 1) next.state rest with
          | error fault => rfl
          | ok records => cases next.finished <;> rfl

theorem samples_indentLines (marker : Marker) (file text : Text) (k : Nat) :
    marker.samples file (text.indentLines k) =
      (marker.samples file text).map (List.map (Record.indented k)) := by
  rw [Marker.samples, Marker.samplesOfLines, Text.lines_indentLines]
  exact scanFrom_indented marker file k 0 .outside text.lines

/-- **Uniform indentation is invisible**: with `k` spaces in front of each of its lines, a text fails at the same
place for the same reason or has the same records but for their raw lines. -/
theorem shown_samples_indentLines (marker : Marker) (file text : Text) (k : Nat) :
    (text.indentLines k).lines = text.lines.map (spaces k ++ ·) ∧
      (marker.samples file (text.indentLines k)).map (List.map Record.shown) =
        (marker.samples file text).map (List.map Record.shown) := by
  refine ⟨Text.lines_indentLines k text, ?_⟩
  rw [samples_indentLines]
  cases marker.samples file text with
  | error fault => rfl
  | ok records =>
      have hshown : (records.map (Record.indented k)).map Record.shown = records.map Record.shown := by
        rw [List.map_map]
        exact List.map_congr_left fun r _ => r.shown_indented k
      exact congrArg Except.ok hshown

end Markup

end Exemplar
