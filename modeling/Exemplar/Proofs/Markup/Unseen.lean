import Exemplar.Proofs.Markup.Run
import Mathlib.Logic.Basic

/-!
# Code that is not seen

Outside of samples and in their hidden regions the scanner passes over code. Two texts that differ in such
lines only are the same to it: they give the same samples or the same fault, so nothing that is made of
these depends on what is hidden.
-/

namespace Exemplar.Markup

variable {marker : Marker} {file : Text} {state : State} {line other : Text} {lines others : List Text}

/-- Whether code leaves the state as it is. -/
def State.passesOver : State → Bool
  | .visible _ => false
  | _ => true

theorem step_of_passesOver (h : state.passesOver) (line : Text) : state.step line .code = keep state := by
  cases state with
  | outside => rfl
  | visible r => cases h
  | hidden r => rfl

def Marker.next? (marker : Marker) (state : State) (line : Text) : Option State :=
  (state.step line (marker.classify line)).toOption.map (·.state)

/-- The state that lines lead to, as long as none of them breaks a rule. -/
def Marker.stateAfter (marker : Marker) (state : State) (lines : List Text) : Option State :=
  lines.foldlM marker.next? state

theorem stateAfter_cons {next : Step} (h : state.step line (marker.classify line) = .ok next) :
    marker.stateAfter state (line :: lines) = marker.stateAfter next.state lines := by
  have hnext : marker.next? state line = some next.state := by
    rw [Marker.next?, h]
    rfl
  rw [Marker.stateAfter, List.foldlM_cons, hnext]
  rfl

/-- Two sequences of lines of which a scan sees the same: where they differ, both lines are code, and the
state that the lines before lead to passes over it. -/
structure SameSeen (marker : Marker) (state : State) (lines others : List Text) : Prop where
  length_eq : lines.length = others.length
  passesOver : ∀ (i : Nat) (h : i < lines.length) (h' : i < others.length), lines[i] ≠ others[i] →
    ∀ before ∈ marker.stateAfter state (lines.take i), before.passesOver ∧
      marker.classify lines[i] = .code ∧ marker.classify others[i] = .code

theorem SameSeen.step_eq (h : SameSeen marker state (line :: lines) (other :: others)) :
    state.step line (marker.classify line) = state.step other (marker.classify other) := by
  by_cases hline : line = other
  · rw [hline]
  · obtain ⟨hstate, hcode, hother⟩ := h.passesOver 0 (by simp) (by simp) hline state rfl
    calc
      state.step line (marker.classify line) = keep state := by
        rw [List.getElem_cons_zero] at hcode
        rw [hcode, step_of_passesOver hstate]
      _ = state.step other (marker.classify other) := by
        rw [List.getElem_cons_zero] at hother
        rw [hother, step_of_passesOver hstate]

theorem SameSeen.tail {next : Step} (h : SameSeen marker state (line :: lines) (other :: others))
    (hstep : state.step line (marker.classify line) = .ok next) :
    SameSeen marker next.state lines others := by
  refine ⟨Nat.succ.inj h.length_eq, ?_⟩
  intro i hi hi' hne before hbefore
  apply h.passesOver (i + 1) (Nat.succ_lt_succ hi) (Nat.succ_lt_succ hi') hne before
  rwa [List.take_succ_cons, stateAfter_cons hstep]

theorem scanFrom_eq_of_sameSeen {before : Nat} (h : SameSeen marker state lines others) :
    scanFrom marker file before state lines = scanFrom marker file before state others := by
  induction lines generalizing others before state with
  | nil => rw [List.length_eq_zero_iff.mp h.length_eq.symm]
  | cons line lines ih =>
      cases others with
      | nil => exact absurd h.length_eq (by simp)
      | cons other others =>
          rw [scanFrom, scanFrom, ← h.step_eq]
          cases hstep : state.step line (marker.classify line) with
          | error breach => rfl
          | ok next =>
              dsimp only
              rw [ih (h.tail hstep)]

/-- **Unseen lines have no influence.** Texts of which a scan sees the same give the same samples or the same
fault. -/
theorem samples_eq_of_sameSeen (marker : Marker) (file : Text) {text other : Text}
    (h : SameSeen marker .outside text.lines other.lines) :
    marker.samples file text = marker.samples file other :=
  scanFrom_eq_of_sameSeen h

/-- A sample with a hidden region, after a line of code. -/
def linesAround (outside hidden : String) : List Text :=
  [outside, "//BEGIN_SAMPLE:A.b", "//TITLE:T", "//DESCRIPTION:D", "b();", "//BEGIN_HIDDEN", hidden,
    "//END_HIDDEN", "//END_SAMPLE"].map String.toList

def textAround (outside hidden : String) : Text := (linesAround outside hidden).flatMap (· ++ ['\n'])

theorem samples_eq_of_sameSeen_secret :
    (Marker.slashes.samples "A.java".toList (textAround "import b;" "secret();")).toOption.isSome ∧
      Marker.slashes.samples "A.java".toList (textAround "import b;" "secret();") =
        Marker.slashes.samples "A.java".toList (textAround "" "//none") := by
  have hlines : (textAround "import b;" "secret();").lines = linesAround "import b;" "secret();" := by
    decide +kernel
  have hothers : (textAround "" "//none").lines = linesAround "" "//none" := by decide +kernel
  have hseen : SameSeen .slashes .outside (linesAround "import b;" "secret();")
      (linesAround "" "//none") := ⟨by simp [linesAround], by decide +kernel⟩
  rw [← hlines, ← hothers] at hseen
  exact ⟨by decide +kernel, samples_eq_of_sameSeen .slashes _ hseen⟩

end Exemplar.Markup
