import Exemplar.Markup.Scan
import Exemplar.Proofs.Outcome

/-!
# Runs of the scanner

The scanner sees a file as a word over seven symbols: the four tags that open and close regions, titles,
descriptions and code. A run leads over a word from one state to another and finishes samples on its way. A
file scans without a fault exactly if there is a run over its word that starts and ends outside of samples.

A run over a concatenation is a run over the first part followed by one over the second, so what a file does
can be put together from what its parts do.
-/

namespace Exemplar.Markup

inductive Note
  | code (line : Text)
  | title (text : Text)
  | description (text : Text)
deriving DecidableEq

inductive Symbol
  | beginSample (label : Label)
  | endSample
  | beginHidden
  | endHidden
  | note (n : Note)
deriving DecidableEq

/-- The symbol of a line with the given tag. Code is the line itself, untrimmed. -/
def Tag.symbol (line : Text) : Tag → Symbol
  | .beginSample label => .beginSample label
  | .endSample => .endSample
  | .beginHidden => .beginHidden
  | .endHidden => .endHidden
  | .title text => .note (.title text)
  | .description text => .note (.description text)
  | .code => .note (.code line)

def Marker.symbol (marker : Marker) (line : Text) : Symbol := (marker.classify line).symbol line

section Symbols

variable {marker : Marker} {line text : Text}

theorem symbol_eq_beginSample_iff {label : Label} :
    marker.symbol line = .beginSample label ↔ marker.classify line = .beginSample label := by
  unfold Marker.symbol
  cases marker.classify line <;> simp [Tag.symbol]

theorem symbol_eq_title_iff :
    marker.symbol line = .note (.title text) ↔ marker.classify line = .title text := by
  unfold Marker.symbol
  cases marker.classify line <;> simp [Tag.symbol]

theorem symbol_eq_description_iff :
    marker.symbol line = .note (.description text) ↔ marker.classify line = .description text := by
  unfold Marker.symbol
  cases marker.classify line <;> simp [Tag.symbol]

theorem symbol_eq_code_iff :
    marker.symbol line = .note (.code text) ↔ marker.classify line = .code ∧ line = text := by
  unfold Marker.symbol
  cases marker.classify line <;> simp [Tag.symbol]

end Symbols

/-- What a note in a hidden region adds to the sample around it. -/
def Note.inHidden (r : Record) : Note → Record
  | .code _ => r
  | .title text => { r with title := text }
  | .description text => { r with description := text }

/-- What a note adds to the sample it stands in. -/
def Note.inVisible (r : Record) : Note → Record
  | .code line => r.withLine line
  | .title text => { r with title := text }
  | .description text => { r with description := text }

/-- The steps that break no rule, with the sample that each finishes. -/
inductive Moves : State → Symbol → State → Option Record → Prop
  | skip (line : Text) : Moves .outside (.note (.code line)) .outside none
  | beginSample (label : Label) : Moves .outside (.beginSample label) (.visible (.new label)) none
  | visibleNote (r : Record) (n : Note) : Moves (.visible r) (.note n) (.visible (n.inVisible r)) none
  | beginHidden (r : Record) : Moves (.visible r) .beginHidden (.hidden r) none
  | hiddenNote (r : Record) (n : Note) : Moves (.hidden r) (.note n) (.hidden (n.inHidden r)) none
  | endHidden (r : Record) : Moves (.hidden r) .endHidden (.visible r) none
  | endSample (r : Record) (hr : r.missing? = none) : Moves (.visible r) .endSample .outside (some r)

inductive Runs : State → List Symbol → State → List Record → Prop
  | nil (state : State) : Runs state [] state []
  | cons {state next last : State} {symbol : Symbol} {word : List Symbol} {finished : Option Record}
      {records : List Record} (hmove : Moves state symbol next finished)
      (hrest : Runs next word last records) :
      Runs state (symbol :: word) last (finished.toList ++ records)

theorem runs_nil_iff {first last : State} {records : List Record} :
    Runs first [] last records ↔ last = first ∧ records = [] := by
  constructor
  · intro h
    cases h
    exact ⟨rfl, rfl⟩
  · rintro ⟨rfl, rfl⟩
    exact .nil last

theorem runs_cons_iff {first last : State} {symbol : Symbol} {word : List Symbol}
    {records : List Record} :
    Runs first (symbol :: word) last records ↔
      ∃ next finished later, Moves first symbol next finished ∧ Runs next word last later ∧
        records = finished.toList ++ later := by
  constructor
  · intro h
    cases h with
    | cons hmove hrest => exact ⟨_, _, _, hmove, hrest, rfl⟩
  · rintro ⟨next, finished, later, hmove, hrest, rfl⟩
    exact .cons hmove hrest

/-! ### The scanner's steps are the moves -/

theorem finish_eq_ok_iff {r : Record} {next : Step} :
    finish r = .ok next ↔ r.missing? = none ∧ next = ⟨.outside, some r⟩ := by
  unfold finish
  cases hmissing : r.missing? with
  | none => simp [eq_comm]
  | some part => simp

theorem moves_of_step {state : State} {line : Text} {tag : Tag} {next : Step}
    (h : state.step line tag = .ok next) :
    Moves state (tag.symbol line) next.state next.finished := by
  cases state with
  | outside =>
      cases tag <;> simp only [State.step, keep, refuse, reduceCtorEq, Except.ok.injEq] at h
      case beginSample label => exact h ▸ .beginSample label
      case code => exact h ▸ .skip line
  | visible r =>
      cases tag <;> simp only [State.step, keep, refuse, reduceCtorEq, Except.ok.injEq] at h
      case endSample =>
        obtain ⟨hr, rfl⟩ := finish_eq_ok_iff.mp h
        exact .endSample r hr
      case beginHidden => exact h ▸ .beginHidden r
      case title text => exact h ▸ .visibleNote r (.title text)
      case description text => exact h ▸ .visibleNote r (.description text)
      case code => exact h ▸ .visibleNote r (.code line)
  | hidden r =>
      cases tag <;> simp only [State.step, keep, refuse, reduceCtorEq, Except.ok.injEq] at h
      case endHidden => exact h ▸ .endHidden r
      case title text => exact h ▸ .hiddenNote r (.title text)
      case description text => exact h ▸ .hiddenNote r (.description text)
      case code => exact h ▸ .hiddenNote r (.code line)

theorem step_of_moves {state last : State} {line : Text} {tag : Tag} {finished : Option Record}
    (h : Moves state (tag.symbol line) last finished) :
    state.step line tag = .ok ⟨last, finished⟩ := by
  cases tag <;> cases h
  case endSample.endSample r hr => exact finish_eq_ok_iff.mpr ⟨hr, rfl⟩
  all_goals rfl

theorem step_eq_ok_iff {state : State} {line : Text} {tag : Tag} {next : Step} :
    state.step line tag = .ok next ↔ Moves state (tag.symbol line) next.state next.finished :=
  ⟨moves_of_step, fun h => step_of_moves h⟩

/-- A scan succeeds exactly along the runs that end outside of samples. -/
theorem scanFrom_eq_ok_iff {marker : Marker} {file : Text} {before : Nat} {state : State}
    {lines : List Text} {records : List Record} :
    scanFrom marker file before state lines = .ok records ↔
      Runs state (lines.map marker.symbol) .outside records := by
  induction lines generalizing before state records with
  | nil =>
      rw [scanFrom, List.map_nil]
      constructor
      · intro h
        cases state <;> simp only [State.close, reduceCtorEq, Except.ok.injEq] at h
        exact h ▸ .nil .outside
      · intro h
        cases h
        rfl
  | cons line rest ih =>
      rw [scanFrom, List.map_cons]
      constructor
      · intro h
        cases hstep : state.step line (marker.classify line) with
        | error breach => simp [hstep] at h
        | ok next =>
            rw [hstep] at h
            obtain ⟨later, hlater, rfl⟩ := map_eq_ok_iff.mp h
            exact .cons (step_eq_ok_iff.mp hstep) (ih.mp hlater)
      · intro h
        cases h with
        | cons hmove hrest =>
            simp [step_of_moves hmove, ih.mpr hrest, Except.map]

/-- A scan fails at the first line that breaks a rule, or else at the end, in the state that the run over the
lines before leads to. -/
theorem exists_of_scanFrom_eq_error {marker : Marker} {file : Text} {before : Nat} {first : State}
    {lines : List Text} {fault : Fault} (h : scanFrom marker file before first lines = .error fault) :
    (∃ left line right state records breach, lines = left ++ line :: right ∧
        Runs first (left.map marker.symbol) state records ∧
        state.step line (marker.classify line) = .error breach ∧
        fault = .markup breach file (before + left.length + 1)) ∨
      ∃ state records breach, Runs first (lines.map marker.symbol) state records ∧
        state.close = .error breach ∧ fault = .markup breach file (before + lines.length) := by
  induction lines generalizing before first with
  | nil =>
      rw [scanFrom] at h
      cases hclose : first.close with
      | ok => simp [hclose] at h
      | error breach =>
          rw [hclose] at h
          exact .inr ⟨first, [], breach, .nil first, hclose, (Except.error.inj h).symm⟩
  | cons line rest ih =>
      rw [scanFrom] at h
      cases hstep : first.step line (marker.classify line) with
      | error breach =>
          rw [hstep] at h
          exact .inl ⟨[], line, rest, first, [], breach, rfl, .nil first, hstep, (Except.error.inj h).symm⟩
      | ok next =>
          rw [hstep] at h
          have hmove := moves_of_step hstep
          rcases ih (map_eq_error_iff.mp h) with
            ⟨left, later, right, state, records, breach, rfl, hrun, hbroken, rfl⟩ |
              ⟨state, records, breach, hrun, hclose, rfl⟩
          · refine .inl ⟨line :: left, later, right, state, _, breach, rfl, .cons hmove hrun, hbroken, ?_⟩
            rw [List.length_cons, Nat.add_right_comm before, Nat.add_assoc before]
          · refine .inr ⟨state, _, breach, .cons hmove hrun, hclose, ?_⟩
            rw [List.length_cons, Nat.add_right_comm, Nat.add_assoc]

/-! ### Runs over concatenations -/

theorem Runs.append {first middle last : State} {left right : List Symbol}
    {before after : List Record} (hleft : Runs first left middle before)
    (hright : Runs middle right last after) :
    Runs first (left ++ right) last (before ++ after) := by
  induction hleft with
  | nil state => exact hright
  | cons hmove _ ih =>
      rw [List.cons_append, List.append_assoc]
      exact .cons hmove (ih hright)

theorem Runs.exists_of_append {first last : State} {left right : List Symbol}
    {records : List Record} (h : Runs first (left ++ right) last records) :
    ∃ middle before after, Runs first left middle before ∧ Runs middle right last after ∧
      records = before ++ after := by
  induction left generalizing first records with
  | nil => exact ⟨first, [], records, .nil first, h, rfl⟩
  | cons symbol left ih =>
      cases h with
      | cons hmove hrest =>
          obtain ⟨middle, before, after, hleft, hright, rfl⟩ := ih hrest
          exact ⟨middle, _, after, .cons hmove hleft, hright, (List.append_assoc ..).symm⟩

theorem runs_append_iff {first last : State} {left right : List Symbol} {records : List Record} :
    Runs first (left ++ right) last records ↔
      ∃ middle before after, Runs first left middle before ∧ Runs middle right last after ∧
        records = before ++ after := by
  constructor
  · exact Runs.exists_of_append
  · rintro ⟨middle, before, after, hleft, hright, rfl⟩
    exact hleft.append hright

/-- Each end of a sample finishes one record, and nothing else does. -/
theorem Runs.length_eq_countP {first last : State} {word : List Symbol} {records : List Record}
    (h : Runs first word last records) : records.length = word.countP (· = .endSample) := by
  induction h with
  | nil => rfl
  | cons hmove _ ih =>
      cases hmove <;> simp [ih, Nat.add_comm]

end Exemplar.Markup
