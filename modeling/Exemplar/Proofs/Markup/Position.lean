import Exemplar.Proofs.Markup.Concat

/-!
# Where scans fail

A scan fails at the first line that breaks a rule in the state that the lines before it lead to, and else at
the end of the text if a sample is open there. So a fault names a line of the text. What stands after that
line has no say in it, and the lines before it break no rule: at most they leave a sample open. The sample
that is open at an end is the one begun last.
-/

namespace Exemplar.Markup

variable {marker : Marker} {file : Text} {state first last : State} {line : Text} {lines : List Text}
  {breach : Breach} {fault : Fault}

def State.open? : State → Option Record
  | .outside => none
  | .visible r => some r
  | .hidden r => some r

theorem close_eq_error_iff :
    state.close = .error breach ↔ ∃ r ∈ state.open?, breach = .violation (.unclosedSample r.id) := by
  cases state <;> simp [State.close, State.open?, eq_comm]

/-- Only the end of a text finds a sample unclosed. -/
theorem ne_unclosed_of_step {tag : Tag} (h : state.step line tag = .error breach) (id : Text) :
    breach ≠ .violation (.unclosedSample id) := by
  rintro rfl
  cases state <;> cases tag <;> simp [State.step, keep, refuse] at h
  case visible.endSample r =>
    unfold finish at h
    cases hmissing : r.missing? <;> simp [hmissing] at h

/-! ### The place of a fault -/

/-- What makes lines fail, and at how many of them. -/
inductive Marker.FailsAt (marker : Marker) : List Text → Breach → Nat → Prop
  | broken {before after : List Text} {line : Text} {state : State} {records : List Record} {breach : Breach}
      (run : Runs .outside (before.map marker.symbol) state records)
      (step : state.step line (marker.classify line) = .error breach) :
      marker.FailsAt (before ++ line :: after) breach (before.length + 1)
  | unclosed {lines : List Text} {state : State} {records : List Record} {r : Record}
      (run : Runs .outside (lines.map marker.symbol) state records) (hopen : r ∈ state.open?) :
      marker.FailsAt lines (.violation (.unclosedSample r.id)) lines.length

/-- Behind a run from the start of a text, the scan counts its lines. -/
theorem samplesOfLines_append {records : List Record} (h : Runs .outside (lines.map marker.symbol) state records)
    (rest : List Text) :
    marker.samplesOfLines file (lines ++ rest) =
      (scanFrom marker file lines.length state rest).map (records ++ ·) := by
  rw [Marker.samplesOfLines, scanFrom_append h, Nat.zero_add]

/-- After a run over all lines, only an open sample can be at fault. -/
theorem samplesOfLines_of_runs {records : List Record}
    (h : Runs .outside (lines.map marker.symbol) state records) :
    marker.samplesOfLines file lines =
      match state.open? with
      | none => .ok records
      | some r => .error (.markup (.violation (.unclosedSample r.id)) file lines.length) := by
  have hscan : marker.samplesOfLines file (lines ++ []) = _ := samplesOfLines_append h []
  rw [List.append_nil] at hscan
  rw [hscan]
  cases state <;> simp [scanFrom, State.close, State.open?, Except.map]

/-- **A scan fails at one place.** -/
theorem samplesOfLines_eq_error_iff :
    marker.samplesOfLines file lines = .error fault ↔
      ∃ breach n, marker.FailsAt lines breach n ∧ fault = .markup breach file n := by
  constructor
  · intro h
    rcases exists_of_scanFrom_eq_error h with
      ⟨left, line, right, state, records, breach, rfl, hrun, hbroken, rfl⟩ |
        ⟨state, records, breach, hrun, hclose, rfl⟩
    · exact ⟨breach, _, .broken hrun hbroken, by rw [Nat.zero_add]⟩
    · obtain ⟨r, hopen, rfl⟩ := close_eq_error_iff.mp hclose
      exact ⟨_, _, .unclosed hrun hopen, by rw [Nat.zero_add]⟩
  · rintro ⟨breach, n, hfails, rfl⟩
    cases hfails with
    | broken run step =>
        rename_i before after line state records
        rw [samplesOfLines_append run, scanFrom, step]
        rfl
    | unclosed run hopen =>
        rw [samplesOfLines_of_runs run, Option.mem_def.mp hopen]

/-- No line breaks a rule: the scan succeeds, or it ends with a sample open. -/
def Marker.Unbroken (marker : Marker) (file : Text) (lines : List Text) : Prop :=
  (∃ records, marker.samplesOfLines file lines = .ok records) ∨
    ∃ id, marker.samplesOfLines file lines =
      .error (.markup (.violation (.unclosedSample id)) file lines.length)

theorem unbroken_of_runs {records : List Record} (file : Text)
    (h : Runs .outside (lines.map marker.symbol) state records) : marker.Unbroken file lines := by
  unfold Marker.Unbroken
  rw [samplesOfLines_of_runs h]
  cases state.open? with
  | none => exact .inl ⟨records, rfl⟩
  | some r => exact .inr ⟨r.id, rfl⟩

theorem unbroken_take_of_runs {records : List Record} (file : Text)
    (h : Runs .outside (lines.map marker.symbol) state records) (k : Nat) :
    marker.Unbroken file (lines.take k) := by
  rw [← List.take_append_drop k lines, List.map_append] at h
  obtain ⟨_, _, _, htaken, -, -⟩ := h.exists_of_append
  exact unbroken_of_runs file htaken

/-! ### The open sample -/

def Symbol.label? : Symbol → Option Label
  | .beginSample label => some label
  | _ => none

theorem Moves.label_of_open {symbol : Symbol} {next : State} {finished : Option Record} {r : Record}
    (h : Moves state symbol next finished) (hr : r ∈ next.open?) :
    symbol = .beginSample r.label ∨ symbol.label? = none ∧ ∃ r' ∈ state.open?, r'.label = r.label := by
  cases h <;> simp only [State.open?, Option.mem_def, Option.some.injEq, reduceCtorEq] at hr
  case beginSample label =>
    subst hr
    exact .inl rfl
  case visibleNote r' n =>
    subst hr
    refine .inr ⟨rfl, r', rfl, ?_⟩
    cases n <;> rfl
  case beginHidden r' => exact .inr ⟨rfl, r', rfl, hr ▸ rfl⟩
  case hiddenNote r' n =>
    subst hr
    refine .inr ⟨rfl, r', rfl, ?_⟩
    cases n <;> rfl
  case endHidden r' => exact .inr ⟨rfl, r', rfl, hr ▸ rfl⟩

/-- The sample that is open after a run was begun last in it, or it was open before and none was begun. -/
theorem Runs.label_of_open {word : List Symbol} {records : List Record} {r : Record}
    (h : Runs first word last records) (hr : r ∈ last.open?) :
    (∃ before after, word = before ++ .beginSample r.label :: after ∧ ∀ symbol ∈ after, symbol.label? = none) ∨
      (∀ symbol ∈ word, symbol.label? = none) ∧ ∃ r' ∈ first.open?, r'.label = r.label := by
  induction h with
  | nil state => exact .inr ⟨by simp, r, hr, rfl⟩
  | cons hmove _ ih =>
      rename_i symbol word _ _ _
      rcases ih hr with ⟨before, after, rfl, hafter⟩ | ⟨hword, r', hr', hlabel⟩
      · exact .inl ⟨symbol :: before, after, rfl, hafter⟩
      · rcases hmove.label_of_open hr' with hbegin | ⟨hsymbol, r'', hr'', hlabel'⟩
        · refine .inl ⟨[], word, ?_, hword⟩
          rw [hbegin, hlabel, List.nil_append]
        · exact .inr ⟨List.forall_mem_cons.mpr ⟨hsymbol, hword⟩, r'', hr'', hlabel'.trans hlabel⟩

/-- The line that begins the open sample is the last one that begins any. -/
theorem exists_last_begin_of_runs {records : List Record} {r : Record}
    (h : Runs .outside (lines.map marker.symbol) state records) (hr : r ∈ state.open?) :
    ∃ before line after, lines = before ++ line :: after ∧ marker.classify line = .beginSample r.label ∧
      ∀ later ∈ after, ∀ label, marker.classify later ≠ .beginSample label := by
  rcases h.label_of_open hr with ⟨left, right, hword, hright⟩ | ⟨-, r', hr', -⟩
  · obtain ⟨before, rest, rfl, rfl, hrest⟩ := List.map_eq_append_iff.mp hword
    obtain ⟨line, after, rfl, hline, rfl⟩ := List.map_eq_cons_iff.mp hrest
    refine ⟨before, line, after, rfl, symbol_eq_beginSample_iff.mp hline, ?_⟩
    intro later hlater label hlabel
    have hnone := hright _ (List.mem_map_of_mem hlater)
    rw [symbol_eq_beginSample_iff.mpr hlabel] at hnone
    cases hnone
  · cases hr'

/-! ### Faults of texts -/

theorem Marker.FailsAt.bounds {n : Nat} (h : marker.FailsAt lines breach n) : 1 ≤ n ∧ n ≤ lines.length := by
  cases h with
  | broken run step =>
      rw [List.length_append, List.length_cons]
      omega
  | unclosed run hopen =>
      refine ⟨?_, le_rfl⟩
      obtain ⟨before, line, after, rfl, -⟩ := exists_last_begin_of_runs run hopen
      rw [List.length_append, List.length_cons]
      omega

/-- A line that breaks a rule does so after sound lines and before any others. -/
theorem Marker.FailsAt.of_ne_unclosed {n : Nat} (h : marker.FailsAt lines breach n)
    (hbreach : ∀ id, breach ≠ .violation (.unclosedSample id)) (file : Text) :
    marker.Unbroken file (lines.take (n - 1)) ∧
      ∀ others : List Text, others.take n = lines.take n → marker.FailsAt others breach n := by
  cases h with
  | broken run step =>
      rename_i before after line state records
      refine ⟨?_, fun others hothers => ?_⟩
      · rw [Nat.add_sub_cancel, List.take_left]
        exact unbroken_of_runs file run
      · rw [List.take_length_add_append, List.take_succ_cons, List.take_zero] at hothers
        rw [← List.take_append_drop (before.length + 1) others, hothers, List.append_assoc,
          List.singleton_append]
        exact .broken run step
  | unclosed run hopen => exact absurd rfl (hbreach _)

theorem Marker.FailsAt.of_unclosed {n : Nat} {id : Text}
    (h : marker.FailsAt lines (.violation (.unclosedSample id)) n) (file : Text) :
    n = lines.length ∧ (∀ k, marker.Unbroken file (lines.take k)) ∧
      ∃ before line after label, lines = before ++ line :: after ∧
        marker.classify line = .beginSample label ∧ label.id = id ∧
        ∀ later ∈ after, ∀ label, marker.classify later ≠ .beginSample label := by
  cases h with
  | broken run step => exact absurd rfl (ne_unclosed_of_step step id)
  | unclosed run hopen =>
      obtain ⟨before, line, after, hlines, hline, hafter⟩ := exists_last_begin_of_runs run hopen
      exact ⟨rfl, unbroken_take_of_runs file run, before, line, after, _, hlines, hline, rfl, hafter⟩

/-- **Faults have a place.** A fault of a text names the text and one of its lines. Unless it is that of an
unclosed sample, the lines before it are sound, and every text that starts with the lines up to it has the same
fault. An unclosed sample is reported at the last line, all lines being sound, and it is the sample begun last. -/
theorem fault_of_samples (marker : Marker) (file : Text) {text : Text} {fault : Fault}
    (h : marker.samples file text = .error fault) :
    ∃ breach n, fault = .markup breach file n ∧ 1 ≤ n ∧ n ≤ text.lines.length ∧
      ((∀ id, breach ≠ .violation (.unclosedSample id)) →
        marker.Unbroken file (text.lines.take (n - 1)) ∧
          ∀ other : Text, other.lines.take n = text.lines.take n → marker.samples file other = .error fault) ∧
      ∀ id, breach = .violation (.unclosedSample id) →
        n = text.lines.length ∧ (∀ k, marker.Unbroken file (text.lines.take k)) ∧
          ∃ before line after label, text.lines = before ++ line :: after ∧
            marker.classify line = .beginSample label ∧ label.id = id ∧
            ∀ later ∈ after, ∀ label, marker.classify later ≠ .beginSample label := by
  obtain ⟨breach, n, hfails, rfl⟩ := samplesOfLines_eq_error_iff.mp h
  obtain ⟨hfirst, hlast⟩ := hfails.bounds
  refine ⟨breach, n, rfl, hfirst, hlast, fun hbreach => ?_, ?_⟩
  · obtain ⟨hbefore, hsame⟩ := hfails.of_ne_unclosed hbreach file
    exact ⟨hbefore, fun other hother => samplesOfLines_eq_error_iff.mpr ⟨breach, n, hsame _ hother, rfl⟩⟩
  · rintro id rfl
    exact hfails.of_unclosed file

/-- A sample that is begun before the one before it has ended. -/
def nestedText : Text := "a();\n//BEGIN_SAMPLE:A.b\n//BEGIN_SAMPLE:A.c\nb();".toList

/-- A sample with a hidden region that does not end either. -/
def unclosedText : Text := "//BEGIN_SAMPLE:A.b\r\n//BEGIN_HIDDEN\r\nb();\r\n".toList

theorem fault_of_samples_nested :
    Marker.slashes.samples "A.java".toList nestedText =
        .error (.markup (.violation .nestedSample) "A.java".toList 3) ∧
      Marker.slashes.Unbroken "A.java".toList (nestedText.lines.take 2) ∧
      Marker.slashes.samples "A.java".toList unclosedText =
        .error (.markup (.violation (.unclosedSample ['b'])) "A.java".toList unclosedText.lines.length) := by
  have hnested : Marker.slashes.samples "A.java".toList nestedText =
      .error (.markup (.violation .nestedSample) "A.java".toList 3) := by decide +kernel
  have hunclosed : Marker.slashes.samples "A.java".toList unclosedText =
      .error (.markup (.violation (.unclosedSample ['b'])) "A.java".toList 3) := by decide +kernel
  obtain ⟨breach, n, hbreach, -, -, hbroken, -⟩ := fault_of_samples .slashes _ hnested
  obtain ⟨rfl, -, rfl⟩ := Fault.markup.inj hbreach
  obtain ⟨breach, n, hbreach, -, -, -, hopen⟩ := fault_of_samples .slashes _ hunclosed
  obtain ⟨rfl, -, rfl⟩ := Fault.markup.inj hbreach
  obtain ⟨hlines, -⟩ := hopen ['b'] rfl
  exact ⟨hnested, (hbroken (by simp)).1, hlines ▸ hunclosed⟩

end Exemplar.Markup
