import Exemplar.Proofs.Markup.Run

/-!
# The grammar of marked-up files

A file is code and samples; a sample is notes and hidden regions between its two tags; a hidden region is
notes between its two tags. The scanner accepts exactly the words of this grammar whose samples are complete,
and finds one record for each sample.
-/

namespace Exemplar.Markup

inductive Piece
  | line (n : Note)
  | hidden (notes : List Note)

structure Block where
  label : Label
  pieces : List Piece

inductive Section
  | code (line : Text)
  | sample (block : Block)

namespace Note

def code? : Note → Option Text
  | code line => some line
  | _ => none

def title? : Note → Option Text
  | title text => some text
  | _ => none

def description? : Note → Option Text
  | description text => some text
  | _ => none

end Note

namespace Piece

def word : Piece → List Symbol
  | line n => [.note n]
  | hidden notes => .beginHidden :: notes.map .note ++ [.endHidden]

def notes : Piece → List Note
  | line n => [n]
  | hidden notes => notes

def visible : Piece → List Note
  | line n => [n]
  | hidden _ => []

def addTo (r : Record) : Piece → Record
  | line n => n.inVisible r
  | hidden notes => notes.foldl Note.inHidden r

end Piece

/-- The last title among pieces; titles in hidden regions count. -/
def lastTitle? (pieces : List Piece) : Option Text :=
  ((pieces.flatMap Piece.notes).filterMap Note.title?).getLast?

def lastDescription? (pieces : List Piece) : Option Text :=
  ((pieces.flatMap Piece.notes).filterMap Note.description?).getLast?

def visibleCode (pieces : List Piece) : List Text :=
  (pieces.flatMap Piece.visible).filterMap Note.code?

namespace Block

def word (b : Block) : List Symbol :=
  .beginSample b.label :: b.pieces.flatMap Piece.word ++ [.endSample]

def record (b : Block) : Record where
  label := b.label
  title := (lastTitle? b.pieces).getD []
  description := (lastDescription? b.pieces).getD []
  codeLines := visibleCode b.pieces

def Complete (b : Block) : Prop :=
  b.record.title ≠ [] ∧ b.record.description ≠ [] ∧ b.record.code ≠ []

end Block

namespace Section

def word : Section → List Symbol
  | code line => [.note (.code line)]
  | sample block => block.word

def block? : Section → Option Block
  | code _ => none
  | sample block => some block

end Section

def blocks (sections : List Section) : List Block := sections.filterMap Section.block?

theorem blocks_cons_sample (block : Block) (sections : List Section) :
    blocks (.sample block :: sections) = block :: blocks sections := rfl

/-! ### What pieces add to a record -/

theorem foldl_inHidden (notes : List Note) (r : Record) :
    notes.foldl Note.inHidden r =
      { r with
        title := (notes.filterMap Note.title?).getLast?.getD r.title
        description := (notes.filterMap Note.description?).getLast?.getD r.description } := by
  induction notes generalizing r with
  | nil => rfl
  | cons n notes ih =>
      rw [List.foldl_cons, ih]
      cases n <;> simp only [Note.inHidden, Note.title?, Note.description?, List.filterMap_cons,
        List.getLast?_cons, Option.getD_some]

theorem addTo_eq (r : Record) (p : Piece) :
    p.addTo r =
      { r with
        title := (p.notes.filterMap Note.title?).getLast?.getD r.title
        description := (p.notes.filterMap Note.description?).getLast?.getD r.description
        codeLines := r.codeLines ++ p.visible.filterMap Note.code? } := by
  cases p with
  | line n => cases n <;> simp [Piece.addTo, Piece.notes, Piece.visible, Note.inVisible,
      Record.withLine, Note.title?, Note.description?, Note.code?]
  | hidden notes => simp [Piece.addTo, Piece.notes, Piece.visible, foldl_inHidden]

/-- Pieces replace the title by their last title, likewise the description, and add their visible code. -/
theorem foldl_addTo (pieces : List Piece) (r : Record) :
    pieces.foldl Piece.addTo r =
      { r with
        title := (lastTitle? pieces).getD r.title
        description := (lastDescription? pieces).getD r.description
        codeLines := r.codeLines ++ visibleCode pieces } := by
  induction pieces generalizing r with
  | nil => simp [lastTitle?, lastDescription?, visibleCode]
  | cons p pieces ih =>
      rw [List.foldl_cons, ih, addTo_eq]
      simp only [lastTitle?, lastDescription?, visibleCode, List.flatMap_cons, List.filterMap_append,
        List.getLast?_append, Option.getD_or, List.append_assoc]

theorem Block.record_eq_foldl (b : Block) :
    b.record = b.pieces.foldl Piece.addTo (.new b.label) := by
  rw [foldl_addTo]
  rfl

theorem missing?_eq_none_iff {r : Record} :
    r.missing? = none ↔ r.title ≠ [] ∧ r.description ≠ [] ∧ r.code ≠ [] := by
  unfold Record.missing?
  split
  · simp_all
  · split
    · simp_all
    · split <;> simp_all

/-! ### Words of the grammar have runs -/

theorem runs_notes (notes : List Note) (r : Record) :
    Runs (.hidden r) (notes.map .note) (.hidden (notes.foldl Note.inHidden r)) [] := by
  induction notes generalizing r with
  | nil => exact .nil _
  | cons n notes ih => exact .cons (.hiddenNote r n) (ih (n.inHidden r))

theorem runs_piece (p : Piece) (r : Record) :
    Runs (.visible r) p.word (.visible (p.addTo r)) [] := by
  cases p with
  | line n => exact .cons (.visibleNote r n) (.nil _)
  | hidden notes =>
      exact .cons (.beginHidden r) ((runs_notes notes r).append (.cons (.endHidden _) (.nil _)))

theorem runs_pieces (pieces : List Piece) (r : Record) :
    Runs (.visible r) (pieces.flatMap Piece.word) (.visible (pieces.foldl Piece.addTo r)) [] := by
  induction pieces generalizing r with
  | nil => exact .nil _
  | cons p pieces ih =>
      rw [List.flatMap_cons]
      exact (runs_piece p r).append (ih (p.addTo r))

theorem runs_block {b : Block} (hb : b.Complete) : Runs .outside b.word .outside [b.record] := by
  have hmissing : b.record.missing? = none := missing?_eq_none_iff.mpr hb
  have hpieces := runs_pieces b.pieces (.new b.label)
  rw [← b.record_eq_foldl] at hpieces
  exact .cons (.beginSample b.label) (hpieces.append (.cons (.endSample _ hmissing) (.nil _)))

theorem runs_sections {sections : List Section} (h : ∀ b ∈ blocks sections, b.Complete) :
    Runs .outside (sections.flatMap Section.word) .outside ((blocks sections).map Block.record) := by
  induction sections with
  | nil => exact .nil _
  | cons s sections ih =>
      rw [List.flatMap_cons]
      cases s with
      | code line => exact .cons (.skip line) (ih h)
      | sample block =>
          rw [blocks_cons_sample] at h ⊢
          obtain ⟨hblock, hrest⟩ := List.forall_mem_cons.mp h
          exact (runs_block hblock).append (ih hrest)

/-! ### Runs come from words of the grammar -/

/-- A run within a sample that finishes nothing and ends in the open reads pieces, after the rest of a
hidden region if it starts in one. -/
theorem exists_pieces_of_runs {word : List Symbol} {r : Record} :
    (∀ start, Runs (.visible start) word (.visible r) [] →
      ∃ pieces : List Piece, word = pieces.flatMap Piece.word ∧
        r = pieces.foldl Piece.addTo start) ∧
    (∀ start, Runs (.hidden start) word (.visible r) [] →
      ∃ (notes : List Note) (pieces : List Piece),
        word = notes.map .note ++ .endHidden :: pieces.flatMap Piece.word ∧
          r = pieces.foldl Piece.addTo (notes.foldl Note.inHidden start)) := by
  induction word with
  | nil =>
      constructor
      · intro start h
        cases h
        exact ⟨[], rfl, rfl⟩
      · intro start h
        cases h
  | cons symbol word ih =>
      constructor
      · intro start h
        obtain ⟨next, finished, later, hmove, hrest, hnil⟩ := runs_cons_iff.mp h
        obtain ⟨hfinished, rfl⟩ := List.append_eq_nil_iff.mp hnil.symm
        cases hmove with
        | visibleNote _ n =>
            obtain ⟨pieces, rfl, rfl⟩ := ih.1 _ hrest
            exact ⟨.line n :: pieces, rfl, rfl⟩
        | beginHidden _ =>
            obtain ⟨notes, pieces, rfl, rfl⟩ := ih.2 _ hrest
            exact ⟨.hidden notes :: pieces, by simp [Piece.word], rfl⟩
        | endSample _ _ => simp at hfinished
      · intro start h
        obtain ⟨next, finished, later, hmove, hrest, hnil⟩ := runs_cons_iff.mp h
        obtain ⟨-, rfl⟩ := List.append_eq_nil_iff.mp hnil.symm
        cases hmove with
        | hiddenNote _ n =>
            obtain ⟨notes, pieces, rfl, rfl⟩ := ih.2 _ hrest
            exact ⟨n :: notes, pieces, rfl, rfl⟩
        | endHidden _ =>
            obtain ⟨pieces, rfl, rfl⟩ := ih.1 _ hrest
            exact ⟨[], pieces, rfl, rfl⟩

theorem runs_visible_iff {word : List Symbol} {start r : Record} :
    Runs (.visible start) word (.visible r) [] ↔
      ∃ pieces : List Piece, word = pieces.flatMap Piece.word ∧
        r = pieces.foldl Piece.addTo start := by
  constructor
  · exact fun h => exists_pieces_of_runs.1 start h
  · rintro ⟨pieces, rfl, rfl⟩
    exact runs_pieces pieces start

/-- A run that starts within a sample and ends outside has a first place where a sample ends. -/
theorem exists_endSample_of_runs {word : List Symbol} {state : State} {records : List Record}
    (hopen : state ≠ .outside) (h : Runs state word .outside records) :
    ∃ body rest r later, word = body ++ .endSample :: rest ∧ Runs state body (.visible r) [] ∧
      r.missing? = none ∧ Runs .outside rest .outside later ∧ records = r :: later := by
  induction word generalizing state records with
  | nil =>
      obtain ⟨rfl, -⟩ := runs_nil_iff.mp h
      exact absurd rfl hopen
  | cons symbol word ih =>
      obtain ⟨next, finished, later, hmove, hrest, rfl⟩ := runs_cons_iff.mp h
      have hstay (hnext : next ≠ .outside) (hnone : finished = none) :
          ∃ body rest r others, symbol :: word = body ++ .endSample :: rest ∧
            Runs state body (.visible r) [] ∧ r.missing? = none ∧
            Runs .outside rest .outside others ∧ finished.toList ++ later = r :: others := by
        subst hnone
        obtain ⟨body, rest, r, others, rfl, hbody, hr, hothers, rfl⟩ := ih hnext hrest
        exact ⟨symbol :: body, rest, r, others, rfl, .cons hmove hbody, hr, hothers, rfl⟩
      cases hmove with
      | skip line => exact absurd rfl hopen
      | beginSample label => exact absurd rfl hopen
      | visibleNote r n => exact hstay (by simp) rfl
      | beginHidden r => exact hstay (by simp) rfl
      | hiddenNote r n => exact hstay (by simp) rfl
      | endHidden r => exact hstay (by simp) rfl
      | endSample r hr => exact ⟨[], word, r, later, rfl, .nil _, hr, hrest, rfl⟩

theorem exists_sections_of_runs {word : List Symbol} {records : List Record}
    (h : Runs .outside word .outside records) :
    ∃ sections : List Section, word = sections.flatMap Section.word ∧
      (∀ b ∈ blocks sections, b.Complete) ∧ records = (blocks sections).map Block.record := by
  -- The rest after a whole sample is shorter, but no tail of the word by one symbol.
  induction hlength : word.length using Nat.strongRecOn generalizing word records with
  | ind n ih =>
    cases word with
    | nil =>
        obtain ⟨-, rfl⟩ := runs_nil_iff.mp h
        exact ⟨[], rfl, by simp [blocks], rfl⟩
    | cons symbol word =>
        obtain ⟨next, finished, later, hmove, hrest, rfl⟩ := runs_cons_iff.mp h
        cases hmove with
        | skip line =>
            obtain ⟨sections, rfl, hcomplete, rfl⟩ := ih word.length (by simp [← hlength]) hrest rfl
            exact ⟨.code line :: sections, rfl, hcomplete, rfl⟩
        | beginSample label =>
            obtain ⟨body, rest, r, others, rfl, hbody, hr, hothers, rfl⟩ :=
              exists_endSample_of_runs (by simp) hrest
            obtain ⟨pieces, rfl, rfl⟩ := runs_visible_iff.mp hbody
            obtain ⟨sections, rfl, hcomplete, rfl⟩ :=
              ih rest.length (by simp [← hlength]; omega) hothers rfl
            refine ⟨.sample ⟨label, pieces⟩ :: sections, ?_, ?_, ?_⟩
            · simp [Section.word, Block.word]
            · rw [blocks_cons_sample]
              refine List.forall_mem_cons.mpr ⟨?_, hcomplete⟩
              exact missing?_eq_none_iff.mp (Block.record_eq_foldl ⟨label, pieces⟩ ▸ hr)
            · rw [blocks_cons_sample, List.map_cons, Block.record_eq_foldl]
              rfl

theorem runs_outside_iff {word : List Symbol} {records : List Record} :
    Runs .outside word .outside records ↔
      ∃ sections : List Section, word = sections.flatMap Section.word ∧
        (∀ b ∈ blocks sections, b.Complete) ∧ records = (blocks sections).map Block.record := by
  constructor
  · exact exists_sections_of_runs
  · rintro ⟨sections, rfl, hcomplete, rfl⟩
    exact runs_sections hcomplete

/-! ### Where records come from -/

theorem Piece.note_mem_word {p : Piece} {n : Note} (h : n ∈ p.notes) : .note n ∈ p.word := by
  cases p with
  | line m =>
      obtain rfl : n = m := List.mem_singleton.mp h
      exact List.mem_singleton_self _
  | hidden notes =>
      have h : n ∈ notes := h
      simpa [Piece.word] using h

theorem Block.note_mem_word {b : Block} {n : Note} (h : n ∈ b.pieces.flatMap Piece.notes) :
    .note n ∈ b.word := by
  obtain ⟨p, hp, hn⟩ := List.mem_flatMap.mp h
  have hpieces : Symbol.note n ∈ b.pieces.flatMap Piece.word :=
    List.mem_flatMap.mpr ⟨p, hp, Piece.note_mem_word hn⟩
  simp [Block.word, hpieces]

/-- The last text of a kind of notes is the text of one of them, unless it is empty. -/
theorem Block.last_mem_word {b : Block} {pick : Note → Option Text} {make : Text → Note} {last : Text}
    (hpick : ∀ n t, pick n = some t → n = make t)
    (hlast : ((b.pieces.flatMap Piece.notes).filterMap pick).getLast?.getD [] = last)
    (hne : last ≠ []) : .note (make last) ∈ b.word := by
  cases hfound : ((b.pieces.flatMap Piece.notes).filterMap pick).getLast? with
  | none => exact absurd (by simpa [hfound] using hlast.symm) hne
  | some text =>
      obtain ⟨n, hn, hnote⟩ := List.mem_filterMap.mp (List.mem_of_getLast? hfound)
      obtain rfl : text = last := by simpa [hfound] using hlast
      exact hpick n text hnote ▸ Block.note_mem_word hn

theorem Block.code_mem_word {b : Block} {line : Text} (h : line ∈ b.record.codeLines) :
    .note (.code line) ∈ b.word := by
  obtain ⟨n, hn, hcode⟩ := List.mem_filterMap.mp h
  obtain rfl : n = .code line := by
    cases n <;> simp_all [Note.code?]
  obtain ⟨p, hp, hvisible⟩ := List.mem_flatMap.mp hn
  cases p with
  | line m => exact Block.note_mem_word (List.mem_flatMap.mpr ⟨_, hp, hvisible⟩)
  | hidden notes => cases hvisible

/-- Each record of a run is that of a complete sample in its word. -/
theorem exists_block_of_mem_records {word : List Symbol} {records : List Record} {r : Record}
    (h : Runs .outside word .outside records) (hr : r ∈ records) :
    ∃ b : Block, r = b.record ∧ b.Complete ∧ b.word ⊆ word := by
  obtain ⟨sections, rfl, hcomplete, rfl⟩ := runs_outside_iff.mp h
  obtain ⟨b, hb, rfl⟩ := List.mem_map.mp hr
  obtain ⟨s, hs, hblock⟩ := List.mem_filterMap.mp hb
  obtain rfl : s = .sample b := by
    cases s <;> simp_all [Section.block?]
  exact ⟨b, rfl, hcomplete b hb, fun symbol hsymbol => List.mem_flatMap.mpr ⟨_, hs, hsymbol⟩⟩

/-- Label, title, description and code lines of a record stand in the word as they are. -/
theorem symbols_of_mem_records {word : List Symbol} {records : List Record} {r : Record}
    (h : Runs .outside word .outside records) (hr : r ∈ records) :
    .beginSample r.label ∈ word ∧ .note (.title r.title) ∈ word ∧
      .note (.description r.description) ∈ word ∧ ∀ line ∈ r.codeLines, .note (.code line) ∈ word := by
  obtain ⟨b, rfl, ⟨htitle, hdescription, -⟩, hword⟩ := exists_block_of_mem_records h hr
  refine ⟨hword ?_, hword (Block.last_mem_word ?_ rfl htitle),
    hword (Block.last_mem_word ?_ rfl hdescription), fun line hline => hword (Block.code_mem_word hline)⟩
  · simp [Block.word, Block.record]
  · rintro (_ | _ | _) t hpick <;> simp_all [Note.title?]
  · rintro (_ | _ | _) t hpick <;> simp_all [Note.description?]

/-- Label, title and description of a sample that a scan finds come from tags of the text. -/
theorem exists_lines_of_mem_samples {marker : Marker} {file text : Text} {records : List Record}
    {r : Record} (h : marker.samples file text = .ok records) (hr : r ∈ records) :
    (∃ line ∈ text.lines, marker.classify line = .beginSample r.label) ∧
      (∃ line ∈ text.lines, marker.classify line = .title r.title) ∧
        ∃ line ∈ text.lines, marker.classify line = .description r.description := by
  obtain ⟨hlabel, htitle, hdescription, -⟩ := symbols_of_mem_records (scanFrom_eq_ok_iff.mp h) hr
  obtain ⟨first, hfirst, hlabel⟩ := List.mem_map.mp hlabel
  obtain ⟨second, hsecond, htitle⟩ := List.mem_map.mp htitle
  obtain ⟨third, hthird, hdescription⟩ := List.mem_map.mp hdescription
  exact ⟨⟨first, hfirst, symbol_eq_beginSample_iff.mp hlabel⟩,
    ⟨second, hsecond, symbol_eq_title_iff.mp htitle⟩, third, hthird, symbol_eq_description_iff.mp hdescription⟩

/-- The code lines of a sample are lines of the text that are no tags. -/
theorem classify_of_mem_codeLines {marker : Marker} {file text line : Text} {records : List Record}
    {r : Record} (h : marker.samples file text = .ok records) (hr : r ∈ records) (hline : line ∈ r.codeLines) :
    line ∈ text.lines ∧ marker.classify line = .code := by
  obtain ⟨-, -, -, hcode⟩ := symbols_of_mem_records (scanFrom_eq_ok_iff.mp h) hr
  obtain ⟨found, hfound, hsymbol⟩ := List.mem_map.mp (hcode line hline)
  obtain ⟨hclass, rfl⟩ := symbol_eq_code_iff.mp hsymbol
  exact ⟨hfound, hclass⟩

/-- A sample that a scan finds has all its parts. -/
theorem complete_of_mem_samples {marker : Marker} {file text : Text} {records : List Record} {r : Record}
    (h : marker.samples file text = .ok records) (hr : r ∈ records) :
    r.title ≠ [] ∧ r.description ≠ [] ∧ r.code ≠ [] := by
  obtain ⟨b, rfl, hcomplete, -⟩ := exists_block_of_mem_records (scanFrom_eq_ok_iff.mp h) hr
  exact hcomplete

/-- **The scanner accepts exactly its grammar.** The records are those of the samples, in their order. -/
theorem samples_eq_ok_iff (marker : Marker) (file text : Text) (records : List Record) :
    marker.samples file text = .ok records ↔
      ∃ sections : List Section,
        text.lines.map marker.symbol = sections.flatMap Section.word ∧
          (∀ b ∈ blocks sections, b.Complete) ∧ records = (blocks sections).map Block.record :=
  scanFrom_eq_ok_iff.trans runs_outside_iff

end Exemplar.Markup
