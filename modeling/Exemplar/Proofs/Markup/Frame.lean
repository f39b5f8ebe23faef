import Exemplar.Proofs.Markup.Grammar
import Mathlib.Data.List.Forall2

/-!
# Framed samples

Samples that are written one after another in frames of their own: code, the tags that open the sample, a
body, the tag that ends it, and code again. The bodies and what stands before the first frame are any words.
If a scan finds as many samples as there are frames, then no sample ends in any other place, so that each
frame holds exactly one sample and the word before the frames is code.
-/

namespace Exemplar.Markup

def codeWord (lines : List Text) : List Symbol := lines.map fun line => .note (.code line)

structure Frame where
  before : List Text
  label : Label
  title : Text
  description : Text
  body : List Symbol
  after : List Text

namespace Frame

def word (f : Frame) : List Symbol :=
  codeWord f.before ++ .beginSample f.label :: .note (.title f.title) ::
    .note (.description f.description) :: f.body ++ .endSample :: codeWord f.after

/-- The record at the start of the body. -/
def start (f : Frame) : Record := ⟨f.label, f.title, f.description, []⟩

/-- The body consists of pieces, which make the record complete. -/
def Holds (f : Frame) (r : Record) : Prop :=
  ∃ pieces : List Piece, f.body = pieces.flatMap Piece.word ∧
    r = pieces.foldl Piece.addTo f.start ∧ r.missing? = none

end Frame

/-! ### Code outside of samples -/

theorem countP_codeWord (lines : List Text) : (codeWord lines).countP (· = .endSample) = 0 := by
  simp [codeWord, List.countP_eq_zero]

theorem runs_codeWord (lines : List Text) : Runs .outside (codeWord lines) .outside [] := by
  induction lines with
  | nil => exact .nil _
  | cons line lines ih => exact .cons (.skip line) ih

theorem eq_outside_of_runs_codeWord {lines : List Text} {last : State} {records : List Record}
    (h : Runs .outside (codeWord lines) last records) : last = .outside ∧ records = [] := by
  induction lines generalizing records with
  | nil => exact runs_nil_iff.mp h
  | cons line lines ih =>
      obtain ⟨next, finished, later, hmove, hrest, rfl⟩ := runs_cons_iff.mp h
      cases hmove
      simpa using ih hrest

/-- Outside of samples only code finishes no record. -/
theorem exists_codeWord_of_runs {word : List Symbol} (h : Runs .outside word .outside []) :
    ∃ lines, word = codeWord lines := by
  induction word with
  | nil => exact ⟨[], rfl⟩
  | cons symbol word ih =>
      obtain ⟨next, finished, later, hmove, hrest, hnil⟩ := runs_cons_iff.mp h
      obtain ⟨-, rfl⟩ := List.append_eq_nil_iff.mp hnil.symm
      cases hmove with
      | skip line =>
          obtain ⟨lines, rfl⟩ := ih hrest
          exact ⟨line :: lines, rfl⟩
      | beginSample label =>
          obtain ⟨_, _, _, _, _, _, _, _, hcons⟩ := exists_endSample_of_runs (by simp) hrest
          simp at hcons

/-! ### Frames -/

variable {f : Frame} {frames : List Frame}

theorem Frame.countP_word (f : Frame) :
    f.word.countP (· = .endSample) = f.body.countP (· = .endSample) + 1 := by
  simp [word, List.countP_append, countP_codeWord]

theorem length_le_countP (frames : List Frame) :
    frames.length ≤ (frames.flatMap Frame.word).countP (· = .endSample) := by
  induction frames with
  | nil => simp
  | cons f frames ih =>
      rw [List.flatMap_cons, List.countP_append, f.countP_word, List.length_cons]
      omega

theorem exists_codeWord_of_append {left right : List Symbol} {lines : List Text}
    (h : left ++ right = codeWord lines) : ∃ lines, left = codeWord lines := by
  obtain ⟨before, _, -, hleft, -⟩ := List.map_eq_append_iff.mp h.symm
  exact ⟨before, hleft.symm⟩

/-- A frame holds one sample, and code stands before it, if no sample ends in its body or before it. -/
theorem holds_of_runs {head rest : List Symbol} {records : List Record}
    (hhead : head.countP (· = .endSample) = 0) (hbody : f.body.countP (· = .endSample) = 0)
    (h : Runs .outside (head ++ (f.word ++ rest)) .outside records) :
    (∃ lines, head = codeWord lines) ∧
      ∃ r later, f.Holds r ∧ Runs .outside rest .outside later ∧ records = r :: later := by
  have hword : head ++ (f.word ++ rest) = (head ++ codeWord f.before) ++ .beginSample f.label ::
      .note (.title f.title) :: .note (.description f.description) ::
        (f.body ++ .endSample :: (codeWord f.after ++ rest)) := by
    simp [Frame.word]
  rw [hword] at h
  obtain ⟨_, before, _, hbefore, hopen, rfl⟩ := runs_append_iff.mp h
  obtain rfl : before = [] := by
    apply List.length_eq_zero_iff.mp
    rw [hbefore.length_eq_countP, List.countP_append, hhead, countP_codeWord]
  obtain ⟨_, _, _, hmove, htitle, hopened⟩ := runs_cons_iff.mp hopen
  cases hmove
  obtain ⟨_, hcode⟩ := exists_codeWord_of_runs hbefore
  refine ⟨exists_codeWord_of_append hcode, ?_⟩
  obtain ⟨_, _, _, hmove, hdescription, htitled⟩ := runs_cons_iff.mp htitle
  cases hmove
  obtain ⟨_, _, _, hmove, hinner, hdescribed⟩ := runs_cons_iff.mp hdescription
  cases hmove
  obtain ⟨_, inner, _, hpieces, hend, hsplit⟩ := runs_append_iff.mp hinner
  obtain rfl : inner = [] := List.length_eq_zero_iff.mp (hpieces.length_eq_countP.trans hbody)
  obtain ⟨_, _, _, hmove, hclose, hended⟩ := runs_cons_iff.mp hend
  cases hmove with
  | endSample r hr =>
      obtain ⟨_, _, later, hafter, hrest, hclosed⟩ := runs_append_iff.mp hclose
      obtain ⟨rfl, rfl⟩ := eq_outside_of_runs_codeWord hafter
      obtain ⟨pieces, hword, hrecord⟩ := runs_visible_iff.mp hpieces
      refine ⟨r, later, ⟨pieces, hword, hrecord, hr⟩, hrest, ?_⟩
      simp [hopened, htitled, hdescribed, hsplit, hended, hclosed]

theorem Frame.Holds.runs {r : Record} (h : f.Holds r) : Runs .outside f.word .outside [r] := by
  obtain ⟨pieces, hpieces, rfl, hr⟩ := h
  have hopen : Runs .outside (.beginSample f.label :: .note (.title f.title) ::
      .note (.description f.description) :: f.body) (.visible (pieces.foldl Piece.addTo f.start)) [] := by
    rw [hpieces]
    exact .cons (.beginSample _) (.cons (.visibleNote _ _) (.cons (.visibleNote _ _)
      (runs_pieces pieces f.start)))
  have hclose : Runs (.visible (pieces.foldl Piece.addTo f.start)) (.endSample :: codeWord f.after)
      .outside [pieces.foldl Piece.addTo f.start] :=
    .cons (.endSample _ hr) (runs_codeWord f.after)
  exact ((runs_codeWord f.before).append hopen).append hclose

/-- A body of code makes up the code of the sample. -/
theorem Frame.holds_of_codeWord {lines : List Text} (hbody : f.body = codeWord lines)
    (htitle : f.title ≠ []) (hdescription : f.description ≠ []) (hcode : Text.dedent lines ≠ []) :
    f.Holds { f.start with codeLines := lines } := by
  let pieces : List Piece := lines.map fun line => .line (.code line)
  have hmap {γ : Type} {g : Piece → List γ} {image : Text → γ}
      (hg : ∀ line, g (.line (.code line)) = [image line]) : pieces.flatMap g = lines.map image := by
    rw [List.flatMap_map, List.map_eq_flatMap]
    exact congrArg (lines.flatMap ·) (funext hg)
  have hword : pieces.flatMap Piece.word = codeWord lines := hmap fun _ => rfl
  have hnotes : pieces.flatMap Piece.notes = lines.map .code := hmap fun _ => rfl
  have hnone : lastTitle? pieces = none ∧ lastDescription? pieces = none := by
    unfold lastTitle? lastDescription?
    rw [hnotes, List.filterMap_map, List.filterMap_map]
    exact ⟨by simp [Function.comp_def, Note.title?], by simp [Function.comp_def, Note.description?]⟩
  have hvisible : visibleCode pieces = lines := by
    have hcodes : pieces.flatMap Piece.visible = lines.map .code := hmap fun _ => rfl
    rw [visibleCode, hcodes, List.filterMap_map]
    simp [Function.comp_def, Note.code?]
  refine ⟨pieces, hbody.trans hword.symm, ?_, ?_⟩
  · rw [foldl_addTo, hnone.1, hnone.2, hvisible]
    rfl
  · exact missing?_eq_none_iff.mpr ⟨htitle, hdescription, hcode⟩

/-- As many records as frames: the head is code and each frame holds one of the records. -/
theorem runs_frames_iff {head : List Symbol} {tail : List Text} {records : List Record} :
    Runs .outside (head ++ frames.flatMap Frame.word ++ codeWord tail) .outside records ∧
        records.length = frames.length ↔
      (∃ lines, head = codeWord lines) ∧ List.Forall₂ Frame.Holds frames records := by
  constructor
  · rintro ⟨h, hlength⟩
    induction frames generalizing head records with
    | nil =>
        obtain rfl : records = [] := List.length_eq_zero_iff.mp hlength
        obtain ⟨lines, hlines⟩ := exists_codeWord_of_runs h
        rw [List.flatMap_nil, List.append_nil] at hlines
        exact ⟨exists_codeWord_of_append hlines, .nil⟩
    | cons f frames ih =>
        have hcount := h.length_eq_countP
        have hle := length_le_countP frames
        rw [List.flatMap_cons, List.countP_append, List.countP_append, List.countP_append,
          f.countP_word, countP_codeWord, hlength, List.length_cons] at hcount
        have hhead : head.countP (· = .endSample) = 0 := by omega
        have hbody : f.body.countP (· = .endSample) = 0 := by omega
        rw [List.flatMap_cons, List.append_assoc, List.append_assoc] at h
        obtain ⟨hcode, r, later, hr, hrest, rfl⟩ := holds_of_runs hhead hbody h
        obtain ⟨-, hlater⟩ := @ih [] _ hrest (by simpa using hlength)
        exact ⟨hcode, .cons hr hlater⟩
  · rintro ⟨⟨lines, rfl⟩, h⟩
    refine ⟨?_, h.length_eq.symm⟩
    have hframes : Runs .outside (frames.flatMap Frame.word) .outside records := by
      induction h with
      | nil => exact .nil _
      | cons hf _ ih => exact hf.runs.append ih
    simpa using ((runs_codeWord lines).append hframes).append (runs_codeWord tail)

end Exemplar.Markup
