import Exemplar.Proofs.Markup.Frame
import Exemplar.Proofs.Service.CodeLines
import Exemplar.Proofs.Service.Methods
import Exemplar.Proofs.Service.SingleLine

/-!
# Reading a class back

The source of a class is scanned like any other file. If the ids of its examples keep to a line and have
no dot, every method is a frame around its body, and what the scan finds is settled by the lines before the
methods and by the bodies.
-/

namespace Exemplar.Service

open Markup (Frame Marker Piece Runs codeWord)
open Text (trimStart trimEnd isBlank)

/-- The lines that written lines are read back as. -/
def printed (lines : List Text) : List Text := lines.flatMap fun line => Text.lines (line ++ ['\n'])

theorem printed_append (left right : List Text) : printed (left ++ right) = printed left ++ printed right :=
  List.flatMap_append

theorem lines_of_classSource {s : Service} {source : Text} (h : s.classSource = .ok source) :
    ∃ lines, s.classLines = .ok lines ∧ source.lines = printed lines := by
  obtain ⟨lines, hlines, rfl⟩ := map_eq_ok_iff.mp h
  exact ⟨lines, hlines, Text.lines_flatMap lines⟩

/-- The word of lines as they are read back. -/
def word (lines : List Text) : List Markup.Symbol := (printed lines).map Marker.slashes.symbol

theorem word_append (left right : List Text) : word (left ++ right) = word left ++ word right := by
  rw [word, printed_append, List.map_append]
  rfl

theorem word_cons (line : Text) (lines : List Text) : word (line :: lines) = word [line] ++ word lines :=
  word_append [line] lines

theorem word_of_codeLines {lines : List Text} (h : ∀ line ∈ lines, CodeLine line) :
    word lines = codeWord lines := by
  induction lines with
  | nil => rfl
  | cons line lines ih =>
      obtain ⟨hline, hlines⟩ := List.forall_mem_cons.mp h
      rw [word_cons, ih hlines, word, printed, List.flatMap_singleton, hline.lines_eq,
        List.map_singleton, hline.symbol_eq]
      rfl

theorem word_singleton {line : Text} (h : '\n' ∉ line) :
    word [line] = [(Marker.slashes.classify line).symbol (Text.chomp line)] := by
  rw [word, printed, List.flatMap_singleton, Text.lines_single h, List.map_singleton, Marker.symbol,
    Markup.classify_chomp]

theorem feed_not_mem_tagName (s : Service) : '\n' ∉ s.tagName := by
  simp [tagName, classSafe, Text.isBlank]

/-! ### Methods as frames -/

/-- An id that a tag can carry. -/
structure ReadableId (id : Text) : Prop where
  ne_nil : id ≠ []
  dot_not_mem : '.' ∉ id
  feed_not_mem : '\n' ∉ id
  trimEnd_eq : trimEnd id = id

variable {s : Service}

def Method.frame (m : Method s) (hname : s.tagName ≠ []) (hid : ReadableId m.id) : Frame where
  before := [[], entryLine m.operationName m.number]
  label := ⟨s.tagName, m.id, hname, hid.ne_nil⟩
  title := trimEnd m.title
  description := trimEnd m.description
  body := word (s.bodyLines m.operation m.chain)
  after := [closeLine]

theorem feed_not_mem_operationName {n : NumberedExample} (h : '\n' ∉ n.id) :
    '\n' ∉ n.operationName := by
  intro hfeed
  apply h
  unfold NumberedExample.id sampleId
  split
  · exact hfeed
  · exact List.mem_append_left _ hfeed

theorem codeLine_entryLine {operationName : Text} (h : '\n' ∉ operationName) (number : Nat) :
    CodeLine (entryLine operationName number) := by
  have hnumber := (Text.noControls_ofNat number).feed_not_mem
  have hline : entryLine operationName number = List.replicate 4 ' ' ++
      ('p' :: ("ublic void ".toList ++ operationName ++ '_' :: Text.ofNat number ++ "() ".toList) ++
        ['\x7b']) := by
    simp [entryLine, methodIndent]
  rw [hline]
  exact codeLine_of_ends 4 (by decide) (by decide) (by decide) (by simp [h, hnumber])

theorem codeLine_closeLine : CodeLine closeLine :=
  codeLine_indent (by decide) (by decide) (by decide)

theorem word_labelLine {n : NumberedExample} (hname : s.tagName ≠ []) (hdot : '.' ∉ s.tagName)
    (hid : ReadableId n.id) :
    word [s.labelLine n.operationName n.number] =
      [.beginSample ⟨s.tagName, n.id, hname, hid.ne_nil⟩] := by
  have hblank : ∀ c ∈ bodyIndent, isBlank c := isBlank_of_mem_indent
  have htag := Markup.classify_beginSample hblank ⟨s.tagName, n.id, hname, hid.ne_nil⟩ hdot
    hid.dot_not_mem hid.trimEnd_eq
  have hservice := feed_not_mem_tagName s
  have hfeed := hid.feed_not_mem
  have hline : s.labelLine n.operationName n.number =
      bodyIndent ++ "//BEGIN_SAMPLE:".toList ++ s.tagName ++ '.' :: n.id := rfl
  rw [hline, word_singleton, htag]
  · rfl
  · simp [bodyIndent, hservice, hfeed]

theorem word_titleLine {title : Text} (htitle : title.trim ≠ []) (hfeed : '\n' ∉ title) :
    word [titleLine title] = [.note (.title (trimEnd title))] := by
  rw [word_singleton, titleLine, bodyIndent,
    (Markup.classify_captured isBlank_of_mem_indent htitle hfeed).1]
  · rfl
  · simp [titleLine, bodyIndent, hfeed]

theorem word_descriptionLine {description : Text} (hdescription : description.trim ≠ [])
    (hfeed : '\n' ∉ description) :
    word [descriptionLine description] = [.note (.description (trimEnd description))] := by
  rw [word_singleton, descriptionLine, bodyIndent,
    (Markup.classify_captured isBlank_of_mem_indent hdescription hfeed).2]
  · rfl
  · simp [descriptionLine, bodyIndent, hfeed]

theorem word_endLine : word [endLine] = [.endSample] := by
  decide

theorem Method.word_lines (m : Method s) (hname : s.tagName ≠ []) (hdot : '.' ∉ s.tagName)
    (hid : ReadableId m.id) : word m.lines = (m.frame hname hid).word := by
  have hentry := codeLine_entryLine (feed_not_mem_operationName hid.feed_not_mem) m.number
  have hbefore : word [[], entryLine m.operationName m.number] =
      codeWord [[], entryLine m.operationName m.number] := by
    apply word_of_codeLines
    have hempty : CodeLine [] := ⟨by decide, by decide, by decide⟩
    exact List.forall_mem_cons.mpr ⟨hempty, by simpa using hentry⟩
  have hafter : word [closeLine] = codeWord [closeLine] :=
    word_of_codeLines (by simpa using codeLine_closeLine)
  have hlines : m.lines = [[], entryLine m.operationName m.number] ++
      ([s.labelLine m.operationName m.number] ++ ([titleLine m.title] ++
        ([descriptionLine m.description] ++ (s.bodyLines m.operation m.chain ++
          ([endLine] ++ [closeLine]))))) := by
    simp [Method.lines]
  have htitle : word [titleLine m.title] = [.note (.title (trimEnd m.title))] :=
    word_titleLine m.title_trim_ne (feed_not_mem_singleLine _)
  have hdescription : word [descriptionLine m.description] =
      [.note (.description (trimEnd m.description))] :=
    word_descriptionLine m.description_trim_ne (feed_not_mem_singleLine _)
  rw [hlines]
  simp only [word_append]
  rw [hbefore, hafter, word_labelLine hname hdot hid, word_endLine, htitle, hdescription]
  simp [Frame.word, Method.frame]

theorem exists_forall₂ {α β : Type} {R : α → β → Prop} {xs : List α} (h : ∀ x ∈ xs, ∃ y, R x y) :
    ∃ ys, List.Forall₂ R xs ys := by
  induction xs with
  | nil => exact ⟨[], .nil⟩
  | cons x xs ih =>
      obtain ⟨⟨y, hy⟩, hxs⟩ := List.forall_mem_cons.mp h
      obtain ⟨ys, hys⟩ := ih hxs
      exact ⟨y :: ys, .cons hy hys⟩

theorem exists_frames {methods : List (Method s)} (hname : s.tagName ≠ []) (hdot : '.' ∉ s.tagName)
    (hids : ∀ m ∈ methods, ReadableId m.id) :
    ∃ frames, List.Forall₂ (fun m f => ∃ hid, f = m.frame hname hid) methods frames ∧
      word (methods.flatMap Method.lines) = frames.flatMap Frame.word := by
  induction methods with
  | nil => exact ⟨[], .nil, rfl⟩
  | cons m methods ih =>
      obtain ⟨hid, hids⟩ := List.forall_mem_cons.mp hids
      obtain ⟨frames, hframes, hword⟩ := ih hids
      refine ⟨m.frame hname hid :: frames, .cons ⟨hid, rfl⟩ hframes, ?_⟩
      rw [List.flatMap_cons, List.flatMap_cons, word_append, m.word_lines hname hdot hid, hword]

/-- What a scan of the class finds, as long as it finds one sample for each method. -/
theorem samples_eq_ok_iff_holds {methods : List (Method s)} {source file : Text}
    {records : List Record} (hname : s.tagName ≠ []) (hdot : '.' ∉ s.tagName)
    (hids : ∀ m ∈ methods, ReadableId m.id)
    (hsource : source.lines = printed (s.headLines ++ methods.flatMap Method.lines ++ [['\x7d']])) :
    Marker.slashes.samples file source = .ok records ∧ records.length = methods.length ↔
      (∃ lines, word s.headLines = codeWord lines) ∧
        List.Forall₂ (fun m r => ∃ hid, (m.frame hname hid).Holds r) methods records := by
  obtain ⟨frames, hframes, hword⟩ := exists_frames hname hdot hids
  have hlast : word [['\x7d']] = codeWord [['\x7d']] := by decide
  have hsymbols : source.lines.map Marker.slashes.symbol =
      word s.headLines ++ frames.flatMap Frame.word ++ codeWord [['\x7d']] := by
    rw [hsource, ← word, word_append, word_append, hword, hlast]
  rw [Marker.samples, Marker.samplesOfLines, Markup.scanFrom_eq_ok_iff, hsymbols, hframes.length_eq,
    Markup.runs_frames_iff]
  apply and_congr_right
  intro _
  clear hsource hsymbols hword
  induction hframes generalizing records with
  | nil => cases records <;> simp
  | cons hframe _ ih =>
      obtain ⟨hid, rfl⟩ := hframe
      obtain ⟨-, hids⟩ := List.forall_mem_cons.mp hids
      rw [List.forall₂_cons_left_iff, List.forall₂_cons_left_iff]
      simp only [ih hids, exists_prop_of_true hid]

end Exemplar.Service
