import Exemplar.Proofs.Markup.Classify
import Exemplar.Proofs.Markup.Grammar

/-!
# Records that are fit for storage

A record that a scan finds has all that storing it and finding it again asks for. Its names come from a tag, so
they are on one line and have no dots; its title and its description end where a trimmed line ends, in a visible
character; and its code has lines, none of which is a tag. So none of its parts is refused when the record is
retrieved.
-/

namespace Exemplar

/-- The last character of the text is visible. -/
def Text.EndsVisibly (t : Text) : Prop := ∃ c ∈ t.getLast?, isBlank c = false

theorem Text.endsVisibly_of_trimEnd {t : Text} (hne : t ≠ []) (h : trimEnd t = t) : t.EndsVisibly := by
  have hlast := trimEnd_eq_self_iff.mp h (t.getLast hne) (List.getLast?_eq_some_getLast hne)
  exact ⟨t.getLast hne, List.getLast?_eq_some_getLast hne, hlast⟩

theorem Record.codeLines_ne_of_code_ne {r : Record} (h : r.code ≠ []) : r.codeLines ≠ [] := by
  intro hnil
  apply h
  rw [Record.code, hnil]
  rfl

namespace Markup

variable {marker : Marker} {file text line name : Text} {records : List Record} {r : Record}

/-- A name that can stand in a label. -/
structure LabelPart (name : Text) : Prop where
  ne_nil : name ≠ []
  dot_not_mem : '.' ∉ name
  feed_not_mem : '\n' ∉ name

/-- A text that is one line and is not blank at its end. -/
structure Headline (title : Text) : Prop where
  ne_nil : title ≠ []
  feed_not_mem : '\n' ∉ title
  endsVisibly : title.EndsVisibly

structure Fit (marker : Marker) (r : Record) : Prop where
  service : LabelPart r.service
  id : LabelPart r.id
  id_endsVisibly : r.id.EndsVisibly
  title : Headline r.title
  description : Headline r.description
  codeLines_ne : r.codeLines ≠ []
  codeLine : ∀ line ∈ r.codeLines, '\n' ∉ line ∧ marker.isTag line = false
  code_ne : r.code ≠ []

theorem feed_not_mem_of_sublist_trim {part : Text} (hline : line ∈ text.lines) (hpart : part.Sublist line.trim) :
    '\n' ∉ part := fun hmem =>
  Text.not_mem_of_mem_lines hline (Text.mem_of_mem_trim (hpart.subset hmem))

theorem headline_of_suffix_trim {title : Text} (hline : line ∈ text.lines) (hne : title ≠ [])
    (h : title <:+ line.trim) : Headline title where
  ne_nil := hne
  feed_not_mem := feed_not_mem_of_sublist_trim hline h.sublist
  endsVisibly := Text.endsVisibly_of_trimEnd hne (trimEnd_of_suffix_trim h)

theorem labelParts_of_classify {label : Label} (hline : line ∈ text.lines)
    (h : marker.classify line = .beginSample label) : LabelPart label.service ∧ LabelPart label.id := by
  obtain ⟨hsuffix, hservice, hid⟩ := label_of_classify h
  have hservice_sub := (List.sublist_append_left label.service ('.' :: label.id)).trans hsuffix.sublist
  have hid_sub := ((List.sublist_cons_self '.' label.id).trans (List.sublist_append_right label.service _)).trans
    hsuffix.sublist
  exact ⟨⟨label.service_ne, hservice, feed_not_mem_of_sublist_trim hline hservice_sub⟩,
    label.id_ne, hid, feed_not_mem_of_sublist_trim hline hid_sub⟩

theorem fit_of_mem_samples (h : marker.samples file text = .ok records) (hr : r ∈ records) : Fit marker r := by
  obtain ⟨⟨first, hfirst, hlabel⟩, ⟨second, hsecond, htitle⟩, third, hthird, hdescription⟩ :=
    exists_lines_of_mem_samples h hr
  obtain ⟨htitle_ne, hdescription_ne, hcode_ne⟩ := complete_of_mem_samples h hr
  obtain ⟨hservice, hid⟩ := labelParts_of_classify hfirst hlabel
  refine {
    service := hservice
    id := hid
    id_endsVisibly := Text.endsVisibly_of_trimEnd hid.ne_nil (trimEnd_id_of_classify hlabel)
    title := headline_of_suffix_trim hsecond htitle_ne (title_of_classify htitle)
    description := headline_of_suffix_trim hthird hdescription_ne (description_of_classify hdescription)
    codeLines_ne := Record.codeLines_ne_of_code_ne hcode_ne
    codeLine := ?_
    code_ne := hcode_ne }
  intro line hline
  obtain ⟨hmem, hcode⟩ := classify_of_mem_codeLines h hr hline
  refine ⟨Text.not_mem_of_mem_lines hmem, ?_⟩
  rw [← Bool.not_eq_true, isTag_eq_true_iff]
  exact not_not.mpr hcode

/-- **Every record that a scan finds is fit for storage.** What is stored of it makes up a retrieved sample. -/
theorem retrieved_of_mem_samples (h : marker.samples file text = .ok records) (hr : r ∈ records) :
    Fit marker r ∧ ∃ sample, Retrieved.ofParts r.id r.service r.title r.description r.code = .ok sample ∧
      sample.id = r.id ∧ sample.service = r.service ∧ sample.title = r.title ∧
      sample.description = r.description ∧ sample.content = r.code := by
  have hfit := fit_of_mem_samples h hr
  have hparts := Retrieved.ofParts_of_ne hfit.id.ne_nil hfit.service.ne_nil hfit.title.ne_nil
    hfit.description.ne_nil hfit.code_ne
  exact ⟨hfit, _, hparts, rfl, rfl, rfl, rfl, rfl⟩

/-- A sample in which blanks stand wherever they can. -/
def blankText : Text :=
  "# BEGIN_SAMPLE: A . b \r\n#TITLE: T \n #DESCRIPTION:\tD\t\n  \n  echo\n#END_SAMPLE".toList

def hash : Marker := ⟨['#'], by decide, by decide⟩

theorem retrieved_of_mem_samples_hash :
    ∃ r, hash.samples "a.sh".toList blankText = .ok [r] ∧ Fit hash r ∧
      (Retrieved.ofParts r.id r.service r.title r.description r.code).toOption.isSome := by
  have hsamples : hash.samples "a.sh".toList blankText =
      .ok [⟨⟨" A ".toList, " b".toList, by decide, by decide⟩, " T".toList, "\tD".toList,
        ["  ".toList, "  echo".toList]⟩] := by decide +kernel
  obtain ⟨hfit, sample, hsample, -⟩ := retrieved_of_mem_samples hsamples (List.mem_singleton_self _)
  refine ⟨_, hsamples, hfit, ?_⟩
  rw [hsample]
  rfl

end Markup

end Exemplar
