import Exemplar.Proofs.Markup.Classify
import Exemplar.Proofs.Markup.Grammar
import Exemplar.Proofs.Text.Split
import Mathlib.Data.List.Induction
import Exemplar.Reference

/-!
# What references name

A reference is read off the end of a text: two words with a dot between them, each as long as it can be. Of
all references that the text ends in it is the one that begins earliest. So what can be referred to is exactly
what is named by two words, and a name refers to itself, wherever in a text it stands at the end.

Tags are more liberal than references. They take any characters but dots for a name, references no blanks
either, since a reference may stand at the end of running text. So the samples that a scan finds can be
referred to exactly if their names have no blanks.
-/

namespace Exemplar

open Text (isBlank trim trimStart)

namespace Reference

variable {t word rest reversed : Text} {r : Reference}

/-- A name that a reference can give. -/
structure IsWord (w : Text) : Prop where
  ne_nil : w ≠ []
  isWordChar : ∀ c ∈ w, isWordChar c = true

theorem isWordChar_eq_true_iff {c : Char} : isWordChar c = true ↔ c ≠ '.' ∧ isBlank c = false := by
  simp [isWordChar]

theorem isWordChar_eq_false_iff {c : Char} : isWordChar c = false ↔ isBlank c = true ∨ c = '.' := by
  rw [← Bool.not_eq_true, isWordChar_eq_true_iff, not_and_or, not_not, Bool.not_eq_false, or_comm]

/-! ### Reading -/

theorem splitWord_eq_iff :
    splitWord reversed = (word, rest) ↔ reversed = word.reverse ++ rest ∧
      (∀ c ∈ word, isWordChar c = true) ∧ ∀ c ∈ rest.head?, isWordChar c = false := by
  unfold splitWord
  constructor
  · intro h
    obtain ⟨rfl, rfl⟩ := Prod.mk.inj h
    refine ⟨?_, ?_, ?_⟩
    · rw [List.reverse_reverse, List.takeWhile_append_dropWhile]
    · intro c hc
      exact List.mem_takeWhile_imp (List.mem_reverse.mp hc)
    · intro c hc
      have hhead := List.head?_dropWhile_not isWordChar reversed
      rw [Option.mem_def.mp hc] at hhead
      simpa using hhead
  · rintro ⟨rfl, hword, hrest⟩
    have hword' : ∀ c ∈ word.reverse, isWordChar c = true := fun c hc => hword c (List.mem_reverse.mp hc)
    rw [List.takeWhile_append_of_pos hword', List.dropWhile_append_of_pos hword']
    cases rest with
    | nil => simp
    | cons c rest =>
        have hc : isWordChar c = false := hrest c rfl
        simp [hc]

/-- **A text refers to the last two words in it that are joined by a dot.** -/
theorem ofText?_eq_some_iff :
    ofText? t = some r ↔ IsWord r.service ∧ IsWord r.id ∧
      ∃ before, t.trim = before ++ r.text ∧ ∀ c ∈ before.getLast?, isWordChar c = false := by
  unfold ofText?
  constructor
  · intro h
    obtain ⟨id, left, hid⟩ : ∃ id left, splitWord t.trim.reverse = (id, left) := ⟨_, _, rfl⟩
    obtain ⟨htext, hidChars, -⟩ := splitWord_eq_iff.mp hid
    rw [hid] at h
    dsimp only at h
    split at h
    · rename_i left
      obtain ⟨service, before, hservice⟩ : ∃ service before, splitWord left = (service, before) := ⟨_, _, rfl⟩
      obtain ⟨rfl, hserviceChars, hbefore⟩ := splitWord_eq_iff.mp hservice
      rw [hservice] at h
      dsimp only at h
      split at h
      · cases h
      · rename_i hne
        cases h
        obtain ⟨hservice, hid⟩ := not_or.mp hne
        refine ⟨⟨hservice, hserviceChars⟩, ⟨hid, hidChars⟩, before.reverse, ?_, ?_⟩
        · have htrim := congrArg List.reverse htext
          simpa [Reference.text] using htrim
        · simpa using hbefore
    · cases h
  · rintro ⟨hservice, hid, before, htext, hbefore⟩
    have hsplitId : splitWord t.trim.reverse = (r.id, '.' :: (r.service.reverse ++ before.reverse)) := by
      refine splitWord_eq_iff.mpr ⟨?_, hid.isWordChar, ?_⟩
      · simp [htext, Reference.text]
      · intro c hc
        obtain rfl : c = '.' := by simpa using hc.symm
        rfl
    have hsplitService : splitWord (r.service.reverse ++ before.reverse) = (r.service, before.reverse) :=
      splitWord_eq_iff.mpr ⟨rfl, hservice.isWordChar, by simpa using hbefore⟩
    simp only [hsplitId, hsplitService]
    rw [if_neg (not_or.mpr ⟨hservice.ne_nil, hid.ne_nil⟩)]

theorem ofText_eq_ok_iff : ofText t = .ok r ↔ ofText? t = some r := by
  unfold ofText
  cases ofText? t <;> simp

theorem isWord_of_ofText (h : ofText t = .ok r) : IsWord r.service ∧ IsWord r.id := by
  obtain ⟨hservice, hid, -⟩ := ofText?_eq_some_iff.mp (ofText_eq_ok_iff.mp h)
  exact ⟨hservice, hid⟩

theorem trim_text (hservice : IsWord r.service) (hid : IsWord r.id) : r.text.trim = r.text := by
  apply Text.trim_eq_self_of_no_blank
  intro c hc
  rcases List.mem_append.mp hc with hc | hc
  · exact (isWordChar_eq_true_iff.mp (hservice.isWordChar c hc)).2
  · rcases List.mem_cons.mp hc with rfl | hc
    · rfl
    · exact (isWordChar_eq_true_iff.mp (hid.isWordChar c hc)).2

/-- A reference with two words for names is read from its own text. -/
theorem ofText_text (hservice : IsWord r.service) (hid : IsWord r.id) : ofText r.text = .ok r := by
  refine ofText_eq_ok_iff.mpr (ofText?_eq_some_iff.mpr ⟨hservice, hid, [], ?_, by simp⟩)
  rw [trim_text hservice hid, List.nil_append]

/-! ### The end of a text -/

/-- A text whose end reads as a reference, wherever in the text it begins. -/
structure Ends (t before : Text) (r : Reference) : Prop where
  service : IsWord r.service
  id : IsWord r.id
  text_eq : t = before ++ r.text

/-- Nothing, or something that ends in a blank or a dot, so that no word goes on after it. -/
def Cut (before : Text) : Prop :=
  before = [] ∨ ∃ c, before.getLast? = some c ∧ (isBlank c = true ∨ c = '.')

theorem cut_iff {before : Text} : Cut before ↔ ∀ c ∈ before.getLast?, isWordChar c = false := by
  rcases List.eq_nil_or_concat before with rfl | ⟨rest, last, rfl⟩
  · simp [Cut]
  · simp [Cut, isWordChar_eq_false_iff]

theorem ofText_eq_ok_iff_cut : ofText t = .ok r ↔ ∃ before, Ends t.trim before r ∧ Cut before := by
  rw [ofText_eq_ok_iff, ofText?_eq_some_iff]
  constructor
  · rintro ⟨hservice, hid, before, htext, hbefore⟩
    exact ⟨before, ⟨hservice, hid, htext⟩, cut_iff.mpr hbefore⟩
  · rintro ⟨before, ⟨hservice, hid, htext⟩, hcut⟩
    exact ⟨hservice, hid, before, htext, cut_iff.mp hcut⟩

variable {before before' : Text} {r' : Reference}

/-- References at the end of one text have the same id, and the one that begins at a cut has the longest service. -/
theorem Ends.exists_of_cut (h : Ends t before r) (hcut : Cut before) (h' : Ends t before' r') :
    ∃ between, before' = before ++ between ∧ r.service = between ++ r'.service ∧ r.id = r'.id := by
  have hdot {w : Text} (hword : IsWord w) : '.' ∉ w := fun hmem =>
    (isWordChar_eq_true_iff.mp (hword.isWordChar _ hmem)).1 rfl
  have hsame := h.text_eq.symm.trans h'.text_eq
  rw [text, text, ← List.append_assoc, ← List.append_assoc,
    append_cons_inj_of_not_mem (hdot h.id) (hdot h'.id)] at hsame
  obtain ⟨hservice, hid⟩ := hsame
  rcases List.append_eq_append_iff.mp hservice with ⟨between, hbefore, hword⟩ | ⟨between, hbefore, hword⟩
  · exact ⟨between, hbefore, hword, hid⟩
  · -- The other one begins earlier, so its service runs over the cut.
    rcases List.eq_nil_or_concat between with rfl | ⟨rest, last, rfl⟩
    · exact ⟨[], by simpa using hbefore.symm, by simpa using hword.symm, hid⟩
    · have hlast : isWordChar last = true := h'.service.isWordChar last (by simp [hword])
      have hbroken : isWordChar last = false := cut_iff.mp hcut last (by simp [hbefore])
      simp [hlast] at hbroken

/-- There is one way at most to part a text at a cut before a reference. -/
theorem Ends.unique (h : Ends t before r) (hcut : Cut before) (h' : Ends t before' r') (hcut' : Cut before') :
    before = before' ∧ r = r' := by
  obtain ⟨between, hbefore, hservice, hid⟩ := h.exists_of_cut hcut h'
  obtain ⟨between', hbefore', -, -⟩ := h'.exists_of_cut hcut' h
  have hlength := congrArg List.length hbefore
  have hlength' := congrArg List.length hbefore'
  rw [List.length_append] at hlength hlength'
  obtain rfl : between = [] := List.length_eq_zero_iff.mp (by omega)
  obtain ⟨service, id⟩ := r
  obtain ⟨service', id'⟩ := r'
  obtain rfl : service = service' := hservice
  obtain rfl : id = id' := hid
  exact ⟨(hbefore.trans (List.append_nil before)).symm, rfl⟩

/-- A word in front of a reference goes on with its service. -/
theorem Ends.grow {c : Char} (h : Ends t (before ++ [c]) r) (hword : isWordChar c = true) :
    Ends t before ⟨c :: r.service, r.id⟩ := by
  refine ⟨⟨List.cons_ne_nil _ _, List.forall_mem_cons.mpr ⟨hword, h.service.isWordChar⟩⟩, h.id, ?_⟩
  rw [h.text_eq, text, text, List.append_assoc]
  rfl

theorem Ends.exists_cut (h : Ends t before r) : ∃ before' r', Ends t before' r' ∧ Cut before' := by
  induction before using List.reverseRecOn generalizing r with
  | nil => exact ⟨[], r, h, Or.inl rfl⟩
  | append_singleton before c ih =>
      by_cases hword : isWordChar c = true
      · exact ih (h.grow hword)
      · refine ⟨before ++ [c], r, h, cut_iff.mpr ?_⟩
        simpa using hword

/-- A reference that begins as early as it can begins at a cut. -/
theorem Ends.cut_of_earliest (h : Ends t before r)
    (hearliest : ∀ before' r', Ends t before' r' → before.length ≤ before'.length) : Cut before := by
  refine cut_iff.mpr fun c hc => ?_
  obtain ⟨rest, rfl⟩ := List.getLast?_eq_some_iff.mp hc
  by_contra hword
  have hle := hearliest rest _ (h.grow (by simpa using hword))
  rw [List.length_append, List.length_singleton] at hle
  omega

/-- What is read is the reference at the end that begins earliest. -/
theorem ofText_eq_ok_iff_earliest :
    ofText t = .ok r ↔ ∃ before, Ends t.trim before r ∧
      ∀ before' r', Ends t.trim before' r' → before.length ≤ before'.length := by
  rw [ofText_eq_ok_iff_cut]
  constructor
  · rintro ⟨before, hends, hcut⟩
    refine ⟨before, hends, fun before' r' h' => ?_⟩
    obtain ⟨between, rfl, -, -⟩ := hends.exists_of_cut hcut h'
    simp
  · rintro ⟨before, hends, hearliest⟩
    exact ⟨before, hends, hends.cut_of_earliest hearliest⟩

theorem ofText_eq_error_iff :
    ofText t = .error (.invalidArgument (.malformedReference t)) ↔ ∀ before r, ¬Ends t.trim before r := by
  constructor
  · intro h before r hends
    obtain ⟨before', r', hends', hcut⟩ := hends.exists_cut
    cases h.symm.trans (ofText_eq_ok_iff_cut.mpr ⟨before', hends', hcut⟩)
  · intro h
    unfold ofText
    split
    · rename_i r hr
      obtain ⟨before, hends, -⟩ := ofText_eq_ok_iff_cut.mp (ofText_eq_ok_iff.mpr hr)
      exact absurd hends (h before r)
    · rfl

/-! ### References in running text -/

theorem trim_append_text (hservice : IsWord r.service) (hid : IsWord r.id) (before : Text) :
    (before ++ r.text).trim = before.trimStart ++ r.text := by
  have htext := trim_text hservice hid
  by_cases hblank : before.trimStart = []
  · rw [Text.trim_blank_append _ (Text.trimStart_eq_nil_iff.mp hblank), htext, hblank, List.nil_append]
  · have hend := Text.trimEnd_eq_self_of_trim htext
    have hne : r.text ≠ [] := by simp [text]
    rw [trim, Text.trimStart_append _ hblank, Text.trimEnd_append _ (by rwa [hend]), hend]

theorem cut_trimStart (h : before = [] ∨ ∃ c, before.getLast? = some c ∧ isBlank c = true) :
    Cut before.trimStart := by
  by_cases hblank : before.trimStart = []
  · exact Or.inl hblank
  · obtain ⟨blanks, hsuffix⟩ := List.dropWhile_suffix (l := before) isBlank
    have hlast : before.getLast? = before.trimStart.getLast? :=
      (congrArg List.getLast? hsuffix.symm).trans (List.getLast?_append_of_ne_nil _ hblank)
    rcases h with rfl | ⟨c, hc, hcblank⟩
    · exact absurd rfl hblank
    · exact Or.inr ⟨c, hlast.symm.trans hc, Or.inl hcblank⟩

/-- Between words and blanks a reference is read as itself. -/
theorem ofText_running {after : Text} (hservice : IsWord r.service) (hid : IsWord r.id)
    (hbefore : before = [] ∨ ∃ c, before.getLast? = some c ∧ isBlank c = true) (hafter : ∀ c ∈ after, isBlank c) :
    ofText (before ++ r.text ++ after) = .ok r := by
  refine ofText_eq_ok_iff_cut.mpr ⟨before.trimStart, ⟨hservice, hid, ?_⟩, cut_trimStart hbefore⟩
  rw [Text.trim_append_of_blank _ hafter, trim_append_text hservice hid]

/-- **A reference is the pair of words at the end of a text.** It is read exactly if the trimmed text ends in two
words with a dot between them, each of them whole; there is one way at most to find them, and of all references that
the text ends in, theirs begins earliest. Whatever has been read is read again from its own text, also after other
text and between blanks. -/
theorem ofText_trailing_pair (t : Text) :
    (∀ r, ofText t = .ok r ↔ ∃ before, Ends t.trim before r ∧ Cut before) ∧
      (ofText t = .error (.invalidArgument (.malformedReference t)) ↔ ∀ before r, ¬Ends t.trim before r) ∧
      (∀ before before' r r', Ends t.trim before r → Cut before → Ends t.trim before' r' → Cut before' →
        before = before' ∧ r = r') ∧
      (∀ r, ofText t = .ok r ↔ ∃ before, Ends t.trim before r ∧
        ∀ before' r', Ends t.trim before' r' → before.length ≤ before'.length) ∧
      ∀ r, ofText t = .ok r → ofText r.text = .ok r ∧
        ∀ before after, (before = [] ∨ ∃ c, before.getLast? = some c ∧ isBlank c = true) →
          (∀ c ∈ after, isBlank c) → ofText (before ++ r.text ++ after) = .ok r := by
  refine ⟨fun r => ofText_eq_ok_iff_cut, ofText_eq_error_iff, fun _ _ _ _ h hcut h' hcut' => h.unique hcut h' hcut',
    fun r => ofText_eq_ok_iff_earliest, fun r hr => ?_⟩
  obtain ⟨hservice, hid⟩ := isWord_of_ofText hr
  exact ⟨ofText_text hservice hid, fun _ _ hbefore hafter => ofText_running hservice hid hbefore hafter⟩

/-- Three words with dots between them, after other text and before a blank. -/
def mentioned : Text := "see Post.Parcels.Send ".toList

theorem ofText_trailing_pair_mentioned :
    (Ends mentioned.trim "see Post.".toList ⟨"Parcels".toList, "Send".toList⟩ ∧ Cut "see Post.".toList) ∧
      ofText mentioned = .ok ⟨"Parcels".toList, "Send".toList⟩ ∧
      ofText "Parcels.Send".toList = .ok ⟨"Parcels".toList, "Send".toList⟩ ∧
      ofText "or Parcels.Send\n".toList = .ok ⟨"Parcels".toList, "Send".toList⟩ := by
  have hends : Ends mentioned.trim "see Post.".toList ⟨"Parcels".toList, "Send".toList⟩ :=
    ⟨⟨by decide, List.all_eq_true.mp (by decide)⟩, ⟨by decide, List.all_eq_true.mp (by decide)⟩, by decide⟩
  have hcut : Cut "see Post.".toList := Or.inr ⟨'.', by decide, Or.inr rfl⟩
  obtain ⟨hread, -, -, -, hagain⟩ := ofText_trailing_pair mentioned
  have hok := (hread _).mpr ⟨_, hends, hcut⟩
  obtain ⟨hself, hrunning⟩ := hagain _ hok
  have hbefore : "or ".toList = [] ∨ ∃ c, "or ".toList.getLast? = some c ∧ isBlank c = true :=
    Or.inr ⟨' ', by decide, by decide⟩
  have hafter : ∀ c ∈ "\n".toList, isBlank c = true := List.all_eq_true.mp (by decide)
  exact ⟨⟨hends, hcut⟩, hok, hself, hrunning _ _ hbefore hafter⟩

end Reference

/-! ### Samples -/

section Samples

open Markup (Marker)

variable {marker : Marker} {file text : Text} {records : List Record} {r : Record}

/-- The reference to a record. -/
def Record.reference (r : Record) : Reference := ⟨r.service, r.id⟩

/-- The names of a scanned sample are words as soon as they have no blanks. -/
theorem Record.isWord_iff (h : marker.samples file text = .ok records) (hr : r ∈ records) :
    (Reference.IsWord r.service ∧ Reference.IsWord r.id) ↔ ∀ c ∈ r.service ++ r.id, isBlank c = false := by
  obtain ⟨⟨line, -, htag⟩, -⟩ := Markup.exists_lines_of_mem_samples h hr
  obtain ⟨-, hservice, hid⟩ := Markup.label_of_classify htag
  constructor
  · rintro ⟨hserviceWord, hidWord⟩ c hc
    rcases List.mem_append.mp hc with hc | hc
    · exact (Reference.isWordChar_eq_true_iff.mp (hserviceWord.isWordChar c hc)).2
    · exact (Reference.isWordChar_eq_true_iff.mp (hidWord.isWordChar c hc)).2
  · intro hblank
    have hword {w : Text} (hne : w ≠ []) (hdot : '.' ∉ w) (hsub : w ⊆ r.service ++ r.id) :
        Reference.IsWord w := by
      refine ⟨hne, fun c hc => Reference.isWordChar_eq_true_iff.mpr ⟨?_, hblank c (hsub hc)⟩⟩
      rintro rfl
      exact hdot hc
    exact ⟨hword r.label.service_ne hservice (List.subset_append_left _ _),
      hword r.label.id_ne hid (List.subset_append_right _ _)⟩

/-- **A sample can be referred to exactly if its names have no blanks.** Then its own name refers to it; if
not, no text at all does. -/
theorem ofText_reference_iff (h : marker.samples file text = .ok records) (hr : r ∈ records) :
    (Reference.ofText r.reference.text = .ok r.reference ↔ ∀ c ∈ r.service ++ r.id, isBlank c = false) ∧
      ((∃ t, Reference.ofText t = .ok r.reference) ↔ ∀ c ∈ r.service ++ r.id, isBlank c = false) := by
  have hwords {t : Text} (ht : Reference.ofText t = .ok r.reference) :
      ∀ c ∈ r.service ++ r.id, isBlank c = false :=
    (Record.isWord_iff h hr).mp (Reference.isWord_of_ofText ht)
  have hname (hblank : ∀ c ∈ r.service ++ r.id, isBlank c = false) :
      Reference.ofText r.reference.text = .ok r.reference := by
    obtain ⟨hservice, hid⟩ := (Record.isWord_iff h hr).mpr hblank
    exact Reference.ofText_text hservice hid
  exact ⟨⟨hwords, hname⟩, ⟨fun ⟨_, ht⟩ => hwords ht, fun hblank => ⟨_, hname hblank⟩⟩⟩

/-- A text with one sample of the given service. -/
def parcelText (service : String) : Text :=
  ("//BEGIN_SAMPLE:" ++ service ++ ".Send\n//TITLE:Send\n//DESCRIPTION:Sends.\nsend();\n//END_SAMPLE\n").toList

theorem ofText_reference_parcels :
    ∃ r, Marker.slashes.samples "Parcels.java".toList (parcelText "Parcels") = .ok [r] ∧
      r.reference = ⟨"Parcels".toList, "Send".toList⟩ ∧
      (∀ c ∈ r.service ++ r.id, isBlank c = false) ∧
      Reference.ofText r.reference.text = .ok r.reference := by
  have hsamples : Marker.slashes.samples "Parcels.java".toList (parcelText "Parcels") =
      .ok [⟨⟨"Parcels".toList, "Send".toList, by decide, by decide⟩, "Send".toList, "Sends.".toList,
        ["send();".toList]⟩] := by decide +kernel
  have hblank : ∀ c ∈ "Parcels".toList ++ "Send".toList, isBlank c = false := by
    have hall : ("Parcels".toList ++ "Send".toList).all (!isBlank ·) = true := by decide
    simpa only [List.all_eq_true, Bool.not_eq_true'] using hall
  exact ⟨_, hsamples, rfl, hblank, (ofText_reference_iff hsamples (List.mem_singleton_self _)).1.mpr hblank⟩

/-- A blank in the name of a service is taken for the end of the text before the reference. -/
theorem not_ofText_reference :
    ¬∀ file text records, Marker.slashes.samples file text = .ok records →
      ∀ r ∈ records, Reference.ofText r.reference.text = .ok r.reference := by
  intro h
  have hsamples : Marker.slashes.samples "Parcels.java".toList (parcelText "My Parcels") =
      .ok [⟨⟨"My Parcels".toList, "Send".toList, by decide, by decide⟩, "Send".toList, "Sends.".toList,
        ["send();".toList]⟩] := by decide +kernel
  have hread := h _ _ _ hsamples _ (List.mem_singleton_self _)
  have hother : Reference.ofText "My Parcels.Send".toList = .ok ⟨"Parcels".toList, "Send".toList⟩ := by
    decide +kernel
  exact absurd (hother.symm.trans hread) (by decide)

end Samples

end Exemplar
