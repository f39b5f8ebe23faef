import Exemplar.Proofs.Markup.Keyword

/-!
# Classifying lines

Which lines are tags, and what tags capture. What a tag captures comes from the trimmed line, so it never
ends in a blank, and neither part of a label holds a dot.
-/

namespace Exemplar

namespace Markup

open Text (trimStart trimEnd trim isBlank)

variable {marker : Marker} {line : Text}

/-! ### From a tag to its line -/

/-- What the keyword of a tag reads stands at the end of the trimmed line. -/
theorem exists_rest_of_classify {tag : Tag} (h : marker.classify line = tag) (htag : tag ≠ .code) :
    ∃ (keyword : Keyword) (rest : Text), rest <:+ line.trim ∧ keyword.Reads rest tag := by
  obtain ⟨keyword, blanks, rest, -, hline, hreads⟩ := exists_tags_of_classify h htag
  exact ⟨keyword, rest, ⟨_, hline.symm⟩, hreads⟩

/-- The text of a sample's tag ends in the sample's service and id. -/
theorem label_of_classify {label : Label} (h : marker.classify line = .beginSample label) :
    (label.service ++ '.' :: label.id) <:+ line.trim ∧ '.' ∉ label.service ∧ '.' ∉ label.id := by
  obtain ⟨keyword, rest, hrest, hreads⟩ := exists_rest_of_classify h (by simp)
  cases keyword <;> simp [Keyword.Reads] at hreads
  obtain ⟨rfl, hservice, hid⟩ := hreads
  exact ⟨hrest, hservice, hid⟩

theorem title_of_classify {text : Text} (h : marker.classify line = .title text) : text <:+ line.trim := by
  obtain ⟨keyword, rest, hrest, hreads⟩ := exists_rest_of_classify h (by simp)
  cases keyword <;> simp [Keyword.Reads] at hreads
  exact hreads ▸ hrest

theorem description_of_classify {text : Text} (h : marker.classify line = .description text) :
    text <:+ line.trim := by
  obtain ⟨keyword, rest, hrest, hreads⟩ := exists_rest_of_classify h (by simp)
  cases keyword <;> simp [Keyword.Reads] at hreads
  exact hreads ▸ hrest

theorem trimEnd_of_suffix_trim {line ending : Text} (h : ending <:+ line.trim) :
    ending.trimEnd = ending := by
  obtain ⟨before, hbefore⟩ := h
  have hend : trimEnd (before ++ ending) = before ++ ending := by
    rw [hbefore, Text.trim, Text.trimEnd_trimEnd]
  exact Text.trimEnd_eq_self_of_append hend

theorem trimEnd_id_of_classify {label : Label} (h : marker.classify line = .beginSample label) :
    label.id.trimEnd = label.id :=
  trimEnd_of_suffix_trim (((List.suffix_cons _ _).trans (List.suffix_append _ _)).trans
    (label_of_classify h).1)

theorem trimEnd_of_classify_title {text : Text} (h : marker.classify line = .title text) :
    text.trimEnd = text :=
  trimEnd_of_suffix_trim (title_of_classify h)

theorem trimEnd_of_classify_description {text : Text} (h : marker.classify line = .description text) :
    text.trimEnd = text :=
  trimEnd_of_suffix_trim (description_of_classify h)

/-! ### From a line to its tag -/

theorem classify_eq_code (h : ¬ marker.text <+: trimStart line) : marker.classify line = .code := by
  have hnone : Text.after? marker.text line.trim = none :=
    Text.after?_eq_none_iff.mpr fun hinit => h (hinit.trans (Text.trimEnd_isInit _))
  simp [Marker.classify, hnone]

/-- The carriage return of a line end makes no difference. -/
theorem classify_chomp (marker : Marker) (line : Text) :
    marker.classify (Text.chomp line) = marker.classify line :=
  classify_congr (Text.trim_chomp line)

theorem classify_indent (marker : Marker) {indent : Text} (hindent : ∀ c ∈ indent, isBlank c)
    (line : Text) : marker.classify (indent ++ line) = marker.classify line :=
  classify_congr (Text.trim_blank_append line hindent)

/-- The marker, a keyword and what the keyword reads make up a tag; blanks at the end do not matter. -/
theorem classify_keyword (marker : Marker) {indent rest : Text} {tag : Tag}
    (hindent : ∀ c ∈ indent, isBlank c) (keyword : Keyword) (hrest : trimEnd rest ≠ [])
    (hread : keyword.read? (trimEnd rest) = some tag) :
    marker.classify (indent ++ marker.text ++ keyword.text ++ rest) = tag := by
  have hmarker := Text.trimStart_eq_self_of_trim marker.trim_text
  have hline : trim (marker.text ++ keyword.text ++ rest) = marker.text ++ [] ++ keyword.text ++ trimEnd rest := by
    rw [trim, List.append_assoc, Text.trimStart_append _ (hmarker.symm ▸ marker.text_ne), hmarker,
      ← List.append_assoc, Text.trimEnd_append _ hrest, List.append_nil]
  have htagBy : marker.tagBy? (marker.text ++ keyword.text ++ rest) keyword = some tag :=
    tagBy?_eq_some_iff.mpr ⟨[], trimEnd rest, by simp, hline, hread⟩
  rw [List.append_assoc indent, List.append_assoc indent, classify_indent _ hindent, classify_eq_classifyBy,
    classifyBy_eq_iff Keyword.mem_all (tags_of_tagBy? htagBy).ne_code]
  exact ⟨keyword, htagBy⟩

section Comments

variable {indent : Text}

theorem classify_beginSample (hindent : ∀ c ∈ indent, isBlank c) (label : Label)
    (hservice : '.' ∉ label.service) (hid : '.' ∉ label.id) (hend : trimEnd label.id = label.id) :
    Marker.slashes.classify
        (indent ++ "//BEGIN_SAMPLE:".toList ++ label.service ++ '.' :: label.id) =
      .beginSample label := by
  have hid_ne : trimEnd label.id ≠ [] := by
    rw [hend]
    exact label.id_ne
  have hrest : trimEnd (label.service ++ ['.'] ++ label.id) = label.service ++ '.' :: label.id := by
    rw [Text.trimEnd_append _ hid_ne, hend, List.append_assoc, List.singleton_append]
  have hread : Keyword.beginSample.read? (trimEnd (label.service ++ ['.'] ++ label.id)) =
      some (.beginSample label) := by
    rw [hrest]
    exact labelTag?_eq_some_iff.mpr ⟨label, rfl, rfl, hservice, hid⟩
  have htext : "//BEGIN_SAMPLE:".toList = Marker.slashes.text ++ Keyword.beginSample.text := rfl
  have htag := classify_keyword .slashes hindent .beginSample (by rw [hrest]; simp) hread
  rw [List.append_assoc _ ['.'], List.singleton_append, ← List.append_assoc] at htag
  rwa [htext, ← List.append_assoc]

/-- A title or a description is its text without the blanks at the end. -/
theorem classify_captured (hindent : ∀ c ∈ indent, isBlank c) {t : Text} (ht : t.trim ≠ [])
    (hfeed : '\n' ∉ t) :
    Marker.slashes.classify (indent ++ "//TITLE:".toList ++ t) = .title (trimEnd t) ∧
      Marker.slashes.classify (indent ++ "//DESCRIPTION:".toList ++ t) = .description (trimEnd t) := by
  have hne : trimEnd t ≠ [] := by
    simpa [Text.trim_eq_nil_iff, Text.trimEnd_eq_nil_iff] using ht
  have hfeed_end : '\n' ∉ trimEnd t := fun h => hfeed ((Text.trimEnd_isInit t).subset h)
  constructor
  · have htext : "//TITLE:".toList = Marker.slashes.text ++ Keyword.title.text := rfl
    rw [htext, ← List.append_assoc]
    exact classify_keyword .slashes hindent .title hne (captured?_eq_some_iff.mpr ⟨hfeed_end, rfl⟩)
  · have htext : "//DESCRIPTION:".toList = Marker.slashes.text ++ Keyword.description.text := rfl
    rw [htext, ← List.append_assoc]
    exact classify_keyword .slashes hindent .description hne (captured?_eq_some_iff.mpr ⟨hfeed_end, rfl⟩)

end Comments

end Markup

end Exemplar
