import Exemplar.Markup.Tag
import Exemplar.Proofs.Text.Lines
import Exemplar.Proofs.Text.Split

/-!
# Keywords

A tag is the comment marker, blanks, a keyword and the rest of the line, which the keyword reads in its own
way. A marker ends and a keyword begins with a visible character, so the blanks between them are all the blanks
there are, and no keyword is the beginning of another. Hence a line is a tag in one way at most: it makes no
difference in which order the keywords are tried, nor how many blanks stand around the line and before its
keyword.
-/

namespace Exemplar

open Text (trimStart trimEnd trim isBlank)

theorem Text.after?_eq_none_iff {p t : Text} : Text.after? p t = none ↔ ¬ p <+: t := by
  constructor
  · rintro h ⟨rest, rfl⟩
    simp [Text.after?_append] at h
  · intro h
    cases hafter : Text.after? p t with
    | none => rfl
    | some rest => exact absurd ⟨rest, (Text.eq_append_of_after? hafter).symm⟩ h

theorem Text.after?_eq_some_iff {p t rest : Text} : Text.after? p t = some rest ↔ t = p ++ rest :=
  ⟨Text.eq_append_of_after?, fun h => h ▸ Text.after?_append p rest⟩

theorem Text.after?_self (p : Text) : Text.after? p p = some [] :=
  Text.after?_eq_some_iff.mpr (List.append_nil p).symm

/-- Where all hits agree, the first one does not depend on the order. -/
theorem findSome?_eq_some_iff_of_agree {α β : Type} {f : α → Option β} {xs : List α} {b : β}
    (hxs : ∀ a, a ∈ xs) (hf : ∀ a a' b b', f a = some b → f a' = some b' → b = b') :
    xs.findSome? f = some b ↔ ∃ a, f a = some b := by
  constructor
  · intro h
    obtain ⟨a, -, ha⟩ := List.exists_of_findSome?_eq_some h
    exact ⟨a, ha⟩
  · rintro ⟨a, ha⟩
    cases hfound : xs.findSome? f with
    | none =>
        have hnone := List.findSome?_eq_none_iff.mp hfound a (hxs a)
        rw [ha] at hnone
        cases hnone
    | some found =>
        obtain ⟨a', -, ha'⟩ := List.exists_of_findSome?_eq_some hfound
        rw [hf a' a found b ha' ha]

namespace Markup

variable {marker : Marker} {line comment blanks : Text} {tag : Tag}

theorem labelTag?_eq_some_iff {t : Text} {tag : Tag} :
    labelTag? t = some tag ↔
      ∃ label : Label, tag = .beginSample label ∧ t = label.service ++ '.' :: label.id ∧
        '.' ∉ label.service ∧ '.' ∉ label.id := by
  constructor
  · intro h
    unfold labelTag? at h
    split at h
    · rename_i service id hpieces
      split at h
      · rename_i hne
        refine ⟨⟨service, id, hne.1, hne.2⟩, (Option.some.inj h).symm, ?_, ?_, ?_⟩
        · rw [← intercalate_splitOn '.' t, hpieces]
          simp [List.intercalate_cons_cons]
        · exact not_mem_of_mem_splitOn (t := t) (by simp [hpieces])
        · exact not_mem_of_mem_splitOn (t := t) (by simp [hpieces])
      · simp at h
    · simp at h
  · rintro ⟨label, rfl, rfl, hservice, hid⟩
    unfold labelTag?
    rw [splitOn_append, splitOn_of_not_mem hservice, splitOn_of_not_mem hid]
    simp [label.service_ne, label.id_ne]

theorem captured?_eq_some_iff {tag : Text → Tag} {t : Text} {found : Tag} :
    captured? tag t = some found ↔ '\n' ∉ t ∧ found = tag t := by
  unfold captured?
  split <;> simp_all [eq_comm]

inductive Keyword
  | beginSample
  | endSample
  | beginHidden
  | endHidden
  | title
  | description
deriving DecidableEq

namespace Keyword

def text : Keyword → Text
  | beginSample => "BEGIN_SAMPLE:".toList
  | endSample => "END_SAMPLE".toList
  | beginHidden => "BEGIN_HIDDEN".toList
  | endHidden => "END_HIDDEN".toList
  | title => "TITLE:".toList
  | description => "DESCRIPTION:".toList

/-- How a keyword reads the rest of its line. -/
def Reads (rest : Text) (tag : Tag) : Keyword → Prop
  | beginSample => ∃ label : Label, tag = .beginSample label ∧ rest = label.service ++ '.' :: label.id ∧
      '.' ∉ label.service ∧ '.' ∉ label.id
  | endSample => tag = .endSample
  | beginHidden => tag = .beginHidden
  | endHidden => tag = .endHidden
  | title => tag = .title rest
  | description => tag = .description rest

/-- A line is a tag by a keyword: once it is trimmed, it is the marker, blanks, the keyword and its rest. -/
def Tags (marker line : Text) (tag : Tag) (keyword : Keyword) : Prop :=
  ∃ blanks rest, (∀ c ∈ blanks, isBlank c) ∧ line.trim = marker ++ blanks ++ keyword.text ++ rest ∧
    keyword.Reads rest tag

theorem trimStart_text_append (keyword : Keyword) (rest : Text) :
    trimStart (keyword.text ++ rest) = keyword.text ++ rest := by
  cases keyword <;> exact Text.trimStart_cons _ (by decide)

/-- No keyword is the beginning of another. -/
theorem eq_of_text_isPrefix {keyword other : Keyword} (h : keyword.text <+: other.text) :
    keyword = other := by
  revert h
  cases keyword <;> cases other <;> decide

theorem text_append_inj {keyword other : Keyword} {rest rest' : Text}
    (h : keyword.text ++ rest = other.text ++ rest') : keyword = other ∧ rest = rest' := by
  have hkeyword : keyword = other := by
    rcases List.prefix_or_prefix_of_prefix ⟨rest, h⟩ (List.prefix_append other.text rest') with hinit | hinit
    · exact eq_of_text_isPrefix hinit
    · exact (eq_of_text_isPrefix hinit).symm
  subst hkeyword
  exact ⟨rfl, List.append_cancel_left h⟩

theorem Reads.unique {keyword : Keyword} {rest : Text} {tag tag' : Tag} (h : keyword.Reads rest tag)
    (h' : keyword.Reads rest tag') : tag = tag' := by
  cases keyword
  case beginSample =>
    have hread := labelTag?_eq_some_iff.mpr h
    rw [labelTag?_eq_some_iff.mpr h'] at hread
    exact (Option.some.inj hread).symm
  all_goals exact Eq.trans h (Eq.symm h')

theorem Tags.ne_code {marker : Text} {keyword : Keyword} {tag : Tag} (h : keyword.Tags marker line tag) :
    tag ≠ .code := by
  rintro rfl
  obtain ⟨_, _, -, -, hreads⟩ := h
  cases keyword <;> simp [Reads] at hreads

/-- **A line is a tag in one way at most.** -/
theorem Tags.unique {marker : Text} {keyword other : Keyword} {tag tag' : Tag}
    (h : keyword.Tags marker line tag) (h' : other.Tags marker line tag') :
    keyword = other ∧ tag = tag' := by
  obtain ⟨blanks, rest, hblanks, hline, hreads⟩ := h
  obtain ⟨blanks', rest', hblanks', hline', hreads'⟩ := h'
  have hcomments : blanks ++ (keyword.text ++ rest) = blanks' ++ (other.text ++ rest') := by
    rw [hline] at hline'
    simpa only [List.append_assoc, List.append_cancel_left_eq] using hline'
  have hstarts := congrArg trimStart hcomments
  rw [Text.trimStart_append_of_blank _ hblanks, Text.trimStart_append_of_blank _ hblanks',
    trimStart_text_append, trimStart_text_append] at hstarts
  obtain ⟨rfl, rfl⟩ := text_append_inj hstarts
  exact ⟨rfl, hreads.unique hreads'⟩

def read? (rest : Text) : Keyword → Option Tag
  | beginSample => labelTag? rest
  | endSample => some .endSample
  | beginHidden => some .beginHidden
  | endHidden => some .endHidden
  | title => captured? .title rest
  | description => captured? .description rest

theorem reads_of_read? {keyword : Keyword} {rest : Text} {tag : Tag} (h : keyword.read? rest = some tag) :
    keyword.Reads rest tag := by
  cases keyword
  case beginSample => exact labelTag?_eq_some_iff.mp h
  case title => exact (captured?_eq_some_iff.mp h).2
  case description => exact (captured?_eq_some_iff.mp h).2
  all_goals exact (Option.some.inj h).symm

theorem read?_of_reads {keyword : Keyword} {rest : Text} {tag : Tag} (h : keyword.Reads rest tag)
    (hfeed : '\n' ∉ rest) : keyword.read? rest = some tag := by
  cases keyword
  case beginSample => exact labelTag?_eq_some_iff.mpr h
  case title => exact captured?_eq_some_iff.mpr ⟨hfeed, h⟩
  case description => exact captured?_eq_some_iff.mpr ⟨hfeed, h⟩
  all_goals exact congrArg some (Eq.symm h)

end Keyword

/-! ### Trying the keywords -/

/-- The text of a line that is a comment. -/
def Marker.comment? (marker : Marker) (line : Text) : Option Text :=
  (Text.after? marker.text line.trim).map trimStart

/-- What a keyword alone makes of a line. -/
def Marker.tagBy? (marker : Marker) (line : Text) (keyword : Keyword) : Option Tag := do
  let comment ← marker.comment? line
  let rest ← Text.after? keyword.text comment
  keyword.read? rest

/-- The tag of the first keyword that makes something of a line. -/
def Marker.classifyBy (marker : Marker) (keywords : List Keyword) (line : Text) : Tag :=
  (keywords.findSome? (marker.tagBy? line)).getD .code

theorem comment?_eq_some_iff :
    marker.comment? line = some comment ↔ ∃ blanks, (∀ c ∈ blanks, isBlank c) ∧
      line.trim = marker.text ++ blanks ++ comment ∧ trimStart comment = comment := by
  unfold Marker.comment?
  simp only [Option.map_eq_some_iff, Text.after?_eq_some_iff]
  constructor
  · rintro ⟨rest, hline, rfl⟩
    refine ⟨rest.takeWhile isBlank, fun c hc => List.mem_takeWhile_imp hc, ?_,
      Text.dropWhile_dropWhile isBlank rest⟩
    rw [hline, List.append_assoc]
    exact congrArg _ List.takeWhile_append_dropWhile.symm
  · rintro ⟨blanks, hblanks, hline, hcomment⟩
    refine ⟨blanks ++ comment, by rw [hline, List.append_assoc], ?_⟩
    rw [Text.trimStart_append_of_blank _ hblanks, hcomment]

theorem tagBy?_eq_some_iff {keyword : Keyword} :
    marker.tagBy? line keyword = some tag ↔ ∃ blanks rest, (∀ c ∈ blanks, isBlank c) ∧
      line.trim = marker.text ++ blanks ++ keyword.text ++ rest ∧ keyword.read? rest = some tag := by
  unfold Marker.tagBy?
  simp only [Option.bind_eq_bind, Option.bind_eq_some_iff, comment?_eq_some_iff, Text.after?_eq_some_iff]
  constructor
  · rintro ⟨_, ⟨blanks, hblanks, hline, -⟩, rest, rfl, hread⟩
    exact ⟨blanks, rest, hblanks, by rw [hline, List.append_assoc _ keyword.text], hread⟩
  · rintro ⟨blanks, rest, hblanks, hline, hread⟩
    exact ⟨_, ⟨blanks, hblanks, by rw [hline, List.append_assoc _ keyword.text],
      keyword.trimStart_text_append rest⟩, rest, rfl, hread⟩

theorem tags_of_tagBy? {keyword : Keyword} (h : marker.tagBy? line keyword = some tag) :
    keyword.Tags marker.text line tag := by
  obtain ⟨blanks, rest, hblanks, hline, hread⟩ := tagBy?_eq_some_iff.mp h
  exact ⟨blanks, rest, hblanks, hline, Keyword.reads_of_read? hread⟩

theorem tagBy?_of_tags {keyword : Keyword} (h : keyword.Tags marker.text line tag) (hfeed : '\n' ∉ line) :
    marker.tagBy? line keyword = some tag := by
  obtain ⟨blanks, rest, hblanks, hline, hreads⟩ := h
  have hrest : '\n' ∉ rest := by
    intro hmem
    refine hfeed (Text.mem_of_mem_trim ?_)
    rw [hline]
    exact List.mem_append_right _ hmem
  exact tagBy?_eq_some_iff.mpr ⟨blanks, rest, hblanks, hline, Keyword.read?_of_reads hreads hrest⟩

theorem classifyBy_eq_iff {keywords : List Keyword} (hall : ∀ keyword, keyword ∈ keywords)
    (htag : tag ≠ .code) :
    marker.classifyBy keywords line = tag ↔ ∃ keyword, marker.tagBy? line keyword = some tag := by
  have hagree : ∀ a a' b b', marker.tagBy? line a = some b → marker.tagBy? line a' = some b' → b = b' :=
    fun a a' b b' h h' => ((tags_of_tagBy? h).unique (tags_of_tagBy? h')).2
  rw [← findSome?_eq_some_iff_of_agree hall hagree, Marker.classifyBy]
  cases keywords.findSome? (marker.tagBy? line) with
  | none => simpa using htag.symm
  | some found => simp

/-- The keywords in the order in which a line is tried. -/
def Keyword.all : List Keyword := [beginSample, endSample, beginHidden, endHidden, title, description]

theorem Keyword.mem_all (keyword : Keyword) : keyword ∈ all := by
  cases keyword <;> decide

theorem ofComment?_eq_findSome? (comment : Text) :
    Tag.ofComment? comment =
      Keyword.all.findSome? fun keyword => (Text.after? keyword.text comment).bind keyword.read? := by
  have hcons (f : Keyword → Option Tag) (first : Keyword) (rest : List Keyword) :
      (first :: rest).findSome? f = (f first).or (rest.findSome? f) := by
    rw [List.findSome?_cons]
    cases f first <;> rfl
  simp only [Tag.ofComment?, Option.map_eq_bind, Option.orElse_eq_orElse, Option.orElse_eq_or]
  simp only [Keyword.all, hcons, List.findSome?_nil, Option.or_none]
  rfl

theorem classify_eq_classifyBy (marker : Marker) (line : Text) :
    marker.classify line = marker.classifyBy Keyword.all line := by
  unfold Marker.classify Marker.classifyBy Marker.tagBy?
  change ((marker.comment? line).bind Tag.ofComment?).getD .code = _
  cases marker.comment? line with
  | none => rfl
  | some comment => exact congrArg (Option.getD · .code) (ofComment?_eq_findSome? comment)

/-- The tag of a line that is one comes about by a keyword. -/
theorem exists_tags_of_classify (h : marker.classify line = tag) (htag : tag ≠ .code) :
    ∃ keyword : Keyword, keyword.Tags marker.text line tag := by
  rw [classify_eq_classifyBy, classifyBy_eq_iff Keyword.mem_all htag] at h
  obtain ⟨keyword, htagBy⟩ := h
  exact ⟨keyword, tags_of_tagBy? htagBy⟩

/-- A line without a line feed is a tag exactly by the keywords. -/
theorem classify_eq_iff_tags (hfeed : '\n' ∉ line) (htag : tag ≠ .code) :
    marker.classify line = tag ↔ ∃ keyword : Keyword, keyword.Tags marker.text line tag := by
  constructor
  · exact fun h => exists_tags_of_classify h htag
  · rintro ⟨keyword, htags⟩
    rw [classify_eq_classifyBy, classifyBy_eq_iff Keyword.mem_all htag]
    exact ⟨keyword, tagBy?_of_tags htags hfeed⟩

theorem isTag_eq_true_iff : marker.isTag line = true ↔ marker.classify line ≠ .code := by
  simp [Marker.isTag]

theorem isTag_iff_tags (hfeed : '\n' ∉ line) :
    marker.isTag line = true ↔ ∃ (keyword : Keyword) (tag : Tag), keyword.Tags marker.text line tag := by
  rw [isTag_eq_true_iff]
  constructor
  · intro htag
    obtain ⟨keyword, htags⟩ := exists_tags_of_classify rfl htag
    exact ⟨keyword, _, htags⟩
  · rintro ⟨keyword, tag, htags⟩ hcode
    have hclass := (classify_eq_iff_tags hfeed htags.ne_code).mpr ⟨keyword, htags⟩
    exact htags.ne_code (hclass.symm.trans hcode)

/-- The order in which the keywords are tried makes no difference. -/
theorem classifyBy_eq_classify {keywords : List Keyword} (hall : ∀ keyword, keyword ∈ keywords) (line : Text) :
    marker.classifyBy keywords line = marker.classify line := by
  by_cases hcode : marker.classify line = .code
  · by_contra hne
    rw [hcode] at hne
    obtain ⟨keyword, htagBy⟩ := (classifyBy_eq_iff hall hne).mp rfl
    have htag : marker.classifyBy Keyword.all line = _ :=
      (classifyBy_eq_iff Keyword.mem_all hne).mpr ⟨keyword, htagBy⟩
    rw [← classify_eq_classifyBy, hcode] at htag
    exact hne htag.symm
  · have htagBy := (classifyBy_eq_iff Keyword.mem_all hcode).mp (classify_eq_classifyBy marker line).symm
    exact (classifyBy_eq_iff hall hcode).mpr htagBy

/-! ### Blanks -/

theorem classify_congr {other : Text} (h : line.trim = other.trim) :
    marker.classify line = marker.classify other := by
  rw [Marker.classify, h, Marker.classify]

theorem classify_pad {before after : Text} (hbefore : ∀ c ∈ before, isBlank c)
    (hafter : ∀ c ∈ after, isBlank c) :
    marker.classify (before ++ line ++ after) = marker.classify line := by
  apply classify_congr
  rw [Text.trim_append_of_blank _ hafter, Text.trim_blank_append _ hbefore]

theorem comment?_marker_append (hblanks : ∀ c ∈ blanks, isBlank c) (rest : Text) :
    marker.comment? (marker.text ++ blanks ++ rest) = some (trimStart (trimEnd rest)) := by
  have hstart : trimStart (marker.text ++ blanks ++ rest) = marker.text ++ blanks ++ rest := by
    have hmarker := Text.trimStart_eq_self_of_trim marker.trim_text
    rw [List.append_assoc, Text.trimStart_append _ (hmarker.symm ▸ marker.text_ne), hmarker]
  rw [Marker.comment?, trim, hstart]
  by_cases hrest : trimEnd rest = []
  · have hblank : ∀ c ∈ blanks ++ rest, isBlank c := by
      simpa [or_imp, forall_and] using ⟨hblanks, Text.trimEnd_eq_nil_iff.mp hrest⟩
    rw [List.append_assoc, Text.trimEnd_append_of_blank _ hblank,
      Text.trimEnd_eq_self_of_trim marker.trim_text, hrest, Text.after?_self]
    rfl
  · rw [Text.trimEnd_append _ hrest, List.append_assoc, Text.after?_append, Option.map_some,
      Text.trimStart_append_of_blank _ hblanks]

theorem classify_marker_append (hblanks : ∀ c ∈ blanks, isBlank c) (rest : Text) :
    marker.classify (marker.text ++ blanks ++ rest) =
      (Tag.ofComment? (trimStart (trimEnd rest))).getD .code := by
  have hcomment : marker.comment? (marker.text ++ blanks ++ rest) = some (trimStart (trimEnd rest)) :=
    comment?_marker_append hblanks rest
  exact congrArg (fun comment? => (comment?.bind Tag.ofComment?).getD .code) hcomment

/-- The blanks behind the marker make no difference. -/
theorem classify_blanks {before other : Text} (hbefore : ∀ c ∈ before, isBlank c)
    (hblanks : ∀ c ∈ blanks, isBlank c) (hother : ∀ c ∈ other, isBlank c) (rest : Text) :
    marker.classify (before ++ marker.text ++ other ++ rest) =
      marker.classify (before ++ marker.text ++ blanks ++ rest) := by
  have hpad (between : Text) : marker.classify (before ++ marker.text ++ between ++ rest) =
      marker.classify (marker.text ++ between ++ rest) := by
    have hpadded : marker.classify (before ++ (marker.text ++ between ++ rest) ++ []) = _ :=
      classify_pad hbefore (by simp)
    simpa only [List.append_assoc, List.append_nil] using hpadded
  rw [hpad, hpad, classify_marker_append hother, classify_marker_append hblanks]

theorem ofText_eq_ok_iff {m : Text} : Marker.ofText m = .ok marker ↔ m.trim ≠ [] ∧ marker.text = m.trim := by
  unfold Marker.ofText
  split
  · simp_all [refuseAbsent]
  · rename_i hne
    cases marker
    simp [hne, eq_comm]

/-- **What makes a line a tag.** The marker is taken as it is, without the blanks at its ends. -/
theorem classify_exact {m : Text} {marker : Marker} (hmarker : Marker.ofText m = .ok marker) {line : Text}
    (hfeed : '\n' ∉ line) :
    (∀ tag, tag ≠ .code → (marker.classify line = tag ↔ ∃ keyword : Keyword, keyword.Tags m.trim line tag)) ∧
      (marker.isTag line = true ↔ ∃ (keyword : Keyword) (tag : Tag), keyword.Tags m.trim line tag) ∧
      (∀ (keyword other : Keyword) (tag tag' : Tag), keyword.Tags m.trim line tag →
        other.Tags m.trim line tag' → keyword = other ∧ tag = tag') ∧
      (∀ keywords : List Keyword, (∀ keyword, keyword ∈ keywords) →
        marker.classifyBy keywords line = marker.classify line) ∧
      (∀ before after : Text, (∀ c ∈ before, isBlank c) → (∀ c ∈ after, isBlank c) →
        marker.classify (before ++ line ++ after) = marker.classify line) ∧
      ∀ before blanks other rest : Text, (∀ c ∈ before, isBlank c) → (∀ c ∈ blanks, isBlank c) →
        (∀ c ∈ other, isBlank c) → line = before ++ m.trim ++ blanks ++ rest →
          marker.classify (before ++ m.trim ++ other ++ rest) = marker.classify line := by
  obtain ⟨-, htext⟩ := ofText_eq_ok_iff.mp hmarker
  rw [← htext]
  refine ⟨fun tag htag => classify_eq_iff_tags hfeed htag, isTag_iff_tags hfeed,
    fun keyword other tag tag' h h' => h.unique h', fun keywords hall => classifyBy_eq_classify hall line,
    fun before after => classify_pad, ?_⟩
  rintro before blanks other rest hbefore hblanks hother rfl
  exact classify_blanks hbefore hblanks hother rest

/-- A marker of characters that stand for something else in patterns. -/
def Marker.stars : Marker := ⟨"(*+".toList, by decide, by decide⟩

theorem classify_exact_stars :
    Marker.ofText " (*+ ".toList = .ok .stars ∧ '\n' ∉ "  (*+ TITLE: Send it ".toList ∧
      (∃ keyword : Keyword, keyword.Tags "(*+".toList "  (*+ TITLE: Send it ".toList (.title " Send it".toList)) ∧
      Marker.stars.classifyBy Keyword.all.reverse "  (*+ TITLE: Send it ".toList = .title " Send it".toList ∧
      Marker.stars.classify "  (*+TITLE: Send it ".toList = .title " Send it".toList := by
  have hmarker : Marker.ofText " (*+ ".toList = .ok .stars := ofText_eq_ok_iff.mpr ⟨by decide, by decide⟩
  have hfeed : '\n' ∉ "  (*+ TITLE: Send it ".toList := by decide
  have htitle : Marker.stars.classify "  (*+ TITLE: Send it ".toList = .title " Send it".toList := by
    decide +kernel
  obtain ⟨hexact, -, -, horder, -, hblanks⟩ := classify_exact hmarker hfeed
  have hreverse := horder Keyword.all.reverse fun keyword => List.mem_reverse.mpr keyword.mem_all
  have hspaces (k : Nat) : ∀ c ∈ List.replicate k ' ', isBlank c := by
    intro c hc
    obtain rfl := List.eq_of_mem_replicate hc
    rfl
  have hclose := hblanks _ _ _ "TITLE: Send it ".toList (hspaces 2) (hspaces 1) (hspaces 0) rfl
  exact ⟨hmarker, hfeed, (hexact _ (by simp)).mp htitle, hreverse.trans htitle, hclose.trans htitle⟩

end Markup

end Exemplar
