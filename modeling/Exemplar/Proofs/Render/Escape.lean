import Exemplar.Proofs.Text.Cut
import Exemplar.Render.Html

/-!
# Escaped code in HTML

Escaping replaces four characters by entities. Replacing one of them after the other gives the same, for the
ampersands are replaced first and no entity has one of the other three. In escaped code an ampersand only starts an
entity, so the code can be read back from it.

Escaped code has no tag in it. In a list of samples it therefore ends at the next closing tag, whatever the code is.
Titles and descriptions are HTML of their own; as long as they open no code, the code of the samples is all that a
reader of the list finds.
-/

namespace Exemplar.Render.Html

/-- The characters that are replaced, in the order in which that can be done one after the other. -/
def entities : List (Char × Text) :=
  [('&', "&amp;".toList), ('<', "&lt;".toList), ('>', "&gt;".toList), ('"', "&quot;".toList)]

/-- Reads entities as what they stand for. -/
def unescape : Text → Text
  | '&' :: 'a' :: 'm' :: 'p' :: ';' :: rest => '&' :: unescape rest
  | '&' :: 'l' :: 't' :: ';' :: rest => '<' :: unescape rest
  | '&' :: 'g' :: 't' :: ';' :: rest => '>' :: unescape rest
  | '&' :: 'q' :: 'u' :: 'o' :: 't' :: ';' :: rest => '"' :: unescape rest
  | c :: rest => c :: unescape rest
  | [] => []

/-! ### Entities -/

variable {c : Char} {entity t before after : Text}

theorem escapeChar_eq_lookup (c : Char) : escapeChar c = (entities.lookup c).getD [c] := by
  unfold escapeChar
  split_ifs with hamp hless hgreater hquote
  · rw [hamp]
    rfl
  · rw [hless]
    rfl
  · rw [hgreater]
    rfl
  · rw [hquote]
    rfl
  · have hnone : entities.lookup c = none := by
      refine List.lookup_eq_none_iff.mpr ?_
      simp [entities, hamp, hless, hgreater, hquote]
    rw [hnone, Option.getD_none]

/-- A character is escaped by its entity, or it has none and stays. -/
theorem escapeChar_cases (c : Char) :
    (∃ entity, (c, entity) ∈ entities ∧ escapeChar c = entity) ∨
      (∀ entry ∈ entities, entry.1 ≠ c) ∧ escapeChar c = [c] := by
  rw [escapeChar_eq_lookup]
  cases hfound : entities.lookup c with
  | some entity =>
      obtain ⟨left, right, hsplit, -⟩ := List.lookup_eq_some_iff.mp hfound
      exact .inl ⟨entity, by simp [hsplit], rfl⟩
  | none =>
      refine .inr ⟨?_, rfl⟩
      intro entry hentry heq
      simpa [heq] using List.lookup_eq_none_iff.mp hfound entry hentry

/-- An entity starts with an ampersand and has no character that is replaced after it. -/
theorem entity_shape (h : (c, entity) ∈ entities) :
    ∃ rest, entity = '&' :: rest ∧ ∀ entry ∈ entities, entry.1 ∉ rest := by
  simp only [entities, List.mem_cons, Prod.mk.injEq, List.not_mem_nil, or_false] at h
  rcases h with ⟨-, rfl⟩ | ⟨-, rfl⟩ | ⟨-, rfl⟩ | ⟨-, rfl⟩ <;> exact ⟨_, rfl, by decide⟩

theorem unescape_entity (h : (c, entity) ∈ entities) (rest : Text) :
    unescape (entity ++ rest) = c :: unescape rest := by
  simp only [entities, List.mem_cons, Prod.mk.injEq, List.not_mem_nil, or_false] at h
  rcases h with ⟨rfl, rfl⟩ | ⟨rfl, rfl⟩ | ⟨rfl, rfl⟩ | ⟨rfl, rfl⟩ <;> rfl

theorem unescape_cons (h : c ≠ '&') (rest : Text) : unescape (c :: rest) = c :: unescape rest := by
  conv_lhs => unfold unescape
  split <;> simp_all

/-! ### Escaped texts -/

theorem escape_cons (c : Char) (t : Text) : escape (c :: t) = escapeChar c ++ escape t := List.flatMap_cons

/-- **Escaping can be done one character after the other.** -/
theorem escape_eq_replaceAll (t : Text) :
    escape t =
      (((t.replaceAll '&' "&amp;".toList).replaceAll '<' "&lt;".toList).replaceAll '>' "&gt;".toList).replaceAll
        '"' "&quot;".toList := by
  have happart : entities.Pairwise fun a b => b.1 ∉ a.2 := by decide
  calc escape t
      = t.flatMap fun c => (entities.lookup c).getD [c] := by rw [escape, funext escapeChar_eq_lookup]
    _ = entities.foldl (fun t entry => t.replaceAll entry.1 entry.2) t := (Text.foldl_replaceAll happart t).symm
    _ = _ := rfl

theorem not_mem_escape (h : c ∈ ['<', '>', '"']) (t : Text) : c ∉ escape t := by
  have hspecial : c ∈ entities.map Prod.fst := List.mem_cons_of_mem _ h
  obtain ⟨entry, hentry, rfl⟩ := List.mem_map.mp hspecial
  intro hmem
  obtain ⟨d, -, hd⟩ := List.mem_flatMap.mp hmem
  rcases escapeChar_cases d with ⟨entity, hentity, heq⟩ | ⟨hplain, heq⟩
  · obtain ⟨rest, hshape, hrest⟩ := entity_shape hentity
    have hin : entry.1 ∈ '&' :: rest := by rwa [heq, hshape] at hd
    rcases List.mem_cons.mp hin with hamp | hlater
    · rw [hamp] at h
      exact absurd h (by decide)
    · exact hrest entry hentry hlater
  · rw [heq, List.mem_singleton] at hd
    exact hplain entry hentry hd

/-- An ampersand in escaped text starts an entity. -/
theorem exists_entity_of_escape (h : escape t = before ++ '&' :: after) :
    ∃ entry ∈ entities, entry.2 <+: '&' :: after := by
  induction t generalizing before with
  | nil => simp [escape] at h
  | cons c t ih =>
      rw [escape_cons] at h
      rcases List.append_eq_append_iff.mp h with ⟨middle, -, hlater⟩ | ⟨middle, hfirst, hlater⟩
      · exact ih hlater
      · cases middle with
        | nil =>
            have hstart : escape t = [] ++ '&' :: after := hlater.symm
            exact ih hstart
        | cons d middle =>
            obtain ⟨rfl, rfl⟩ := List.cons.inj hlater
            rcases escapeChar_cases c with ⟨entity, hentity, heq⟩ | ⟨hplain, heq⟩
            · obtain ⟨rest, hshape, hrest⟩ := entity_shape hentity
              rw [heq, hshape] at hfirst
              cases before with
              | nil =>
                  refine ⟨_, hentity, ?_⟩
                  rw [hshape, hfirst]
                  exact List.prefix_append ('&' :: middle) (escape t)
              | cons b before =>
                  have hamp : '&' ∈ rest := by simp [(List.cons.inj hfirst).2]
                  exact absurd hamp (hrest ('&', "&amp;".toList) List.mem_cons_self)
            · have hamp : '&' ∈ escapeChar c := hfirst ▸ List.mem_append_right before List.mem_cons_self
              rw [heq, List.mem_singleton] at hamp
              exact absurd hamp (hplain ('&', "&amp;".toList) List.mem_cons_self)

theorem unescape_escape (t : Text) : unescape (escape t) = t := by
  induction t with
  | nil => rfl
  | cons c t ih =>
      rw [escape_cons]
      rcases escapeChar_cases c with ⟨entity, hentity, heq⟩ | ⟨hplain, heq⟩
      · rw [heq, unescape_entity hentity, ih]
      · have hamp : c ≠ '&' := fun hc => hplain ('&', "&amp;".toList) List.mem_cons_self hc.symm
        rw [heq, List.singleton_append, unescape_cons hamp, ih]

/-! ### Code in a list of samples -/

/-- What follows the first character of the tag before the code of a sample. -/
def openingRest : Text := "pre class=\"brush: java\">".toList

/-- The tag before the code of a sample. -/
def opening : Text := '<' :: openingRest

/-- The tag after the code of a sample. -/
def closing : Text := "</pre>".toList

/-- What stands before the first sample. -/
def listHead : Text := "<br/><b>Samples:</b>".toList ++ "<ul class=\"sampleList\"><li class=\"sampleList\">".toList

def listEnd : Text := "</li></ul>".toList

/-- What a sample has before its code. -/
def heading (s : Retrieved) : Text :=
  "<h5>".toList ++ s.title ++ "</h5>".toList ++ "<div class=\"block\">".toList ++ s.description ++ "<br/> ".toList

/-- The code between each tag that opens code and the next tag that closes it. -/
def codes (t : Text) : List Text :=
  match _hopening : Text.cut? opening t with
  | none => []
  | some (_, rest) =>
    match _hclosing : Text.cut? closing rest with
    | none => []
    | some (code, later) => unescape code :: codes later
termination_by t.length
decreasing_by
  have hrest := Text.length_of_cut? _hopening
  have hlater := Text.length_of_cut? _hclosing
  have hmark : opening.length = openingRest.length + 1 := rfl
  omega

/-- A sample whose title and description open no code. -/
structure Headed (s : Retrieved) : Prop where
  title : ¬opening <:+: s.title
  description : ¬opening <:+: s.description

variable {s : Retrieved} {samples : List Retrieved} {lead rest code later : Text}

theorem item_eq (s : Retrieved) :
    item s = heading s ++ opening ++ escape s.content ++ closing ++ "</div>".toList := by
  have hopening : "<br/> <pre class=\"brush: java\">".toList = "<br/> ".toList ++ opening := by decide +kernel
  have hclosing : "</pre></div>".toList = closing ++ "</div>".toList := by decide +kernel
  calc item s
      = "<h5>".toList ++ s.title ++ "</h5>".toList ++ "<div class=\"block\">".toList ++ s.description ++
          ("<br/> ".toList ++ opening) ++ escape s.content ++ (closing ++ "</div>".toList) :=
        congrArg₂ (fun before after => "<h5>".toList ++ s.title ++ "</h5>".toList ++ "<div class=\"block\">".toList ++
          s.description ++ before ++ escape s.content ++ after) hopening hclosing
    _ = heading s ++ opening ++ escape s.content ++ closing ++ "</div>".toList := by
        unfold heading
        simp only [List.append_assoc]

theorem render_of_ne (h : samples ≠ []) : render samples = listHead ++ samples.flatMap item ++ listEnd := by
  unfold render listHead listEnd
  rw [if_neg h]

theorem codes_of_none (h : Text.cut? opening t = none) : codes t = [] := by
  rw [codes]
  split
  · rfl
  · simp_all

theorem codes_of_cut? (hopening : Text.cut? opening t = some (lead, rest))
    (hclosing : Text.cut? closing rest = some (code, later)) : codes t = unescape code :: codes later := by
  rw [codes]
  split
  · simp_all
  · rename_i found hfound
    obtain ⟨rfl, rfl⟩ := Prod.mk.inj (Option.some.inj (hopening.symm.trans hfound))
    split
    · simp_all
    · rename_i found hfound
      obtain ⟨rfl, rfl⟩ := Prod.mk.inj (Option.some.inj (hclosing.symm.trans hfound))
      rfl

/-- Escaped code ends at the next closing tag. -/
theorem cut?_closing (t later : Text) : Text.cut? closing (escape t ++ closing ++ later) = some (escape t, later) := by
  have hless : '<' ∉ escape t := not_mem_escape (by decide) t
  have hinfix : ¬closing <:+: escape t := fun h => hless (h.subset List.mem_cons_self)
  exact Text.cut?_append (by decide) hinfix later

/-! A tag that opens code starts at its only less-than sign. So it is in the heading of a sample only if it is in the
title or in the description. -/

theorem infix_or_infix_of_less {piece next : Text} (hnext : next.head? = some '<') (h : opening <:+: piece ++ next) :
    opening <:+: piece ∨ opening <:+: next :=
  Text.infix_or_infix_of_append (by decide) hnext h

theorem not_infix_heading (h : Headed s) : ¬opening <:+: heading s := by
  have hheading : heading s =
      ("<h5>".toList ++ s.title) ++ ("</h5>".toList ++
        (("<div class=\"block\">".toList ++ s.description) ++ "<br/> ".toList)) := by
    unfold heading
    simp only [List.append_assoc]
  have htitle : ∀ part ∈ "<h5>".toList.tails, part ≠ [] → ¬part <+: opening ∧ ¬opening <+: part := by decide +kernel
  have hdescription : ∀ part ∈ "<div class=\"block\">".toList.tails, part ≠ [] →
      ¬part <+: opening ∧ ¬opening <+: part := by decide +kernel
  intro hinfix
  rw [hheading] at hinfix
  rcases infix_or_infix_of_less rfl hinfix with hfirst | hinfix
  · exact h.title (Text.infix_of_append htitle hfirst)
  · rcases infix_or_infix_of_less rfl hinfix with hend | hinfix
    · exact absurd hend.length_le (by decide)
    · rcases infix_or_infix_of_less rfl hinfix with hsecond | hbreak
      · exact h.description (Text.infix_of_append hdescription hsecond)
      · exact absurd hbreak.length_le (by decide)

theorem cut?_opening (hlead : ¬opening <:+: lead) (h : Headed s) (rest : Text) :
    Text.cut? opening (lead ++ heading s ++ opening ++ rest) = some (lead ++ heading s, rest) := by
  have hinfix : ¬opening <:+: lead ++ heading s := by
    intro hinfix
    rcases infix_or_infix_of_less rfl hinfix with hlead' | hheading
    · exact hlead hlead'
    · exact not_infix_heading h hheading
  exact Text.cut?_append (by decide) hinfix rest

theorem codes_append_item (hlead : ¬opening <:+: lead) (h : Headed s) (rest : Text) :
    codes (lead ++ item s ++ rest) = s.content :: codes ("</div>".toList ++ rest) := by
  have hitem : lead ++ item s ++ rest =
      lead ++ heading s ++ opening ++ (escape s.content ++ closing ++ ("</div>".toList ++ rest)) := by
    simp only [item_eq, List.append_assoc]
  rw [hitem, codes_of_cut? (cut?_opening hlead h _) (cut?_closing _ _), unescape_escape]

theorem codes_append_items (hlead : ¬opening <:+: lead) (h : ∀ s ∈ samples, Headed s) :
    codes (lead ++ samples.flatMap item ++ listEnd) = samples.map (·.content) := by
  induction samples generalizing lead with
  | nil =>
      apply codes_of_none
      apply Text.cut?_eq_none
      intro hinfix
      rw [List.flatMap_nil, List.append_nil] at hinfix
      rcases infix_or_infix_of_less rfl hinfix with hlead' | hend
      · exact hlead hlead'
      · exact absurd hend.length_le (by decide)
  | cons s samples ih =>
      obtain ⟨hs, hsamples⟩ := List.forall_mem_cons.mp h
      have hdiv : ¬opening <:+: "</div>".toList := fun hinfix => absurd hinfix.length_le (by decide)
      calc codes (lead ++ (s :: samples).flatMap item ++ listEnd)
          = codes (lead ++ item s ++ (samples.flatMap item ++ listEnd)) := by
            simp only [List.flatMap_cons, List.append_assoc]
        _ = s.content :: codes ("</div>".toList ++ samples.flatMap item ++ listEnd) := by
            rw [codes_append_item hlead hs, List.append_assoc]
        _ = (s :: samples).map (·.content) := by rw [ih hdiv hsamples, List.map_cons]

/-- The code of a sample stands between its own opening tag and the next closing tag. -/
theorem exists_code_of_append {before after : List Retrieved} (h : samples = before ++ s :: after) :
    ∃ rest code later, render samples = listHead ++ before.flatMap item ++ heading s ++ opening ++ rest ∧
      Text.cut? closing rest = some (code, later) ∧ unescape code = s.content := by
  have hrender : render samples = listHead ++ before.flatMap item ++ heading s ++ opening ++
      (escape s.content ++ closing ++ ("</div>".toList ++ (after.flatMap item ++ listEnd))) := by
    rw [render_of_ne (by simp [h]), h, List.flatMap_append, List.flatMap_cons, item_eq]
    simp only [List.append_assoc]
  exact ⟨_, _, _, hrender, cut?_closing s.content _, unescape_escape s.content⟩

theorem codes_render (h : ∀ s ∈ samples, Headed s) : codes (render samples) = samples.map (·.content) := by
  by_cases hne : samples = []
  · rw [hne]
    exact codes_of_none rfl
  · have hhead : ¬opening <:+: listHead := by decide +kernel
    rw [render_of_ne hne]
    exact codes_append_items hhead h

/-- **Escaped code is read back as it was.** Escaping is replacing one character after the other, leaves no character
of a tag and no ampersand that starts no entity, and is undone by reading the entities. In a list of samples, the code
of each stands between its opening tag and the next closing tag; and if no title and no description opens code, the
code that the list has is that of the samples. -/
theorem code_read_back (t : Text) (samples : List Retrieved) :
    escape t =
        (((t.replaceAll '&' "&amp;".toList).replaceAll '<' "&lt;".toList).replaceAll '>' "&gt;".toList).replaceAll
          '"' "&quot;".toList ∧
      (∀ c ∈ ['<', '>', '"'], c ∉ escape t) ∧
      (∀ before after, escape t = before ++ '&' :: after → ∃ entry ∈ entities, entry.2 <+: '&' :: after) ∧
      unescape (escape t) = t ∧
      (∀ before s after, samples = before ++ s :: after →
        ∃ rest code later, render samples = listHead ++ before.flatMap item ++ heading s ++ opening ++ rest ∧
          Text.cut? closing rest = some (code, later) ∧ unescape code = s.content) ∧
      ((∀ s ∈ samples, Headed s) → codes (render samples) = samples.map (·.content)) :=
  ⟨escape_eq_replaceAll t, fun _ hc => not_mem_escape hc t, fun _ _ => exists_entity_of_escape, unescape_escape t,
    fun _ _ _ => exists_code_of_append, codes_render⟩

/-- A sample with tags in its title, and with tags and an entity in its code. -/
def taggedBundle : Retrieved :=
  ⟨"Ship".toList, "Bundles".toList, "Ship <b>now</b>".toList, "Ships a bundle.".toList,
    "</pre>&lt;<pre class=\"brush: java\">".toList, by decide, by decide, by decide, by decide, by decide⟩

theorem code_read_back_taggedBundle :
    (∀ s ∈ [taggedBundle, taggedBundle], Headed s) ∧
      escape "a<b && c&gt;".toList = "a&lt;b &amp;&amp; c&amp;gt;".toList ∧
      unescape (escape "a<b && c&gt;".toList) = "a<b && c&gt;".toList ∧
      codes (render [taggedBundle, taggedBundle]) = [taggedBundle.content, taggedBundle.content] := by
  have hheaded : Headed taggedBundle := ⟨by decide +kernel, by decide +kernel⟩
  have hall : ∀ s ∈ [taggedBundle, taggedBundle], Headed s := by simpa using hheaded
  obtain ⟨-, -, -, hback, -, hcodes⟩ := code_read_back "a<b && c&gt;".toList [taggedBundle, taggedBundle]
  exact ⟨hall, by decide +kernel, hback, hcodes hall⟩

end Exemplar.Render.Html
