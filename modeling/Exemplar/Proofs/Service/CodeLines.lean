import Exemplar.Proofs.Markup.Classify
import Exemplar.Proofs.Markup.Run
import Exemplar.Proofs.Service.Rendered
import Exemplar.Service.ClassSource

/-!
# Lines of code

A line that reads back as it was written, and as code: it does not break, no carriage return stands at its
end and it is no tag. The lines of a sample's body are such lines if the texts that they take over do not
break, no type starts like a comment and no comment has a carriage return.
-/

namespace Exemplar.Service

open Json (Value)
open Markup (Marker)
open Text (trimStart trimEnd isBlank)

def CodeLine (line : Text) : Prop :=
  '\n' ∉ line ∧ line.getLast? ≠ some '\r' ∧ Marker.slashes.classify line = .code

theorem CodeLine.lines_eq {line : Text} (h : CodeLine line) : Text.lines (line ++ ['\n']) = [line] := by
  rw [Text.lines_single h.1, Text.chomp_of_getLast? h.2.1]

theorem CodeLine.symbol_eq {line : Text} (h : CodeLine line) :
    Marker.slashes.symbol line = .note (.code line) := by
  rw [Marker.symbol, h.2.2]
  rfl

theorem isBlank_of_mem_indent {n : Nat} : ∀ c ∈ List.replicate n ' ', isBlank c := by
  intro c hc
  rw [List.eq_of_mem_replicate hc]
  decide

/-- An indented line is code if what follows the indentation is no comment. -/
theorem codeLine_indent {n : Nat} {t : Text} (hfeed : '\n' ∉ t) (hlast : t.getLast? ≠ some '\r')
    (hstart : ¬ ['/', '/'] <+: trimStart t) : CodeLine (List.replicate n ' ' ++ t) := by
  refine ⟨?_, ?_, ?_⟩
  · simp [hfeed]
  · rw [List.getLast?_append]
    cases hend : t.getLast? with
    | none => simp [List.getLast?_replicate]
    | some c => simpa [hend] using hlast
  · apply Markup.classify_eq_code
    rw [Text.trimStart_append_of_blank _ isBlank_of_mem_indent]
    exact hstart

theorem codeLine_of_ends (n : Nat) {first last : Char} {inside : Text} (hfirst : isBlank first = false)
    (hslash : first ≠ '/') (hret : last ≠ '\r') (hfeed : '\n' ∉ first :: inside ++ [last]) :
    CodeLine (List.replicate n ' ' ++ (first :: inside ++ [last])) := by
  apply codeLine_indent hfeed
  · rw [List.getLast?_concat]
    simpa using hret
  · rw [List.cons_append, Text.trimStart_cons _ hfirst]
    simp [hslash.symm]

/-! ### Statements that start with a name -/

/-- A name that does not look like a comment, with a word after it, does not either. -/
theorem slashes_not_prefix_of_name {name word : Text} (hname : ¬ ['/', '/'] <+: name.trim)
    (hword : trimStart word = word) (hstart : ¬ ['/', '/'] <+: word) :
    ¬ ['/', '/'] <+: trimStart (name ++ ' ' :: word) := by
  by_cases hblank : trimStart name = []
  · rw [Text.trimStart_append_of_blank _ (Text.trimStart_eq_nil_iff.mp hblank)]
    have hspace : trimStart (' ' :: word) = word := hword
    rwa [hspace]
  · rw [Text.trimStart_append _ hblank]
    rintro ⟨rest, hrest⟩
    cases hvisible : trimStart name with
    | nil => exact hblank hvisible
    | cons first later =>
        rw [hvisible] at hrest
        obtain ⟨rfl, hlater⟩ := List.cons.inj hrest
        cases later with
        | nil => exact absurd (List.cons.inj hlater).1 (by decide)
        | cons second later =>
            obtain ⟨rfl, -⟩ := List.cons.inj hlater
            have htrim : name.trim = ['/', '/'] ++ trimEnd later := by
              rw [Text.trim, hvisible]
              by_cases hlater : trimEnd later = []
              · rw [show '/' :: '/' :: later = ['/', '/'] ++ later from rfl,
                  Text.trimEnd_append_of_blank _ (Text.trimEnd_eq_nil_iff.mp hlater), hlater]
                rfl
              · exact Text.trimEnd_append ['/', '/'] hlater
            exact hname ⟨_, htrim.symm⟩

theorem codeLine_of_name {name word : Text} (hfeed : '\n' ∉ name)
    (hname : ¬ ['/', '/'] <+: name.trim) (hword : '\n' ∉ word) (hvisible : trimStart word = word)
    (hstart : ¬ ['/', '/'] <+: word) (hlast : ∃ init c, word = init ++ [c] ∧ c ≠ '\r') :
    CodeLine (bodyIndent ++ name ++ ' ' :: word) := by
  obtain ⟨init, last, rfl, hret⟩ := hlast
  rw [bodyIndent, List.append_assoc]
  apply codeLine_indent
  · simpa [hfeed] using hword
  · rw [← List.cons_append, ← List.append_assoc, List.getLast?_concat]
    simpa using hret
  · exact slashes_not_prefix_of_name hname hvisible hstart

theorem codeLine_clientLine {s : Service} (hinterface : '\n' ∉ s.metadata.syncInterface)
    (hname : ¬ ['/', '/'] <+: s.metadata.syncInterface.trim)
    (hclient : '\n' ∉ s.metadata.syncClient) : CodeLine s.clientLine := by
  have hline : CodeLine (bodyIndent ++ s.metadata.syncInterface ++
      ' ' :: ("client = new ".toList ++ s.metadata.syncClient ++ "();".toList)) := by
    apply codeLine_of_name hinterface hname
    · simp [hclient]
    · exact Text.trimStart_cons _ (by decide)
    · simp
    · exact ⟨"client = new ".toList ++ s.metadata.syncClient ++ "()".toList, ';', by simp, by decide⟩
  simpa [clientLine] using hline

theorem codeLine_callLine {operation : Operation} (hmethod : '\n' ∉ operation.methodName)
    (hreturn : ∀ t ∈ operation.returnType, '\n' ∉ t ∧ ¬ ['/', '/'] <+: t.trim) :
    CodeLine (callLine operation) := by
  unfold callLine
  cases hoperation : operation.returnType with
  | none =>
      have hcall : "client.".toList ++ operation.methodName ++ "(request);".toList =
          'c' :: ("lient.".toList ++ operation.methodName ++ "(request)".toList) ++ [';'] := by
        simp
      simp only
      rw [hcall]
      exact codeLine_of_ends 8 (by decide) (by decide) (by decide) (by simp [hmethod])
  | some returnType =>
      obtain ⟨hfeed, hname⟩ := hreturn returnType hoperation
      have hline : CodeLine (bodyIndent ++ returnType ++
          ' ' :: ("response = client.".toList ++ operation.methodName ++ "(request);".toList)) := by
        apply codeLine_of_name hfeed hname
        · simp [hmethod]
        · exact Text.trimStart_cons _ (by decide)
        · simp
        · exact ⟨"response = client.".toList ++ operation.methodName ++ "(request)".toList, ';',
            by simp, by decide⟩
      simpa using hline

/-! ### Requests -/

theorem codeLine_of_isCalls {calls : Text} (hcalls : Scope.IsCalls calls) (hfeed : '\n' ∉ calls) :
    CodeLine (chainIndent ++ calls) ∧ CodeLine (chainIndent ++ calls ++ [';']) := by
  rw [List.append_assoc]
  rcases hcalls with rfl | ⟨inside, rfl⟩
  · exact ⟨codeLine_indent (by simp) (by simp) (by decide),
      codeLine_indent (by simp) (by simp) (by decide)⟩
  · constructor
    · exact codeLine_of_ends 16 (by decide) (by decide) (by decide) hfeed
    · exact codeLine_of_ends 16 (by decide) (by decide) (by decide) (by simpa using hfeed)

theorem commentLines_cons_eq_ok_iff {context field text : Text} {texts lines : List Text} :
    commentLines context field (text :: texts) = .ok lines ↔
      Marker.slashes.isTag (chainIndent ++ "//".toList ++ text) = false ∧
        ∃ later, commentLines context field texts = .ok later ∧
          lines = (chainIndent ++ "//".toList ++ text) :: later := by
  rw [commentLines]
  cases Marker.slashes.isTag (chainIndent ++ "//".toList ++ text) with
  | true => simp [throw, throwThe, MonadExceptOf.throw, bind, Except.bind]
  | false =>
      simp only [Bool.false_eq_true, if_false, true_and]
      constructor
      · intro h
        obtain ⟨later, hlater, hlines⟩ := bind_eq_ok_iff.mp h
        exact ⟨later, hlater, (Except.ok.inj hlines).symm⟩
      · rintro ⟨later, hlater, rfl⟩
        exact bind_eq_ok_iff.mpr ⟨later, hlater, rfl⟩

theorem codeLine_commentLines {context field : Text} {texts lines : List Text}
    (htexts : ∀ t ∈ texts, '\n' ∉ t ∧ '\r' ∉ t) (h : commentLines context field texts = .ok lines) :
    ∀ line ∈ lines, CodeLine line := by
  induction texts generalizing lines with
  | nil =>
      rw [commentLines] at h
      simp [← Except.ok.inj h]
  | cons text texts ih =>
      obtain ⟨⟨hfeed, hret⟩, htexts⟩ := List.forall_mem_cons.mp htexts
      obtain ⟨htag, later, hlater, rfl⟩ := commentLines_cons_eq_ok_iff.mp h
      refine List.forall_mem_cons.mpr ⟨⟨?_, ?_, ?_⟩, ih htexts hlater⟩
      · simp [chainIndent, hfeed]
      · intro hlast
        have hmem : '\r' ∈ chainIndent ++ "//".toList ++ text := List.mem_of_getLast? hlast
        simp [chainIndent, hret] at hmem
      · simpa [Marker.isTag] using htag

theorem chainLines_cons_eq_ok_iff {scope : Scope} {comments : List (Text × Text)} {name : Text}
    {member : Member} {value : Value} {rest : List (Text × Member × Value)} {lines : List Text} :
    chainLines scope comments ((name, member, value) :: rest) = .ok lines ↔
      ∃ before calls later,
        commentLines scope.context name (((comments.lookup name).map Text.lines).getD []) = .ok before ∧
          scope.assignment name member value = .ok calls ∧
            chainLines scope comments rest = .ok later ∧
              lines = before ++ (chainIndent ++ calls) :: later := by
  rw [chainLines]
  simp only [bind_eq_ok_iff]
  constructor
  · rintro ⟨before, hbefore, calls, hcalls, later, hlater, hlines⟩
    exact ⟨before, calls, later, hbefore, hcalls, hlater, (Except.ok.inj hlines).symm⟩
  · rintro ⟨before, calls, later, hbefore, hcalls, hlater, rfl⟩
    exact ⟨before, hbefore, calls, hcalls, later, hlater, rfl⟩

/-- The lines of a chain are code, its last one also with a semicolon after it. -/
theorem codeLine_chainLines {scope : Scope} {comments : List (Text × Text)}
    {fields : List (Text × Member × Value)} {lines : List Text}
    (hcomments : ∀ comment ∈ comments, '\r' ∉ comment.2)
    (hfields : ∀ field ∈ fields, '\n' ∉ field.1 ∧
      ∀ t ∈ rawTexts scope.service field.2.1 field.2.2, '\n' ∉ t)
    (h : chainLines scope comments fields = .ok lines) :
    (∀ line ∈ lines, CodeLine line) ∧ ∀ last ∈ lines.getLast?, CodeLine (last ++ [';']) := by
  induction fields generalizing lines with
  | nil =>
      rw [chainLines] at h
      simp [← Except.ok.inj h]
  | cons field fields ih =>
      obtain ⟨name, member, value⟩ := field
      obtain ⟨⟨hname, hvalue⟩, hfields⟩ := List.forall_mem_cons.mp hfields
      obtain ⟨before, calls, later, hbefore, hcalls, hlater, rfl⟩ := chainLines_cons_eq_ok_iff.mp h
      have hcomment : ∀ line ∈ before, CodeLine line := by
        refine codeLine_commentLines ?_ hbefore
        intro t ht
        cases hfound : comments.lookup name with
        | none => simp [hfound] at ht
        | some comment =>
            obtain ⟨left, right, hsplit, -⟩ := List.lookup_eq_some_iff.mp hfound
            have hret : '\r' ∉ comment := hcomments (name, comment) (by simp [hsplit])
            have ht : t ∈ comment.lines := by simpa [hfound] using ht
            exact ⟨Text.not_mem_of_mem_lines ht, fun hmem => hret (Text.mem_of_mem_lines ht hmem)⟩
      have hfeed : '\n' ∉ calls := Scope.feed_not_mem_render (fun _ => hname) hvalue hcalls
      obtain ⟨hcall, hlastCall⟩ := codeLine_of_isCalls (Scope.isCalls_assignment hcalls) hfeed
      obtain ⟨hcode, hlast⟩ := ih hfields hlater
      constructor
      · exact List.forall_mem_append.mpr ⟨hcomment, List.forall_mem_cons.mpr ⟨hcall, hcode⟩⟩
      · intro last hmem
        rw [List.getLast?_append, List.getLast?_cons, Option.some_or] at hmem
        cases hend : later.getLast? with
        | none =>
            rw [hend] at hmem
            exact Option.some.inj hmem ▸ hlastCall
        | some line =>
            rw [hend] at hmem
            exact hlast last (hend.trans hmem)

/-- The texts that a request takes over as they are. -/
def rawInput (s : Service) (inputType : Text) (e : Example) : List Text :=
  match e.input with
  | .object object => rawFields s inputType object
  | _ => []

theorem rawTexts_of_mem_fields {scope : Scope} {shapeName : Text} {object : List (Text × Value)}
    {fields : List (Text × Member × Value)} (h : scope.fields shapeName object = .ok fields) :
    ∀ field ∈ fields, field.1 ∈ rawFields scope.service shapeName object ∧
      rawTexts scope.service field.2.1 field.2.2 ⊆ rawFields scope.service shapeName object := by
  unfold Scope.fields at h
  obtain ⟨shape, hshape, hrest⟩ := bind_eq_ok_iff.mp h
  obtain ⟨members, hmembers, hfields⟩ := bind_eq_ok_iff.mp hrest
  rw [← Except.ok.inj hfields]
  clear h hrest hfields
  induction object generalizing members with
  | nil => simp
  | cons entry object ih =>
      obtain ⟨name, value⟩ := entry
      obtain ⟨member, others, hmember, hothers, rfl⟩ := Scope.members_cons_eq_ok_iff.mp hmembers
      rw [rawFields, Scope.shape_eq_ok_iff.mp hshape, Option.bind_some, hmember, Option.elim_some,
        List.zipWith_cons_cons]
      refine List.forall_mem_cons.mpr ⟨⟨by simp, fun t ht => by simp [ht]⟩, ?_⟩
      intro field hfield
      obtain ⟨hname, hraw⟩ := ih others hothers field hfield
      refine ⟨List.mem_append_right _ hname, ?_⟩
      intro t ht
      exact List.mem_append_right _ (hraw ht)

theorem codeLine_requestChain {scope : Scope} {inputType : Text} {e : Example} {chain : List Text}
    (hcomments : ∀ comment ∈ e.comments, '\r' ∉ comment.2)
    (hraw : ∀ t ∈ rawInput scope.service inputType e, '\n' ∉ t)
    (h : requestChain scope inputType e = .ok chain) :
    (∀ line ∈ chain, CodeLine line) ∧ ∀ last ∈ chain.getLast?, CodeLine (last ++ [';']) := by
  unfold requestChain at h
  unfold rawInput at hraw
  cases hinput : e.input with
  | null =>
      simp only [hinput] at h
      simp [← Except.ok.inj h]
  | object object =>
      simp only [hinput] at h hraw
      obtain ⟨fields, hfields, h⟩ := bind_eq_ok_iff.mp h
      apply codeLine_chainLines hcomments _ h
      intro field hfield
      obtain ⟨hname, hvalue⟩ := rawTexts_of_mem_fields hfields field hfield
      exact ⟨hraw _ hname, fun t ht => hraw t (hvalue ht)⟩
  | _ => simp [hinput, Scope.misfit] at h

theorem codeLine_requestLines {inputType : Text} {chain : List Text} (hfeed : '\n' ∉ inputType)
    (hname : ¬ ['/', '/'] <+: inputType.trim) (hchain : ∀ line ∈ chain, CodeLine line)
    (hlast : ∀ last ∈ chain.getLast?, CodeLine (last ++ [';'])) :
    ∀ line ∈ requestLines inputType chain, CodeLine line := by
  have hstart (ending : Text) (hending : ending = [] ∨ ending = [';']) :
      CodeLine (bodyIndent ++ inputType ++
        ' ' :: ("request = new ".toList ++ inputType ++ "()".toList ++ ending)) := by
    apply codeLine_of_name hfeed hname
    · rcases hending with rfl | rfl <;> simp [hfeed]
    · exact Text.trimStart_cons _ (by decide)
    · simp
    · rcases hending with rfl | rfl
      · exact ⟨"request = new ".toList ++ inputType ++ "(".toList, ')', by simp, by decide⟩
      · exact ⟨"request = new ".toList ++ inputType ++ "()".toList, ';', by simp, by decide⟩
  unfold requestLines
  cases hend : chain.getLast? with
  | none => simpa using hstart [';'] (.inr rfl)
  | some last =>
      refine List.forall_mem_cons.mpr ⟨by simpa using hstart [] (.inl rfl), ?_⟩
      refine List.forall_mem_append.mpr ⟨?_, by simpa using hlast last hend⟩
      intro line hline
      exact hchain line (List.dropLast_subset _ hline)

end Exemplar.Service
