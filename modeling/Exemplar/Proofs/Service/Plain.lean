import Exemplar.Proofs.Service.ReadBack

/-!
# Plain models

The class takes over some texts of a model as they are: names of packages, types, methods and fields, and
texts that stand for scalars other than strings. A model is plain if none of them breaks a line or looks like
a tag. The class of a plain model reads back completely: one sample for each example, with the lines of its
body as they were written.
-/

namespace Exemplar.Service

open Markup (Frame Marker Piece codeWord)
open Text (trimEnd isBlank)

/-- The types of an operation, which start statements. -/
def Operation.typeNames (operation : Operation) : List Text :=
  operation.inputType :: operation.returnType.toList

def NumberedExample.operation? (s : Service) (n : NumberedExample) : Option Operation :=
  s.operations.lookup n.operationName

def typeNames (s : Service) : List Text :=
  s.metadata.syncInterface :: s.numberedExamples.flatMap fun n =>
    (n.operation? s).elim [] Operation.typeNames

/-- The texts of the model that the class takes over as they are. -/
def classTexts (s : Service) : List Text :=
  s.metadata.packageName :: s.metadata.syncClient :: s.typeNames ++ s.numberedExamples.flatMap fun n =>
    (n.operation? s).elim [] fun operation =>
      operation.methodName :: rawInput s operation.inputType n.shown

/-- What keeps the texts of a model apart from the tags around them. -/
structure Plain (s : Service) : Prop where
  feed_not_mem : ∀ t ∈ s.classTexts, '\n' ∉ t
  operationName : ∀ entry ∈ s.examples,
    entry.1 ≠ [] ∧ '.' ∉ entry.1 ∧ ∀ c ∈ entry.1, isBlank c = false
  typeName : ∀ t ∈ s.typeNames, ¬ ['/', '/'] <+: t.trim
  comment : ∀ n ∈ s.numberedExamples, ∀ comment ∈ n.shown.comments, '\r' ∉ comment.2

/-- A record with the content of an example's method. -/
structure ReadAs (s : Service) (n : NumberedExample) (r : Record) : Prop where
  service_eq : r.service = s.tagName
  id_eq : r.id = n.id
  title_eq : r.title = trimEnd n.title
  description_eq : r.description = trimEnd n.description
  codeLines_eq : ∃ operation chain, s.operation n.operationName = .ok operation ∧
    requestChain ⟨s, n.context⟩ operation.inputType n.shown = .ok chain ∧
    r.codeLines = s.bodyLines operation chain

variable {s : Service}

/-! ### Ids -/

theorem Plain.readableId (hs : s.Plain) {n : NumberedExample} (h : n ∈ s.numberedExamples) :
    ReadableId n.id := by
  obtain ⟨examples, hentry, -⟩ := mem_numberedExamples_iff.mp h
  obtain ⟨hne, hdot, hblank⟩ := hs.operationName _ hentry
  have hid : ∀ c ∈ n.id, isBlank c = false ∧ c ≠ '.' := by
    have hkey : ∀ c ∈ n.operationName, isBlank c = false ∧ c ≠ '.' := by
      intro c hc
      refine ⟨hblank c hc, ?_⟩
      rintro rfl
      exact hdot hc
    unfold NumberedExample.id sampleId
    split
    · exact hkey
    · refine List.forall_mem_append.mpr ⟨hkey, List.forall_mem_cons.mpr ⟨by decide, ?_⟩⟩
      intro c hc
      refine ⟨Text.isBlank_of_mem_ofNat hc, ?_⟩
      rintro rfl
      exact absurd (Text.toNat_of_mem_ofNat hc).1 (by decide)
  refine ⟨?_, ?_, ?_, ?_⟩
  · unfold NumberedExample.id sampleId
    split <;> simp [hne]
  · intro hmem
    exact (hid _ hmem).2 rfl
  · intro hmem
    exact absurd (hid _ hmem).1 (by decide)
  · apply Text.trimEnd_eq_self_iff.mpr
    intro c hc
    exact (hid c (List.mem_of_getLast? hc)).1

/-! ### Lines -/

theorem Plain.codeLine_headLines (hs : s.Plain) : ∀ line ∈ s.headLines, CodeLine line := by
  have hpackage : '\n' ∉ s.metadata.packageName := hs.feed_not_mem _ (by simp [classTexts])
  have hservice := feed_not_mem_tagName s
  have himport (ending : Text) (hending : '\n' ∉ ending) :
      CodeLine ("import ".toList ++ s.metadata.packageName ++ ending ++ ".*;".toList) := by
    have hline : "import ".toList ++ s.metadata.packageName ++ ending ++ ".*;".toList =
        'i' :: ("mport ".toList ++ s.metadata.packageName ++ ending ++ ".*".toList) ++ [';'] := by
      simp
    rw [hline]
    exact codeLine_of_ends 0 (by decide) (by decide) (by decide) (by simp [hpackage, hending])
  have hempty : CodeLine [] := ⟨by decide, by decide, by decide⟩
  have hclass : CodeLine ("public class ".toList ++ s.tagName ++ "GeneratedSamples \x7b".toList) := by
    have hline : "public class ".toList ++ s.tagName ++ "GeneratedSamples \x7b".toList =
        'p' :: ("ublic class ".toList ++ s.tagName ++ "GeneratedSamples ".toList) ++ ['\x7b'] := by
      simp
    rw [hline]
    exact codeLine_of_ends 0 (by decide) (by decide) (by decide) (by simp [hservice])
  have hmodel := himport ".model".toList (by decide)
  simp only [headLines, List.forall_mem_cons]
  refine ⟨by simpa using himport [] (by simp), by simpa using hmodel, hempty, hclass, by simp⟩

theorem Plain.codeLine_bodyLines (hs : s.Plain) {m : Method s}
    (h : m.toNumberedExample ∈ s.numberedExamples) :
    ∀ line ∈ s.bodyLines m.operation m.chain, CodeLine line := by
  have hoperation : m.operation? s = some m.operation := operation_eq_ok_iff.mp m.operation_eq
  have htype {t : Text} (ht : t ∈ m.operation.typeNames) : '\n' ∉ t ∧ ¬ ['/', '/'] <+: t.trim := by
    have hmem : t ∈ s.typeNames := by
      refine List.mem_cons_of_mem _ (List.mem_flatMap.mpr ⟨_, h, ?_⟩)
      rwa [hoperation]
    exact ⟨hs.feed_not_mem t (by simp [classTexts, hmem]), hs.typeName t hmem⟩
  have htext {t : Text}
      (ht : t ∈ m.operation.methodName :: rawInput s m.operation.inputType m.shown) : '\n' ∉ t := by
    apply hs.feed_not_mem
    refine List.mem_append_right _ (List.mem_flatMap.mpr ⟨_, h, ?_⟩)
    rwa [hoperation]
  have hinput := htype (t := m.operation.inputType) List.mem_cons_self
  obtain ⟨hchain, hlast⟩ := codeLine_requestChain (hs.comment _ h)
    (fun t ht => htext (List.mem_cons_of_mem _ ht)) m.chain_eq
  refine List.forall_mem_append.mpr ⟨List.forall_mem_cons.mpr ⟨?_, ?_⟩, ?_⟩
  · apply codeLine_clientLine
    · exact hs.feed_not_mem _ (by simp [classTexts, typeNames])
    · exact hs.typeName _ (by simp [typeNames])
    · exact hs.feed_not_mem _ (by simp [classTexts])
  · exact codeLine_requestLines hinput.1 hinput.2 hchain hlast
  · have hcall := codeLine_callLine (htext List.mem_cons_self)
      fun t ht => htype (List.mem_cons_of_mem _ (Option.mem_toList.mpr ht))
    simpa using hcall

theorem dedent_bodyLines_ne (operation : Operation) (chain : List Text) :
    Text.dedent (s.bodyLines operation chain) ≠ [] := by
  unfold Text.dedent Text.shiftLeft Text.joinWith bodyLines requestLines
  cases hend : chain.getLast? <;> simp [List.intercalate_cons_cons]

/-! ### Reading back -/

theorem Plain.exists_record (hs : s.Plain) (hname : s.tagName ≠ []) {m : Method s}
    (h : m.toNumberedExample ∈ s.numberedExamples) :
    ∃ r, (∃ hid, (m.frame hname hid).Holds r) ∧ s.ReadAs m.toNumberedExample r := by
  have hid := hs.readableId h
  have hbody : word (s.bodyLines m.operation m.chain) =
      codeWord (s.bodyLines m.operation m.chain) :=
    word_of_codeLines (hs.codeLine_bodyLines h)
  have hne {t : Text} (ht : t.trim ≠ []) : trimEnd t ≠ [] := by
    simpa [Text.trim_eq_nil_iff, Text.trimEnd_eq_nil_iff] using ht
  refine ⟨{ (m.frame hname hid).start with codeLines := s.bodyLines m.operation m.chain }, ⟨hid, ?_⟩, ?_⟩
  · exact Frame.holds_of_codeWord hbody (hne m.title_trim_ne) (hne m.description_trim_ne)
      (dedent_bodyLines_ne _ _)
  · exact ⟨rfl, rfl, rfl, rfl, m.operation, m.chain, m.operation_eq, m.chain_eq, rfl⟩

/-- **The class of a plain model reads back completely.** -/
theorem samples_of_plain (hs : s.Plain) {source : Text} (h : s.classSource = .ok source) (file : Text) :
    ∃ records, Marker.slashes.samples file source = .ok records ∧
      List.Forall₂ s.ReadAs s.numberedExamples records := by
  obtain ⟨lines, hlines, hsource⟩ := lines_of_classSource h
  obtain ⟨hname, hdot, methods, hmethods, rfl⟩ := classLines_eq_ok_iff.mp hlines
  have hmem {m : Method s} (hm : m ∈ methods) : m.toNumberedExample ∈ s.numberedExamples :=
    hmethods ▸ List.mem_map_of_mem hm
  obtain ⟨records, hrecords⟩ := exists_forall₂ fun m hm => hs.exists_record hname (hmem hm)
  have hholds : List.Forall₂ (fun m r => ∃ hid, (m.frame hname hid).Holds r) methods records :=
    hrecords.imp fun _ _ h => h.1
  have hhead : ∃ lines, word s.headLines = codeWord lines :=
    ⟨_, word_of_codeLines hs.codeLine_headLines⟩
  refine ⟨records, ?_, ?_⟩
  · exact ((samples_eq_ok_iff_holds hname hdot (fun m hm => hs.readableId (hmem hm)) hsource).mpr
      ⟨hhead, hholds⟩).1
  · rw [← hmethods, List.forall₂_map_left_iff]
    exact hrecords.imp fun _ _ h => h.2

/-- A service whose requests have a nested object, a list, a map, a flag and a comment. -/
def parcels : Service where
  metadata := ⟨"Parcels".toList, "ParcelsClient".toList, "com.parcels".toList⟩
  operations := [("Send".toList, ⟨"send".toList, "SendRequest".toList, some "SendResult".toList⟩)]
  shapes := [
    ("SendRequest".toList, ⟨[("target".toList, .nested "Address".toList),
      ("marks".toList, .map .text (.simple .long)), ("express".toList, .simple .boolean)]⟩),
    ("Address".toList, ⟨[("lines".toList, .list (.simple .text))]⟩)]
  examples := [("Send".toList, [
    ⟨"Send a parcel".toList, "Sends\none parcel.".toList,
      [("express".toList, "By night".toList)],
      .object [
        ("target".toList, .object [("lines".toList, .list [.string "1 \"Main\"\nRoad".toList])]),
        ("marks".toList, .object [("a".toList, .number (.natural 1))]),
        ("express".toList, .string "TRUE".toList)]⟩,
    ⟨"Send nothing".toList, "An empty request. ".toList, [], .null⟩])]

theorem plain_parcels : parcels.Plain where
  feed_not_mem := by decide +kernel
  operationName := by
    intro entry hentry
    obtain rfl := List.mem_singleton.mp hentry
    refine ⟨by decide, by decide, ?_⟩
    simp [isBlank]
  typeName := by decide +kernel
  comment := by decide +kernel

theorem samples_of_plain_parcels :
    parcels.Plain ∧ ∃ source, parcels.classSource = .ok source ∧
      ∃ records, Marker.slashes.samples "Parcels".toList source = .ok records ∧
        List.Forall₂ parcels.ReadAs parcels.numberedExamples records := by
  cases hsource : parcels.classSource with
  | error fault =>
      have hok : parcels.classSource.toOption.isSome := by decide +kernel
      simp [hsource, Except.toOption] at hok
  | ok source => exact ⟨plain_parcels, source, rfl, samples_of_plain plain_parcels hsource _⟩

end Exemplar.Service
