import Exemplar.Proofs.Markup.Fit
import Exemplar.Proofs.Service.ReadBack

/-!
# Legible models

When the class of a model reads back as its examples: one sample for each, in their order, with their ids,
titles and descriptions. A class can be written without that. The model must be legible, which it is exactly if
the lines before the methods are code, no id has a dot or a line feed or ends in a blank, no title and no
description ends in a blank, and the lines of each body form pieces of a sample that change neither the title
nor the description and leave some code visible.
-/

namespace Exemplar.Service

open Markup (Frame Marker Piece codeWord exists_lines_of_mem_samples lastTitle? lastDescription? visibleCode)
open Text (trimEnd isBlank)

variable {s : Service}

/-- The body reads as pieces that leave the title and the description as they are. -/
def Method.LegibleBody (m : Method s) : Prop :=
  ∃ pieces : List Piece, word (s.bodyLines m.operation m.chain) = pieces.flatMap Piece.word ∧
    (∀ t ∈ lastTitle? pieces, t = m.title) ∧ (∀ t ∈ lastDescription? pieces, t = m.description) ∧
    Text.dedent (visibleCode pieces) ≠ []

structure Method.Legible (m : Method s) : Prop where
  id : ReadableId m.id
  title : trimEnd m.title = m.title
  description : trimEnd m.description = m.description
  body : m.LegibleBody

structure Legible (s : Service) : Prop where
  head : ∀ line ∈ printed s.headLines, Marker.slashes.classify line = .code
  method : ∀ m : Method s, m.toNumberedExample ∈ s.numberedExamples → m.Legible

/-- What a record takes from an example, the code apart. -/
structure Echoes (n : NumberedExample) (r : Record) : Prop where
  id_eq : r.id = n.id
  title_eq : r.title = n.title
  description_eq : r.description = n.description

/-- The text reads back as the examples of the service. -/
def ReadsBack (s : Service) (file source : Text) : Prop :=
  ∃ records, Marker.slashes.samples file source = .ok records ∧
    List.Forall₂ Echoes s.numberedExamples records

/-! ### What any scan finds -/

theorem readableId_of_mem_samples {file text : Text} {records : List Record} {r : Record}
    (h : Marker.slashes.samples file text = .ok records) (hr : r ∈ records) : ReadableId r.id := by
  obtain ⟨⟨line, hline, htag⟩, -⟩ := exists_lines_of_mem_samples h hr
  obtain ⟨-, hid⟩ := Markup.labelParts_of_classify hline htag
  exact {
    ne_nil := hid.ne_nil
    dot_not_mem := hid.dot_not_mem
    feed_not_mem := hid.feed_not_mem
    trimEnd_eq := Markup.trimEnd_id_of_classify htag }

theorem exists_codeWord_iff {lines : List Text} :
    (∃ codes, word lines = codeWord codes) ↔
      ∀ line ∈ printed lines, Marker.slashes.classify line = .code := by
  constructor
  · rintro ⟨codes, hcodes⟩ line hline
    have hsymbol : Marker.slashes.symbol line ∈ codeWord codes :=
      hcodes ▸ List.mem_map_of_mem hline
    obtain ⟨code, -, hcode⟩ := List.mem_map.mp hsymbol
    exact (Markup.symbol_eq_code_iff.mp hcode.symm).1
  · intro h
    refine ⟨printed lines, List.map_congr_left ?_⟩
    intro line hline
    rw [Marker.symbol, h line hline]
    rfl

/-! ### The two directions -/

theorem Method.legible_of_holds {m : Method s} {r : Record} (hname : s.tagName ≠ [])
    (hid : ReadableId m.id) (htitle : trimEnd m.title = m.title)
    (hdescription : trimEnd m.description = m.description) (hr : (m.frame hname hid).Holds r)
    (hecho : Echoes m.toNumberedExample r) : m.Legible := by
  obtain ⟨pieces, hword, hrecord, hmissing⟩ := hr
  obtain ⟨-, -, hcode⟩ := Markup.missing?_eq_none_iff.mp hmissing
  rw [Markup.foldl_addTo] at hrecord
  refine ⟨hid, htitle, hdescription, pieces, hword, ?_, ?_, ?_⟩
  · intro t ht
    rw [← hecho.title_eq, hrecord, Option.mem_def.mp ht]
    rfl
  · intro t ht
    rw [← hecho.description_eq, hrecord, Option.mem_def.mp ht]
    rfl
  · rw [hrecord] at hcode
    simpa [Record.code, Frame.start] using hcode

theorem Method.Legible.exists_record {m : Method s} (h : m.Legible) (hname : s.tagName ≠ []) :
    ∃ r, (∃ hid, (m.frame hname hid).Holds r) ∧ Echoes m.toNumberedExample r := by
  obtain ⟨pieces, hword, hlastTitle, hlastDescription, hcode⟩ := h.body
  have htitle : (lastTitle? pieces).getD (trimEnd m.title) = m.title := by
    cases hlast : lastTitle? pieces with
    | none => exact h.title
    | some t => exact hlastTitle t hlast
  have hdescription : (lastDescription? pieces).getD (trimEnd m.description) = m.description := by
    cases hlast : lastDescription? pieces with
    | none => exact h.description
    | some t => exact hlastDescription t hlast
  let r : Record := pieces.foldl Piece.addTo (m.frame hname h.id).start
  have hr : r = ⟨⟨s.tagName, m.id, hname, h.id.ne_nil⟩, m.title, m.description, visibleCode pieces⟩ := by
    simp only [r, Markup.foldl_addTo, Frame.start, Method.frame, htitle, hdescription, List.nil_append]
  have hne {t : Text} (ht : t.trim ≠ []) : t ≠ [] := by
    rintro rfl
    exact ht rfl
  have hmissing : r.missing? = none := by
    rw [hr]
    exact Markup.missing?_eq_none_iff.mpr ⟨hne m.title_trim_ne, hne m.description_trim_ne, hcode⟩
  exact ⟨r, ⟨h.id, pieces, hword, rfl, hmissing⟩, by rw [hr]; exact ⟨rfl, rfl, rfl⟩⟩

theorem forall₂_and {α β : Type} {R S : α → β → Prop} {xs : List α} {ys : List β}
    (hR : List.Forall₂ R xs ys) (hS : List.Forall₂ S xs ys) :
    List.Forall₂ (fun x y => R x y ∧ S x y) xs ys := by
  induction hR with
  | nil => exact .nil
  | cons hhead _ ih =>
      cases hS with
      | cons hother hrest => exact .cons ⟨hhead, hother⟩ (ih hrest)

/-- **A class reads back as its examples exactly if the model is legible.** -/
theorem readsBack_iff_legible {source : Text} (h : s.classSource = .ok source) (file : Text) :
    s.ReadsBack file source ↔ s.Legible := by
  obtain ⟨lines, hlines, hsource⟩ := lines_of_classSource h
  obtain ⟨hname, hdot, methods, hmethods, rfl⟩ := classLines_eq_ok_iff.mp hlines
  have hmem {m : Method s} : m ∈ methods ↔ m.toNumberedExample ∈ s.numberedExamples := by
    rw [← hmethods]
    constructor
    · exact List.mem_map_of_mem
    · intro hm
      obtain ⟨m', hm', heq⟩ := List.mem_map.mp hm
      exact Method.eq_of_toNumberedExample_eq heq ▸ hm'
  constructor
  · rintro ⟨records, hrecords, hechoes⟩
    rw [← hmethods, List.forall₂_map_left_iff] at hechoes
    have hids : ∀ m ∈ methods, ReadableId m.id := by
      intro m hm
      obtain ⟨r, hr, hecho⟩ := exists_of_forall₂ hechoes hm
      have hid := readableId_of_mem_samples hrecords hr
      rwa [hecho.id_eq] at hid
    obtain ⟨hhead, hholds⟩ := (samples_eq_ok_iff_holds hname hdot hids hsource).mp
      ⟨hrecords, hechoes.length_eq.symm⟩
    refine ⟨exists_codeWord_iff.mp hhead, ?_⟩
    intro m hm
    obtain ⟨r, hr, ⟨hid, hframe⟩, hecho⟩ :=
      exists_of_forall₂ (forall₂_and hholds hechoes) (hmem.mpr hm)
    obtain ⟨-, ⟨titleLine, -, htitle⟩, descriptionLine, -, hdescription⟩ :=
      exists_lines_of_mem_samples hrecords hr
    have htitle := Markup.trimEnd_of_classify_title htitle
    have hdescription := Markup.trimEnd_of_classify_description hdescription
    rw [hecho.title_eq] at htitle
    rw [hecho.description_eq] at hdescription
    exact m.legible_of_holds hname hid htitle hdescription hframe hecho
  · intro hs
    have hlegible {m : Method s} (hm : m ∈ methods) : m.Legible := hs.method m (hmem.mp hm)
    obtain ⟨records, hrecords⟩ := exists_forall₂ fun m hm => (hlegible hm).exists_record hname
    have hholds := hrecords.imp fun _ _ h => h.1
    refine ⟨records, ?_, ?_⟩
    · exact ((samples_eq_ok_iff_holds hname hdot (fun m hm => (hlegible hm).id) hsource).mpr
        ⟨exists_codeWord_iff.mpr hs.head, hholds⟩).1
    · rw [← hmethods, List.forall₂_map_left_iff]
      exact hrecords.imp fun _ _ h => h.2

/-! ### Models that are not legible -/

def loneExample (title : Text) : Example := ⟨title, "Sends a parcel.".toList, [], .null⟩

def lone (operationName title : Text) : Service where
  metadata := ⟨"Parcels".toList, "ParcelsClient".toList, "com.parcels".toList⟩
  operations := [(operationName, ⟨"send".toList, "SendRequest".toList, none⟩)]
  shapes := []
  examples := [(operationName, [loneExample title])]

theorem exists_source_lone (operationName title : Text)
    (h : (lone operationName title).classSource.toOption.isSome) :
    ∃ source, (lone operationName title).classSource = .ok source :=
  exists_eq_ok_of_isSome h

/-- No tag of a class can carry a dot in an id. -/
theorem not_readsBack_of_dot :
    ∃ source, (lone "Send.Now".toList "Send a parcel".toList).classSource = .ok source ∧
      ¬ (lone "Send.Now".toList "Send a parcel".toList).ReadsBack "Parcels".toList source := by
  obtain ⟨source, hsource⟩ :=
    exists_source_lone "Send.Now".toList "Send a parcel".toList (by decide +kernel)
  refine ⟨source, hsource, ?_⟩
  intro hback
  have hlegible := (readsBack_iff_legible hsource _).mp hback
  let m : Method (lone "Send.Now".toList "Send a parcel".toList) :=
    ⟨⟨"Send.Now".toList, 1, loneExample "Send a parcel".toList⟩, ⟨"send".toList, "SendRequest".toList, none⟩,
      [], rfl, by decide, by decide, rfl⟩
  have hm : m.toNumberedExample ∈ (lone "Send.Now".toList "Send a parcel".toList).numberedExamples :=
    List.mem_singleton_self _
  exact (hlegible.method m hm).id.dot_not_mem (by decide)

theorem not_readsBack_of_blank :
    ∃ source, (lone "Send".toList "Send a parcel ".toList).classSource = .ok source ∧
      ¬ (lone "Send".toList "Send a parcel ".toList).ReadsBack "Parcels".toList source := by
  obtain ⟨source, hsource⟩ :=
    exists_source_lone "Send".toList "Send a parcel ".toList (by decide +kernel)
  refine ⟨source, hsource, ?_⟩
  rintro ⟨records, hrecords, hechoes⟩
  have hn : (⟨"Send".toList, 1, loneExample "Send a parcel ".toList⟩ : NumberedExample) ∈
      (lone "Send".toList "Send a parcel ".toList).numberedExamples := List.mem_singleton_self _
  obtain ⟨r, hr, hecho⟩ := exists_of_forall₂ hechoes hn
  obtain ⟨-, ⟨line, -, htag⟩, -⟩ := exists_lines_of_mem_samples hrecords hr
  have htitle := Markup.trimEnd_of_classify_title htag
  rw [hecho.title_eq] at htitle
  exact absurd htitle (by decide)

end Exemplar.Service
