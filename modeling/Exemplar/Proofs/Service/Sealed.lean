import Exemplar.Proofs.Service.Outline

/-!
# Texts that stay inside of literals

A rendered value reads as its outline, with some text in each of its literals. So no text of the value can close
the literal that it is written into, open or close a bracket, or end the line.
-/

namespace Exemplar.Service

open Json (Value)
open Lexical
open Lexeme (blank opening closing)
open Scope (Position)

/-! ### Texts with an outline -/

def lineEnds : List Char := ['\n', '\r']

/-- The units that spell the lexeme, with `""` for a literal. -/
def spelled : Lexeme → List Nat
  | .unit n => [n]
  | .string _ => [quote, quote]

/-- Whatever follows the text, it reads as lexemes with the outline, and its literals are emptied to what spells the
outline. No banned end of a line is in it. -/
structure HasOutline (banned : List Char) (t : Text) (o : List Lexeme) : Prop where
  reads : ∃ ls, Reads t ls ∧ ls.map blank = o
  empties : ∃ w, Empties t w ∧ units w = o.flatMap spelled
  unbroken : ∀ d ∈ banned, d ∈ lineEnds → d ∉ t

section HasOutline

variable {banned : List Char} {t u field : Text} {o p : List Lexeme} {position : Position}

theorem hasOutline_nil : HasOutline banned [] [] where
  reads := ⟨[], reads_nil, rfl⟩
  empties := ⟨[], fun _ => rfl, rfl⟩
  unbroken := by simp

theorem HasOutline.append (ht : HasOutline banned t o) (hu : HasOutline banned u p) :
    HasOutline banned (t ++ u) (o ++ p) where
  reads := by
    obtain ⟨ls, hls, rfl⟩ := ht.reads
    obtain ⟨ms, hms, rfl⟩ := hu.reads
    exact ⟨ls ++ ms, hls.append hms, List.map_append⟩
  empties := by
    obtain ⟨w, hw, hspelled⟩ := ht.empties
    obtain ⟨v, hv, hrest⟩ := hu.empties
    refine ⟨w ++ v, hw.append hv, ?_⟩
    rw [units_append, hspelled, hrest, List.flatMap_append]
  unbroken := fun d hd hend hmem => (List.mem_append.mp hmem).elim (ht.unbroken d hd hend) (hu.unbroken d hd hend)

theorem HasOutline.flatten {texts : List Text} {os : List (List Lexeme)}
    (h : List.Forall₂ (HasOutline banned) texts os) : HasOutline banned texts.flatten os.flatten := by
  induction h with
  | nil => exact hasOutline_nil
  | cons hfirst _ ih => exact hfirst.append ih

theorem HasOutline.emptied_eq (ht : HasOutline banned t o) (hu : HasOutline banned u o) : emptied t = emptied u := by
  obtain ⟨w, hw, hspelled⟩ := ht.empties
  obtain ⟨v, hv, hsame⟩ := hu.empties
  rw [hw.emptied_eq, hv.emptied_eq]
  exact units_injective (hspelled.trans hsame.symm)

theorem hasOutline_plain (hliteral : Avoids ['"', '\\'] t) (hends : ∀ d ∈ banned, d ∈ lineEnds → d ∉ t) :
    HasOutline banned t (plain t) where
  reads := ⟨plain t, reads_plain (hliteral _ (by simp)) (hliteral _ (by simp)), by simp [plain, blank]⟩
  empties := ⟨t, empties_plain (hliteral _ (by simp)), by simp [plain, List.flatMap_map, spelled]⟩
  unbroken := hends

/-- Fixed words are their own outlines. -/
theorem hasOutline_word (h : Avoids ['"', '\\', '\n', '\r'] t) : HasOutline banned t (plain t) := by
  apply hasOutline_plain
  · exact fun d hd => h d (List.mem_append_left ['\n', '\r'] hd)
  · exact fun d _ hd => h d (List.mem_append_right ['"', '\\'] hd)

theorem Shaping.hasOutline_name (hbanned : Shaping banned) (h : Avoids banned t) :
    HasOutline banned t (plain t) := by
  apply hasOutline_plain
  · exact fun d hd => h d (hbanned.needed (List.mem_append_left ['(', ')'] hd))
  · exact fun d hd _ => h d hd

theorem hasOutline_literal (value : Value) : HasOutline banned (Scalar.text.literal value) [.string []] where
  reads := ⟨_, reads_stringLiteral (plainText value), rfl⟩
  empties := ⟨_, empties_literal (omitted_escapeLiteral (plainText value)), rfl⟩
  unbroken := by
    intro d _ hend hmem
    have hascii : IsAscii d := by
      rcases List.mem_append.mp hmem with hmem | hquote
      · rcases List.mem_cons.mp hmem with rfl | hmem
        · decide
        · exact isAscii_of_mem_escapeLiteral hmem
      · rw [List.mem_singleton.mp hquote]
        decide
    rcases List.mem_pair.mp hend with rfl | rfl <;> exact absurd hascii (by decide)

theorem Shaping.hasOutline_call (hbanned : Shaping banned) {name : Text} (hname : Avoids banned name)
    (h : HasOutline banned t o) : HasOutline banned (name ++ '(' :: t ++ [')']) (call name o) := by
  have hopening : HasOutline banned ['('] [opening] := hasOutline_word (by decide)
  have hclosing : HasOutline banned [')'] [closing] := hasOutline_word (by decide)
  have hall := (hbanned.hasOutline_name hname).append ((hopening.append h).append hclosing)
  simpa [call] using hall

theorem Shaping.hasOutline_new (hbanned : Shaping banned) {shapeName : Text} (hname : Avoids banned shapeName) :
    HasOutline banned ("new ".toList ++ shapeName ++ "()".toList) (call ("new ".toList ++ shapeName) []) := by
  have hcall := hbanned.hasOutline_call (hbanned.avoids_new hname) hasOutline_nil
  rw [List.append_assoc] at hcall
  exact hcall

theorem HasOutline.joinWith {texts : List Text} {os : List (List Lexeme)}
    (h : List.Forall₂ (HasOutline banned) texts os) :
    HasOutline banned (Text.joinWith ", ".toList texts) (joined os) := by
  have hcomma : HasOutline banned ", ".toList (plain ", ".toList) := hasOutline_word (by decide)
  induction h with
  | nil => exact hasOutline_nil
  | @cons text o texts os hfirst hrest ih =>
      cases hrest with
      | nil =>
          rw [joined_singleton]
          simpa [Text.joinWith] using hfirst
      | cons =>
          rw [joined_cons_cons]
          simpa [Text.joinWith] using hfirst.append (hcomma.append ih)

theorem Shaping.hasOutline_place (hbanned : Shaping banned) (hfield : position = .field → Avoids banned field)
    (h : HasOutline banned t o) : HasOutline banned (position.place field t) (position.placed field o) := by
  cases position with
  | field => exact hbanned.hasOutline_call (hbanned.avoids_with (hfield rfl)) h
  | argument => exact h

theorem Shaping.hasOutline_entryCall (hbanned : Shaping banned) (hfield : Avoids banned field) (key : Value)
    (h : HasOutline banned t o) :
    HasOutline banned (Scope.entryCall field (Scalar.text.literal key) t) (entryOutline field o) := by
  have hcomma : HasOutline banned ", ".toList (plain ", ".toList) := hasOutline_word (by decide)
  have hinside := ((hasOutline_literal key).append hcomma).append h
  have hcall := hbanned.hasOutline_call (hbanned.avoids_add hfield) hinside
  unfold Scope.entryCall
  rw [entryOutline]
  -- The capital form stays a variable, so that no tactic looks into the case tables.
  generalize field.capitalizeFirst = name at hcall ⊢
  simpa using hcall

end HasOutline

/-! ### Rendered values -/

section Render

variable {scope : Scope} {banned : List Char} {field text : Text} {position : Position} {member : Member}
  {value : Value}

/-- **A rendered value has its outline**, if all scalars that it reaches are strings. -/
theorem hasOutline_render (hbanned : Shaping banned) (hs : scope.service.NamesAvoid banned)
    (hvalue : Conforms scope.service position member value) (hfield : position = .field → Avoids banned field)
    (htexts : ∀ scalar, Reaches scope.service member value scalar → scalar = .text)
    (h : Scope.render scope field position member value = .ok text) :
    HasOutline banned text (outline scope.service field position member value) := by
  induction hvalue generalizing field text with
  | simple position scalar value =>
      rw [Scope.render] at h
      obtain rfl := htexts scalar (.simple scalar value)
      rw [outline, ← Except.ok.inj h]
      exact hbanned.hasOutline_place hfield (hasOutline_literal value)
  | @list position element items each ih =>
      rw [Scope.render] at h
      obtain ⟨texts, hitems, htext⟩ := bind_eq_ok_iff.mp h
      rw [outline, ← Except.ok.inj htext]
      apply hbanned.hasOutline_place hfield
      apply HasOutline.joinWith
      apply forall₂_map_of_mem (Scope.renderItems_eq_ok_iff.mp hitems)
      intro item hitem text hrender
      exact ih item hitem (by simp) (fun scalar hreached => htexts scalar (.item hitem hreached)) hrender
  | @map key element entries each ih =>
      rw [Scope.render] at h
      obtain ⟨calls, hcalls, rfl⟩ := Scope.renderEntries_eq_ok_iff.mp h
      rw [outline]
      apply HasOutline.flatten
      apply forall₂_map_of_mem hcalls
      rintro entry hentry _ ⟨argument, hargument, rfl⟩
      obtain rfl := htexts key (.key hentry)
      apply hbanned.hasOutline_entryCall (hfield rfl)
      exact ih entry hentry (by simp) (fun scalar hreached => htexts scalar (.entry hentry hreached)) hargument
  | @nested position shapeName shape object declared known each ih =>
      rw [Scope.render] at h
      obtain ⟨found, hfound, h⟩ := bind_eq_ok_iff.mp h
      obtain ⟨members, hmembers, h⟩ := bind_eq_ok_iff.mp h
      obtain ⟨chain, hchain, htext⟩ := bind_eq_ok_iff.mp h
      obtain ⟨calls, hcalls, rfl⟩ := (Scope.renderFields_eq_ok_iff hmembers).mp hchain
      rw [outline, ← Except.ok.inj htext]
      apply hbanned.hasOutline_place hfield
      apply (hbanned.hasOutline_new (hs.avoids_shapeName declared)).append
      apply HasOutline.flatten
      apply forall₂_map_of_mem hcalls
      rintro entry hentry call ⟨member, hmember, hrender⟩
      obtain rfl : found = shape := Option.some.inj ((Scope.shape_eq_ok_iff.mp hfound).symm.trans declared)
      rw [declared, Option.bind_some, hmember, Option.elim_some]
      exact ih entry hentry member hmember (fun _ => hs.avoids_memberName declared hmember)
        (fun scalar hreached => htexts scalar (.field declared hentry hmember hreached)) hrender

/-- So it reads as balanced lexemes that become its outline when the literals are emptied. -/
theorem exists_read_render (hbanned : Shaping banned) (hs : scope.service.NamesAvoid banned)
    (hfield : position = .field → Avoids banned field)
    (htexts : ∀ scalar, Reaches scope.service member value scalar → scalar = .text)
    (h : Scope.render scope field position member value = .ok text) :
    ∃ ls, read text = some ls ∧ ls.map blank = outline scope.service field position member value ∧
      Balanced ls := by
  have hvalue := Scope.exists_render_iff.mp ⟨text, h⟩
  obtain ⟨ls, hls, hblank⟩ := (hasOutline_render hbanned hs hvalue hfield htexts h).reads
  refine ⟨ls, hls.read_eq, hblank, balanced_of_map_blank ?_⟩
  rw [hblank]
  exact (balanced_outline hbanned hs hvalue hfield).1

/-- The characters with which a name could break out of its call or end its line. -/
def breaking : List Char := ['"', '\\', '(', ')', '\n', '\r']

theorem shaping_breaking : Shaping breaking := ⟨by decide, by decide⟩

/-- **Texts cannot change the shape of an assignment.** If no name breaks out and all scalars are strings, an
assignment is balanced and on one line. A value that differs in its texts only is assigned as well, and the two
assignments become the same when all literals are emptied, as texts and as they are read. -/
theorem assignment_keeps_shape (hs : scope.service.NamesAvoid breaking) (hfield : Avoids breaking field)
    (htexts : ∀ scalar, Reaches scope.service member value scalar → scalar = .text)
    (h : scope.assignment field member value = .ok text) :
    ∃ ls, read text = some ls ∧ Balanced ls ∧ '\n' ∉ text ∧ '\r' ∉ text ∧
      ∀ other, Alike scope.service member value other →
        ∃ otherText ms, scope.assignment field member other = .ok otherText ∧
          emptied otherText = emptied text ∧ read otherText = some ms ∧ ms.map blank = ls.map blank := by
  have hvalue := Scope.exists_render_iff.mp ⟨text, h⟩
  have houtline := hasOutline_render shaping_breaking hs hvalue (fun _ => hfield) htexts h
  have hends : ∀ d ∈ lineEnds, d ∉ text := fun d hd =>
    houtline.unbroken d (List.mem_append_right ['"', '\\', '(', ')'] hd) hd
  obtain ⟨ls, hls, hblank, hbalanced⟩ := exists_read_render shaping_breaking hs (fun _ => hfield) htexts h
  refine ⟨ls, hls, hbalanced, hends _ (by decide), hends _ (by decide), ?_⟩
  intro other halike
  have hother := halike.conforms hvalue
  obtain ⟨otherText, hrender⟩ := Scope.exists_render_iff.mpr hother
  have hreached : ∀ scalar, Reaches scope.service member other scalar → scalar = .text :=
    fun scalar hscalar => htexts scalar (halike.reaches hscalar)
  have hsame := hasOutline_render shaping_breaking hs hother (fun _ => hfield) hreached hrender
  rw [← halike.outline_eq] at hsame
  obtain ⟨ms, hms, hmsBlank⟩ := hsame.reads
  exact ⟨otherText, ms, hrender, hsame.emptied_eq houtline, hms.read_eq, by rw [hmsBlank, hblank]⟩

end Render

/-! ### Services of strings -/

/-- The scalars that the member declares, not those of a shape that it names. -/
def Member.scalars : Member → List Scalar
  | .simple scalar => [scalar]
  | .list element => element.scalars
  | .map key element => key :: element.scalars
  | .nested _ => []

theorem Reaches.mem_scalars {s : Service} {member : Member} {value : Value} {scalar : Scalar}
    (h : Reaches s member value scalar) :
    scalar ∈ member.scalars ∨ ∃ entry ∈ s.shapes, ∃ declared ∈ entry.2.members, scalar ∈ declared.2.scalars := by
  induction h with
  | simple => exact .inl List.mem_cons_self
  | item _ _ ih => exact ih
  | key => exact .inl List.mem_cons_self
  | entry _ _ ih => exact ih.imp_left (List.mem_cons_of_mem _)
  | field hshape _ hmember _ ih =>
      rcases ih with hscalar | hshapes
      · exact .inr ⟨_, mem_of_lookup_eq_some hshape, _, mem_of_lookup_eq_some hmember, hscalar⟩
      · exact .inr hshapes

/-- Parcels with labels under keys and with a sender. -/
def labelled : Scope where
  service := {
    metadata := ⟨"Parcels".toList, "ParcelsClient".toList, "com.parcels".toList⟩
    operations := []
    shapes := [
      ("Parcel".toList, ⟨[("labels".toList, .map .text (.list (.simple .text))),
        ("sender".toList, .nested "Person".toList)]⟩),
      ("Person".toList, ⟨[("name".toList, .simple .text)]⟩)]
    examples := []
  }
  context := "operation Send, example 1".toList

theorem reaches_labelled {member : Member} {value : Value} (hmember : ∀ scalar ∈ member.scalars, scalar = .text)
    {scalar : Scalar} (h : Reaches labelled.service member value scalar) : scalar = .text := by
  have hshapes : ∀ entry ∈ labelled.service.shapes, ∀ declared ∈ entry.2.members,
      ∀ scalar ∈ declared.2.scalars, scalar = .text := by decide
  rcases h.mem_scalars with hscalar | ⟨entry, hentry, declared, hdeclared, hscalar⟩
  · exact hmember scalar hscalar
  · exact hshapes entry hentry declared hdeclared scalar hscalar

/-- A parcel whose texts look like the ends of literals and calls. -/
def breakingParcel : Value :=
  .object [
    ("labels".toList, .object [("\");\n".toList, .list [.string "(".toList, .string "\\".toList])]),
    ("sender".toList, .object [("name".toList, .string "\"))\r".toList)])]

theorem assignment_keeps_shape_breakingParcel :
    ∃ text, labelled.assignment "parcel".toList (.nested "Parcel".toList) breakingParcel = .ok text ∧
      ∃ ls, read text = some ls ∧ Balanced ls ∧ '\n' ∉ text ∧ '\r' ∉ text ∧
        ∀ other, Alike labelled.service (.nested "Parcel".toList) breakingParcel other →
          ∃ otherText ms, labelled.assignment "parcel".toList (.nested "Parcel".toList) other = .ok otherText ∧
            emptied otherText = emptied text ∧ read otherText = some ms ∧ ms.map blank = ls.map blank := by
  obtain ⟨text, htext⟩ := exists_eq_ok_of_isSome
    (x := labelled.assignment "parcel".toList (.nested "Parcel".toList) breakingParcel) (by decide +kernel)
  exact ⟨text, htext, assignment_keeps_shape (by decide) (by decide) (fun _ => reaches_labelled (by decide)) htext⟩

end Exemplar.Service
