import Exemplar.Proofs.Markup.Stream

/-!
# Line ends

A line may end with a line feed or with a carriage return before it. In a text that has no carriage return of its
own, any of the line feeds can get one: the lines stay what they are, so the scan sees the same words, and its
samples or its fault are the same. A file of bytes is read by its lines as well, hence the same holds for it.
-/

namespace Exemplar

namespace Text

/-- The text with a carriage return in front of those of its line feeds that are chosen by their number. -/
def withReturns (chosen : Nat → Bool) : Text → Text
  | [] => []
  | c :: rest =>
    if c = '\n' then
      (if chosen 0 then ['\r', '\n'] else ['\n']) ++ withReturns (fun n => chosen (n + 1)) rest
    else c :: withReturns chosen rest

theorem lines_feed_cons (t : Text) : lines ('\n' :: t) = [] :: lines t := by
  rw [lines, breakLines, if_pos rfl, lines]

theorem lines_ret_feed_cons (t : Text) : lines ('\r' :: '\n' :: t) = [] :: lines t := by
  rw [lines, breakLines, if_neg (by decide), if_pos ⟨rfl, rfl⟩]
  exact lines_feed_cons t

/-- A character that takes no part in a line end joins the first of the lines after it. -/
theorem lines_cons_congr {c : Char} (hfeed : c ≠ '\n') (hret : c ≠ '\r') {t u : Text} (h : lines t = lines u) :
    lines (c :: t) = lines (c :: u) := by
  unfold lines at h ⊢
  rw [breakLines, breakLines, h]
  simp only [hfeed, hret, false_and, ↓reduceIte]

theorem lines_withReturns (chosen : Nat → Bool) {t : Text} (h : '\r' ∉ t) :
    (t.withReturns chosen).lines = t.lines := by
  induction t generalizing chosen with
  | nil => rfl
  | cons c rest ih =>
      obtain ⟨hret, hrest⟩ := not_or.mp (List.mem_cons.not.mp h)
      rw [withReturns]
      by_cases hfeed : c = '\n'
      · subst hfeed
        have hlater := ih (fun n => chosen (n + 1)) hrest
        rw [if_pos rfl, lines_feed_cons, ← hlater]
        split
        · exact lines_ret_feed_cons _
        · exact lines_feed_cons _
      · rw [if_neg hfeed]
        exact lines_cons_congr hfeed (Ne.symm hret) (ih chosen hrest)

end Text

namespace Markup

/-- **Line ends make no difference.** A text without carriage returns has the same lines, and with them the same
samples or the same fault, if any of its line feeds get a carriage return; and so has a file of its bytes. -/
theorem samples_withReturns (marker : Marker) (file : Text) (chosen : Nat → Bool) {text : Text}
    (h : '\r' ∉ text) :
    (text.withReturns chosen).lines = text.lines ∧
      marker.samples file (text.withReturns chosen) = marker.samples file text ∧
      marker.samplesOfBytes file (Utf8.encode (text.withReturns chosen)) =
        marker.samplesOfBytes file (Utf8.encode text) := by
  have hlines : (text.withReturns chosen).lines = text.lines := Text.lines_withReturns chosen h
  have hsamples : marker.samples file (text.withReturns chosen) = marker.samples file text := by
    rw [Marker.samples, Marker.samples, hlines]
  have hbytes (t : Text) : marker.samplesOfBytes file (Utf8.encode t) = marker.samples file t := by
    rw [marker.samplesOfBytes_eq, Utf8.decodeLossy_encode]
  exact ⟨hlines, hsamples, by rw [hbytes, hbytes, hsamples]⟩

/-- A file whose last line has no end. -/
def sendFile : Text :=
  "//BEGIN_SAMPLE:Parcels.Send\n//TITLE:Send\n//DESCRIPTION:Sends.\n\nsend();\n//END_SAMPLE".toList

def everyOther (n : Nat) : Bool := n % 2 == 0

theorem samples_withReturns_everyOther :
    '\r' ∉ sendFile ∧ sendFile.withReturns everyOther ≠ sendFile ∧
      (sendFile.withReturns everyOther).lines = sendFile.lines ∧
      Marker.slashes.samples "Send.java".toList (sendFile.withReturns everyOther) =
        Marker.slashes.samples "Send.java".toList sendFile ∧
      Marker.slashes.samplesOfBytes "Send.java".toList (Utf8.encode (sendFile.withReturns everyOther)) =
        Marker.slashes.samplesOfBytes "Send.java".toList (Utf8.encode sendFile) := by
  have hret : '\r' ∉ sendFile := by decide
  exact ⟨hret, by decide, samples_withReturns _ _ _ hret⟩

end Markup

end Exemplar
