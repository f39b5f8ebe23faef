import Exemplar.Label
import Exemplar.Text.Indent

/-!
# Samples

A record is a sample being read from a source file: its label is fixed, and title, description and code
lines come as the lines of the file do. A retrieved sample is a stored one found again, complete in all its
parts.
-/

namespace Exemplar

structure Record where
  label : Label
  title : Text
  description : Text
  codeLines : List Text
deriving DecidableEq

namespace Record

def new (label : Label) : Record := ⟨label, [], [], []⟩

def service (r : Record) : Text := r.label.service

def id (r : Record) : Text := r.label.id

def withLine (r : Record) (line : Text) : Record := { r with codeLines := r.codeLines ++ [line] }

/-- The code lines without their common indentation. -/
def code (r : Record) : Text := Text.dedent r.codeLines

/-- The first part that is missing. -/
def missing? (r : Record) : Option Markup.Part :=
  if r.title = [] then some .title
  else if r.description = [] then some .description
  else if r.code = [] then some .content
  else none

end Record

structure Retrieved where
  id : Text
  service : Text
  title : Text
  description : Text
  content : Text
  id_ne : id ≠ []
  service_ne : service ≠ []
  title_ne : title ≠ []
  description_ne : description ≠ []
  content_ne : content ≠ []

instance : DecidableEq Retrieved := fun a b =>
  decidable_of_iff
    (a.id = b.id ∧ a.service = b.service ∧ a.title = b.title ∧ a.description = b.description ∧
      a.content = b.content)
    (by cases a; cases b; simp)

/-- A retrieved sample, unless one of its parts is empty. The first empty part is the one reported. -/
def Retrieved.ofParts (id service title description content : Text) : Except Fault Retrieved :=
  if hid : id = [] then refuseAbsent "Sample ID must be provided"
  else if hservice : service = [] then refuseAbsent "Sample service name must be provided"
  else if htitle : title = [] then refuseAbsent "Sample title must be provided"
  else if hdescription : description = [] then refuseAbsent "Sample description must be provided"
  else if hcontent : content = [] then refuseAbsent "Sample content must be provided"
  else .ok ⟨id, service, title, description, content, hid, hservice, htitle, hdescription, hcontent⟩

theorem Retrieved.ofParts_of_ne {id service title description content : Text} (hid : id ≠ [])
    (hservice : service ≠ []) (htitle : title ≠ []) (hdescription : description ≠ [])
    (hcontent : content ≠ []) :
    ofParts id service title description content =
      .ok ⟨id, service, title, description, content, hid, hservice, htitle, hdescription, hcontent⟩ := by
  rw [ofParts, dif_neg hid, dif_neg hservice, dif_neg htitle, dif_neg hdescription, dif_neg hcontent]

end Exemplar
