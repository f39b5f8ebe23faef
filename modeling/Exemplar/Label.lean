import Exemplar.Fault

/-!
# Labels

What names a sample: its service, and its id within the service.
-/

namespace Exemplar

/-- A service and the id of a sample within it, neither empty. -/
structure Label where
  service : Text
  id : Text
  service_ne : service ≠ []
  id_ne : id ≠ []
deriving DecidableEq

def Label.ofParts (id service : Text) : Except Fault Label :=
  if hid : id = [] then refuseAbsent "Sample ID must be provided!"
  else if hservice : service = [] then refuseAbsent "Service name must be provided!"
  else .ok ⟨service, id, hservice, hid⟩

end Exemplar
