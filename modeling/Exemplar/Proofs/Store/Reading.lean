import Exemplar.Proofs.Outcome
import Exemplar.Store.Archive

/-!
# What reading a sample comes to

Reading a sample ends in one of a few ways, and the disk decides in which. Some of them give no sample
without a failure: a document that is not there, an entry that is not in it, and an entry that lacks a part.
-/

namespace Exemplar.Store

variable {d : Disk} {directory service id : Text} {outcome : Except Fault (Option Retrieved)}

/-- A service whose name no document can have. -/
def Separated (service : Text) : Prop := '/' ∈ service ∨ '\\' ∈ service

instance (service : Text) : Decidable (Separated service) := inferInstanceAs (Decidable (_ ∨ _))

/-- What a reading comes to, with one case for each way in which it can end. -/
inductive Reads (d : Disk) (directory service id : Text) : Except Fault (Option Retrieved) → Prop
  | separated (h : Separated service) :
      Reads d directory service id (.error (.invalidArgument (.serviceHasSeparator service)))
  | missing (whole : ¬Separated service) (read : d.read (documentPath directory service) = .error .notFound) :
      Reads d directory service id (.ok none)
  | unopened {e : FileError} (whole : ¬Separated service)
      (read : d.read (documentPath directory service) = .error e) (ne : e ≠ .notFound) :
      Reads d directory service id (.error (.io (documentPath directory service) e))
  | directory {entries : List (Text × Node)} (whole : ¬Separated service)
      (read : d.read (documentPath directory service) = .ok (.directory entries)) :
      Reads d directory service id (.error (.retrieval service id (.unreadable .isDirectory)))
  | undecoded {bytes : List UInt8} {failure : Json.Failure} (whole : ¬Separated service)
      (read : d.read (documentPath directory service) = .ok (.file bytes))
      (decode : findEntry id bytes = .error failure) :
      Reads d directory service id (.error (.retrieval service id failure))
  | absent {bytes : List UInt8} (whole : ¬Separated service)
      (read : d.read (documentPath directory service) = .ok (.file bytes))
      (decode : findEntry id bytes = .ok none) : Reads d directory service id (.ok none)
  | incomplete {bytes : List UInt8} {entry : Entry} (whole : ¬Separated service)
      (read : d.read (documentPath directory service) = .ok (.file bytes))
      (decode : findEntry id bytes = .ok (some entry)) (lacks : entry.retrieve? service = none) :
      Reads d directory service id (.ok none)
  | found {bytes : List UInt8} {entry : Entry} {sample : Retrieved} (whole : ¬Separated service)
      (read : d.read (documentPath directory service) = .ok (.file bytes))
      (decode : findEntry id bytes = .ok (some entry)) (complete : entry.retrieve? service = some sample) :
      Reads d directory service id (.ok (some sample))

theorem checkServiceName_eq (service : Text) :
    checkServiceName service =
      if Separated service then .error (.invalidArgument (.serviceHasSeparator service)) else .ok () := rfl

theorem readSample_of_separated (hdirectory : directory ≠ []) (hservice : service ≠ []) (hid : id ≠ [])
    (h : Separated service) :
    readSample d directory service id = .error (.invalidArgument (.serviceHasSeparator service)) := by
  unfold readSample requireNonEmpty
  simp only [if_neg hdirectory, if_neg hservice, if_neg hid, checkServiceName_eq, if_pos h, ok_bind, error_bind]

/-- Without a separator in the name, a reading depends on what its document's path opens. -/
theorem readSample_of_not_separated (hdirectory : directory ≠ []) (hservice : service ≠ []) (hid : id ≠ [])
    (h : ¬Separated service) :
    readSample d directory service id =
      match d.read (documentPath directory service) with
      | .ok node => sampleIn service id node
      | .error .notFound => .ok none
      | .error e => .error (.io (documentPath directory service) e) := by
  unfold readSample requireNonEmpty
  simp only [if_neg hdirectory, if_neg hservice, if_neg hid, checkServiceName_eq, if_neg h, ok_bind]
  rfl

theorem reads_readSample (hdirectory : directory ≠ []) (hservice : service ≠ []) (hid : id ≠ []) :
    Reads d directory service id (readSample d directory service id) := by
  by_cases hseparated : Separated service
  · rw [readSample_of_separated hdirectory hservice hid hseparated]
    exact .separated hseparated
  · rw [readSample_of_not_separated hdirectory hservice hid hseparated]
    cases hread : d.read (documentPath directory service) with
    | error e =>
        by_cases hmissing : e = .notFound
        · subst hmissing
          exact .missing hseparated hread
        · cases e <;> first | exact .unopened hseparated hread hmissing | exact absurd rfl hmissing
    | ok node =>
        cases node with
        | directory entries => exact .directory hseparated hread
        | file bytes =>
            dsimp only [sampleIn]
            cases hentry : findEntry id bytes with
            | error failure => exact .undecoded hseparated hread hentry
            | ok entry =>
                cases entry with
                | none => exact .absent hseparated hread hentry
                | some entry =>
                    dsimp only [Option.bind_some]
                    cases hsample : entry.retrieve? service with
                    | none => exact .incomplete hseparated hread hentry hsample
                    | some sample => exact .found hseparated hread hentry hsample

theorem Reads.readSample_eq (h : Reads d directory service id outcome) (hdirectory : directory ≠ [])
    (hservice : service ≠ []) (hid : id ≠ []) : readSample d directory service id = outcome := by
  have hsame := fun whole => readSample_of_not_separated (d := d) hdirectory hservice hid whole
  cases h with
  | separated h => exact readSample_of_separated hdirectory hservice hid h
  | missing whole read => rw [hsame whole, read]
  | @unopened e whole read ne =>
      rw [hsame whole, read]
      cases e <;> first | rfl | exact absurd rfl ne
  | directory whole read =>
      rw [hsame whole, read]
      rfl
  | undecoded whole read decode =>
      rw [hsame whole, read]
      simp [sampleIn, decode]
  | absent whole read decode =>
      rw [hsame whole, read]
      simp [sampleIn, decode]
  | incomplete whole read decode lacks =>
      rw [hsame whole, read]
      simp [sampleIn, decode, lacks]
  | found whole read decode complete =>
      rw [hsame whole, read]
      simp [sampleIn, decode, complete]

/-- **A reading comes to exactly one outcome**, the one of the case that it is in. -/
theorem readSample_eq_iff (hdirectory : directory ≠ []) (hservice : service ≠ []) (hid : id ≠ []) :
    readSample d directory service id = outcome ↔ Reads d directory service id outcome := by
  constructor
  · rintro rfl
    exact reads_readSample hdirectory hservice hid
  · intro h
    exact h.readSample_eq hdirectory hservice hid

end Exemplar.Store
