import Exemplar.Batch.Show
import Exemplar.Proofs.Batch.Workspace
import Exemplar.Proofs.Reference
import Exemplar.Proofs.Store.Reading

/-!
# What a show comes to

Each reference resolves to a sample, or to none, or it fails. A show renders what its references resolve to,
in their order, and fails as the first of them that fails. It never changes the disk.

References are skipped for what they look like and for what is missing, but a reading can fail for more
reasons than a document that cannot be read: a reference may well have a separator in its service, and then
it takes all the others with it.
-/

namespace Exemplar.Batch

open Store Render

variable {d : Disk} {directory reference : Text} {references : List Text} {w : Workspace}
  {outcome : Except Fault (Option Retrieved)}

/-- What a reference resolves to on a disk. -/
inductive Resolves (d : Disk) (directory reference : Text) : Except Fault (Option Retrieved) → Prop
  | malformed (h : Reference.ofText? reference = none) : Resolves d directory reference (.ok none)
  | read {r : Reference} {outcome : Except Fault (Option Retrieved)}
      (h : Reference.ofText? reference = some r) (reads : Reads d directory r.service r.id outcome) :
      Resolves d directory reference outcome

/-- A reference resolved on a disk alone. -/
def resolved (d : Disk) (directory reference : Text) : Except Fault (Option Retrieved) :=
  match Reference.ofText? reference with
  | none => .ok none
  | some r => readSample d directory r.service r.id

theorem resolved_eq_iff (hdirectory : directory ≠ []) :
    resolved d directory reference = outcome ↔ Resolves d directory reference outcome := by
  unfold resolved
  cases hreference : Reference.ofText? reference with
  | none =>
      constructor
      · rintro rfl
        exact .malformed hreference
      · rintro (- | ⟨hread, -⟩)
        · rfl
        · simp [hreference] at hread
  | some r =>
      obtain ⟨hservice, hid⟩ := Reference.isWord_of_ofText (Reference.ofText_eq_ok_iff.mpr hreference)
      dsimp only
      rw [readSample_eq_iff hdirectory hservice.ne_nil hid.ne_nil]
      constructor
      · exact .read hreference
      · rintro (hread | ⟨hread, hreads⟩)
        · simp [hreference] at hread
        · rw [hreference] at hread
          exact Option.some.inj hread ▸ hreads

/-! ### Runs -/

theorem observes_resolve (directory reference : Text) (w : Workspace) :
    Observes (resolve directory reference) w (resolved w.disk directory reference) := by
  unfold resolve resolved Reference.ofText
  cases Reference.ofText? reference with
  | none => exact (observes_notify _ w).bind fun w' _ => observes_pure none w'
  | some r =>
      dsimp only
      refine (observes_get w).bind fun w' _ => ?_
      cases hread : readSample w.disk directory r.service r.id with
      | error fault => exact (observes_lift (.error fault) w').bind_error _
      | ok sample =>
          refine (observes_lift (.ok sample) w').bind fun w'' _ => ?_
          cases sample with
          | some sample => exact observes_pure (some sample) w''
          | none => exact (observes_notify _ w'').bind fun w''' _ => observes_pure none w'''

/-- Going through references collects the samples that they resolve to. -/
theorem observes_resolveAll (directory : Text) (references : List Text) (w : Workspace) :
    Observes (resolveAll directory references) w
      ((references.mapM (resolved w.disk directory)).map List.reduceOption) := by
  induction references generalizing w with
  | nil => exact observes_pure [] w
  | cons reference references ih =>
      have hstep := observes_resolve directory reference w
      rw [resolveAll, List.mapM_cons]
      cases hfirst : resolved w.disk directory reference with
      | error fault => exact (hfirst ▸ hstep).bind_error _
      | ok sample =>
          refine (hfirst ▸ hstep).bind fun w' hdisk => ?_
          have hrest := hdisk ▸ ih w'
          rw [ok_bind]
          cases hothers : references.mapM (resolved w.disk directory) with
          | error fault => exact (hothers ▸ hrest).bind_error _
          | ok samples =>
              refine (hothers ▸ hrest).bind fun w'' _ => ?_
              cases sample <;> exact observes_pure _ w''

theorem ShowConfig.validate_eq_ok_iff {c : ShowConfig} :
    c.validate = .ok () ↔ c.samplesDirectory ≠ [] ∧ c.references ≠ [] := by
  unfold ShowConfig.validate refuseAbsent
  split_ifs <;> simp_all

theorem ShowConfig.samplesDirectory_ne {c : ShowConfig} (h : c.validate = .ok ()) :
    c.samplesDirectory ≠ [] :=
  (validate_eq_ok_iff.mp h).1

theorem observes_showSamples {c : ShowConfig} {format : Format} (hvalid : c.validate = .ok ())
    (hformat : Format.ofName c.format = .ok format) (w : Workspace) :
    Observes (showSamples c) w
      ((c.references.mapM (resolved w.disk c.samplesDirectory)).map (format.render ·.reduceOption)) := by
  unfold showSamples
  rw [hvalid, hformat]
  refine (observes_lift _ w).bind fun w' hdisk => (observes_lift _ w').bind fun w'' hdisk' => ?_
  have hall := observes_resolveAll c.samplesDirectory c.references w''
  rw [hdisk', hdisk] at hall
  cases hsamples : c.references.mapM (resolved w.disk c.samplesDirectory) with
  | error fault => exact (hsamples ▸ hall).bind_error _
  | ok samples => exact (hsamples ▸ hall).bind fun w''' _ => observes_pure _ w'''

/-- **What a show comes to.** It gives what its references resolve to, rendered, unless one of them fails; then
it fails as the first of those. -/
theorem showSamples_comes_to {c : ShowConfig} {format : Format} (hvalid : c.validate = .ok ())
    (hformat : Format.ofName c.format = .ok format) (w : Workspace) :
    (∃ samples, List.Forall₂ (fun reference sample => Resolves w.disk c.samplesDirectory reference (.ok sample))
        c.references samples ∧ Observes (showSamples c) w (.ok (format.render samples.reduceOption))) ∨
      ∃ before reference after fault, c.references = before ++ reference :: after ∧
        (∀ earlier ∈ before, ∃ sample, Resolves w.disk c.samplesDirectory earlier (.ok sample)) ∧
        Resolves w.disk c.samplesDirectory reference (.error fault) ∧
        Observes (showSamples c) w (.error fault) := by
  have hdirectory := ShowConfig.samplesDirectory_ne hvalid
  have hobserves := observes_showSamples hvalid hformat w
  cases hsamples : c.references.mapM (resolved w.disk c.samplesDirectory) with
  | ok samples =>
      rw [hsamples] at hobserves
      refine Or.inl ⟨samples, ?_, hobserves⟩
      simpa only [mapM_eq_ok_iff, resolved_eq_iff hdirectory] using hsamples
  | error fault =>
      rw [hsamples] at hobserves
      simp only [mapM_eq_error_iff, resolved_eq_iff hdirectory] at hsamples
      obtain ⟨before, reference, after, hsplit, hbefore, hfails⟩ := hsamples
      exact Or.inr ⟨before, reference, after, fault, hsplit, hbefore, hfails, hobserves⟩

/-- An archive with one sample. -/
def parcelArchive : Workspace where
  disk := (Disk.fresh []).put ["archive".toList, "Parcels.json".toList]
    (.file (Utf8.encode ("\x7b\"codeSamples\":[\x7b\"id\":\"Send\",\"title\":\"Send\"," ++
      "\"description\":\"Sends.\",\"content\":\"send();\"\x7d]\x7d").toList)) trivial
  notices := []

def parcelShow (references : List Text) : ShowConfig := ⟨"archive".toList, references, "md".toList⟩

/-- A reference to the sample between a malformed one and one without a document. -/
def someReferences : List Text := ["nothing".toList, "Parcels.Send".toList, "Letters.Send".toList]

theorem showSamples_comes_to_parcels :
    ∃ samples, List.Forall₂ (fun reference sample =>
        Resolves parcelArchive.disk "archive".toList reference (.ok sample)) someReferences samples ∧
      Observes (showSamples (parcelShow someReferences)) parcelArchive
        (.ok (Format.markdown.render samples.reduceOption)) := by
  have hgives : gives (· = "### Send\n\nSends.\n\n```java\nsend();\n```\n".toList)
      (showSamples (parcelShow someReferences)) parcelArchive := by decide +kernel
  obtain ⟨text, w', hrun, -⟩ := exists_of_gives hgives
  have hvalid : (parcelShow someReferences).validate = .ok () := by decide
  have hformat : Format.ofName (parcelShow someReferences).format = .ok .markdown := by decide
  rcases showSamples_comes_to hvalid hformat parcelArchive with hshown | ⟨-, -, -, fault, -, -, -, hfails⟩
  · exact hshown
  · cases (hfails.of_run hrun).1

/-- A reference with a separator in its service before one to the sample. -/
def separatedReferences : List Text := ["Post/Parcels.Send".toList, "Parcels.Send".toList]

/-- A separator in the service of a reference ends the show, and what comes after it is not shown. -/
theorem not_unreadable_of_showSamples :
    ¬∀ (c : ShowConfig) (format : Format) (w : Workspace) (fault : Fault), c.validate = .ok () →
      Format.ofName c.format = .ok format → Observes (showSamples c) w (.error fault) →
        (∃ path e, fault = .io path e) ∨ ∃ service id failure, fault = .retrieval service id failure := by
  intro h
  have hvalid : (parcelShow separatedReferences).validate = .ok () := by decide
  have hformat : Format.ofName (parcelShow separatedReferences).format = .ok .markdown := by decide
  have hresolved : separatedReferences.mapM (resolved parcelArchive.disk "archive".toList) =
      .error (.invalidArgument (.serviceHasSeparator "Post/Parcels".toList)) := by decide +kernel
  have hobserves := observes_showSamples hvalid hformat parcelArchive
  rw [parcelShow, hresolved] at hobserves
  rcases h _ _ _ _ hvalid hformat hobserves with ⟨path, e, hfault⟩ | ⟨service, id, failure, hfault⟩
  · cases hfault
  · cases hfault

/-! ### What is shown -/

/-- The sample that a reading finds for a reference, if any. -/
def found? (d : Disk) (directory reference : Text) : Option Retrieved :=
  match Reference.ofText reference with
  | .error _ => none
  | .ok r =>
    match readSample d directory r.service r.id with
    | .error _ => none
    | .ok sample => sample

/-- A reference that is malformed, or for which a reading finds no sample. -/
def Skipped (d : Disk) (directory reference : Text) : Prop :=
  (∃ fault, Reference.ofText reference = .error fault) ∨
    ∃ r, Reference.ofText reference = .ok r ∧ readSample d directory r.service r.id = .ok none

theorem resolved_eq (d : Disk) (directory reference : Text) :
    resolved d directory reference =
      match Reference.ofText reference with
      | .error _ => .ok none
      | .ok r => readSample d directory r.service r.id := by
  unfold resolved Reference.ofText
  cases Reference.ofText? reference <;> rfl

theorem resolved_eq_none_iff : resolved d directory reference = .ok none ↔ Skipped d directory reference := by
  rw [resolved_eq, Skipped]
  cases Reference.ofText reference <;> simp

theorem found?_of_resolved {sample : Option Retrieved} (h : resolved d directory reference = .ok sample) :
    found? d directory reference = sample := by
  rw [resolved_eq] at h
  unfold found?
  cases hreference : Reference.ofText reference with
  | error fault => simpa [hreference] using h
  | ok r =>
      rw [hreference] at h
      dsimp only at h ⊢
      rw [h]

theorem mapM_resolved (h : ∀ reference ∈ references, ∃ sample, resolved d directory reference = .ok sample) :
    references.mapM (resolved d directory) = .ok (references.map (found? d directory)) := by
  rw [mapM_eq_ok_iff, List.forall₂_map_right_iff, List.forall₂_same]
  intro reference hmem
  obtain ⟨sample, hsample⟩ := h reference hmem
  rw [hsample, found?_of_resolved hsample]

/-- A list of references with more of them put in anywhere, all of which pass a test. -/
inductive Padded (skipped : Text → Prop) : List Text → List Text → Prop
  | nil : Padded skipped [] []
  | keep (reference : Text) {references more : List Text} (h : Padded skipped references more) :
      Padded skipped (reference :: references) (reference :: more)
  | insert {reference : Text} {references more : List Text} (hskipped : skipped reference)
      (h : Padded skipped references more) : Padded skipped references (reference :: more)

section Padded

variable {skipped : Text → Prop} {more : List Text}

theorem Padded.forall_mem {p : Text → Prop} (h : Padded skipped references more)
    (hskipped : ∀ reference, skipped reference → p reference) (hall : ∀ reference ∈ references, p reference) :
    ∀ reference ∈ more, p reference := by
  induction h with
  | nil => exact hall
  | keep reference h ih =>
      obtain ⟨hfirst, hrest⟩ := List.forall_mem_cons.mp hall
      exact List.forall_mem_cons.mpr ⟨hfirst, ih hrest⟩
  | insert hreference h ih => exact List.forall_mem_cons.mpr ⟨hskipped _ hreference, ih hall⟩

theorem Padded.filterMap_eq {α : Type} {f : Text → Option α} (h : Padded skipped references more)
    (hskipped : ∀ reference, skipped reference → f reference = none) : more.filterMap f = references.filterMap f := by
  induction h with
  | nil => rfl
  | keep reference h ih => rw [List.filterMap_cons, List.filterMap_cons, ih]
  | insert hreference h ih => rw [List.filterMap_cons_none (hskipped _ hreference), ih]

theorem Padded.ne_nil (h : Padded skipped references more) (hne : references ≠ []) : more ≠ [] := by
  cases h with
  | nil => exact hne
  | keep reference h => exact List.cons_ne_nil _ _
  | insert hreference h => exact List.cons_ne_nil _ _

end Padded

/-- References none of which fails are shown with the samples that are found for them. -/
theorem observes_showSamples_of_resolved {c : ShowConfig} {format : Format} (hvalid : c.validate = .ok ())
    (hformat : Format.ofName c.format = .ok format)
    (hall : ∀ reference ∈ c.references, ∃ sample, resolved w.disk c.samplesDirectory reference = .ok sample) :
    Observes (showSamples c) w
      (.ok (format.render (c.references.filterMap (found? w.disk c.samplesDirectory)))) := by
  have hobserves := observes_showSamples hvalid hformat w
  rw [mapM_resolved hall] at hobserves
  have hsamples : (c.references.map (found? w.disk c.samplesDirectory)).reduceOption =
      c.references.filterMap (found? w.disk c.samplesDirectory) := List.filterMap_map
  exact hsamples ▸ hobserves

theorem valid_of_showSamples {c : ShowConfig} {w' : Workspace} {text : Text} (h : showSamples c w = .ok text w') :
    c.validate = .ok () ∧ ∃ format, Format.ofName c.format = .ok format := by
  obtain ⟨⟨⟩, _, hvalid, hrest⟩ := bind_eq_ok_iff.mp h
  obtain ⟨format, _, hformat, -⟩ := bind_eq_ok_iff.mp hrest
  exact ⟨(lift_eq_ok_iff.mp hvalid).1, format, (lift_eq_ok_iff.mp hformat).1⟩

/-- **A show that succeeds renders the samples found for its references**, in their order and as often as they are
named. Every reference has its sample or is skipped, the disk is as it was, and references that are skipped can be
put in anywhere without a change of what is shown. -/
theorem showSamples_renders_found {c : ShowConfig} {w w' : Workspace} {text : Text}
    (h : showSamples c w = .ok text w') :
    (∃ format, Format.ofName c.format = .ok format ∧
      text = format.render (c.references.filterMap (found? w.disk c.samplesDirectory))) ∧
      w'.disk = w.disk ∧
      (∀ reference ∈ c.references, Skipped w.disk c.samplesDirectory reference ∨
        ∃ sample, found? w.disk c.samplesDirectory reference = some sample) ∧
      ∀ references, Padded (Skipped w.disk c.samplesDirectory) c.references references →
        Observes (showSamples { c with references := references }) w (.ok text) := by
  obtain ⟨hvalid, format, hformat⟩ := valid_of_showSamples h
  obtain ⟨hgives, hdisk⟩ := (observes_showSamples hvalid hformat w).of_run h
  obtain ⟨samples, hsamples, -⟩ := map_eq_ok_iff.mp hgives
  have hall : ∀ reference ∈ c.references, ∃ sample, resolved w.disk c.samplesDirectory reference = .ok sample := by
    intro reference hmem
    obtain ⟨sample, -, hsample⟩ := exists_of_forall₂ (mapM_eq_ok_iff.mp hsamples) hmem
    exact ⟨sample, hsample⟩
  obtain ⟨htext, -⟩ := (observes_showSamples_of_resolved hvalid hformat hall).of_run h
  cases htext
  refine ⟨⟨format, hformat, rfl⟩, hdisk, ?_, fun references hpadded => ?_⟩
  · intro reference hmem
    obtain ⟨sample, hsample⟩ := hall reference hmem
    cases sample with
    | none => exact Or.inl (resolved_eq_none_iff.mp hsample)
    | some sample => exact Or.inr ⟨sample, found?_of_resolved hsample⟩
  · obtain ⟨hdirectory, hreferences⟩ := ShowConfig.validate_eq_ok_iff.mp hvalid
    have hvalid' : ShowConfig.validate { c with references := references } = .ok () :=
      ShowConfig.validate_eq_ok_iff.mpr ⟨hdirectory, hpadded.ne_nil hreferences⟩
    have hall' := hpadded.forall_mem (fun reference hskipped => ⟨none, resolved_eq_none_iff.mpr hskipped⟩) hall
    have hsame := hpadded.filterMap_eq fun reference hskipped =>
      found?_of_resolved (resolved_eq_none_iff.mpr hskipped)
    exact hsame ▸ observes_showSamples_of_resolved hvalid' hformat hall'

/-- The sample twice, and a reference without a document put in between. -/
def paddedReferences : List Text := ["Parcels.Send".toList, "Letters.Send".toList, "Parcels.Send".toList]

theorem showSamples_renders_found_twice :
    ∃ text w', showSamples (parcelShow ["Parcels.Send".toList, "Parcels.Send".toList]) parcelArchive = .ok text w' ∧
      w'.disk = parcelArchive.disk ∧
      Padded (Skipped parcelArchive.disk "archive".toList) ["Parcels.Send".toList, "Parcels.Send".toList]
        paddedReferences ∧
      Observes (showSamples (parcelShow paddedReferences)) parcelArchive (.ok text) := by
  have hgives : gives (· = ("### Send\n\nSends.\n\n```java\nsend();\n```\n\n" ++
      "### Send\n\nSends.\n\n```java\nsend();\n```\n").toList)
      (showSamples (parcelShow ["Parcels.Send".toList, "Parcels.Send".toList])) parcelArchive := by decide +kernel
  obtain ⟨text, w', hrun, -⟩ := exists_of_gives hgives
  have hskipped : Skipped parcelArchive.disk "archive".toList "Letters.Send".toList :=
    resolved_eq_none_iff.mp (by decide +kernel)
  have hpadded : Padded (Skipped parcelArchive.disk "archive".toList)
      ["Parcels.Send".toList, "Parcels.Send".toList] paddedReferences :=
    .keep _ (.insert hskipped (.keep _ .nil))
  obtain ⟨-, hdisk, -, hpad⟩ := showSamples_renders_found hrun
  exact ⟨text, w', hrun, hdisk, hpadded, hpad _ hpadded⟩

end Exemplar.Batch
