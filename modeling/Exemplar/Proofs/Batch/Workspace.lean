import Exemplar.Batch.Workspace

/-!
# Runs of batches

A batch that succeeds does so step by step: each of its steps gives a value and a workspace to go on with.
A batch whose steps leave the disk as it is does so as a whole, also when it fails.
-/

namespace Exemplar.Batch

variable {α β : Type} {w w' : Workspace}

theorem bind_eq_ok_iff {x : Batch α} {f : α → Batch β} {b : β} :
    (x >>= f) w = .ok b w' ↔ ∃ a between, x w = .ok a between ∧ f a between = .ok b w' := by
  constructor
  · intro h
    cases hx : x w with
    | ok a between => exact ⟨a, between, rfl, by simpa [bind, EStateM.bind, hx] using h⟩
    | error fault between => simp [bind, EStateM.bind, hx] at h
  · rintro ⟨a, between, hx, hf⟩
    simpa [bind, EStateM.bind, hx] using hf

theorem lift_eq_ok_iff {x : Except Fault α} {a : α} :
    Batch.lift x w = .ok a w' ↔ x = .ok a ∧ w' = w := by
  constructor
  · intro h
    cases x with
    | ok b =>
        cases h
        exact ⟨rfl, rfl⟩
    | error fault => cases h
  · rintro ⟨rfl, rfl⟩
    rfl

theorem writeFile_eq_ok {path contents : Text}
    (h : Batch.writeFile path contents w = .ok () w') :
    w.disk.writeFile path (Utf8.encode contents) = .ok w'.disk := by
  obtain ⟨_, _, hget, h⟩ := bind_eq_ok_iff.mp h
  cases hget
  cases hwrite : w.disk.writeFile path (Utf8.encode contents) with
  | ok disk =>
      rw [hwrite] at h
      cases h
      rfl
  | error e =>
      rw [hwrite] at h
      cases h

theorem makeDirectories_eq_ok {path : Text}
    (h : Batch.makeDirectories path w = .ok () w') :
    w.disk.makeDirectories path = (w'.disk, .ok ()) := by
  obtain ⟨_, _, hget, h⟩ := bind_eq_ok_iff.mp h
  cases hget
  cases hmade : w.disk.makeDirectories path with
  | mk disk result =>
      rw [hmade] at h
      obtain ⟨_, _, hset, h⟩ := bind_eq_ok_iff.mp h
      cases hset
      cases result with
      | ok =>
          cases h
          rfl
      | error e => cases h

/-! ### Runs that fail -/

/-- A failing run fails in its first part, or in what follows the value of that part. -/
theorem bind_eq_error_iff {x : Batch α} {f : α → Batch β} {fault : Fault} :
    (x >>= f) w = .error fault w' ↔
      x w = .error fault w' ∨ ∃ a between, x w = .ok a between ∧ f a between = .error fault w' := by
  cases hx : x w with
  | ok a between =>
      have hbind : (x >>= f) w = f a between := by simp [bind, EStateM.bind, hx]
      rw [hbind]
      constructor
      · intro h
        exact Or.inr ⟨a, between, rfl, h⟩
      · rintro (h | ⟨_, _, h, hf⟩)
        · cases h
        · cases h
          exact hf
  | error e between =>
      have hbind : (x >>= f) w = .error e between := by simp [bind, EStateM.bind, hx]
      rw [hbind]
      constructor
      · intro h
        cases h
        exact Or.inl rfl
      · rintro (h | ⟨_, _, h, -⟩)
        · cases h
          rfl
        · cases h

theorem lift_eq_error_iff {x : Except Fault α} {fault : Fault} :
    Batch.lift x w = .error fault w' ↔ x = .error fault ∧ w' = w := by
  cases x with
  | ok a =>
      constructor
      · intro h
        cases h
      · rintro ⟨h, -⟩
        cases h
  | error e =>
      constructor
      · intro h
        cases h
        exact ⟨rfl, rfl⟩
      · rintro ⟨h, rfl⟩
        cases h
        rfl

/-- A write that fails has no effect. -/
theorem writeFile_eq_error {path contents : Text} {fault : Fault}
    (h : Batch.writeFile path contents w = .error fault w') : w' = w ∧ ∃ e, fault = .io path e := by
  rcases bind_eq_error_iff.mp h with h | ⟨_, _, hget, h⟩
  · cases h
  · cases hget
    cases hwrite : w.disk.writeFile path (Utf8.encode contents) with
    | ok disk =>
        rw [hwrite] at h
        cases h
    | error e =>
        rw [hwrite] at h
        cases h
        exact ⟨rfl, e, rfl⟩

/-- Directories that were made before one could not be made stay. -/
theorem makeDirectories_eq_error {path : Text} {fault : Fault}
    (h : Batch.makeDirectories path w = .error fault w') :
    w'.disk = (w.disk.makeDirectories path).1 ∧ ∃ e, fault = .io path e := by
  rcases bind_eq_error_iff.mp h with h | ⟨_, _, hget, h⟩
  · cases h
  · cases hget
    cases hmade : w.disk.makeDirectories path with
    | mk disk result =>
        rw [hmade] at h
        rcases bind_eq_error_iff.mp h with h | ⟨_, _, hset, h⟩
        · cases h
        · cases hset
          cases result with
          | ok => cases h
          | error e =>
              cases h
              exact ⟨rfl, e, rfl⟩

/-! ### Batches that only observe -/

/-- A batch that comes to an outcome with the disk as it was. Notices may have been given. -/
inductive Observes (x : Batch α) (w : Workspace) : Except Fault α → Prop
  | ok {a : α} {w' : Workspace} (run : x w = .ok a w') (disk : w'.disk = w.disk) : Observes x w (.ok a)
  | error {fault : Fault} {w' : Workspace} (run : x w = .error fault w') (disk : w'.disk = w.disk) :
      Observes x w (.error fault)

/-- What a run gives is what the batch comes to. -/
theorem Observes.of_run {x : Batch α} {a : α} {outcome : Except Fault α} (h : Observes x w outcome)
    (hrun : x w = .ok a w') : outcome = .ok a ∧ w'.disk = w.disk := by
  cases h with
  | ok hrun' hdisk =>
      cases hrun.symm.trans hrun'
      exact ⟨rfl, hdisk⟩
  | error hrun' => cases hrun.symm.trans hrun'

/-- How a run fails is what the batch comes to. -/
theorem Observes.of_failed_run {x : Batch α} {fault : Fault} {outcome : Except Fault α} (h : Observes x w outcome)
    (hrun : x w = .error fault w') : outcome = .error fault ∧ w'.disk = w.disk := by
  cases h with
  | ok hrun' => cases hrun.symm.trans hrun'
  | error hrun' hdisk =>
      cases hrun.symm.trans hrun'
      exact ⟨rfl, hdisk⟩

theorem Observes.unique {x : Batch α} {outcome outcome' : Except Fault α} (h : Observes x w outcome)
    (h' : Observes x w outcome') : outcome = outcome' := by
  cases h with
  | ok hrun => exact (h'.of_run hrun).1.symm
  | error hrun => exact (h'.of_failed_run hrun).1.symm

theorem observes_lift (x : Except Fault α) (w : Workspace) : Observes (Batch.lift x) w x := by
  cases x with
  | ok a => exact .ok rfl rfl
  | error fault => exact .error rfl rfl

theorem observes_pure (a : α) (w : Workspace) : Observes (pure a : Batch α) w (.ok a) := .ok rfl rfl

theorem observes_get (w : Workspace) : Observes get w (.ok w) := .ok rfl rfl

theorem observes_notify (notice : Notice) (w : Workspace) : Observes (notify notice) w (.ok ()) := .ok rfl rfl

/-- What follows a value sees the disk as it was before. -/
theorem Observes.bind {x : Batch α} {f : α → Batch β} {a : α} {outcome : Except Fault β}
    (hx : Observes x w (.ok a)) (hf : ∀ w', w'.disk = w.disk → Observes (f a) w' outcome) :
    Observes (x >>= f) w outcome := by
  cases hx with
  | @ok _ between hrun hdisk =>
      have hbind : (x >>= f) w = f a between := by simp [Bind.bind, EStateM.bind, hrun]
      cases hf between hdisk with
      | ok hrest hdisk' => exact .ok (hbind.trans hrest) (hdisk'.trans hdisk)
      | error hrest hdisk' => exact .error (hbind.trans hrest) (hdisk'.trans hdisk)

/-- Nothing follows a failure. -/
theorem Observes.bind_error {x : Batch α} (f : α → Batch β) {fault : Fault}
    (hx : Observes x w (.error fault)) : Observes (x >>= f) w (.error fault) := by
  cases hx with
  | error hrun hdisk => exact .error (by simp [Bind.bind, EStateM.bind, hrun]) hdisk

theorem observes_forM_notify (items : List α) (notice : α → Notice) (w : Workspace) :
    Observes (items.forM fun item => notify (notice item)) w (.ok ()) := by
  induction items generalizing w with
  | nil => exact observes_pure () w
  | cons item items ih => exact (observes_notify _ w).bind fun w' _ => ih w'

/-! ### Running -/

/-- Whether a batch succeeds with a value that passes a test. -/
def gives (test : α → Bool) (x : Batch α) (w : Workspace) : Bool :=
  match x w with
  | .ok a _ => test a
  | .error _ _ => false

theorem exists_of_gives {test : α → Bool} {x : Batch α} (h : gives test x w) :
    ∃ a w', x w = .ok a w' ∧ test a := by
  unfold gives at h
  cases hx : x w with
  | ok a w' =>
      rw [hx] at h
      exact ⟨a, w', rfl, h⟩
  | error fault w' => simp [hx] at h

/-- Whether a batch succeeds with a value and a workspace that pass a test. -/
def leaves (test : α → Workspace → Bool) (x : Batch α) (w : Workspace) : Bool :=
  match x w with
  | .ok a w' => test a w'
  | .error _ _ => false

theorem exists_of_leaves {test : α → Workspace → Bool} {x : Batch α} (h : leaves test x w) :
    ∃ a w', x w = .ok a w' ∧ test a w' := by
  unfold leaves at h
  cases hx : x w with
  | ok a w' =>
      rw [hx] at h
      exact ⟨a, w', rfl, h⟩
  | error fault w' => simp [hx] at h

/-- Whether a batch fails with a fault that passes a test. -/
def failsWith (test : Fault → Bool) (x : Batch α) (w : Workspace) : Bool :=
  match x w with
  | .ok _ _ => false
  | .error fault _ => test fault

theorem exists_of_failsWith {test : Fault → Bool} {x : Batch α} (h : failsWith test x w) :
    ∃ fault w', x w = .error fault w' ∧ test fault := by
  unfold failsWith at h
  cases hx : x w with
  | ok a w' => simp [hx] at h
  | error fault w' =>
      rw [hx] at h
      exact ⟨fault, w', rfl, h⟩

end Exemplar.Batch
