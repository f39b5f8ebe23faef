import Exemplar.Fault
import Mathlib.Data.List.Forall2

/-!
# Outcomes

When a computation that may fail gives a value: each of its parts gives one. When it fails: the first of its
parts that fails does so in the same way.
-/

namespace Exemplar

variable {ε α β : Type}

instance decidableEqOutcome [DecidableEq ε] [DecidableEq α] : DecidableEq (Except ε α)
  | .ok a, .ok b => decidable_of_iff (a = b) (by simp)
  | .error e, .error e' => decidable_of_iff (e = e') (by simp)
  | .ok _, .error _ => isFalse nofun
  | .error _, .ok _ => isFalse nofun

theorem map_eq_ok_iff {x : Except ε α} {f : α → β} {b : β} :
    x.map f = .ok b ↔ ∃ a, x = .ok a ∧ f a = b := by
  cases x <;> simp [Except.map]

theorem map_eq_error_iff {x : Except ε α} {f : α → β} {e : ε} : x.map f = .error e ↔ x = .error e := by
  cases x <;> simp [Except.map]

theorem bind_eq_ok_iff {x : Except ε α} {f : α → Except ε β} {b : β} :
    x >>= f = .ok b ↔ ∃ a, x = .ok a ∧ f a = .ok b := by
  cases x <;> simp [bind, Except.bind]

theorem bind_eq_error_iff {x : Except ε α} {f : α → Except ε β} {e : ε} :
    x >>= f = .error e ↔ x = .error e ∨ ∃ a, x = .ok a ∧ f a = .error e := by
  cases x <;> simp [bind, Except.bind]

/-- What only makes a value of its part fails as the part does. -/
theorem bind_pure_eq_error_iff {x : Except ε α} {f : α → β} {e : ε} :
    (x >>= fun a => pure (f a)) = .error e ↔ x = .error e := by
  cases x <;> simp [bind, Except.bind, pure, Except.pure]

theorem exists_map_iff {x : Except ε α} {f : α → β} : (∃ b, x.map f = .ok b) ↔ ∃ a, x = .ok a := by
  cases x <;> simp [Except.map]

theorem exists_bind_iff {x : Except ε α} {f : α → Except ε β} :
    (∃ b, x >>= f = .ok b) ↔ ∃ a, x = .ok a ∧ ∃ b, f a = .ok b := by
  cases x <;> simp [bind, Except.bind]

theorem exists_pure (a : α) : ∃ b, (pure a : Except ε α) = .ok b := ⟨a, rfl⟩

theorem toOption_eq_some_iff {x : Except ε α} {a : α} : x.toOption = some a ↔ x = .ok a := by
  cases x <;> simp [Except.toOption]

theorem exists_eq_ok_of_isSome {x : Except ε α} (h : x.toOption.isSome) : ∃ a, x = .ok a := by
  obtain ⟨a, ha⟩ := Option.isSome_iff_exists.mp h
  exact ⟨a, toOption_eq_some_iff.mp ha⟩

theorem ok_bind (a : α) (f : α → Except ε β) : (Except.ok a >>= f) = f a := rfl

theorem error_bind (e : ε) (f : α → Except ε β) : (Except.error e >>= f) = .error e := rfl

/-! ### Lists -/

theorem exists_of_forall₂ {R : α → β → Prop} {xs : List α} {ys : List β}
    (h : List.Forall₂ R xs ys) {x : α} (hx : x ∈ xs) : ∃ y ∈ ys, R x y := by
  induction h with
  | nil => simp at hx
  | cons hhead _ ih =>
      rcases List.mem_cons.mp hx with rfl | hx
      · exact ⟨_, List.mem_cons_self, hhead⟩
      · obtain ⟨y, hy, hR⟩ := ih hx
        exact ⟨y, List.mem_cons_of_mem _ hy, hR⟩

theorem mem_of_lookup_eq_some {entries : List (Text × α)} {key : Text} {a : α}
    (h : entries.lookup key = some a) : (key, a) ∈ entries := by
  obtain ⟨before, after, rfl, -⟩ := List.lookup_eq_some_iff.mp h
  simp

theorem exists_mem_zip {xs : List α} {ys : List β} (hlength : xs.length = ys.length) {y : β} (hy : y ∈ ys) :
    ∃ pair ∈ xs.zip ys, pair.2 = y := by
  rw [← List.map_snd_zip (Nat.le_of_eq hlength.symm)] at hy
  exact List.mem_map.mp hy

theorem map_eq_map_of_zip {γ : Type} {f : α → γ} {g : β → γ} {xs : List α} {ys : List β}
    (hlength : xs.length = ys.length) (h : ∀ pair ∈ xs.zip ys, f pair.1 = g pair.2) : xs.map f = ys.map g := by
  calc xs.map f = (xs.zip ys).map (f ∘ Prod.fst) := by rw [← List.map_map, List.map_fst_zip (Nat.le_of_eq hlength)]
    _ = (xs.zip ys).map (g ∘ Prod.snd) := List.map_congr_left h
    _ = ys.map g := by rw [← List.map_map, List.map_snd_zip (Nat.le_of_eq hlength.symm)]

theorem forall₂_map_of_mem {γ : Type} {R : α → β → Prop} {S : β → γ → Prop} {f : α → γ} {xs : List α} {ys : List β}
    (h : List.Forall₂ R xs ys) (hmap : ∀ x ∈ xs, ∀ y, R x y → S y (f x)) : List.Forall₂ S ys (xs.map f) := by
  induction h with
  | nil => exact .nil
  | cons hfirst _ ih =>
      obtain ⟨hhead, htail⟩ := List.forall_mem_cons.mp hmap
      exact .cons (hhead _ hfirst) (ih htail)

theorem mapM_eq_ok_iff {f : α → Except ε β} {xs : List α} {ys : List β} :
    xs.mapM f = .ok ys ↔ List.Forall₂ (fun x y => f x = .ok y) xs ys := by
  induction xs generalizing ys with
  | nil => simp [pure, Except.pure, eq_comm]
  | cons x xs ih =>
      rw [List.mapM_cons, List.forall₂_cons_left_iff]
      simp only [bind_eq_ok_iff, ih, pure, Except.pure, Except.ok.injEq]
      constructor
      · rintro ⟨y, hx, rest, hrest, rfl⟩
        exact ⟨y, rest, hx, hrest, rfl⟩
      · rintro ⟨y, rest, hx, hrest, rfl⟩
        exact ⟨y, hx, rest, hrest, rfl⟩

/-- A list of computations fails as the first of them that fails. -/
theorem mapM_eq_error_iff {f : α → Except ε β} {xs : List α} {e : ε} :
    xs.mapM f = .error e ↔ ∃ before x after, xs = before ++ x :: after ∧
      (∀ y ∈ before, ∃ b, f y = .ok b) ∧ f x = .error e := by
  induction xs with
  | nil => simp [pure, Except.pure]
  | cons first xs ih =>
      rw [List.mapM_cons]
      constructor
      · intro h
        cases hfirst : f first with
        | error e' =>
            rw [hfirst] at h
            cases h
            exact ⟨[], first, xs, rfl, by simp, hfirst⟩
        | ok b =>
            rw [hfirst, ok_bind] at h
            cases hrest : xs.mapM f with
            | ok rest => simp [hrest, ok_bind, pure, Except.pure] at h
            | error e' =>
                rw [hrest] at h
                cases h
                obtain ⟨before, x, after, rfl, hbefore, hx⟩ := ih.mp hrest
                exact ⟨first :: before, x, after, rfl, List.forall_mem_cons.mpr ⟨⟨b, hfirst⟩, hbefore⟩, hx⟩
      · rintro ⟨before, x, after, hsplit, hbefore, hx⟩
        cases before with
        | nil =>
            obtain ⟨rfl, rfl⟩ := List.cons.inj hsplit
            rw [hx, error_bind]
        | cons y before =>
            obtain ⟨rfl, rfl⟩ := List.cons.inj hsplit
            obtain ⟨⟨b, hfirst⟩, hbefore⟩ := List.forall_mem_cons.mp hbefore
            rw [hfirst, ok_bind, ih.mpr ⟨before, x, after, rfl, hbefore, hx⟩, error_bind]

end Exemplar
