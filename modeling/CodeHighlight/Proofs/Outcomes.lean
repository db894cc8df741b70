import CodeHighlight.Failure
import Mathlib.Data.List.Forall2
import Mathlib.Tactic

/-!
# Results that can fail

When a chain of steps that can fail succeeds, each step has succeeded; when it fails, one step has
failed and those before it have succeeded. These lemmas take such a chain apart, one step at a time.
-/

namespace CodeHighlight
variable {ε ε' α β : Type}

theorem Except.bind_eq_ok_iff {x : Except ε α} {f : α → Except ε β} {b : β} :
    x >>= f = .ok b ↔ ∃ a, x = .ok a ∧ f a = .ok b := by
  cases x <;> simp [bind, Except.bind]

theorem Except.map_eq_ok_iff {x : Except ε α} {f : α → β} {b : β} :
    x.map f = .ok b ↔ ∃ a, x = .ok a ∧ f a = b := by
  cases x <;> simp [Except.map]

theorem Except.mapError_eq_ok_iff {x : Except ε α} {f : ε → ε'} {a : α} :
    x.mapError f = .ok a ↔ x = .ok a := by
  cases x <;> simp [Except.mapError]

theorem Except.bind_eq_error_iff {x : Except ε α} {f : α → Except ε β} {t : ε} :
    x >>= f = .error t ↔ x = .error t ∨ ∃ a, x = .ok a ∧ f a = .error t := by
  cases x <;> simp [bind, Except.bind]

theorem Except.map_eq_error_iff {x : Except ε α} {f : α → β} {t : ε} :
    x.map f = .error t ↔ x = .error t := by
  cases x <;> simp [Except.map]

theorem Except.mapError_eq_error_iff {x : Except ε α} {f : ε → ε'} {t : ε'} :
    x.mapError f = .error t ↔ ∃ q, x = .error q ∧ f q = t := by
  cases x <;> simp [Except.mapError]

/-- Results that agree up to a function fail alike, or what they hold agrees up to the function. -/
theorem Except.map_eq_map_iff {x y : Except ε α} {f : α → β} :
    x.map f = y.map f ↔ (∃ t, x = .error t ∧ y = .error t) ∨
      ∃ a b, x = .ok a ∧ y = .ok b ∧ f a = f b := by
  cases x <;> cases y <;> simp [Except.map, eq_comm]

/-- A chain over a list succeeds when each of its steps does. -/
theorem Except.mapM_eq_ok_iff {f : α → Except ε β} {xs : List α} {ys : List β} :
    xs.mapM f = .ok ys ↔ List.Forall₂ (fun x y => f x = .ok y) xs ys := by
  induction xs generalizing ys with
  | nil => cases ys <;> simp [pure, Except.pure]
  | cons x xs ih =>
    rw [List.mapM_cons, bind_eq_ok_iff]
    simp only [bind_eq_ok_iff, ih]
    constructor
    · rintro ⟨y, hy, zs, hzs, h⟩
      cases h
      exact .cons hy hzs
    · rintro (_ | ⟨hy, hzs⟩)
      exact ⟨_, hy, _, hzs, rfl⟩

/-- A chain over a list fails when one of its steps does. -/
theorem Except.exists_mapM_eq_error {f : α → Except ε β} {xs : List α} {x : α} {t : ε}
    (hx : x ∈ xs) (h : f x = .error t) : ∃ t', xs.mapM f = .error t' := by
  induction xs with
  | nil => cases hx
  | cons y xs ih =>
    rw [List.mapM_cons]
    cases hy : f y with
    | error t' => exact ⟨t', rfl⟩
    | ok z =>
      rcases List.mem_cons.1 hx with rfl | hx
      · cases hy.symm.trans h
      · obtain ⟨t', ht'⟩ := ih hx
        exact ⟨t', by rw [ht']; rfl⟩

/-- A chain over a list that fails does so with the failure of one of its steps. -/
theorem Except.exists_of_mapM_eq_error {f : α → Except ε β} {xs : List α} {t : ε}
    (h : xs.mapM f = .error t) : ∃ x ∈ xs, f x = .error t := by
  induction xs with
  | nil => cases h
  | cons x xs ih =>
    rw [List.mapM_cons, bind_eq_error_iff] at h
    rcases h with hx | ⟨y, -, hrest⟩
    · exact ⟨x, List.mem_cons_self, hx⟩
    · rcases bind_eq_error_iff.1 hrest with hxs | ⟨ys, -, hpure⟩
      · obtain ⟨x', hx', ht⟩ := ih hxs
        exact ⟨x', List.mem_cons_of_mem _ hx', ht⟩
      · cases hpure

/-- A result is a failure with a property. -/
def Except.failsWith (p : ε → Bool) : Except ε α → Bool
  | .error t => p t
  | .ok _ => false

/-- A result is there and has a property. -/
def Except.givesWith (p : α → Bool) : Except ε α → Bool
  | .error _ => false
  | .ok a => p a

theorem Except.failsWith_iff {p : ε → Bool} {x : Except ε α} :
    Except.failsWith p x = true ↔ ∃ t, x = .error t ∧ p t = true := by
  cases x <;> simp [Except.failsWith]

theorem Except.givesWith_iff {p : α → Bool} {x : Except ε α} :
    Except.givesWith p x = true ↔ ∃ a, x = .ok a ∧ p a = true := by
  cases x <;> simp [Except.givesWith]

/-- A failure that was raised from another one is of the new kind. -/
theorem Trace.kind_raiseFrom (t : Trace) (f : Failure) : (t.raiseFrom f).kind = f.kind := by
  simp [kind, newest, failureAt?, raiseFrom]

theorem Trace.message_raiseFrom (t : Trace) (f : Failure) :
    (t.raiseFrom f).message = f.message := by
  simp [message, newest, failureAt?, raiseFrom]

end CodeHighlight
