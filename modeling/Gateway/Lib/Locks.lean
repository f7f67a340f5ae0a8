import Mathlib.Data.List.Basic

/-!
# Locks held by the tasks of a pool

Which lock a task holds is read off the task (`holds`), so a lock is released with the step that
leaves the places where it is held, whatever ends them. A task takes a lock only when no other task
holds it (`heldByOther`); then no two tasks ever hold the same one (`Exclusive`).
-/

namespace Gateway.Lib

variable {τ κ : Type*} {holds : τ → Option κ} {pool : List τ}

/-- No two tasks hold the same lock. -/
def Exclusive (holds : τ → Option κ) (pool : List τ) : Prop :=
  ∀ (i j : Nat) (t t' : τ) (k : κ), pool[i]? = some t → pool[j]? = some t' → holds t = some k →
    holds t' = some k → i = j

/-- Some task other than the one at `i` holds the lock. -/
def heldByOther [DecidableEq κ] (holds : τ → Option κ) (pool : List τ) (i : Nat) (k : κ) : Bool :=
  pool.zipIdx.any fun t => t.2 ≠ i ∧ holds t.1 = some k

theorem heldByOther_eq_false [DecidableEq κ] {i : Nat} {k : κ}
    (h : heldByOther holds pool i k = false) {j : Nat} {t : τ} (hj : pool[j]? = some t)
    (hk : holds t = some k) : j = i := by
  unfold heldByOther at h
  rw [List.any_eq_false] at h
  by_contra hne
  exact h (t, j) (List.mem_zipIdx_iff_getElem?.mpr hj) (decide_eq_true ⟨hne, hk⟩)

theorem exclusive_nil : Exclusive holds ([] : List τ) := by
  intro i j t t' k hi
  simp at hi

/-- A task that holds nothing joins. -/
theorem Exclusive.append (h : Exclusive holds pool) {t : τ} (ht : holds t = none) :
    Exclusive holds (pool ++ [t]) := by
  have hold : ∀ {i : Nat} {x : τ} {k : κ}, (pool ++ [t])[i]? = some x → holds x = some k →
      pool[i]? = some x := by
    intro i x k hi hk
    rw [List.getElem?_append] at hi
    split at hi
    · exact hi
    · obtain rfl : x = t := List.mem_singleton.mp (List.mem_of_getElem? hi)
      rw [ht] at hk
      cases hk
  intro i j x y k hi hj hx hy
  exact h i j x y k (hold hi hx) (hold hj hy) hx hy

/-- A task moves on, keeping locks it has or taking ones no other task holds. -/
theorem Exclusive.set (h : Exclusive holds pool) {i : Nat} {t' : τ}
    (htake : ∀ k, holds t' = some k → ∀ j t, pool[j]? = some t → holds t = some k → j = i) :
    Exclusive holds (pool.set i t') := by
  intro j₁ j₂ x y k h₁ h₂ hx hy
  rw [List.getElem?_set] at h₁ h₂
  split at h₁ <;> split at h₂
  · omega
  · split at h₁
    · obtain rfl := Option.some.inj h₁
      have := htake k hx j₂ y h₂ hy
      omega
    · cases h₁
  · split at h₂
    · obtain rfl := Option.some.inj h₂
      have := htake k hy j₁ x h₁ hx
      omega
    · cases h₂
  · exact h j₁ j₂ x y k h₁ h₂ hx hy

end Gateway.Lib
