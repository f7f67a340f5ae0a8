import Mathlib.Data.List.Basic

/-!
# Pools of tasks

A pool is a list of tasks, each known by its position for good: a new one goes to the end, and a
task that is done stays as a value of weight zero. `weight g` sums a measure over the pool; it
moves by what the tasks that are added or advanced weigh (`weight_append`, `weight_set`)
and vanishes when none of them weighs anything (`weight_eq_zero_iff`).
-/

namespace Gateway.Lib

namespace Pool

variable {τ : Type*} (g : τ → Nat)

/-- The sum of a measure over the tasks. -/
def weight : List τ → Nat
  | [] => 0
  | t :: pool => g t + weight pool

@[simp] theorem weight_nil : weight g [] = 0 := rfl

theorem weight_cons (t : τ) (pool : List τ) : weight g (t :: pool) = g t + weight g pool := rfl

theorem weight_append (pool : List τ) (t : τ) : weight g (pool ++ [t]) = weight g pool + g t := by
  induction pool with
  | nil => simp [weight]
  | cons x pool ih =>
    rw [List.cons_append, weight_cons, weight_cons, ih]
    omega

/-- Advancing a task moves the weight by the difference of the two. -/
theorem weight_set {pool : List τ} {i : Nat} {t : τ} (t' : τ) (h : pool[i]? = some t) :
    weight g (pool.set i t') + g t = weight g pool + g t' := by
  induction pool generalizing i with
  | nil => exact absurd h (by simp)
  | cons x pool ih =>
    cases i with
    | zero =>
      obtain rfl : x = t := by simpa using h
      rw [List.set_cons_zero, weight_cons, weight_cons]
      omega
    | succ i =>
      rw [List.set_cons_succ, weight_cons, weight_cons]
      have := ih (i := i) (by simpa using h)
      omega

/-- A task that is not there is not advanced. -/
theorem set_of_getElem?_eq_none {pool : List τ} {i : Nat} (t : τ) (h : pool[i]? = none) :
    pool.set i t = pool := List.set_eq_of_length_le (List.getElem?_eq_none_iff.mp h)

/-- What is in a pool after an assignment is what was assigned or what stood elsewhere. -/
theorem mem_set_cases {pool : List τ} {i : Nat} {t t' : τ} (h : t ∈ pool.set i t') :
    t = t' ∨ t ∈ pool.eraseIdx i := by
  obtain ⟨j, hj⟩ := List.mem_iff_getElem?.mp h
  by_cases hij : i = j
  · subst hij
    rw [List.getElem?_set_self'] at hj
    obtain ⟨-, -, rfl⟩ := Option.map_eq_some_iff.mp hj
    exact Or.inl rfl
  · rw [List.getElem?_set_ne hij] at hj
    exact Or.inr (List.mem_eraseIdx_iff_getElem?.mpr ⟨j, fun h => hij h.symm, hj⟩)

theorem weight_mono {g g' : τ → Nat} (h : ∀ t, g t ≤ g' t) (pool : List τ) :
    weight g pool ≤ weight g' pool := by
  induction pool with
  | nil => exact Nat.le_refl 0
  | cons x pool ih =>
    rw [weight_cons, weight_cons]
    exact Nat.add_le_add (h x) ih

/-- A pool weighs nothing exactly when none of its tasks does. -/
theorem weight_eq_zero_iff {pool : List τ} : weight g pool = 0 ↔ ∀ t ∈ pool, g t = 0 := by
  induction pool with
  | nil => simp
  | cons x pool ih =>
    rw [weight_cons, List.forall_mem_cons, ← ih]
    omega

end Pool

end Gateway.Lib
