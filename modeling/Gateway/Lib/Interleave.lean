import Gateway.Lib.Trace
import Mathlib.Data.List.Count

/-!
# Interleavings of two threads

An interleaving of two threads is the list of which one moves. `rightsBefore i es` is the position
of the `i`-th step of the left thread, counted in steps of the right one, and `split_left` cuts an
interleaving at the first step of the left thread.
-/

namespace Gateway.Lib

/-- Which of the two threads moves. -/
inductive Side where
  | left
  | right
  deriving DecidableEq, Repr

/-- The steps of the right thread before the `i`-th step of the left one. -/
def rightsBefore : Nat → List Side → Nat
  | _, [] => 0
  | 0, .left :: _ => 0
  | i + 1, .left :: es => rightsBefore i es
  | i, .right :: es => rightsBefore i es + 1

/-- `n` steps of the right thread. -/
def rights (n : Nat) : List Side := List.replicate n .right

/-- Without a step of the left thread there are only steps of the right one. -/
theorem eq_rights {es : List Side} (h : es.count .left = 0) : es = rights (es.count .right) := by
  refine List.eq_replicate_iff.mpr ⟨?_, fun e he => ?_⟩
  · induction es with
    | nil => rfl
    | cons e es ih =>
      cases e with
      | left => simp at h
      | right => simp_all
  · cases e with
    | left => exact absurd he (List.count_eq_zero.mp h)
    | right => rfl

/-- An interleaving cut at the first step of the left thread. -/
structure SplitLeft (es rest : List Side) : Prop where
  split : es = rights (rightsBefore 0 es) ++ .left :: rest
  later : ∀ i, rightsBefore (i + 1) es = rightsBefore 0 es + rightsBefore i rest
  lefts : es.count .left = rest.count .left + 1
  total : es.count .right = rightsBefore 0 es + rest.count .right

theorem split_left : ∀ {es : List Side}, 0 < es.count .left → ∃ rest, SplitLeft es rest
  | [], h => absurd h (by simp)
  | .left :: es, _ =>
    ⟨es, { split := rfl
           later := fun i => by simp [rightsBefore]
           lefts := by simp
           total := by simp [rightsBefore] }⟩
  | .right :: es, h => by
    obtain ⟨rest, hs⟩ : ∃ rest, SplitLeft es rest := split_left (by simpa using h)
    refine ⟨rest, ⟨?_, fun i => ?_, ?_, ?_⟩⟩
    · exact congrArg (Side.right :: ·) hs.split
    · have hl := hs.later i
      simp only [rightsBefore]
      omega
    · simpa using hs.lefts
    · have hr := hs.total
      simp only [rightsBefore, List.count_cons_self]
      omega

variable {σ : Type*} (step : σ → Side → σ)

@[simp] theorem run_rights_zero (s : σ) : run step s (rights 0) = s := rfl

@[simp] theorem run_rights_succ (s : σ) (n : Nat) :
    run step s (rights (n + 1)) = run step (step s .right) (rights n) := rfl

/-- The right thread moves undisturbed up to the first step of the left one. -/
theorem SplitLeft.run_eq {es rest : List Side} (h : SplitLeft es rest) (s : σ) :
    run step s es = run step (step (run step s (rights (rightsBefore 0 es))) .left) rest := by
  conv_lhs => rw [h.split, run_append, run_cons]

/-- The positions of a left thread of three steps are in order, and around them the right thread
moves undisturbed. -/
theorem run_of_three_lefts {es : List Side} (h : es.count .left = 3) (s : σ) :
    (rightsBefore 0 es ≤ rightsBefore 1 es ∧ rightsBefore 1 es ≤ rightsBefore 2 es ∧
      rightsBefore 2 es ≤ es.count .right) ∧
    run step s es =
      run step (step (run step (step (run step (step
        (run step s (rights (rightsBefore 0 es))) .left)
        (rights (rightsBefore 1 es - rightsBefore 0 es))) .left)
        (rights (rightsBefore 2 es - rightsBefore 1 es))) .left)
        (rights (es.count .right - rightsBefore 2 es)) := by
  obtain ⟨es₁, h₁⟩ : ∃ rest, SplitLeft es rest := split_left (by omega)
  have hl₁ := h₁.lefts
  obtain ⟨es₂, h₂⟩ : ∃ rest, SplitLeft es₁ rest := split_left (by omega)
  have hl₂ := h₂.lefts
  obtain ⟨es₃, h₃⟩ : ∃ rest, SplitLeft es₂ rest := split_left (by omega)
  have hl₃ := h₃.lefts
  have hrest : es₃ = rights (es₃.count .right) := eq_rights (by omega)
  have ht₁ : rightsBefore 1 es = rightsBefore 0 es + rightsBefore 0 es₁ := h₁.later 0
  have ht₂ : rightsBefore 2 es = rightsBefore 0 es + rightsBefore 1 es₁ := h₁.later 1
  have ht₂' : rightsBefore 1 es₁ = rightsBefore 0 es₁ + rightsBefore 0 es₂ := h₂.later 0
  have hr₁ := h₁.total
  have hr₂ := h₂.total
  have hr₃ := h₃.total
  refine ⟨by omega, ?_⟩
  rw [h₁.run_eq, h₂.run_eq, h₃.run_eq, hrest]
  congr <;> omega

end Gateway.Lib
