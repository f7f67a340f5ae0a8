import Mathlib.Data.Rat.Floor
import Gateway.Lib.Dict

/-!
# The fixed-window limiter (`security/ingress_limits.py`)

`FixedWindowLimiter.hit` with the clock reading passed in. The counts are one table shared by all
keys, wiped by whichever hit first falls in a new window.
-/

namespace Gateway

open Lib

/-- A `FixedWindowLimiter`: the window of the counts, and the counts. -/
structure FixedWindowLimiter where
  windowSeconds : Nat := 60
  window : Int := -1
  counts : Dict String Nat := []
  deriving DecidableEq, Repr

namespace FixedWindowLimiter

/-- `int(now // self._window_seconds)`. -/
def windowAt (l : FixedWindowLimiter) (now : ℚ) : Int := (now / l.windowSeconds).floor

/-- The limiter after `if window != self._window` has run. -/
def roll (l : FixedWindowLimiter) (now : ℚ) : FixedWindowLimiter :=
  if l.windowAt now = l.window then l
  else { l with window := l.windowAt now, counts := [] }

/-- The hits of `key` counted in the window of `now`. -/
def countAt (l : FixedWindowLimiter) (now : ℚ) (key : String) : Nat :=
  ((l.roll now).counts.get? key).getD 0

/-- `hit`: `none` when the hit is within `limit` (and counted), else the seconds to wait. -/
def hit (l : FixedWindowLimiter) (now : ℚ) (key : String) (limit : Nat) :
    Option Int × FixedWindowLimiter :=
  if limit ≤ l.countAt now key then
    (some (max 1 (((l.windowAt now + 1) * l.windowSeconds : ℚ) - now).ceil), l.roll now)
  else
    (none, { l.roll now with counts := (l.roll now).counts.set key (l.countAt now key + 1) })

/-- A hit is let through exactly when the key's count in the current window is below the limit. -/
theorem hit_fst_eq_none {l : FixedWindowLimiter} {now : ℚ} {key : String} {limit : Nat} :
    (l.hit now key limit).1 = none ↔ l.countAt now key < limit := by
  unfold hit
  split
  · rename_i h
    simpa using h
  · rename_i h
    simpa using h

@[simp] theorem windowSeconds_roll (l : FixedWindowLimiter) (now : ℚ) :
    (l.roll now).windowSeconds = l.windowSeconds := by
  unfold roll
  split <;> rfl

@[simp] theorem window_roll (l : FixedWindowLimiter) (now : ℚ) :
    (l.roll now).window = l.windowAt now := by
  unfold roll
  split
  · rename_i h
    exact h.symm
  · rfl

@[simp] theorem windowSeconds_hit (l : FixedWindowLimiter) (now : ℚ) (key : String)
    (limit : Nat) : (l.hit now key limit).2.windowSeconds = l.windowSeconds := by
  unfold hit
  split
  · exact windowSeconds_roll l now
  · exact windowSeconds_roll l now

@[simp] theorem window_hit (l : FixedWindowLimiter) (now : ℚ) (key : String) (limit : Nat) :
    (l.hit now key limit).2.window = l.windowAt now := by
  unfold hit
  split
  · exact window_roll l now
  · exact window_roll l now

theorem windowAt_mono (l : FixedWindowLimiter) {t now : ℚ} (h : t ≤ now) :
    l.windowAt t ≤ l.windowAt now :=
  Rat.floor_monotone (div_le_div_of_nonneg_right h (Nat.cast_nonneg _))

/-- A key has no hits in another window than that of the counts. -/
theorem countAt_of_window_ne {l : FixedWindowLimiter} {now : ℚ} (h : l.windowAt now ≠ l.window)
    (key : String) : l.countAt now key = 0 := by
  unfold countAt roll
  rw [if_neg h]
  rfl

/-- **What a hit does to the counts read later**: it raises that of its own key in the same window,
if it was let through, and nothing else. -/
theorem countAt_hit {l : FixedWindowLimiter} {now later : ℚ} (hpast : l.window ≤ l.windowAt now)
    (hle : now ≤ later) (key : String) (limit : Nat) (j : String) :
    (l.hit now key limit).2.countAt later j =
      if l.windowAt later = l.windowAt now ∧ key = j ∧ l.countAt now key < limit then
        l.countAt now key + 1
      else l.countAt later j := by
  have hat : (l.hit now key limit).2.windowAt later = l.windowAt later := by
    unfold windowAt
    rw [windowSeconds_hit]
  by_cases hw : l.windowAt later = l.windowAt now
  · have hroll : l.roll later = l.roll now := by
      unfold roll
      rw [hw]
    have hcount : ∀ k, l.countAt later k = l.countAt now k := fun k => by
      unfold countAt
      rw [hroll]
    have hafter : (l.hit now key limit).2.roll later = (l.hit now key limit).2 := by
      conv_lhs => unfold roll
      rw [if_pos (by rw [hat, hw, window_hit])]
    unfold countAt at hcount ⊢
    rw [hafter, hcount]
    unfold hit countAt
    split_ifs with h1 h2 h2
    · exact absurd h1 (not_le.mpr h2.2.2)
    · rfl
    · simp only [Dict.get?_set, if_pos h2.2.1, Option.getD_some]
    · have hne : key ≠ j := fun e => h2 ⟨hw, e, not_le.mp h1⟩
      simp only [Dict.get?_set, if_neg hne]
  · have hlt : l.windowAt now < l.windowAt later :=
      lt_of_le_of_ne (windowAt_mono l hle) (Ne.symm hw)
    rw [if_neg (fun h => hw h.1), countAt_of_window_ne (by rw [hat, window_hit]; exact hw),
      countAt_of_window_ne (ne_of_gt (lt_of_le_of_lt hpast hlt))]

end FixedWindowLimiter

end Gateway
