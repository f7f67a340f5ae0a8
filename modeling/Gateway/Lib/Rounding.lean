import Mathlib.Data.Rat.Floor
import Mathlib.Tactic.Linarith
import Mathlib.Tactic.Ring
import Mathlib.Tactic.FieldSimp

/-!
# Rounding to a grid

`Rounding δ` is any rule that sends a number to a nearest multiple of `δ`, whatever it does with
ties; the two facts that make it one are fields. `halfEven` is the rule that breaks ties towards
the even multiple.

The point of the module is that rounding errors do not add up under a threshold test: a sum of two
rounded numbers is already on the grid, so rounding it once more changes nothing
(`round_add_round`), and comparing it with a bound decides the exact sum up to one grid step
(`add_le_of_round_le`, `round_le_of_add_le`).
-/

namespace Gateway.Lib

/-- A rule that picks a nearest multiple of `δ`. -/
structure Rounding (δ : ℚ) where
  round : ℚ → ℚ
  grid : ∀ x, ∃ n : ℤ, round x = n * δ
  near : ∀ x, |round x - x| ≤ δ / 2

namespace Rounding

variable {δ : ℚ} (R : Rounding δ)

/-- A multiple of `δ` is its own nearest multiple. -/
theorem round_mul (hδ : 0 < δ) (n : ℤ) : R.round (n * δ) = n * δ := by
  obtain ⟨m, hm⟩ := R.grid (n * δ)
  have hnear := R.near (n * δ)
  rw [hm, ← sub_mul, abs_mul, abs_of_pos hδ] at hnear
  have habs : |((m - n : ℤ) : ℚ)| < 1 := by
    push_cast
    by_contra hge
    rw [not_lt] at hge
    have := mul_le_mul_of_nonneg_right hge hδ.le
    linarith
  have hmn : m = n := by
    have h : |m - n| < 1 := by exact_mod_cast habs
    rw [Int.abs_lt_one_iff] at h
    omega
  rw [hm, hmn]

/-- Rounding a sum of two rounded numbers changes nothing. -/
theorem round_add_round (hδ : 0 < δ) (x y : ℚ) :
    R.round (R.round x + R.round y) = R.round x + R.round y := by
  obtain ⟨m, hm⟩ := R.grid x
  obtain ⟨n, hn⟩ := R.grid y
  have h : R.round x + R.round y = ((m + n : ℤ) : ℚ) * δ := by
    rw [hm, hn]
    push_cast
    ring
  rw [h, R.round_mul hδ]

/-- A rounded sum within a bound keeps the exact sum within it up to one grid step. -/
theorem add_le_of_round_le (hδ : 0 < δ) {x y b : ℚ}
    (h : R.round (R.round x + R.round y) ≤ b) : x + y ≤ b + δ := by
  rw [R.round_add_round hδ] at h
  have hx := (abs_le.mp (R.near x)).1
  have hy := (abs_le.mp (R.near y)).1
  linarith

/-- An exact sum one grid step below a bound stays within it when rounded. -/
theorem round_le_of_add_le (hδ : 0 < δ) {x y b : ℚ} (h : x + y ≤ b - δ) :
    R.round (R.round x + R.round y) ≤ b := by
  rw [R.round_add_round hδ]
  have hx := (abs_le.mp (R.near x)).2
  have hy := (abs_le.mp (R.near y)).2
  linarith

/-- The nearest multiple of `δ`, ties going to the even one. -/
def halfEven (δ : ℚ) (hδ : 0 < δ) : Rounding δ where
  round x :=
    let f := (x / δ).floor
    let r := x / δ - f
    if r < 1 / 2 then f * δ
    else if 1 / 2 < r then (f + 1 : ℤ) * δ
    else if f % 2 = 0 then f * δ
    else (f + 1 : ℤ) * δ
  grid x := by
    simp only
    split_ifs
    · exact ⟨_, rfl⟩
    · exact ⟨_, rfl⟩
    · exact ⟨_, rfl⟩
    · exact ⟨_, rfl⟩
  near x := by
    have hfl : ((x / δ).floor : ℚ) ≤ x / δ := Int.floor_le _
    have hlt : x / δ < (x / δ).floor + 1 := Int.lt_floor_add_one _
    -- Both candidates in units of `δ`: at distance `r` below and `1 - r` above.
    have hlow : x / δ - (x / δ).floor ≤ 1 / 2 →
        |((x / δ).floor : ℚ) * δ - x| ≤ δ / 2 := by
      intro h
      have hx : ((x / δ).floor : ℚ) * δ - x = -((x / δ - (x / δ).floor) * δ) := by
        field_simp
        ring
      rw [hx, abs_neg, abs_of_nonneg (mul_nonneg (by linarith) hδ.le)]
      nlinarith
    have hhigh : 1 / 2 ≤ x / δ - (x / δ).floor →
        |(((x / δ).floor + 1 : ℤ) : ℚ) * δ - x| ≤ δ / 2 := by
      intro h
      have hx : (((x / δ).floor + 1 : ℤ) : ℚ) * δ - x = ((x / δ).floor + 1 - x / δ) * δ := by
        push_cast
        field_simp
      rw [hx, abs_of_nonneg (mul_nonneg (by linarith) hδ.le)]
      nlinarith
    simp only
    split_ifs with h1 h2
    · exact hlow h1.le
    · exact hhigh h2.le
    · exact hlow (not_lt.mp h2)
    · exact hhigh (not_lt.mp h1)

end Rounding

end Gateway.Lib
