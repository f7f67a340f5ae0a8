import Mathlib.Tactic.SplitIfs
import Mathlib.Tactic.TypeStar

/-!
# Commits that write only the changed columns

An object of an ORM session carries, next to its attributes, the values they were loaded or last
written with. A commit compares the two column by column and writes the columns that differ;
`column` is what that does to the stored value of one of them. With `expire_on_commit=False` the
session goes on with the values it has, now as the written ones, whatever the row has become.
-/

namespace Gateway.Lib

variable {α : Type*} [DecidableEq α]

/-- The stored value of a column after a commit: `cur` if the session changed the column. -/
def column (loaded cur stored : α) : α := if cur = loaded then stored else cur

/-- A column nobody else wrote holds what the session has. -/
@[simp] theorem column_loaded (l c : α) : column l c l = c := by
  unfold column
  split_ifs with h
  · exact h.symm
  · rfl

/-- An unchanged column is not written. -/
@[simp] theorem column_same (l s : α) : column l l s = s := if_pos rfl

theorem column_of_ne {l c : α} (h : c ≠ l) (s : α) : column l c s = c := if_neg h

/-- The session's value is stored, unless it counted as unchanged and the column held another. -/
theorem column_eq_cur_iff (l c s : α) : column l c s = c ↔ (c = l → s = c) := by
  unfold column
  split_ifs with h <;> simp [h]

/-- The stored value survives when the session left the column alone or wrote the same value. -/
theorem column_eq_stored_iff (l c s : α) : column l c s = s ↔ c = l ∨ c = s := by
  unfold column
  split_ifs with h <;> simp [h]

end Gateway.Lib
