import Mathlib.Data.List.Induction

/-!
# Logs that grow at their end

A log lists what has happened, oldest first. `log = before ++ m :: after` says that `m` happened,
after `before` and before `after`; these lemmas say which such splits a longer log has.
-/

namespace Gateway.Lib

variable {α : Type*} {log es before after : List α} {e m : α}

/-- A split of a log with one more entry is at that entry, or is a split of the log. -/
theorem split_concat (h : log ++ [e] = before ++ m :: after) :
    (before = log ∧ after = [] ∧ m = e) ∨
      ∃ rest, after = rest ++ [e] ∧ log = before ++ m :: rest := by
  rcases List.eq_nil_or_concat after with rfl | ⟨rest, x, rfl⟩
  · obtain ⟨hl, hm⟩ := List.append_inj' h rfl
    exact .inl ⟨hl.symm, rfl, (List.singleton_inj.mp hm).symm⟩
  · rw [List.concat_eq_append, ← List.cons_append, ← List.append_assoc] at h
    obtain ⟨hl, hx⟩ := List.append_inj' h rfl
    obtain rfl := List.singleton_inj.mp hx
    exact .inr ⟨rest, List.concat_eq_append .., hl⟩

/-- What is not among the new entries happened before them. -/
theorem split_append (h : log ++ es = before ++ m :: after) (hm : m ∉ es) :
    ∃ rest, after = rest ++ es ∧ log = before ++ m :: rest := by
  induction es using List.reverseRecOn generalizing after with
  | nil => exact ⟨after, (List.append_nil _).symm, by rwa [List.append_nil] at h⟩
  | append_singleton es e ih =>
    obtain ⟨hne, hme⟩ : m ∉ es ∧ m ≠ e := by simpa using hm
    rw [← List.append_assoc] at h
    rcases split_concat h with ⟨-, -, rfl⟩ | ⟨rest, rfl, hl⟩
    · exact absurd rfl hme
    · obtain ⟨rest', rfl, hlog⟩ := ih hl hne
      exact ⟨rest', by rw [List.append_assoc], hlog⟩

end Gateway.Lib
