import Mathlib.Data.List.Basic

/-!
# Some of Python's regular expressions

Patterns without flags, made of `^`, `$` and character classes with a bounded repetition, as
`pattern.match(text)` tries them. A position is the number of characters before it and those after
it; `ends` lists the positions a match can end at, greedy ones first. `$` matches at the end of the
text and also before a newline that ends it.

* **`isMatch_anchored_iff`**: what `^[…]{lo,hi}$` matches.
-/

namespace Gateway.Lib

/-- A pattern. -/
inductive Regex where
  | caret
  | dollar
  | chars (p : Char → Bool) (lo hi : Nat)
  | seq (r s : Regex)

namespace Regex

/-- Where a match that starts at a position can end. -/
def ends : Regex → Nat × List Char → List (Nat × List Char)
  | .caret, pos => if pos.1 = 0 then [pos] else []
  | .dollar, pos => if pos.2 = [] ∨ pos.2 = ['\n'] then [pos] else []
  | .chars p lo hi, pos =>
    ((List.range (hi + 1)).reverse.filter fun k =>
      lo ≤ k ∧ k ≤ pos.2.length ∧ (pos.2.take k).all p).map fun k => (pos.1 + k, pos.2.drop k)
  | .seq r s, pos => (r.ends pos).flatMap s.ends

/-- `pattern.match(text)` finds a match. -/
def isMatch (r : Regex) (text : List Char) : Bool := !(r.ends (0, text)).isEmpty

/-- `^[…]{lo,hi}$` -/
def anchored (p : Char → Bool) (lo hi : Nat) : Regex := .seq .caret (.seq (.chars p lo hi) .dollar)

theorem mem_ends_chars {p : Char → Bool} {lo hi : Nat} {pos e : Nat × List Char} :
    e ∈ (chars p lo hi).ends pos ↔
      ∃ k ≤ hi, lo ≤ k ∧ k ≤ pos.2.length ∧ (pos.2.take k).all p ∧
        (pos.1 + k, pos.2.drop k) = e := by
  unfold ends
  simp only [List.mem_map, List.mem_filter, List.mem_reverse, List.mem_range, decide_eq_true_eq,
    Nat.lt_succ_iff, and_assoc]

/-- **An anchored class matches the texts of its characters, and those with one newline more.** -/
theorem isMatch_anchored_iff {p : Char → Bool} {lo hi : Nat} {text : List Char} :
    (anchored p lo hi).isMatch text ↔
      ∃ body, lo ≤ body.length ∧ body.length ≤ hi ∧ body.all p ∧
        (text = body ∨ text = body ++ ['\n']) := by
  have hmatch : (anchored p lo hi).isMatch text ↔
      ∃ e ∈ (chars p lo hi).ends (0, text), e.2 = [] ∨ e.2 = ['\n'] := by
    have hends : (anchored p lo hi).ends (0, text) =
        ((chars p lo hi).ends (0, text)).flatMap Regex.dollar.ends := List.flatMap_singleton _ _
    have hdollar : ∀ e : Nat × List Char,
        Regex.dollar.ends e = if e.2 = [] ∨ e.2 = ['\n'] then [e] else [] := fun e => rfl
    unfold isMatch
    rw [hends, Bool.not_eq_true', List.isEmpty_eq_false_iff, ne_eq, List.flatMap_eq_nil_iff]
    simp only [hdollar, ite_eq_right_iff, List.cons_ne_nil, imp_false, not_forall, not_not,
      exists_prop]
  rw [hmatch]
  constructor
  · rintro ⟨e, he, hend⟩
    obtain ⟨k, hhi, hlo, hlen, hall, rfl⟩ := mem_ends_chars.mp he
    have hbody : (text.take k).length = k := List.length_take_of_le hlen
    refine ⟨text.take k, by omega, by omega, hall, ?_⟩
    -- What follows the class is all of the rest.
    have hcut := List.take_append_drop k text
    rcases hend with hrest | hrest
    · have hnil : text.drop k = [] := hrest
      rw [hnil, List.append_nil] at hcut
      exact Or.inl hcut.symm
    · have hnewline : text.drop k = ['\n'] := hrest
      rw [hnewline] at hcut
      exact Or.inr hcut.symm
  · rintro ⟨body, hlo, hhi, hall, htext⟩
    have htake : text.take body.length = body := by
      rcases htext with rfl | rfl
      · exact List.take_length
      · exact List.take_left
    have hlen : body.length ≤ text.length := by
      rcases htext with rfl | rfl
      · exact Nat.le_refl _
      · simp
    refine ⟨(0 + body.length, text.drop body.length),
      mem_ends_chars.mpr ⟨body.length, hhi, hlo, hlen, by rw [htake]; exact hall, rfl⟩, ?_⟩
    rcases htext with rfl | rfl
    · exact Or.inl List.drop_length
    · exact Or.inr List.drop_left

end Regex

end Gateway.Lib
