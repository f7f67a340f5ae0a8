import Mathlib.Data.List.Infix

/-!
# Walking through pages of a list that grows at its front

A client asks for page after page of a listing, newest first, until there is no next one. Between
two pages the listing may grow, and everything in it then moves back.

* `Covers s p start now pages`: after `p` pages of size `s`, what was listed at the start is on one
  of them or lies behind them in what is listed now.
* `Covers.grows`, `Covers.page`: it stays so when the list grows and when another page is read.
* `Covers.all`: at the end nothing is behind the pages.
* `take_append_page`: if nothing changes, the pages are the list.
-/

namespace Gateway.Lib

namespace Paging

variable {α : Type*} {s p : Nat} {x : α} {start now : List α} {pages : List (List α)}

/-- Page `p` of a list, the first being page 1. -/
def page (s p : Nat) (l : List α) : List α := (l.drop ((p - 1) * s)).take s

/-- What lies behind an offset still does when the list grows at its front. -/
theorem mem_drop_append {n : Nat} (new : List α) (hx : x ∈ now.drop n) : x ∈
    (new ++ now).drop n := by
  rw [List.drop_append]
  refine List.mem_append_right _ ?_
  have hsplit : now.drop n = (now.drop (n - new.length)).drop (n - (n - new.length)) := by
    rw [List.drop_drop]
    congr 1
    omega
  rw [hsplit] at hx
  exact List.mem_of_mem_drop hx

/-- A page and what is behind it. -/
theorem page_append_drop (s p : Nat) (l : List α) :
    page s (p + 1) l ++ l.drop ((p + 1) * s) = l.drop (p * s) := by
  have hsplit := List.take_append_drop s (l.drop (p * s))
  rw [List.drop_drop, ← Nat.succ_mul] at hsplit
  exact hsplit

/-- **If nothing changes, the pages are the list.** -/
theorem take_append_page (s p : Nat) (l : List α) :
    l.take (p * s) ++ page s (p + 1) l = l.take ((p + 1) * s) := by
  rw [Nat.succ_mul, List.take_add]
  rfl

/-- What was there at the start is on one of the `p` pages or behind them. -/
def Covers (s p : Nat) (start now : List α) (pages : List (List α)) : Prop :=
  ∀ x ∈ start, (∃ seen ∈ pages, x ∈ seen) ∨ x ∈ now.drop (p * s)

namespace Covers

theorem begin (s : Nat) (start : List α) : Covers s 0 start start [] := by
  intro x hx
  rw [Nat.zero_mul]
  exact Or.inr hx

/-- **The list grows at its front.** -/
theorem grows (h : Covers s p start now pages) (new : List α) :
    Covers s p start (new ++ now) pages :=
  fun x hx => (h x hx).imp_right (mem_drop_append new)

/-- **Another page is read.** -/
theorem page (h : Covers s p start now pages) :
    Covers s (p + 1) start now (pages ++ [page s (p + 1) now]) := by
  intro x hx
  rcases h x hx with ⟨seen, hseen, hmem⟩ | hbehind
  · exact Or.inl ⟨seen, List.mem_append_left _ hseen, hmem⟩
  · rw [← page_append_drop] at hbehind
    rcases List.mem_append.mp hbehind with hpage | hstill
    · exact Or.inl ⟨_, List.mem_append_right _ List.mem_cons_self, hpage⟩
    · exact Or.inr hstill

/-- **At the end all has been seen.** -/
theorem all (h : Covers s p start now pages) (hend : now.length ≤ p * s) (hx : x ∈ start) :
    ∃ seen ∈ pages, x ∈ seen := by
  rcases h x hx with hseen | hbehind
  · exact hseen
  · rw [List.drop_eq_nil_of_le hend] at hbehind
    exact absurd hbehind List.not_mem_nil

end Covers

end Paging

end Gateway.Lib
