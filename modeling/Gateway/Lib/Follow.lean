import Mathlib.Data.List.Induction
import Mathlib.Data.List.Nodup
import Gateway.Lib.Trace

/-!
# Following a growing list through its tails

A reader polls a list that grows at its end and gets each time one of its tails, or nothing. It
keeps the elements whose key it has not seen (`freshBy`). `Span` is what a poll returned: nothing,
or the elements from one position up to the end at that time. `covers` is what the polls so far
span, from the first element polled to the last.

`freshBy_spans_iff`: where each tail starts no later than the previous one ended, and reaches back
before the first element polled only to keys already seen, the reader has kept exactly the elements
from the first polled one on if and only if their keys are pairwise distinct.
-/

namespace Gateway.Lib

variable {α β : Type*}

/-! ## Keeping the first of each key -/

section Fresh

variable [DecidableEq β] {f : α → β}

/-- The elements whose key has not been seen, one of each key, in order. -/
def freshBy (f : α → β) : List β → List α → List α
  | _, [] => []
  | seen, x :: xs => if f x ∈ seen then freshBy f seen xs else x :: freshBy f (f x :: seen) xs

theorem freshBy_cons_of_mem {seen : List β} {x : α} (h : f x ∈ seen) (xs : List α) :
    freshBy f seen (x :: xs) = freshBy f seen xs := if_pos h

theorem freshBy_cons_of_not_mem {seen : List β} {x : α} (h : f x ∉ seen) (xs : List α) :
    freshBy f seen (x :: xs) = x :: freshBy f (f x :: seen) xs := if_neg h

/-- Only which keys have been seen matters. -/
theorem freshBy_congr {seen seen' : List β} (h : ∀ b, b ∈ seen ↔ b ∈ seen') (xs : List α) :
    freshBy f seen xs = freshBy f seen' xs := by
  induction xs generalizing seen seen' with
  | nil => rfl
  | cons x xs ih =>
    by_cases hx : f x ∈ seen
    · rw [freshBy_cons_of_mem hx, freshBy_cons_of_mem ((h _).mp hx), ih h]
    · rw [freshBy_cons_of_not_mem hx, freshBy_cons_of_not_mem (mt (h _).mpr hx)]
      refine congrArg _ (ih fun b => ?_)
      rw [List.mem_cons, List.mem_cons, h]

theorem freshBy_append (seen : List β) (xs ys : List α) :
    freshBy f seen (xs ++ ys) = freshBy f seen xs ++ freshBy f (xs.map f ++ seen) ys := by
  induction xs generalizing seen with
  | nil => rfl
  | cons x xs ih =>
    by_cases hx : f x ∈ seen
    · rw [List.cons_append, freshBy_cons_of_mem hx, freshBy_cons_of_mem hx, ih]
      congr 1
      refine freshBy_congr (fun b => ?_) ys
      simp only [List.map_cons, List.cons_append, List.mem_cons, List.mem_append]
      constructor
      · exact Or.inr
      · rintro (rfl | hb)
        · exact Or.inr hx
        · exact hb
    · rw [List.cons_append, freshBy_cons_of_not_mem hx, freshBy_cons_of_not_mem hx, ih,
        List.cons_append]
      refine congrArg _ (congrArg _ (freshBy_congr (fun b => ?_) ys))
      simp only [List.map_cons, List.cons_append, List.mem_cons, List.mem_append]
      tauto

theorem freshBy_eq_nil {seen : List β} {xs : List α} (h : ∀ x ∈ xs, f x ∈ seen) :
    freshBy f seen xs = [] := by
  induction xs with
  | nil => rfl
  | cons x xs ih =>
    rw [freshBy_cons_of_mem (h x List.mem_cons_self)]
    exact ih fun y hy => h y (List.mem_cons_of_mem x hy)

theorem freshBy_eq_self {seen : List β} {xs : List α} (hnd : (xs.map f).Nodup)
    (h : ∀ x ∈ xs, f x ∉ seen) : freshBy f seen xs = xs := by
  induction xs generalizing seen with
  | nil => rfl
  | cons x xs ih =>
    obtain ⟨hx, hxs⟩ := List.nodup_cons.mp hnd
    rw [freshBy_cons_of_not_mem (h x List.mem_cons_self), ih hxs]
    intro y hy hmem
    rcases List.mem_cons.mp hmem with heq | hseen
    · exact hx (heq ▸ List.mem_map_of_mem hy)
    · exact h y (List.mem_cons_of_mem x hy) hseen

theorem key_not_mem_of_mem_freshBy {seen : List β} {xs : List α} {x : α}
    (h : x ∈ freshBy f seen xs) : f x ∉ seen := by
  induction xs generalizing seen with
  | nil => exact absurd h List.not_mem_nil
  | cons y ys ih =>
    by_cases hy : f y ∈ seen
    · rw [freshBy_cons_of_mem hy] at h
      exact ih h
    · rw [freshBy_cons_of_not_mem hy] at h
      rcases List.mem_cons.mp h with rfl | h
      · exact hy
      · exact fun hseen => ih h (List.mem_cons_of_mem _ hseen)

/-- The keys that are kept are distinct. -/
theorem nodup_map_freshBy (seen : List β) (xs : List α) : ((freshBy f seen xs).map f).Nodup := by
  induction xs generalizing seen with
  | nil => exact List.nodup_nil
  | cons x xs ih =>
    by_cases hx : f x ∈ seen
    · rw [freshBy_cons_of_mem hx]
      exact ih seen
    · rw [freshBy_cons_of_not_mem hx, List.map_cons, List.nodup_cons]
      refine ⟨fun hmem => ?_, ih _⟩
      obtain ⟨y, hy, hkey⟩ := List.mem_map.mp hmem
      exact key_not_mem_of_mem_freshBy hy (hkey ▸ List.mem_cons_self)

/-- Every key is kept. -/
theorem mem_map_freshBy (xs : List α) (b : β) :
    b ∈ (freshBy f [] xs).map f ↔ b ∈ xs.map f := by
  have hseen : ∀ (seen : List β) (xs : List α),
      b ∈ (freshBy f seen xs).map f ∨ b ∈ seen ↔ b ∈ xs.map f ∨ b ∈ seen := by
    intro seen xs
    induction xs generalizing seen with
    | nil => exact Iff.rfl
    | cons x xs ih =>
      by_cases hx : f x ∈ seen
      · rw [freshBy_cons_of_mem hx, ih, List.map_cons, List.mem_cons]
        constructor
        · exact fun h => h.imp_left Or.inr
        · rintro ((rfl | h) | h)
          · exact Or.inr hx
          · exact Or.inl h
          · exact Or.inr h
      · have hrest := ih (f x :: seen)
        rw [List.mem_cons] at hrest
        rw [freshBy_cons_of_not_mem hx, List.map_cons, List.map_cons, List.mem_cons, List.mem_cons]
        tauto
  simpa using hseen [] xs

/-- Where a key has two parts, what is kept of one first part is kept by the second alone. -/
theorem filter_freshBy {γ : Type*} [DecidableEq γ] (key : α → γ × β) (a : γ)
    {seen : List (γ × β)} {seen' : List β} (h : ∀ b, (a, b) ∈ seen ↔ b ∈ seen') (xs : List α) :
    (freshBy key seen xs).filter (fun x => (key x).1 = a) =
      freshBy (fun x => (key x).2) seen' (xs.filter fun x => (key x).1 = a) := by
  induction xs generalizing seen seen' with
  | nil => rfl
  | cons x xs ih =>
    by_cases ha : (key x).1 = a
    · have hkey : key x = (a, (key x).2) := by rw [← ha]
      have hmem : key x ∈ seen ↔ (key x).2 ∈ seen' := by
        rw [← h, ← hkey]
      have hkeep : ∀ l : List α, List.filter (fun y => decide ((key y).1 = a)) (x :: l) =
          x :: List.filter (fun y => decide ((key y).1 = a)) l :=
        fun l => List.filter_cons_of_pos (decide_eq_true ha)
      rw [hkeep]
      by_cases hx : key x ∈ seen
      · rw [freshBy_cons_of_mem hx, ih h]
        exact (if_pos (hmem.mp hx)).symm
      · rw [freshBy_cons_of_not_mem hx, hkeep]
        refine Eq.trans (congrArg _ (ih fun b => ?_)) (if_neg (mt hmem.mpr hx)).symm
        rw [List.mem_cons, List.mem_cons, h, hkey, Prod.mk.injEq]
        simp only [true_and]
    · have hskip : ∀ l : List α, List.filter (fun y => decide ((key y).1 = a)) (x :: l) =
          List.filter (fun y => decide ((key y).1 = a)) l :=
        fun l => List.filter_cons_of_neg (by simpa using ha)
      rw [hskip]
      by_cases hx : key x ∈ seen
      · rw [freshBy_cons_of_mem hx, ih h]
      · rw [freshBy_cons_of_not_mem hx, hskip]
        refine ih fun b => ?_
        rw [List.mem_cons, ← h]
        constructor
        · rintro (heq | hb)
          · exact absurd (congrArg Prod.fst heq).symm ha
          · exact hb
        · exact Or.inr

end Fresh

/-! ## Spans of a growing list -/

/-- What a poll returned: nothing, or the elements from one position up to another. -/
abbrev Span := Option (Nat × Nat)

/-- The elements of a span. -/
def slice (L : List α) : Span → List α
  | none => []
  | some (k, m) => (L.take m).drop k

/-- What has been polled after one more poll: from the first element on, up to the new end. -/
def covers : Span → Span → Span
  | s, none => s
  | none, some (k, m) => some (k, m)
  | some (first, _), some (_, m) => some (first, m)

/-- A poll returns a tail of the list so far, which starts no later than the previous one ended. -/
def Follows (L : List α) : Span → Span → Prop
  | _, none => True
  | none, some (k, m) => k < m ∧ m ≤ L.length
  | some (_, stop), some (k, m) => k ≤ stop ∧ stop ≤ m ∧ m ≤ L.length

/-- What a poll returns from before the first element polled has keys already seen. -/
def ReachesSeen (f : α → β) (L : List α) : Span → Span → Prop
  | some (first, stop), some (k, _) =>
    ∀ x ∈ (L.take first).drop k, f x ∈ ((L.take stop).drop first).map f
  | _, _ => True

section Spans

variable {f : α → β} {L : List α} {k u m : Nat}

/-- A slice is cut at a position inside it. -/
theorem drop_take_split (hk : k ≤ u) (hu : u ≤ m) (hm : m ≤ L.length) :
    (L.take m).drop k = (L.take u).drop k ++ (L.take m).drop u := by
  have hcut : L.take m = L.take u ++ (L.take m).drop u := by
    conv_lhs => rw [← List.take_append_drop u (L.take m), List.take_take, Nat.min_eq_left hu]
  have hlen : k ≤ (L.take u).length := by
    rw [List.length_take]
    omega
  conv_lhs => rw [hcut, List.drop_append_of_le_length hlen]

/-- The polls so far span a part of the list. -/
def Inside (L : List α) : Span → Prop
  | none => True
  | some (first, stop) => first ≤ stop ∧ stop ≤ L.length

theorem inside_covers {s t : Span} (hs : Inside L s) (ht : Follows L s t) :
    Inside L (covers s t) := by
  cases s with
  | none =>
    cases t with
    | none => exact trivial
    | some t => exact ⟨Nat.le_of_lt ht.1, ht.2⟩
  | some s =>
    cases t with
    | none => exact hs
    | some t => exact ⟨Nat.le_trans hs.1 ht.2.1, ht.2.2⟩

/-- What is polled only grows at its end. -/
theorem slice_sublist_covers {s t : Span} (hs : Inside L s) (ht : Follows L s t) :
    (slice L s).Sublist (slice L (covers s t)) := by
  cases s with
  | none => exact List.nil_sublist _
  | some s =>
    cases t with
    | none => exact List.Sublist.refl _
    | some t =>
      have hcut : slice L (covers (some s) (some t)) =
          (L.take s.2).drop s.1 ++ (L.take t.2).drop s.2 := drop_take_split hs.1 ht.2.1 ht.2.2
      rw [hcut]
      exact List.sublist_append_left _ _

/-- What a poll returns of the elements polled before has keys already seen. -/
theorem keys_of_old {first : Nat} (hfirst : first ≤ u) (hu : u ≤ L.length)
    (hback : ∀ x ∈ (L.take first).drop k, f x ∈ ((L.take u).drop first).map f) {x : α}
    (hx : x ∈ (L.take u).drop k) : f x ∈ ((L.take u).drop first).map f := by
  by_cases hk : first ≤ k
  · have hsub : (L.take u).drop k = ((L.take u).drop first).drop (k - first) := by
      rw [List.drop_drop, Nat.add_sub_cancel' hk]
    rw [hsub] at hx
    exact List.mem_map_of_mem (List.mem_of_mem_drop hx)
  · rw [drop_take_split (Nat.le_of_lt (Nat.not_le.mp hk)) hfirst hu] at hx
    rcases List.mem_append.mp hx with hx | hx
    · exact hback x hx
    · exact List.mem_map_of_mem hx

end Spans

section Reader

variable [DecidableEq β] {f : α → β} {L : List α}

/-- **One poll**: a reader that has kept what the polls span keeps what one more adds. -/
theorem freshBy_covers {s t : Span} {polled : List α} (hs : Inside L s) (ht : Follows L s t)
    (hback : ReachesSeen f L s t) (hkept : freshBy f [] polled = slice L s)
    (hnd : ((slice L (covers s t)).map f).Nodup) :
    freshBy f [] (polled ++ slice L t) = slice L (covers s t) := by
  have hseen : ∀ b, b ∈ polled.map f ++ [] ↔ b ∈ (slice L s).map f := fun b => by
    rw [List.append_nil, ← hkept, mem_map_freshBy]
  rw [freshBy_append, freshBy_congr hseen, hkept]
  cases t with
  | none => cases s <;> exact List.append_nil _
  | some t =>
    obtain ⟨k, m⟩ := t
    cases s with
    | none => exact freshBy_eq_self hnd fun x _ => List.not_mem_nil
    | some s =>
      obtain ⟨first, stop⟩ := s
      obtain ⟨hk, hm, hlen⟩ := ht
      have hcut : slice L (some (k, m)) = (L.take stop).drop k ++ (L.take m).drop stop :=
        drop_take_split hk hm hlen
      have hnew : slice L (covers (some (first, stop)) (some (k, m))) =
          (L.take stop).drop first ++ (L.take m).drop stop := drop_take_split hs.1 hm hlen
      rw [hnew, List.map_append, List.nodup_append] at hnd
      -- The part polled before is all seen, and the rest is new.
      have hold : freshBy f ((slice L (some (first, stop))).map f) ((L.take stop).drop k) = [] :=
        freshBy_eq_nil fun x hx => keys_of_old hs.1 hs.2 hback hx
      rw [hnew, hcut, freshBy_append, hold, List.nil_append]
      refine congrArg _ (freshBy_eq_self hnd.2.1 fun x hx hmem => ?_)
      have hfresh := List.mem_map_of_mem (f := f) hx
      rcases List.mem_append.mp hmem with hmem | hmem
      · obtain ⟨y, hy, hkey⟩ := List.mem_map.mp hmem
        exact hnd.2.2 _ (hkey ▸ keys_of_old hs.1 hs.2 hback hy) _ hfresh rfl
      · exact hnd.2.2 _ hmem _ hfresh rfl

/-- **Exactly the elements from the first polled one on are kept iff their keys are distinct.** -/
theorem freshBy_spans_iff {spans : List Span} (hfollow : Along covers (Follows L) none spans)
    (hback : Along covers (ReachesSeen f L) none spans) :
    freshBy f [] (spans.flatMap (slice L)) = slice L (run covers none spans) ↔
      ((slice L (run covers none spans)).map f).Nodup := by
  refine ⟨fun h => h ▸ nodup_map_freshBy [] _, fun hnd => ?_⟩
  induction spans using List.reverseRecOn with
  | nil => rfl
  | append_singleton ss t ih =>
    obtain ⟨hss, ht⟩ := along_concat.mp hfollow
    obtain ⟨hbacks, hb⟩ := along_concat.mp hback
    have hin : Inside L (run covers none ss) :=
      run_inv (fun _ _ => inside_covers) ss (s := none) trivial hss
    have hrun : run covers none (ss ++ [t]) = covers (run covers none ss) t :=
      run_append covers none ss [t]
    rw [hrun] at hnd ⊢
    have hprev := ih hss hbacks (hnd.sublist ((slice_sublist_covers hin ht).map f))
    rw [List.flatMap_append, List.flatMap_singleton]
    exact freshBy_covers hin ht hb hprev hnd

end Reader

end Gateway.Lib
