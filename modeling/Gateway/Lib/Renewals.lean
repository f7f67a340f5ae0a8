import Mathlib.Data.List.Count
import Mathlib.Data.List.Induction

/-!
# Counters that start again

A counter with a lifetime is read by counting it up. `Renews W reads since` is what such reads look
like, with their times: an answer is one more than the one before, or the counter has started again
at `1`, later than every read before and no sooner than `W` after it last started (`since`).

`Renews.countP_span_le`: in a span as long as `W` at most `2 * L` reads answer at most `L`. A span
can meet two lifetimes of the counter but not three.
-/

namespace Gateway.Lib

/-- The times and answers of the reads, and when the counter last started again. -/
inductive Renews (W : Int) : List (Int × Nat) → Option Int → Prop
  | nil : Renews W [] none
  | goesOn {reads : List (Int × Nat)} {since : Option Int} {t : Int} {n : Nat}
      (h : Renews W reads since) (htime : ∀ r ∈ reads, r.1 ≤ t)
      (hlast : ∀ r ∈ reads.getLast?, n = r.2 + 1) (hpos : 1 ≤ n) :
      Renews W (reads ++ [(t, n)]) since
  | startsAgain {reads : List (Int × Nat)} {since : Option Int} {t : Int}
      (h : Renews W reads since) (htime : ∀ r ∈ reads, r.1 < t)
      (hlater : ∀ s ∈ since, s + W ≤ t) :
      Renews W (reads ++ [(t, 1)]) (some t)

namespace Renews

variable {W : Int} {reads : List (Int × Nat)} {since : Option Int}

/-- The counter started with a read. -/
theorem since_mem (h : Renews W reads since) : ∀ s ∈ since, ∃ r ∈ reads, r.1 = s := by
  induction h with
  | nil =>
    intro s hs
    cases hs
  | goesOn _ _ _ _ ih =>
    intro s hs
    obtain ⟨r, hr, hrs⟩ := ih s hs
    exact ⟨r, List.mem_append_left _ hr, hrs⟩
  | @startsAgain reads since t _ _ _ _ =>
    intro s hs
    obtain rfl := Option.some.inj hs
    exact ⟨(t, 1), List.mem_append_right _ List.mem_cons_self, rfl⟩

/-- The last answer, `0` before the first. -/
def lastAnswer (reads : List (Int × Nat)) : Nat := (reads.getLast?.map Prod.snd).getD 0

/-- The reads of a span that answer at most `L`. -/
def inSpan (W a : Int) (L : Nat) (r : Int × Nat) : Bool := a ≤ r.1 ∧ r.1 ≤ a + W ∧ r.2 ≤ L

theorem countP_concat (p : Int × Nat → Bool) (reads : List (Int × Nat)) (r : Int × Nat) :
    (reads ++ [r]).countP p = reads.countP p + if p r then 1 else 0 := by
  rw [List.countP_append, List.countP_singleton]

/-- What a span holds: if the current lifetime has begun in or before it, at most its own answers
and those of one lifetime before, which has none if the current one is there from the start. -/
structure Split (W a : Int) (L : Nat) (reads : List (Int × Nat)) (since : Option Int) : Prop where
  total : reads.countP (inSpan W a L) ≤ 2 * L
  current : (∀ s ∈ since, s ≤ a + W) → ∃ old ≤ L,
    reads.countP (inSpan W a L) ≤ old + min (lastAnswer reads) L ∧
      ((∀ s ∈ since, s ≤ a) → old = 0)

/-- One more read of the same lifetime. -/
theorem Split.goesOn {a : Int} {L : Nat} {t : Int} {n : Nat} (hsplit : Split W a L reads since)
    (hstart : ∀ s ∈ since, s ≤ t) (hlast : ∀ r ∈ reads.getLast?, n = r.2 + 1) (hpos : 1 ≤ n) :
    Split W a L (reads ++ [(t, n)]) since := by
  have hanswer : lastAnswer (reads ++ [(t, n)]) = n := by
    unfold lastAnswer
    rw [List.getLast?_concat]
    rfl
  have hbefore : lastAnswer reads + 1 ≤ n := by
    unfold lastAnswer
    cases hl : reads.getLast? with
    | none => exact hpos
    | some r => exact Nat.le_of_eq (hlast r hl).symm
  by_cases hin : inSpan W a L (t, n) = true
  · have hspan : a ≤ t ∧ t ≤ a + W ∧ n ≤ L := by simpa [inSpan] using hin
    have hbegun : ∀ s ∈ since, s ≤ a + W := fun s hs => Int.le_trans (hstart s hs) hspan.2.1
    obtain ⟨old, hold, hcount, hfirst⟩ := hsplit.current hbegun
    have hmore : (reads ++ [(t, n)]).countP (inSpan W a L) ≤ old + min n L := by
      rw [countP_concat, if_pos hin]
      omega
    refine ⟨by omega, fun _ => ⟨old, hold, ?_, hfirst⟩⟩
    rw [hanswer]
    exact hmore
  · have hsame : (reads ++ [(t, n)]).countP (inSpan W a L) = reads.countP (inSpan W a L) := by
      rw [countP_concat, if_neg hin]
      rfl
    refine ⟨by rw [hsame]; exact hsplit.total, fun hbegun => ?_⟩
    obtain ⟨old, hold, hcount, hfirst⟩ := hsplit.current hbegun
    refine ⟨old, hold, ?_, hfirst⟩
    rw [hsame, hanswer]
    omega

/-- The first read of a lifetime. -/
theorem Split.startsAgain {a : Int} {L : Nat} {t : Int} (hW : 0 ≤ W)
    (hsplit : Split W a L reads since) (htime : ∀ r ∈ reads, r.1 < t)
    (hlater : ∀ s ∈ since, s + W ≤ t) : Split W a L (reads ++ [(t, 1)]) (some t) := by
  have hanswer : lastAnswer (reads ++ [(t, 1)]) = 1 := by
    unfold lastAnswer
    rw [List.getLast?_concat]
    rfl
  have hcount := countP_concat (inSpan W a L) reads (t, 1)
  by_cases hend : t ≤ a + W
  · -- The lifetime before began by the start of the span, so it is the only one before.
    have hbegun : ∀ s ∈ since, s ≤ a := fun s hs => by
      have hs' := hlater s hs
      omega
    obtain ⟨old, -, hold, hfirst⟩ :=
      hsplit.current fun s hs => Int.le_trans (hbegun s hs) (by omega)
    obtain rfl := hfirst hbegun
    have hone : (if inSpan W a L (t, 1) = true then 1 else 0) ≤ min 1 L := by
      split_ifs with hin
      · have hspan : a ≤ t ∧ t ≤ a + W ∧ 1 ≤ L := by simpa [inSpan] using hin
        omega
      · exact Nat.zero_le _
    refine ⟨by omega, fun _ => ⟨reads.countP (inSpan W a L), by omega, ?_, fun hafter => ?_⟩⟩
    · rw [hanswer]
      omega
    · refine List.countP_eq_zero.mpr fun r hr hin => ?_
      have hspan : a ≤ r.1 ∧ r.1 ≤ a + W ∧ r.2 ≤ L := by simpa [inSpan] using hin
      have hlt := htime r hr
      have hta : t ≤ a := hafter t rfl
      omega
  · have hout : ¬ inSpan W a L (t, 1) = true := by
      intro hin
      have hspan : a ≤ t ∧ t ≤ a + W ∧ 1 ≤ L := by simpa [inSpan] using hin
      exact hend hspan.2.1
    rw [if_neg hout, Nat.add_zero] at hcount
    refine ⟨by rw [hcount]; exact hsplit.total, fun hafter => ?_⟩
    exact absurd (hafter t rfl) hend

theorem split (hW : 0 ≤ W) (a : Int) (L : Nat) (h : Renews W reads since) :
    Split W a L reads since := by
  induction h with
  | nil => exact ⟨Nat.zero_le _, fun _ => ⟨0, Nat.zero_le _, Nat.zero_le _, fun _ => rfl⟩⟩
  | goesOn h htime hlast hpos ih =>
    refine ih.goesOn (fun s hs => ?_) hlast hpos
    obtain ⟨r, hr, rfl⟩ := h.since_mem s hs
    exact htime r hr
  | startsAgain _ htime hlater ih => exact ih.startsAgain hW htime hlater

/-- **In a span as long as a lifetime at most `2 * L` reads answer at most `L`.** -/
theorem countP_span_le (hW : 0 ≤ W) (h : Renews W reads since) (a : Int) (L : Nat) :
    reads.countP (fun r => a ≤ r.1 ∧ r.1 ≤ a + W ∧ r.2 ≤ L) ≤ 2 * L :=
  (h.split hW a L).total

end Renews

end Gateway.Lib
