import Mathlib.Data.List.Induction
import Mathlib.Data.Rat.Floor
import Gateway.Ingress.Limits
import Gateway.Lib.TwoRuns

/-!
# What the fixed-window limiter decides

The limiter keeps one table and one window for all keys. `tally` is the reading of it that knows
neither: among the calls let through so far, those of a key in a window. Limits are Python integers
and clock readings rationals, in any position relative to the first window.

* `Fits`: the counts belong to a window that is not ahead of the clock, or there are none.
* `countAt_after`: after calls at non-decreasing times, the count of a key is its tally in the
  window.
* `Thinned`: a sequence of calls without some that were refused or have another key.
* **`hit_counts_accepted`**: a call is let through iff its key's tally is below its limit, refused
  calls and other keys have no effect on it, and a constant limit bounds what a window and any span
  as long as a window let through.
* `Reachable`: the limiters that calls at non-decreasing times and `reset` lead to.
* **`retryAfter_exact`**: a refused caller who waits the seconds it was told is let in, and one who
  waits fewer is not.
-/

namespace Gateway

open Lib

namespace FixedWindowLimiter

/-- A call of `hit`: the reading of the clock, the key and the limit. -/
structure Hit where
  time : ℚ
  key : String
  limit : Int
  deriving DecidableEq, Repr

/-- The limiter `FixedWindowLimiter(window_seconds)`. -/
def start (W : Nat) : FixedWindowLimiter := { windowSeconds := W }

/-- `hit(key, limit)`. Counts are not negative, so a negative limit refuses as `0` does. -/
def call (l : FixedWindowLimiter) (h : Hit) : Option Int × FixedWindowLimiter :=
  l.hit h.time h.key h.limit.toNat

/-- `reset()`. -/
def reset (l : FixedWindowLimiter) : FixedWindowLimiter := { l with counts := [] }

/-- The limiter after some calls. -/
def after (l : FixedWindowLimiter) (calls : List Hit) : FixedWindowLimiter :=
  run (leaves call) l calls

/-- The calls let through, in order. -/
def accepted : FixedWindowLimiter → List Hit → List Hit
  | _, [] => []
  | l, h :: hs => (if (l.call h).1 = none then [h] else []) ++ accepted (l.call h).2 hs

/-- `floor(time / W)`. -/
def windowOf (W : Nat) (t : ℚ) : Int := ⌊t / W⌋

/-- The calls of `key` in window `w`. -/
def tally (past : List Hit) (W : Nat) (key : String) (w : Int) : Nat :=
  past.countP fun h => h.key = key ∧ windowOf W h.time = w

/-- The calls are made at non-decreasing times. -/
def Ordered (calls : List Hit) : Prop := calls.Pairwise fun g h => g.time ≤ h.time

/-! ## The counts -/

section Counts

variable {l : FixedWindowLimiter} {W : Nat} {now later : ℚ} {key : String}

@[simp] theorem windowSeconds_call (l : FixedWindowLimiter) (h : Hit) :
    (l.call h).2.windowSeconds = l.windowSeconds := windowSeconds_hit l _ _ _

@[simp] theorem windowSeconds_after (l : FixedWindowLimiter) (calls : List Hit) :
    (l.after calls).windowSeconds = l.windowSeconds := by
  induction calls generalizing l with
  | nil => rfl
  | cons h hs ih =>
    show ((l.call h).2.after hs).windowSeconds = l.windowSeconds
    rw [ih, windowSeconds_call]

theorem windowAt_eq_windowOf (l : FixedWindowLimiter) (t : ℚ) :
    l.windowAt t = windowOf l.windowSeconds t := rfl

/-- What a refused caller is told: the seconds to the end of the window. -/
def retryAfter (W : Nat) (now : ℚ) : Int := max 1 (((windowOf W now + 1) * W : ℚ) - now).ceil

/-- The answer depends on the count alone. -/
theorem call_fst (l : FixedWindowLimiter) (h : Hit) :
    (l.call h).1 =
      if (l.countAt h.time h.key : Int) < h.limit then none
      else some (retryAfter l.windowSeconds h.time) := by
  unfold call hit
  by_cases hc : h.limit.toNat ≤ l.countAt h.time h.key
  · rw [if_pos hc, if_neg (by omega)]
    rfl
  · rw [if_neg hc, if_pos (by omega)]

theorem call_fst_eq_none {h : Hit} :
    (l.call h).1 = none ↔ (l.countAt h.time h.key : Int) < h.limit := by
  rw [call_fst]
  split_ifs with hc
  · simp [hc]
  · simp [hc]

/-- The counts are of no later window than that of `t`, or there are none. -/
def Fits (l : FixedWindowLimiter) (t : ℚ) : Prop := l.counts = [] ∨ l.window ≤ l.windowAt t

theorem Fits.mono {s t : ℚ} (h : l.Fits s) (hle : s ≤ t) : l.Fits t :=
  h.imp_right fun hw => hw.trans (windowAt_mono l hle)

theorem fits_call (l : FixedWindowLimiter) (h : Hit) : (l.call h).2.Fits h.time := by
  refine Or.inr (le_of_eq ?_)
  rw [windowAt_eq_windowOf, windowSeconds_call]
  exact window_hit l _ _ _

theorem countAt_congr {s t : ℚ} (h : l.windowAt s = l.windowAt t) (key : String) :
    l.countAt s key = l.countAt t key := by
  unfold countAt roll
  rw [h]

theorem countAt_of_counts_eq_nil (h : l.counts = []) (now : ℚ) (key : String) :
    l.countAt now key = 0 := by
  unfold countAt roll
  split
  · rw [h]
    rfl
  · rfl

/-- An empty table has no window: a call finds it as if it were of the current one. -/
theorem hit_of_counts_eq_nil (h : l.counts = []) (now : ℚ) (key : String) (limit : Nat) :
    l.hit now key limit = { l with window := l.windowAt now }.hit now key limit := by
  have hroll : l.roll now = { l with window := l.windowAt now } := by
    unfold roll
    split
    · rename_i hw
      rw [hw]
    · rw [h]
  have hroll' : { l with window := l.windowAt now }.roll now =
      { l with window := l.windowAt now } := if_pos rfl
  unfold hit countAt
  rw [hroll, hroll']
  rfl

/-- What a call does to the counts read later: it adds one for its own key in the same window if it
is let through. -/
theorem countAt_call {h : Hit} (hfits : l.Fits h.time) (hle : h.time ≤ later) (key : String) :
    (l.call h).2.countAt later key =
      l.countAt later key +
        if (l.call h).1 = none ∧ h.key = key ∧ l.windowAt h.time = l.windowAt later then 1
        else 0 := by
  have hstep : (l.call h).2.countAt later key =
      if l.windowAt later = l.windowAt h.time ∧ h.key = key ∧
          l.countAt h.time h.key < h.limit.toNat then l.countAt h.time h.key + 1
      else l.countAt later key := by
    rcases hfits with hnil | hpast
    · have hsame : ∀ t k, { l with window := l.windowAt h.time }.countAt t k = l.countAt t k :=
        fun t k => by
          have hnil' : { l with window := l.windowAt h.time }.counts = [] := hnil
          rw [countAt_of_counts_eq_nil hnil, countAt_of_counts_eq_nil hnil']
      have hpast' : l.windowAt h.time ≤
        { l with window := l.windowAt h.time }.windowAt h.time := le_rfl
      unfold call
      rw [hit_of_counts_eq_nil hnil, countAt_hit hpast' hle, hsame, hsame]
      rfl
    · exact countAt_hit hpast hle h.key h.limit.toNat key
  have hnone : (l.call h).1 = none ↔ l.countAt h.time h.key < h.limit.toNat := hit_fst_eq_none
  rw [hstep]
  by_cases hc : (l.call h).1 = none ∧ h.key = key ∧ l.windowAt h.time = l.windowAt later
  · obtain ⟨hacc, rfl, hw⟩ := hc
    rw [if_pos ⟨hw.symm, rfl, hnone.mp hacc⟩, if_pos ⟨hacc, rfl, hw⟩, countAt_congr hw]
  · rw [if_neg hc, if_neg fun hh => hc ⟨hnone.mpr hh.2.2, hh.2.1, hh.1.symm⟩, Nat.add_zero]

end Counts

/-! ## The calls of a run -/

section Runs

variable {W : Nat} {calls : List Hit} {h : Hit}

theorem after_concat (l : FixedWindowLimiter) (calls : List Hit) (h : Hit) :
    l.after (calls ++ [h]) = ((l.after calls).call h).2 :=
  run_append (leaves call) l calls [h]

theorem accepted_concat (l : FixedWindowLimiter) (calls : List Hit) (h : Hit) :
    l.accepted (calls ++ [h]) =
      l.accepted calls ++ if ((l.after calls).call h).1 = none then [h] else [] := by
  induction calls generalizing l with
  | nil =>
    unfold accepted accepted
    exact List.append_nil _
  | cons g gs ih =>
    rw [List.cons_append, accepted, accepted, ih, List.append_assoc]
    rfl

theorem tally_append (xs ys : List Hit) (W : Nat) (key : String) (w : Int) :
    tally (xs ++ ys) W key w = tally xs W key w + tally ys W key w := List.countP_append ..

/-- What one more call adds to the tally. -/
theorem tally_accepted_concat (l : FixedWindowLimiter) (calls : List Hit) (h : Hit) (W : Nat)
    (key : String) (w : Int) :
    tally (l.accepted (calls ++ [h])) W key w =
      tally (l.accepted calls) W key w +
        if ((l.after calls).call h).1 = none ∧ h.key = key ∧ windowOf W h.time = w then 1
        else 0 := by
  rw [accepted_concat, tally_append]
  congr 1
  by_cases hacc : ((l.after calls).call h).1 = none
  · rw [if_pos hacc]
    simp [tally, hacc, List.countP_cons]
  · rw [if_neg hacc, if_neg fun hh => hacc hh.1]
    rfl

theorem Ordered.of_concat (hord : Ordered (calls ++ [h])) :
    Ordered calls ∧ ∀ g ∈ calls, g.time ≤ h.time := by
  obtain ⟨hcalls, -, hle⟩ := List.pairwise_append.mp hord
  exact ⟨hcalls, fun g hg => hle g hg h List.mem_cons_self⟩

/-- After calls the counts are of the window of one of them. -/
theorem fits_after (W : Nat) (calls : List Hit) {now : ℚ} (hle : ∀ g ∈ calls, g.time ≤ now) :
    ((start W).after calls).Fits now := by
  rcases List.eq_nil_or_concat' calls with rfl | ⟨gs, g, rfl⟩
  · exact Or.inl rfl
  · rw [after_concat]
    exact (fits_call _ g).mono (hle g (by simp))

/-- **The shared table is a tally per key**: after calls at non-decreasing times, the count of a key
is the number of its calls let through in the window. -/
theorem countAt_after (W : Nat) (calls : List Hit) (hord : Ordered calls) {now : ℚ}
    (hle : ∀ g ∈ calls, g.time ≤ now) (key : String) :
    ((start W).after calls).countAt now key =
      tally ((start W).accepted calls) W key (windowOf W now) := by
  induction calls using List.reverseRecOn with
  | nil => exact countAt_of_counts_eq_nil rfl now key
  | append_singleton gs g ih =>
    obtain ⟨hgs, hlast⟩ := hord.of_concat
    have hprev := ih hgs fun x hx => hle x (List.mem_append_left _ hx)
    rw [after_concat, countAt_call (fits_after W gs hlast) (hle g (by simp)), hprev,
      tally_accepted_concat, windowAt_eq_windowOf, windowAt_eq_windowOf, windowSeconds_after]
    rfl

/-- A call is let through iff its key's tally in its window is below its limit. -/
theorem call_after_eq_none (hord : Ordered (calls ++ [h])) :
    (((start W).after calls).call h).1 = none ↔
      (tally ((start W).accepted calls) W h.key (windowOf W h.time) : Int) < h.limit := by
  obtain ⟨hcalls, hlast⟩ := hord.of_concat
  rw [call_fst_eq_none, countAt_after W calls hcalls hlast]

/-- `kept` is `calls` without some that were refused or are not of `key`. -/
inductive Thinned (W : Nat) (key : String) : List Hit → List Hit → Prop where
  | nil : Thinned W key [] []
  | keep {calls kept : List Hit} (h : Hit) :
    Thinned W key calls kept → Thinned W key (calls ++ [h]) (kept ++ [h])
  | drop {calls kept : List Hit} {h : Hit} :
    Thinned W key calls kept → h.key ≠ key ∨ (((start W).after calls).call h).1 ≠ none →
      Thinned W key (calls ++ [h]) kept

theorem Thinned.sublist {key : String} {kept : List Hit} (hthin : Thinned W key calls kept) :
    kept.Sublist calls := by
  induction hthin with
  | nil => exact List.Sublist.refl []
  | keep g _ ih => exact ih.append_right [g]
  | drop _ _ ih => exact ih.trans (List.sublist_append_left _ _)

/-- What is left out makes no difference to the tallies of the key. -/
theorem Thinned.tally_eq {key : String} {kept : List Hit} (hthin : Thinned W key calls kept)
    (hord : Ordered calls) (w : Int) :
    tally ((start W).accepted kept) W key w = tally ((start W).accepted calls) W key w := by
  induction hthin generalizing w with
  | nil => rfl
  | @keep calls kept g hthin ih =>
    have hkept : Ordered (kept ++ [g]) := hord.sublist (hthin.sublist.append_right [g])
    have hprev := ih hord.of_concat.1
    rw [tally_accepted_concat, tally_accepted_concat, hprev]
    by_cases hkey : g.key = key
    · have hsame : (((start W).after kept).call g).1 = none ↔
          (((start W).after calls).call g).1 = none := by
        rw [call_after_eq_none hkept, call_after_eq_none hord, hkey, hprev]
      simp only [hsame]
    · rw [if_neg fun hh => hkey hh.2.1, if_neg fun hh => hkey hh.2.1]
  | @drop calls kept g hthin hdrop ih =>
    rw [ih hord.of_concat.1, tally_accepted_concat, if_neg, Nat.add_zero]
    rintro ⟨hacc, hkey, -⟩
    exact hdrop.elim (fun hne => hne hkey) fun hne => hne hacc

/-- The answer is the same after what is left. -/
theorem Thinned.call_fst_eq {kept : List Hit} (hthin : Thinned W h.key calls kept)
    (hord : Ordered (calls ++ [h])) :
    (((start W).after kept).call h).1 = (((start W).after calls).call h).1 := by
  obtain ⟨hcalls, hlast⟩ := hord.of_concat
  have hkept : Ordered kept := hcalls.sublist hthin.sublist
  have hlast' : ∀ g ∈ kept, g.time ≤ h.time := fun g hg => hlast g (hthin.sublist.subset hg)
  rw [call_fst, call_fst, countAt_after W calls hcalls hlast, countAt_after W kept hkept hlast',
    hthin.tally_eq hcalls, windowSeconds_after, windowSeconds_after]

/-- A constant limit bounds the calls let through in a window. -/
theorem tally_le_of_constant {key : String} {L : Int} (hord : Ordered calls)
    (hL : ∀ g ∈ calls, g.key = key → g.limit = L) (w : Int) :
    tally ((start W).accepted calls) W key w ≤ L.toNat := by
  induction calls using List.reverseRecOn with
  | nil => exact Nat.zero_le _
  | append_singleton gs g ih =>
    have hprev := ih hord.of_concat.1 fun x hx => hL x (List.mem_append_left _ hx)
    rw [tally_accepted_concat]
    split_ifs with hnew
    · obtain ⟨hacc, hkey, hw⟩ := hnew
      have hlt := (call_after_eq_none hord).mp hacc
      rw [hL g (by simp) hkey, hkey, hw] at hlt
      omega
    · exact hprev

/-- A span as long as a window lies in two windows. -/
theorem windowOf_span (hW : 1 ≤ W) {s t : ℚ} (hs : s ≤ t) (ht : t ≤ s + W) :
    windowOf W t = windowOf W s ∨ windowOf W t = windowOf W s + 1 := by
  have hpos : (0 : ℚ) < W := by exact_mod_cast hW
  have hlow : windowOf W s ≤ windowOf W t := Int.floor_le_floor (by gcongr)
  have hhigh : windowOf W t ≤ windowOf W s + 1 := by
    have hdiv : t / W ≤ s / W + 1 := by
      rw [div_add_one hpos.ne']
      gcongr
    calc windowOf W t ≤ ⌊s / W + 1⌋ := Int.floor_le_floor hdiv
      _ = windowOf W s + 1 := Int.floor_add_one _
  omega

/-- The calls of a key in a span are in the tallies of two windows. -/
theorem countP_span_le (hW : 1 ≤ W) (past : List Hit) (key : String) (s : ℚ) :
    past.countP (fun h => h.key = key ∧ s ≤ h.time ∧ h.time ≤ s + W) ≤
      tally past W key (windowOf W s) + tally past W key (windowOf W s + 1) := by
  induction past with
  | nil => exact Nat.zero_le _
  | cons g gs ih =>
    unfold tally at ih ⊢
    simp only [List.countP_cons, decide_eq_true_eq]
    by_cases hg : g.key = key ∧ s ≤ g.time ∧ g.time ≤ s + W
    · rcases windowOf_span hW hg.2.1 hg.2.2 with hw | hw
      · rw [if_pos hg, if_pos ⟨hg.1, hw⟩]
        omega
      · have hsecond : g.key = key ∧ windowOf W g.time = windowOf W s + 1 := ⟨hg.1, hw⟩
        rw [if_pos hg, if_pos hsecond]
        omega
    · rw [if_neg hg]
      omega

end Runs

/-- **The shared-table limiter equals independent counters per key**: at non-decreasing times a call
is let through iff fewer calls of its key than its limit were let through in its window before;
calls that were refused or have other keys make no difference to the answer; and with a constant
limit `L` at most `L` calls of a key are let through in a window and at most `2 * L` in any span as
long. -/
theorem hit_counts_accepted {W : Nat} (hW : 1 ≤ W) {calls : List Hit} (hord : Ordered calls) :
    (∀ before h rest, calls = before ++ h :: rest →
      ((((start W).after before).call h).1 = none ↔
        (((start W).accepted before).countP fun g =>
          g.key = h.key ∧ windowOf W g.time = windowOf W h.time : Int) < h.limit) ∧
      ∀ kept, Thinned W h.key before kept →
        (((start W).after kept).call h).1 = (((start W).after before).call h).1) ∧
    ∀ key (L : Int), (∀ h ∈ calls, h.key = key → h.limit = L) →
      (∀ w, ((start W).accepted calls).countP (fun h => h.key = key ∧ windowOf W h.time = w) ≤
        L.toNat) ∧
      ∀ s : ℚ, ((start W).accepted calls).countP
        (fun h => h.key = key ∧ s ≤ h.time ∧ h.time ≤ s + W) ≤ 2 * L.toNat := by
  refine ⟨fun before h rest heq => ?_, fun key L hL => ⟨fun w => ?_, fun s => ?_⟩⟩
  · have hord' : Ordered (before ++ [h]) := by
      refine List.Pairwise.sublist ?_ hord
      rw [heq]
      exact (List.singleton_sublist.mpr List.mem_cons_self).append_left before
    exact ⟨call_after_eq_none hord', fun kept hthin => hthin.call_fst_eq hord'⟩
  · exact tally_le_of_constant hord hL w
  · have hspan := countP_span_le hW ((start W).accepted calls) key s
    have hfirst := tally_le_of_constant (W := W) hord hL (windowOf W s)
    have hsecond := tally_le_of_constant (W := W) hord hL (windowOf W s + 1)
    omega

/-- The theorem on calls of two keys in two windows: the third is refused for its limit of `1`. -/
theorem hit_counts_accepted_third :
    Ordered [⟨0, "a", 1⟩, ⟨30, "b", 1⟩, ⟨45, "a", 1⟩, ⟨60, "a", 1⟩] ∧
      (((start 60).after [⟨0, "a", 1⟩, ⟨30, "b", 1⟩]).call ⟨45, "a", 1⟩).1 ≠ none := by
  have hord : Ordered [⟨0, "a", 1⟩, ⟨30, "b", 1⟩, ⟨45, "a", 1⟩, ⟨60, "a", 1⟩] := by
    unfold Ordered
    decide +kernel
  refine ⟨hord, fun hnone => ?_⟩
  have hlt := ((hit_counts_accepted (by decide) hord).1 [⟨0, "a", 1⟩, ⟨30, "b", 1⟩] _ _ rfl).1.mp
    hnone
  exact absurd hlt (by decide +kernel)

/-! ## What a refused caller is told -/

/-- The limiters that calls at non-decreasing times and `reset` lead to, by the clock's time. -/
inductive Reachable (W : Nat) : ℚ → FixedWindowLimiter → Prop where
  | start (t : ℚ) : Reachable W t (start W)
  | later {s t : ℚ} {l : FixedWindowLimiter} : Reachable W s l → s ≤ t → Reachable W t l
  | call {s : ℚ} {l : FixedWindowLimiter} (h : Hit) :
    Reachable W s l → s ≤ h.time → Reachable W h.time (l.call h).2
  | reset {t : ℚ} {l : FixedWindowLimiter} : Reachable W t l → Reachable W t l.reset

section Retry

variable {W : Nat} {t u : ℚ} {l : FixedWindowLimiter} {key : String}

theorem Reachable.windowSeconds_eq (hl : Reachable W t l) : l.windowSeconds = W := by
  induction hl with
  | start t => rfl
  | later _ _ ih => exact ih
  | call h _ _ ih => rw [windowSeconds_call, ih]
  | reset _ ih => exact ih

theorem Reachable.fits (hl : Reachable W t l) : l.Fits t := by
  induction hl with
  | start t => exact Or.inl rfl
  | later _ hle ih => exact ih.mono hle
  | call h _ _ _ => exact fits_call _ h
  | reset _ _ => exact Or.inl rfl

/-- Calls of other keys leave the counts of a key alone. -/
theorem countAt_after_others (others : List Hit) (hfits : l.Fits t)
    (hord : Ordered others) (hfrom : ∀ g ∈ others, t ≤ g.time) (hto : ∀ g ∈ others, g.time ≤ u)
    (hkey : ∀ g ∈ others, g.key ≠ key) :
    (l.after others).countAt u key = l.countAt u key := by
  induction others generalizing l t with
  | nil => rfl
  | cons g gs ih =>
    obtain ⟨hnext, hgs⟩ := List.pairwise_cons.mp hord
    have hrest := ih (fits_call l g) hgs hnext (fun x hx => hto x (List.mem_cons_of_mem g hx))
      fun x hx => hkey x (List.mem_cons_of_mem g hx)
    have hother : ¬ ((l.call g).1 = none ∧ g.key = key ∧ l.windowAt g.time = l.windowAt u) :=
      fun hh => hkey g List.mem_cons_self hh.2.1
    calc (l.after (g :: gs)).countAt u key
        = ((l.call g).2.after gs).countAt u key := rfl
      _ = (l.call g).2.countAt u key := hrest
      _ = l.countAt u key := by
        rw [countAt_call (hfits.mono (hfrom g List.mem_cons_self)) (hto g List.mem_cons_self),
          if_neg hother, Nat.add_zero]

theorem windowOf_mul_le (hW : 1 ≤ W) (t : ℚ) : (windowOf W t * W : ℚ) ≤ t := by
  have hpos : (0 : ℚ) < W := by exact_mod_cast hW
  exact (le_div_iff₀ hpos).mp (Int.floor_le _)

theorem lt_windowOf_succ_mul (hW : 1 ≤ W) (t : ℚ) : t < (windowOf W t + 1) * W := by
  have hpos : (0 : ℚ) < W := by exact_mod_cast hW
  exact (div_lt_iff₀ hpos).mp (Int.lt_floor_add_one _)

/-- The seconds told are those to the end of the window, rounded up. -/
theorem retryAfter_eq (hW : 1 ≤ W) (t : ℚ) :
    retryAfter W t = (((windowOf W t + 1) * W : ℚ) - t).ceil := by
  have hlt := lt_windowOf_succ_mul hW t
  refine max_eq_right ?_
  have hpos : (0 : Int) < (((windowOf W t + 1) * W : ℚ) - t).ceil :=
    Rat.lt_ceil_iff.mpr (by push_cast; linarith)
  omega

theorem retryAfter_le (hW : 1 ≤ W) (t : ℚ) : retryAfter W t ≤ W := by
  rw [retryAfter_eq hW, Rat.ceil_le_iff]
  have hle := windowOf_mul_le hW t
  push_cast
  linarith

/-- Who waits that long is in a later window. -/
theorem windowOf_lt_of_waited (hW : 1 ≤ W) (h : t + retryAfter W t ≤ u) :
    windowOf W t < windowOf W u := by
  have hpos : (0 : ℚ) < W := by exact_mod_cast hW
  have hceil : ((windowOf W t + 1) * W : ℚ) - t ≤ retryAfter W t := by
    rw [retryAfter_eq hW]
    exact Rat.le_ceil
  have hend : ((windowOf W t + 1 : Int) : ℚ) ≤ u / W := by
    rw [le_div_iff₀ hpos]
    push_cast
    linarith
  have hle : windowOf W t + 1 ≤ windowOf W u := Int.le_floor.mpr hend
  omega

/-- Who waits less is in the same window. -/
theorem windowOf_eq_of_not_waited (hW : 1 ≤ W) {r : Int} (hr : 1 ≤ r)
    (h : r < retryAfter W t) : windowOf W (t + r) = windowOf W t := by
  have hpos : (0 : ℚ) < W := by exact_mod_cast hW
  rw [retryAfter_eq hW, Rat.lt_ceil_iff] at h
  have hr' : (0 : ℚ) ≤ r := by exact_mod_cast (by omega : (0 : Int) ≤ r)
  have hlow := windowOf_mul_le hW t
  refine Int.floor_eq_iff.mpr ⟨?_, ?_⟩
  · rw [le_div_iff₀ hpos]
    linarith
  · rw [div_lt_iff₀ hpos]
    linarith

/-- What a later call of the key finds after calls of other keys. -/
theorem countAt_after_refused {h next : Hit} (hfits : l.Fits h.time)
    (hrefused : (l.call h).1 ≠ none) {others : List Hit}
    (hord : Ordered (h :: others ++ [next])) (hkey : ∀ g ∈ others, g.key ≠ h.key) :
    ((l.call h).2.after others).countAt next.time h.key = l.countAt next.time h.key := by
  obtain ⟨hall, hlast⟩ := hord.of_concat
  obtain ⟨hfrom, hothers⟩ := List.pairwise_cons.mp hall
  rw [countAt_after_others others (fits_call l h) hothers hfrom
      (fun g hg => hlast g (List.mem_cons_of_mem h hg)) hkey,
    countAt_call hfits (hlast h List.mem_cons_self), if_neg fun hh => hrefused hh.1, Nat.add_zero]

end Retry

/-- **`Retry-After` is honest and tight**: the seconds told to a refused caller are between `1` and
the window length; whatever calls of other keys are made meanwhile, its next call is let through if
it waits at least that long, and is refused again if it waits for fewer whole seconds. -/
theorem retryAfter_exact {W : Nat} (hW : 1 ≤ W) {l : FixedWindowLimiter} {h : Hit}
    (hl : Reachable W h.time l) (hlimit : 1 ≤ h.limit) {r : Int} (hr : (l.call h).1 = some r) :
    1 ≤ r ∧ r ≤ W ∧
    (∀ others next, Ordered (h :: others ++ [next]) → (∀ g ∈ others, g.key ≠ h.key) →
      next.key = h.key → h.time + r ≤ next.time → 1 ≤ next.limit →
        (((l.call h).2.after others).call next).1 = none) ∧
    ∀ r' : Int, 1 ≤ r' → r' < r → ∀ others,
      Ordered (h :: others ++ [{ h with time := h.time + r' }]) → (∀ g ∈ others, g.key ≠ h.key) →
        (((l.call h).2.after others).call { h with time := h.time + r' }).1 ≠ none := by
  have hrefused : (l.call h).1 ≠ none := by
    rw [hr]
    exact Option.some_ne_none r
  have hfull : h.limit ≤ l.countAt h.time h.key := by
    have hnot := mt call_fst_eq_none.mpr hrefused
    omega
  have hcount : (l.countAt h.time h.key : Int) ≠ 0 := by omega
  -- A key that has a count in the window of `h` has the table of that window.
  have hwindow : l.window = l.windowAt h.time := by
    by_contra hne
    exact hcount (by rw [countAt_of_window_ne (Ne.symm hne)]; rfl)
  have hreq : r = retryAfter W h.time := by
    rw [call_fst, if_neg (by omega), hl.windowSeconds_eq] at hr
    exact (Option.some.inj hr).symm
  subst hreq
  refine ⟨le_max_left 1 _, retryAfter_le hW _, fun others next hord hkey hsame hwait hpos => ?_,
    fun r' h1 hlt others hord hkey => ?_⟩
  · have hlater := windowOf_lt_of_waited hW hwait
    have hnew : l.windowAt next.time ≠ l.window := by
      rw [hwindow, windowAt_eq_windowOf, windowAt_eq_windowOf, hl.windowSeconds_eq]
      omega
    rw [call_fst_eq_none, hsame, countAt_after_refused hl.fits hrefused hord hkey,
      countAt_of_window_ne hnew]
    omega
  · have hstill := windowOf_eq_of_not_waited hW h1 hlt
    have hsame : l.windowAt (h.time + r') = l.windowAt h.time := by
      rw [windowAt_eq_windowOf, windowAt_eq_windowOf, hl.windowSeconds_eq, hstill]
    rw [Ne, call_fst_eq_none]
    have hfound := countAt_after_refused hl.fits hrefused hord hkey
    simp only at hfound ⊢
    rw [hfound, countAt_congr hsame]
    omega

/-- The theorem half a second before the end of a window, with another key's call in between. -/
theorem retryAfter_exact_at_boundary :
    (((start 60).after [⟨10, "a", 1⟩]).call ⟨119/2, "a", 1⟩).1 = some 1 ∧
      (((((start 60).after [⟨10, "a", 1⟩]).call ⟨119/2, "a", 1⟩).2.after [⟨60, "b", 1⟩]).call
        ⟨121/2, "a", 1⟩).1 = none := by
  have hr : (((start 60).after [⟨10, "a", 1⟩]).call ⟨119/2, "a", 1⟩).1 = some 1 := by decide +kernel
  have hl : Reachable 60 (119/2) ((start 60).after [⟨10, "a", 1⟩]) :=
    ((Reachable.start 10).call ⟨10, "a", 1⟩ le_rfl).later (by norm_num)
  refine ⟨hr, (retryAfter_exact (by decide) hl (by decide) hr).2.2.1 [⟨60, "b", 1⟩] ⟨121/2, "a", 1⟩
    ?_ (by simp) rfl (by norm_num) (by decide)⟩
  unfold Ordered
  decide +kernel

end FixedWindowLimiter

end Gateway
