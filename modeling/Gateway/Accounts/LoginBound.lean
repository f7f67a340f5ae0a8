import Mathlib.Data.List.Nodup
import Mathlib.Data.List.Perm.Subperm
import Gateway.Accounts.LoginLimit
import Gateway.Lib.Renewals

/-!
# How many logins get through

The limiter protects the passwords from guessing: it is worth what the number of attempts it lets
through is worth. `countedAttempt` is the `INCR` a move makes, with its time and its answer, and
`countedOver` lists those of a run.

* `KeyHistory`: between two commands the reads of a key are those of a counter that starts again
  (`Lib.Renews`). A lifetime is only ever set to end a window later, so a counter starts again a
  window after it started at the soonest, also where the `EXPIRE` comes late, twice, or never.
* `Traced`: a call that was let in was counted within the limit, or one of its commands failed.
* **`admittedAttempts_le`**: however the calls interleave and whichever commands fail, of the
  attempts of a client counted in a span as long as the window at most twice the limit are let in,
  those whose own commands failed apart.
-/

namespace Gateway

open Lib

/-- An attempt that was counted: the call, when, under which key, and the answer of `INCR`. -/
structure CountedAttempt where
  call : Nat
  time : Int
  key : String
  count : Nat
  deriving DecidableEq, Repr

/-- The `INCR` of a move, if it makes one. -/
def countedAttempt (s : Limiter) : LimiterMove → List CountedAttempt
  | .proceed i false =>
    match s.calls[i]? with
    | some ⟨k, .incr⟩ =>
      [{ call := i, time := s.redis.clock, key := k, count := (s.redis.incr k).1 }]
    | _ => []
  | _ => []

/-- The attempts a run counts. -/
def countedOver (cfg : LoginSettings) (s : Limiter) (moves : List LimiterMove) :
    List CountedAttempt :=
  emitted (limiterStep cfg) countedAttempt s moves

/-- The times and answers of the attempts under a key. -/
def readsOf (k : String) (log : List CountedAttempt) : List (Int × Nat) :=
  (log.filter (·.key = k)).map fun e => (e.time, e.count)

theorem readsOf_append (k : String) (log new : List CountedAttempt) :
    readsOf k (log ++ new) = readsOf k log ++ readsOf k new := by
  unfold readsOf
  rw [List.filter_append, List.map_append]

theorem readsOf_of_other {k : String} {new : List CountedAttempt} (h : ∀ e ∈ new, e.key ≠ k) :
    readsOf k new = [] := by
  unfold readsOf
  rw [List.filter_eq_nil_iff.mpr fun e he => by simpa using h e he]
  rfl

/-! ## The counter of a key -/

/-- The reads of a key so far, and the entry Redis has of it. -/
structure KeyHistory (W : Int) (redis : CounterStore String) (k : String)
    (reads : List (Int × Nat)) (since : Option Int) : Prop where
  renews : Renews W reads since
  past : ∀ r ∈ reads, r.1 ≤ redis.clock
  missing : redis.entries k = none → reads = []
  answer : ∀ e, redis.entries k = some e → ∀ r ∈ reads.getLast?, r.2 = e.count
  lives : ∀ e x, redis.entries k = some e → e.expiresAt = some x →
    (∀ s ∈ since, s + W ≤ x) ∧ ∀ r ∈ reads, r.1 < x

namespace KeyHistory

variable {W : Int} {redis redis' : CounterStore String} {k : String} {reads : List (Int × Nat)}
  {since : Option Int}

/-- Only the entry of the key and the clock matter. -/
theorem congr (h : KeyHistory W redis k reads since) (hentry : redis'.entries k = redis.entries k)
    (hclock : redis.clock ≤ redis'.clock) : KeyHistory W redis' k reads since where
  renews := h.renews
  past r hr := Int.le_trans (h.past r hr) hclock
  missing hnone := h.missing (hentry.symm.trans hnone)
  answer e he := h.answer e (hentry.symm.trans he)
  lives e x he := h.lives e x (hentry.symm.trans he)

/-- The counter started by now. -/
theorem since_le (h : KeyHistory W redis k reads since) : ∀ s ∈ since, s ≤ redis.clock := by
  intro s hs
  obtain ⟨r, hr, rfl⟩ := h.renews.since_mem s hs
  exact h.past r hr

/-- Counting up a key that is there. -/
theorem incr_of_present {e : Expiring} (h : KeyHistory W redis k reads since)
    (he : redis.lookup k = some e) :
    KeyHistory W (redis.incr k).2 k (reads ++ [(redis.clock, (redis.incr k).1)]) since := by
  have hincr : redis.incr k =
      (e.count + 1, redis.set k (some { e with count := e.count + 1 })) := by
    unfold CounterStore.incr
    rw [he]
  obtain ⟨hentry, halive⟩ := Option.filter_eq_some_iff.mp he
  rw [hincr]
  refine ⟨?_, ?_, ?_, ?_, ?_⟩
  · refine h.renews.goesOn h.past (fun r hr => ?_) (Nat.le_add_left 1 e.count)
    rw [h.answer e hentry r hr]
  · intro r hr
    rcases List.mem_append.mp hr with hr | hr
    · exact h.past r hr
    · obtain rfl := List.mem_singleton.mp hr
      exact Int.le_refl _
  · intro hnone
    rw [CounterStore.set_entries_self] at hnone
    cases hnone
  · intro e' he' r hr
    rw [CounterStore.set_entries_self] at he'
    obtain rfl := Option.some.inj he'
    rw [List.getLast?_concat] at hr
    obtain rfl := Option.some.inj hr
    rfl
  · intro e' x he' hx
    rw [CounterStore.set_entries_self] at he'
    obtain rfl := Option.some.inj he'
    obtain ⟨hsince, hbefore⟩ := h.lives e x hentry hx
    refine ⟨hsince, fun r hr => ?_⟩
    rcases List.mem_append.mp hr with hr | hr
    · exact hbefore r hr
    · obtain rfl := List.mem_singleton.mp hr
      have hlt : e.expiresAt.all (fun t => redis.clock < t) = true := halive
      rw [hx] at hlt
      simpa using hlt

/-- Counting up a key that is not there, or whose lifetime is over. -/
theorem incr_of_missing (h : KeyHistory W redis k reads since) (hgone : redis.lookup k = none) :
    KeyHistory W (redis.incr k).2 k (reads ++ [(redis.clock, (redis.incr k).1)])
      (some redis.clock) := by
  rw [CounterStore.incr_of_missing hgone]
  -- Either nothing was read, or the lifetime that ended separates the old reads from this one.
  have hover : (∀ r ∈ reads, r.1 < redis.clock) ∧ ∀ s ∈ since, s + W ≤ redis.clock := by
    cases hentry : redis.entries k with
    | none =>
      obtain rfl := h.missing hentry
      refine ⟨fun r hr => absurd hr List.not_mem_nil, fun s hs => ?_⟩
      obtain ⟨r, hr, -⟩ := h.renews.since_mem s hs
      exact absurd hr List.not_mem_nil
    | some e =>
      obtain ⟨x, hx, hle⟩ : ∃ x, e.expiresAt = some x ∧ x ≤ redis.clock := by
        have hdead := Option.filter_eq_none_iff.mp hgone e hentry
        cases hx : e.expiresAt with
        | none => simp [hx] at hdead
        | some x => exact ⟨x, rfl, by simpa [hx] using hdead⟩
      obtain ⟨hsince, hbefore⟩ := h.lives e x hentry hx
      exact ⟨fun r hr => Int.lt_of_lt_of_le (hbefore r hr) hle,
        fun s hs => Int.le_trans (hsince s hs) hle⟩
  refine ⟨h.renews.startsAgain hover.1 hover.2, ?_, ?_, ?_, ?_⟩
  · intro r hr
    rcases List.mem_append.mp hr with hr | hr
    · exact h.past r hr
    · obtain rfl := List.mem_singleton.mp hr
      exact Int.le_refl _
  · intro hnone
    rw [CounterStore.set_entries_self] at hnone
    cases hnone
  · intro e' he' r hr
    rw [CounterStore.set_entries_self] at he'
    obtain rfl := Option.some.inj he'
    rw [List.getLast?_concat] at hr
    obtain rfl := Option.some.inj hr
    rfl
  · intro e' x he' hx
    rw [CounterStore.set_entries_self] at he'
    obtain rfl := Option.some.inj he'
    cases hx

/-- **`INCR`** reads the counter once more. -/
theorem incr (h : KeyHistory W redis k reads since) : ∃ since',
    KeyHistory W (redis.incr k).2 k (reads ++ [(redis.clock, (redis.incr k).1)]) since' := by
  cases hl : redis.lookup k with
  | none => exact ⟨_, h.incr_of_missing hl⟩
  | some e => exact ⟨_, h.incr_of_present hl⟩

/-- **`EXPIRE`**, whoever sends it and when: the lifetime ends a window from now. -/
theorem expire (hW : 0 < W) (h : KeyHistory W redis k reads since) :
    KeyHistory W (redis.expire k W) k reads since := by
  unfold CounterStore.expire
  cases hl : redis.lookup k with
  | none => exact h
  | some e =>
    have hentry := (Option.filter_eq_some_iff.mp hl).1
    simp only [if_neg (Int.not_le.mpr hW)]
    refine ⟨h.renews, h.past, ?_, ?_, ?_⟩
    · intro hnone
      rw [CounterStore.set_entries_self] at hnone
      cases hnone
    · intro e' he'
      rw [CounterStore.set_entries_self] at he'
      obtain rfl := Option.some.inj he'
      exact h.answer e hentry
    · intro e' x he' hx
      rw [CounterStore.set_entries_self] at he'
      obtain rfl := Option.some.inj he'
      obtain rfl := Option.some.inj hx
      refine ⟨fun s hs => ?_, fun r hr => ?_⟩
      · have hs' := h.since_le s hs
        omega
      · have hr' := h.past r hr
        omega

end KeyHistory

/-! ## The calls -/

/-- What is known of a call: whether it has been counted, and why it was let in. -/
def CallTraced (cfg : LoginSettings) (log : List CountedAttempt) (failed : Prop) (i : Nat)
    (c : EnforceCall) : Prop :=
  match c.point with
  | .incr => ∀ e ∈ log, e.call ≠ i
  | .expire n => ∃ e ∈ log, e.call = i ∧ e.count = n
  | .admitted =>
    failed ∨ ∃ e ∈ log, e.call = i ∧ (e.count : Int) ≤ cfg.loginRateLimitMaxAttempts
  | .ttl => True
  | .refused _ => True

/-- A call that does not move stays traced. -/
theorem CallTraced.mono {cfg : LoginSettings} {log new : List CountedAttempt}
    {failed failed' : Prop} {i : Nat} {c : EnforceCall} (h : CallTraced cfg log failed i c)
    (hnew : ∀ e ∈ new, e.call ≠ i) (hfailed : failed → failed') :
    CallTraced cfg (log ++ new) failed' i c := by
  unfold CallTraced at h ⊢
  cases hp : c.point with
  | incr =>
    rw [hp] at h
    intro e he
    rcases List.mem_append.mp he with he | he
    · exact h e he
    · exact hnew e he
  | expire n =>
    rw [hp] at h
    obtain ⟨e, he, hrest⟩ := h
    exact ⟨e, List.mem_append_left _ he, hrest⟩
  | admitted =>
    rw [hp] at h
    refine h.imp hfailed fun ⟨e, he, hrest⟩ => ?_
    exact ⟨e, List.mem_append_left _ he, hrest⟩
  | ttl => trivial
  | refused _ => trivial

/-- The check lets in a count within the limit. -/
theorem CallTraced.of_checkCount {cfg : LoginSettings} {log : List CountedAttempt} {failed : Prop}
    {i n : Nat} (k : String) (h : ∃ e ∈ log, e.call = i ∧ e.count = n) :
    CallTraced cfg log failed i { key := k, point := checkCount cfg n } := by
  unfold CallTraced checkCount
  split_ifs with hover
  · trivial
  · obtain ⟨e, he, hcall, rfl⟩ := h
    exact Or.inr ⟨e, he, hcall, Int.not_lt.mp hover⟩

/-- **One command** keeps its call traced: the log has grown by its `INCR`. -/
theorem CallTraced.next {cfg : LoginSettings} {s : Limiter} {log : List CountedAttempt}
    {failed failed' : Prop} {i : Nat} {c : EnforceCall} (hc : s.calls[i]? = some c) (fails : Bool)
    (h : CallTraced cfg log failed i c) (hfailed : failed → failed')
    (hfails : fails = true → failed') :
    CallTraced cfg (log ++ countedAttempt s (.proceed i fails)) failed' i
      { c with point := (c.next cfg s.redis fails).1 } := by
  obtain ⟨k, point⟩ := c
  cases fails with
  | true =>
    have hnone : countedAttempt s (.proceed i true) = [] := rfl
    rw [hnone]
    cases point with
    | incr => exact Or.inl (hfails rfl)
    | expire n => exact Or.inl (hfails rfl)
    | ttl => exact Or.inl (hfails rfl)
    | admitted => exact h.mono (fun e he => absurd he List.not_mem_nil) hfailed
    | refused n => exact h.mono (fun e he => absurd he List.not_mem_nil) hfailed
  | false =>
    cases point with
    | incr =>
      have hone : countedAttempt s (.proceed i false) =
          [⟨i, s.redis.clock, k, (s.redis.incr k).1⟩] := by
        simp only [countedAttempt, hc]
      rw [hone]
      have hmine : ∃ e ∈ log ++ [⟨i, s.redis.clock, k, (s.redis.incr k).1⟩],
          CountedAttempt.call e = i ∧ e.count = (s.redis.incr k).1 :=
        ⟨_, List.mem_append_right _ List.mem_cons_self, rfl, rfl⟩
      show CallTraced cfg _ _ i
        ⟨k, if (s.redis.incr k).1 = 1 then .expire (s.redis.incr k).1 else checkCount cfg _⟩
      split_ifs
      · exact hmine
      · exact CallTraced.of_checkCount k hmine
    | expire n =>
      have hnone : countedAttempt s (.proceed i false) = [] := by
        simp only [countedAttempt, hc]
      rw [hnone, List.append_nil]
      exact CallTraced.of_checkCount k h
    | ttl => trivial
    | admitted =>
      have hnone : countedAttempt s (.proceed i false) = [] := by
        simp only [countedAttempt, hc]
      rw [hnone]
      exact h.mono (fun e he => absurd he List.not_mem_nil) hfailed
    | refused n => trivial

/-! ## Runs -/

/-- The entries a command counts. -/
theorem countedAttempt_cases {s : Limiter} {i : Nat} {c : EnforceCall} (hc : s.calls[i]? = some c)
    (fails : Bool) : countedAttempt s (.proceed i fails) = [] ∨
      (fails = false ∧ c.point = .incr ∧ countedAttempt s (.proceed i fails) =
        [⟨i, s.redis.clock, c.key, (s.redis.incr c.key).1⟩]) := by
  obtain ⟨k, point⟩ := c
  cases fails with
  | true => exact Or.inl rfl
  | false =>
    cases point with
    | incr => exact Or.inr ⟨rfl, rfl, by simp only [countedAttempt, hc]⟩
    | expire n => exact Or.inl (by simp only [countedAttempt, hc])
    | ttl => exact Or.inl (by simp only [countedAttempt, hc])
    | admitted => exact Or.inl (by simp only [countedAttempt, hc])
    | refused n => exact Or.inl (by simp only [countedAttempt, hc])

/-- **One command** reads the counter of its key at most once more. -/
theorem KeyHistory.next {cfg : LoginSettings} (hwindow : 0 < cfg.window) {s : Limiter} {i : Nat}
    {c : EnforceCall} (hc : s.calls[i]? = some c) (fails : Bool) {k : String}
    {log : List CountedAttempt}
    (h : ∃ since, KeyHistory cfg.window s.redis k (readsOf k log) since) :
    ∃ since, KeyHistory cfg.window (c.next cfg s.redis fails).2 k
      (readsOf k (log ++ countedAttempt s (.proceed i fails))) since := by
  obtain ⟨since, h⟩ := h
  obtain ⟨hclock, hother⟩ := c.next_frame cfg s.redis fails
  rw [readsOf_append]
  by_cases hk : k = c.key
  · subst hk
    rcases countedAttempt_cases hc fails with hnone | ⟨rfl, hpoint, hone⟩
    · rw [hnone, show readsOf c.key [] = [] from rfl, List.append_nil]
      rcases c.next_cases cfg s.redis fails with ⟨hsame, -⟩ | ⟨hpoint, hincr, -⟩ | hexpire
      · rw [hsame]
        exact ⟨since, h⟩
      · -- An `INCR` that counts is in the log, so this one failed.
        obtain ⟨k, point⟩ := c
        obtain rfl : point = .incr := hpoint
        cases fails with
        | true => exact ⟨since, h⟩
        | false => simp [countedAttempt, hc] at hnone
      · rw [hexpire]
        exact ⟨since, h.expire hwindow⟩
    · have hincr : (c.next cfg s.redis false).2 = (s.redis.incr c.key).2 := by
        unfold EnforceCall.next
        rw [hpoint]
        rfl
      have hread : readsOf c.key (countedAttempt s (.proceed i false)) =
          [(s.redis.clock, (s.redis.incr c.key).1)] := by
        rw [hone]
        simp [readsOf]
      rw [hincr, hread]
      exact h.incr
  · have hnone : readsOf k (countedAttempt s (.proceed i fails)) = [] := by
      refine readsOf_of_other fun e he => ?_
      rcases countedAttempt_cases hc fails with hnil | ⟨-, -, hone⟩
      · rw [hnil] at he
        exact absurd he List.not_mem_nil
      · rw [hone] at he
        obtain rfl := List.mem_singleton.mp he
        exact fun hke => hk hke.symm
    rw [hnone, List.append_nil]
    exact ⟨since, h.congr (hother k hk) (Int.le_of_eq hclock.symm)⟩

/-- What holds between two moves, with the attempts counted and the moves made so far. -/
structure LoginTrace (cfg : LoginSettings) (s : Limiter) (log : List CountedAttempt)
    (past : List LimiterMove) : Prop where
  histories : ∀ k, ∃ since, KeyHistory cfg.window s.redis k (readsOf k log) since
  calls : ∀ i c, s.calls[i]? = some c → CallTraced cfg log (.proceed i true ∈ past) i c
  known : ∀ e ∈ log, e.call < s.calls.length
  once : (log.map CountedAttempt.call).Nodup

namespace LoginTrace

variable {cfg : LoginSettings} {s : Limiter} {log : List CountedAttempt} {past : List LimiterMove}

/-- Nothing has happened. -/
theorem empty (cfg : LoginSettings) : LoginTrace cfg {} [] [] where
  histories k := ⟨none, .nil, fun r hr => absurd hr List.not_mem_nil, fun _ => rfl,
    (fun e he => nomatch he), (fun e x he => nomatch he)⟩
  calls i c hc := by cases hc
  known e he := absurd he List.not_mem_nil
  once := List.nodup_nil

/-- **One command**. -/
theorem proceed (hwindow : 0 < cfg.window) (h : LoginTrace cfg s log past) (i : Nat)
    (fails : Bool) : LoginTrace cfg (limiterStep cfg s (.proceed i fails))
      (log ++ countedAttempt s (.proceed i fails)) (past ++ [.proceed i fails]) := by
  cases hc : s.calls[i]? with
  | none =>
    have hnone : countedAttempt s (.proceed i fails) = [] := by
      cases fails with
      | true => rfl
      | false => simp only [countedAttempt, hc]
    rw [limiterStep_of_no_call cfg fails hc, hnone]
    refine ⟨by simpa using h.histories, fun j c hj => ?_, by simpa using h.known,
      by simpa using h.once⟩
    exact (h.calls j c hj).mono (fun e he => absurd he List.not_mem_nil)
      (List.mem_append_left _)
  | some c =>
    have hlt : i < s.calls.length := (List.getElem?_eq_some_iff.mp hc).1
    have hnew : ∀ e ∈ countedAttempt s (.proceed i fails), e.call = i := by
      intro e he
      rcases countedAttempt_cases hc fails with hnil | ⟨-, -, hone⟩
      · rw [hnil] at he
        exact absurd he List.not_mem_nil
      · rw [hone] at he
        obtain rfl := List.mem_singleton.mp he
        rfl
    rw [limiterStep_of_call cfg fails hc]
    refine ⟨fun k => KeyHistory.next hwindow hc fails (h.histories k), ?_, ?_, ?_⟩
    · intro j x hx
      by_cases hij : i = j
      · subst hij
        rw [List.getElem?_set_self hlt] at hx
        obtain rfl := Option.some.inj hx
        refine (h.calls i c hc).next hc fails (List.mem_append_left _) ?_
        rintro rfl
        exact List.mem_append_right _ List.mem_cons_self
      · rw [List.getElem?_set_ne hij] at hx
        exact (h.calls j x hx).mono (fun e he => (hnew e he).symm ▸ hij) (List.mem_append_left _)
    · intro e he
      rw [List.length_set]
      rcases List.mem_append.mp he with he | he
      · exact h.known e he
      · rw [hnew e he]
        exact hlt
    · rw [List.map_append]
      rcases countedAttempt_cases hc fails with hnil | ⟨-, hpoint, hone⟩
      · rw [hnil]
        simpa using h.once
      · -- A call that is about to count has not been counted.
        have hfresh : ∀ e ∈ log, e.call ≠ i := by
          have htraced := h.calls i c hc
          unfold CallTraced at htraced
          rw [hpoint] at htraced
          exact htraced
        rw [hone]
        refine List.nodup_append.mpr ⟨h.once, List.nodup_singleton _, ?_⟩
        intro j hj j' hj'
        obtain ⟨e, he, rfl⟩ := List.mem_map.mp hj
        obtain rfl := List.mem_singleton.mp hj'
        exact hfresh e he

/-- **One move**. -/
theorem step (hredis : cfg.hasRedis = true) (hwindow : 0 < cfg.window)
    (h : LoginTrace cfg s log past) (m : LimiterMove) :
    LoginTrace cfg (limiterStep cfg s m) (log ++ countedAttempt s m) (past ++ [m]) := by
  cases m with
  | proceed i fails => exact h.proceed hwindow i fails
  | attempt client =>
    show LoginTrace cfg _ (log ++ []) _
    rw [List.append_nil]
    refine ⟨h.histories, fun i c hc => ?_, fun e he => ?_, h.once⟩
    · by_cases hlt : i < s.calls.length
      · have hold := h.calls i c ((List.getElem?_append_left hlt).symm.trans hc)
        simpa using hold.mono (fun e he => absurd he List.not_mem_nil)
          (List.mem_append_left [LimiterMove.attempt client])
      · have hnew := List.mem_singleton.mp (List.mem_of_getElem?
          ((List.getElem?_append_right (Nat.not_lt.mp hlt)).symm.trans hc))
        subst hnew
        have hpoint : (if cfg.hasRedis then EnforcePoint.incr else .admitted) = .incr :=
          if_pos hredis
        unfold CallTraced
        simp only [hpoint]
        intro e he hcall
        exact hlt (hcall ▸ h.known e he)
    · have hknown := h.known e he
      show e.call < (s.calls ++ _).length
      rw [List.length_append]
      omega
  | wait ms =>
    show LoginTrace cfg _ (log ++ []) _
    rw [List.append_nil]
    refine ⟨fun k => ?_, fun i c hc => ?_, h.known, h.once⟩
    · obtain ⟨since, hist⟩ := h.histories k
      exact ⟨since, hist.congr rfl (s.redis.clock_le_advance ms)⟩
    · simpa using (h.calls i c hc).mono (fun e he => absurd he List.not_mem_nil)
        (List.mem_append_left [LimiterMove.wait ms])

/-- **A run** from an empty Redis. -/
theorem of_run (hredis : cfg.hasRedis = true) (hwindow : 0 < cfg.window)
    (moves : List LimiterMove) :
    LoginTrace cfg (run (limiterStep cfg) {} moves) (countedOver cfg {} moves) moves := by
  induction moves using List.reverseRecOn with
  | nil => exact empty cfg
  | append_singleton moves m ih =>
    unfold countedOver
    rw [run_concat, emitted_concat]
    exact ih.step hredis hwindow m

end LoginTrace

/-- An attempt under the client's key, counted in a span. -/
def CountedAttempt.InSpan (client : Option String) (a W : Int) (e : CountedAttempt) : Prop :=
  e.key = loginKey client ∧ a ≤ e.time ∧ e.time ≤ a + W

/-- **At most twice the limit gets through in a window.** Redis is configured and the window is
positive. In every run from an empty Redis, however the calls interleave and whichever commands
fail: calls of one client that were let in, none of whose own commands failed and which were counted
within a span as long as the window, are at most twice as many as the limit. -/
theorem admittedAttempts_le (cfg : LoginSettings) (hredis : cfg.hasRedis = true)
    (hwindow : 0 < cfg.loginRateLimitWindowSeconds) (moves : List LimiterMove)
    (client : Option String) (a : Int) (calls : List Nat) (hdistinct : calls.Nodup)
    (hadmitted : ∀ i ∈ calls, (run (limiterStep cfg) {} moves).pointAt i = some .admitted)
    (hsound : ∀ i ∈ calls, LimiterMove.proceed i true ∉ moves)
    (hspan : ∀ i ∈ calls, ∃ e ∈ countedOver cfg {} moves,
      e.call = i ∧ e.InSpan client a cfg.window) :
    calls.length ≤ 2 * cfg.loginRateLimitMaxAttempts.toNat := by
  have hW : 0 < cfg.window := by
    unfold LoginSettings.window
    omega
  have htrace := LoginTrace.of_run hredis hW moves
  let within (e : CountedAttempt) : Bool := e.key = loginKey client ∧ a ≤ e.time ∧
    e.time ≤ a + cfg.window ∧ e.count ≤ cfg.loginRateLimitMaxAttempts.toNat
  -- Each of the calls is the one of an entry that is in the span and within the limit.
  have hsub : calls ⊆ ((countedOver cfg {} moves).filter within).map CountedAttempt.call := by
    intro i hi
    obtain ⟨e, he, rfl, hkey, hfrom, huntil⟩ := hspan i hi
    obtain ⟨c, hc, hpoint⟩ := Option.map_eq_some_iff.mp (hadmitted _ hi)
    have htraced := htrace.calls _ c hc
    unfold CallTraced at htraced
    rw [hpoint] at htraced
    obtain ⟨e', he', hcall, hcount⟩ := htraced.resolve_left (hsound _ hi)
    obtain rfl := List.inj_on_of_nodup_map htrace.once he' he hcall
    refine List.mem_map.mpr ⟨e', List.mem_filter.mpr ⟨he, ?_⟩, rfl⟩
    have hle : e'.count ≤ cfg.loginRateLimitMaxAttempts.toNat := by omega
    simpa [within] using ⟨hkey, hfrom, huntil, hle⟩
  obtain ⟨since, hhistory⟩ := htrace.histories (loginKey client)
  have hreads := hhistory.renews.countP_span_le (Int.le_of_lt hW) a
    cfg.loginRateLimitMaxAttempts.toNat
  have hsame : (readsOf (loginKey client) (countedOver cfg {} moves)).countP
      (fun r => a ≤ r.1 ∧ r.1 ≤ a + cfg.window ∧ r.2 ≤ cfg.loginRateLimitMaxAttempts.toNat) =
      (countedOver cfg {} moves).countP within := by
    unfold readsOf
    rw [List.countP_map, List.countP_filter]
    refine List.countP_congr fun e _ => ?_
    simp [within, and_comm]
  calc calls.length
      ≤ (((countedOver cfg {} moves).filter within).map CountedAttempt.call).length :=
        (hdistinct.subperm hsub).length_le
    _ = (countedOver cfg {} moves).countP within := by
        rw [List.length_map, List.countP_eq_length_filter]
    _ ≤ 2 * cfg.loginRateLimitMaxAttempts.toNat := hsame ▸ hreads

/-- Three attempts, and three more as soon as the window is over. -/
def twoRounds : List LimiterMove :=
  attemptAt 0 false ++ attemptAt 1 false ++ attemptAt 2 false ++ [.wait 60000] ++
    attemptAt 3 false ++ attemptAt 4 false ++ attemptAt 5 false

/-- The bound is reached: all six are let in, within a minute. -/
theorem admittedAttempts_le_tight :
    (∀ i ∈ List.range 6, (run (limiterStep threePerMinute) {} twoRounds).pointAt i =
      some .admitted) ∧
    (List.range 6).length ≤ 2 * threePerMinute.loginRateLimitMaxAttempts.toNat ∧
    (List.range 6).length = 2 * threePerMinute.loginRateLimitMaxAttempts.toNat := by
  have hrun : ∀ i ∈ List.range 6,
      (run (limiterStep threePerMinute) {} twoRounds).pointAt i = some .admitted := by
    decide +kernel
  have hlog : countedOver threePerMinute {} twoRounds =
      [⟨0, 0, loginKey oneClient, 1⟩, ⟨1, 0, loginKey oneClient, 2⟩,
        ⟨2, 0, loginKey oneClient, 3⟩, ⟨3, 60000, loginKey oneClient, 1⟩,
        ⟨4, 60000, loginKey oneClient, 2⟩, ⟨5, 60000, loginKey oneClient, 3⟩] := by
    decide +kernel
  have hspan : ∀ i ∈ List.range 6, ∃ e ∈ countedOver threePerMinute {} twoRounds,
      e.call = i ∧ e.InSpan oneClient 0 threePerMinute.window := by
    rw [hlog]
    simp [List.range_succ, CountedAttempt.InSpan, LoginSettings.window, threePerMinute]
  refine ⟨hrun, ?_, rfl⟩
  exact admittedAttempts_le threePerMinute (by decide) (by decide) twoRounds oneClient 0
    (List.range 6) (by decide) hrun (by decide) hspan

end Gateway
