import Gateway.Lib.Expiry
import Gateway.Lib.Trace

/-!
# The login rate limiter (`security/rate_limit.py`)

`_enforce` counts an attempt with `INCR`, gives the key a lifetime with `EXPIRE` if its count is
`1`, and asks for the `TTL` before it refuses. A call is modelled command by command, so that calls
interleave in any way between two commands; any command may fail, which has no effect on Redis and
lets the caller in. Time passes between the commands.

* `LifetimeInv`: a key that is there expires within the window, or the call that created it is
  about to see to that.
* `ExpireSucceeds`: the step is not a failing `EXPIRE`. A call whose `EXPIRE` fails leaves a key
  without expiry behind, and no later call gives it one.
* **`loginBlock_ends`**: along runs without a failing `EXPIRE`, whenever no call is in progress
  every key expires within the window, and a client that makes no attempt for a window is let in
  again.
* **`failedExpire_blocks`**: one failing `EXPIRE` and enough attempts, and the client is refused a
  window later.
-/

namespace Gateway

open Lib

/-- The settings the limiter reads. -/
structure LoginSettings where
  redisUrl : Option String := some "redis://redis:6379/0"
  loginRateLimitMaxAttempts : Int := 10
  loginRateLimitWindowSeconds : Int := 300
  deriving DecidableEq, Repr

/-- The window in milliseconds. -/
def LoginSettings.window (cfg : LoginSettings) : Int := cfg.loginRateLimitWindowSeconds * 1000

/-- `_get_redis()` returns a client: `redis_url` is given and not empty. -/
def LoginSettings.hasRedis (cfg : LoginSettings) : Bool := (cfg.redisUrl.filter (· ≠ "")).isSome

/-- The key of a client; `none` is a request without a client address. -/
def loginKey (client : Option String) : String := "ratelimit:login:" ++ client.getD "unknown"

/-- Where a call of `_enforce` is: before one of its three commands, or done. -/
inductive EnforcePoint where
  | incr
  | expire (count : Nat)
  | ttl
  | admitted
  | refused (retryAfter : Int)
  deriving DecidableEq, Repr

/-- A call of `_enforce`. -/
structure EnforceCall where
  key : String
  point : EnforcePoint
  deriving DecidableEq, Repr

/-- The call has returned or raised. -/
def EnforceCall.Done (c : EnforceCall) : Prop :=
  c.point = .admitted ∨ ∃ n, c.point = .refused n

instance decidableDone (c : EnforceCall) : Decidable c.Done :=
  match h : c.point with
  | .admitted => isTrue (Or.inl h)
  | .refused n => isTrue (Or.inr ⟨n, h⟩)
  | .incr => isFalse (by simp [EnforceCall.Done, h])
  | .expire _ => isFalse (by simp [EnforceCall.Done, h])
  | .ttl => isFalse (by simp [EnforceCall.Done, h])

/-- The check of the count, once a lifetime is set. -/
def checkCount (cfg : LoginSettings) (count : Nat) : EnforcePoint :=
  if cfg.loginRateLimitMaxAttempts < count then .ttl else .admitted

/-- The call after its next command; one that fails ends in the `except` branch. -/
def EnforceCall.next (cfg : LoginSettings) (redis : CounterStore String) (fails : Bool)
    (c : EnforceCall) : EnforcePoint × CounterStore String :=
  match c.point with
  | .incr =>
    if fails then (.admitted, redis)
    else
      let out := redis.incr c.key
      (if out.1 = 1 then .expire out.1 else checkCount cfg out.1, out.2)
  | .expire count =>
    if fails then (.admitted, redis)
    else (checkCount cfg count, redis.expire c.key cfg.window)
  | .ttl => if fails then (.admitted, redis) else (.refused (max (redis.ttl c.key) 1), redis)
  | .admitted => (.admitted, redis)
  | .refused n => (.refused n, redis)

/-- Redis, and the calls there have been. -/
structure Limiter where
  redis : CounterStore String := {}
  calls : List EnforceCall := []

/-- What can happen next: a client calls, a call sends its next command, time passes. -/
inductive LimiterMove where
  | attempt (client : Option String)
  | proceed (i : Nat) (fails : Bool)
  | wait (ms : Nat)
  deriving DecidableEq, Repr

/-- One move. -/
def limiterStep (cfg : LoginSettings) (s : Limiter) : LimiterMove → Limiter
  | .attempt client =>
    { s with
      calls := s.calls ++
        [{ key := loginKey client, point := if cfg.hasRedis then .incr else .admitted }] }
  | .proceed i fails =>
    match s.calls[i]? with
    | none => s
    | some c =>
      let out := c.next cfg s.redis fails
      { redis := out.2, calls := s.calls.set i { c with point := out.1 } }
  | .wait ms => { s with redis := s.redis.advance ms }

theorem limiterStep_of_no_call (cfg : LoginSettings) {s : Limiter} {i : Nat} (fails : Bool)
    (h : s.calls[i]? = none) : limiterStep cfg s (.proceed i fails) = s := by
  simp only [limiterStep, h]

theorem limiterStep_of_call (cfg : LoginSettings) {s : Limiter} {i : Nat} (fails : Bool)
    {c : EnforceCall} (h : s.calls[i]? = some c) :
    limiterStep cfg s (.proceed i fails) =
      { redis := (c.next cfg s.redis fails).2
        calls := s.calls.set i { c with point := (c.next cfg s.redis fails).1 } } := by
  simp only [limiterStep, h]

/-- The milliseconds a move takes. -/
def LimiterMove.elapsed : LimiterMove → Nat
  | .wait ms => ms
  | _ => 0

/-- The move is an attempt under the key. -/
def LimiterMove.Attempts (k : String) : LimiterMove → Prop
  | .attempt client => loginKey client = k
  | _ => False

/-- The condition on a move of a run: it is not a failing `EXPIRE`. -/
def ExpireSucceeds (s : Limiter) : LimiterMove → Prop
  | .proceed i true => ∀ c count, s.calls[i]? = some c → c.point ≠ .expire count
  | _ => True

/-- No call is in progress. -/
def Limiter.Quiet (s : Limiter) : Prop := ∀ c ∈ s.calls, c.Done

/-- No call under the key is in progress. -/
def Limiter.Idle (s : Limiter) (k : String) : Prop := ∀ c ∈ s.calls, c.key = k → c.Done

/-- An entry that will be gone within the window. -/
def ExpiresWithin (cfg : LoginSettings) (now : Int) (e : Expiring) : Prop :=
  ∃ t, e.expiresAt = some t ∧ t ≤ now + cfg.window

/-- Every key of a client has at most the window to live. -/
def KeysExpire (cfg : LoginSettings) (s : Limiter) : Prop :=
  ∀ client e, s.redis.lookup (loginKey client) = some e → ExpiresWithin cfg s.redis.clock e

/-! ## The invariant -/

/-- A call is about to give the key a lifetime. -/
def Limiter.AwaitsExpiry (s : Limiter) (k : String) : Prop :=
  ∃ (i : Nat) (c : EnforceCall) (count : Nat), s.calls[i]? = some c ∧ c.key = k ∧
    c.point = .expire count

/-- What holds between two commands. -/
def LifetimeInv (cfg : LoginSettings) (s : Limiter) : Prop :=
  ∀ client e, s.redis.lookup (loginKey client) = some e →
    ExpiresWithin cfg s.redis.clock e ∨ s.AwaitsExpiry (loginKey client)

theorem LifetimeInv.keysExpire {cfg : LoginSettings} {s : Limiter} (h : LifetimeInv cfg s)
    {client : Option String} (hidle : s.Idle (loginKey client)) {e : Expiring}
    (he : s.redis.lookup (loginKey client) = some e) : ExpiresWithin cfg s.redis.clock e := by
  rcases h client e he with hbound | ⟨i, c, count, hc, hkey, hpoint⟩
  · exact hbound
  · rcases hidle c (List.mem_of_getElem? hc) hkey with hdone | ⟨n, hdone⟩
    · rw [hpoint] at hdone
      cases hdone
    · rw [hpoint] at hdone
      cases hdone

section Step

variable {cfg : LoginSettings} {s : Limiter}

/-- The other calls stay where they are. -/
theorem Limiter.AwaitsExpiry.set {k : String} (h : s.AwaitsExpiry k) {i : Nat} {c : EnforceCall}
    (hc : s.calls[i]? = some c) (hne : c.key ≠ k ∨ ∀ count, c.point ≠ .expire count)
    (redis : CounterStore String) (c' : EnforceCall) :
    Limiter.AwaitsExpiry { redis := redis, calls := s.calls.set i c' } k := by
  obtain ⟨j, x, count, hx, hkey, hpoint⟩ := h
  have hij : i ≠ j := by
    rintro rfl
    obtain rfl := Option.some.inj (hc.symm.trans hx)
    rcases hne with hne | hne
    · exact hne hkey
    · exact hne count hpoint
  refine ⟨j, x, count, ?_, hkey, hpoint⟩
  show (s.calls.set i c')[j]? = some x
  rw [List.getElem?_set_ne hij]
  exact hx

/-- **Everything a command can do to Redis**: nothing, count up, or give a lifetime. -/
theorem EnforceCall.next_cases (cfg : LoginSettings) (redis : CounterStore String) (fails : Bool)
    (c : EnforceCall) :
    ((c.next cfg redis fails).2 = redis ∧ ((∃ count, c.point = .expire count) → fails = true)) ∨
      (c.point = .incr ∧ (c.next cfg redis fails).2 = (redis.incr c.key).2 ∧
        ((redis.incr c.key).1 = 1 → (c.next cfg redis fails).1 = .expire 1)) ∨
      ((c.next cfg redis fails).2 = redis.expire c.key cfg.window) := by
  unfold EnforceCall.next
  cases hp : c.point with
  | incr =>
    cases fails with
    | true => exact Or.inl ⟨rfl, by simp⟩
    | false =>
      refine Or.inr (Or.inl ⟨rfl, rfl, fun hone => ?_⟩)
      simp [hone]
  | expire count =>
    cases fails with
    | true => exact Or.inl ⟨rfl, fun _ => rfl⟩
    | false => exact Or.inr (Or.inr rfl)
  | ttl => cases fails <;> exact Or.inl ⟨rfl, by simp⟩
  | admitted => exact Or.inl ⟨rfl, by simp⟩
  | refused n => exact Or.inl ⟨rfl, by simp⟩

/-- A command leaves the clock and the entries of the other keys. -/
theorem EnforceCall.next_frame (cfg : LoginSettings) (redis : CounterStore String) (fails : Bool)
    (c : EnforceCall) : (c.next cfg redis fails).2.clock = redis.clock ∧
      ∀ k, k ≠ c.key → (c.next cfg redis fails).2.entries k = redis.entries k := by
  rcases c.next_cases cfg redis fails with ⟨h, -⟩ | ⟨-, h, -⟩ | h
  · rw [h]
    exact ⟨rfl, fun _ _ => rfl⟩
  · rw [h]
    exact ⟨redis.incr_clock c.key, fun k hk => redis.incr_entries_of_ne hk⟩
  · rw [h]
    exact ⟨redis.expire_clock c.key cfg.window,
      fun k hk => redis.expire_entries_of_ne cfg.window hk⟩

/-- **One command** keeps the invariant, unless it is a failing `EXPIRE`. -/
theorem LifetimeInv.proceed (h : LifetimeInv cfg s) {i : Nat} {fails : Bool}
    (hok : ExpireSucceeds s (.proceed i fails)) :
    LifetimeInv cfg (limiterStep cfg s (.proceed i fails)) := by
  cases hc : s.calls[i]? with
  | none =>
    rw [limiterStep_of_no_call cfg fails hc]
    exact h
  | some c =>
    rw [limiterStep_of_call cfg fails hc]
    intro client e he
    obtain ⟨hclock, hother⟩ := c.next_frame cfg s.redis fails
    have hpoint : fails = true → ∀ count, c.point ≠ .expire count := by
      rintro rfl count
      exact hok c count hc
    by_cases hkey : loginKey client = c.key
    · rcases c.next_cases cfg s.redis fails with ⟨hsame, hfail⟩ | ⟨hpc, hincr, hone⟩ | hexpire
      · -- Redis is as it was, and the call was not the one the key waits for.
        simp only [hsame] at he ⊢
        have hne : ∀ count, c.point ≠ .expire count := fun count hp =>
          hpoint (hfail ⟨count, hp⟩) count hp
        exact (h client e he).imp_right fun hwait => hwait.set hc (Or.inr hne) _ _
      · simp only [hincr] at he ⊢
        cases hl : s.redis.lookup c.key with
        | none =>
          -- A key that is created waits for the call that creates it.
          have hpoint' := hone (by rw [CounterStore.incr_of_missing hl])
          refine Or.inr ⟨i, { c with point := .expire 1 }, 1, ?_, hkey.symm, rfl⟩
          show (s.calls.set i _)[i]? = _
          rw [List.getElem?_set_self (List.getElem?_eq_some_iff.mp hc).1, hpoint']
        | some e₀ =>
          rw [hkey] at he
          have hkept := CounterStore.lookup_incr_self hl he
          rcases h client e₀ (hkey ▸ hl) with ⟨t, ht, hle⟩ | hwait
          · exact Or.inl ⟨t, hkept.trans ht, by simpa using hle⟩
          · exact Or.inr (hwait.set hc (Or.inr fun count hp => by rw [hpc] at hp; cases hp) _ _)
      · simp only [hexpire] at he ⊢
        rw [hkey] at he
        exact Or.inl ⟨_, CounterStore.lookup_expire_self he, by simp⟩
    · have hsame := CounterStore.lookup_congr (hother _ hkey) hclock
      simp only at he ⊢
      rw [hsame] at he
      rw [hclock]
      exact (h client e he).imp_right fun hwait =>
        hwait.set hc (Or.inl fun hk => hkey hk.symm) _ _

/-- **One move** keeps the invariant, unless it is a failing `EXPIRE`. -/
theorem LifetimeInv.step (s : Limiter) (m : LimiterMove) (h : LifetimeInv cfg s)
    (hok : ExpireSucceeds s m) : LifetimeInv cfg (limiterStep cfg s m) := by
  cases m with
  | attempt client =>
    intro other e he
    refine (h other e he).imp_right fun ⟨i, c, count, hc, hkey, hpoint⟩ => ?_
    refine ⟨i, c, count, ?_, hkey, hpoint⟩
    exact List.getElem?_append_left (List.getElem?_eq_some_iff.mp hc).1 ▸ hc
  | proceed i fails => exact h.proceed hok
  | wait ms =>
    intro client e he
    have hbefore : s.redis.lookup (loginKey client) = some e :=
      CounterStore.lookup_of_advance ms he
    refine (h client e hbefore).imp_left fun ⟨t, ht, hle⟩ => ⟨t, ht, ?_⟩
    show t ≤ s.redis.clock + ms + cfg.window
    omega

end Step

/-! ## The return of a client -/

section Return

variable {cfg : LoginSettings} {s : Limiter} {k : String}

/-- A call that is done stays as it is, and so does Redis. -/
theorem EnforceCall.next_done (cfg : LoginSettings) {c : EnforceCall} (h : c.Done)
    (redis : CounterStore String) (fails : Bool) : c.next cfg redis fails = (c.point, redis) := by
  unfold EnforceCall.next
  rcases h with h | ⟨n, h⟩
  · rw [h]
  · rw [h]

/-- While nobody tries the key, a move leaves its entry and lets its own time pass. -/
theorem limiterStep_idle (cfg : LoginSettings) (h : s.Idle k) {m : LimiterMove}
    (hm : ¬ m.Attempts k) :
    (limiterStep cfg s m).Idle k ∧ (limiterStep cfg s m).redis.entries k = s.redis.entries k ∧
      (limiterStep cfg s m).redis.clock = s.redis.clock + m.elapsed := by
  cases m with
  | attempt client =>
    refine ⟨fun c hc hkey => ?_, rfl, by simp [limiterStep, LimiterMove.elapsed]⟩
    rcases List.mem_append.mp hc with hc | hc
    · exact h c hc hkey
    · obtain rfl := List.mem_singleton.mp hc
      exact absurd hkey hm
  | wait ms => exact ⟨h, rfl, rfl⟩
  | proceed i fails =>
    cases hc : s.calls[i]? with
    | none =>
      rw [limiterStep_of_no_call cfg fails hc]
      exact ⟨h, rfl, by simp [LimiterMove.elapsed]⟩
    | some c =>
      rw [limiterStep_of_call cfg fails hc]
      have hframe := c.next_frame cfg s.redis fails
      have hdone : c.key = k → c.Done := h c (List.mem_of_getElem? hc)
      refine ⟨fun x hx hkey => ?_, ?_, by simp [LimiterMove.elapsed, hframe.1]⟩
      · rcases List.mem_or_eq_of_mem_set hx with hx | rfl
        · exact h x hx hkey
        · have hsame := EnforceCall.next_done cfg (hdone hkey) s.redis fails
          simp only [hsame]
          exact hdone hkey
      · by_cases hkey : c.key = k
        · simp only [EnforceCall.next_done cfg (hdone hkey)]
        · exact hframe.2 k fun e => hkey e.symm

/-- The time a list of moves takes. -/
def elapsedOver : List LimiterMove → Nat
  | [] => 0
  | m :: moves => m.elapsed + elapsedOver moves

theorem run_idle (cfg : LoginSettings) (moves : List LimiterMove)
    (hm : ∀ m ∈ moves, ¬ m.Attempts k) :
    ∀ {s : Limiter}, s.Idle k → (run (limiterStep cfg) s moves).Idle k ∧
      (run (limiterStep cfg) s moves).redis.entries k = s.redis.entries k ∧
      (run (limiterStep cfg) s moves).redis.clock = s.redis.clock + elapsedOver moves := by
  induction moves with
  | nil =>
    intro s h
    exact ⟨h, rfl, by simp [elapsedOver]⟩
  | cons m moves ih =>
    intro s h
    obtain ⟨hidle, hentry, hclock⟩ :=
      limiterStep_idle cfg h (hm m List.mem_cons_self)
    obtain ⟨hidle', hentry', hclock'⟩ := ih (fun x hx => hm x (List.mem_cons_of_mem m hx)) hidle
    refine ⟨hidle', hentry'.trans hentry, ?_⟩
    rw [run_cons, hclock', hclock]
    simp only [elapsedOver]
    push_cast
    omega

/-- A key that nobody tries for a window is gone. -/
theorem lookup_after_window {client : Option String} (h : LifetimeInv cfg s)
    (hidle : s.Idle (loginKey client)) {moves : List LimiterMove}
    (hm : ∀ m ∈ moves, ¬ m.Attempts (loginKey client)) (hlong : cfg.window ≤ elapsedOver moves) :
    (run (limiterStep cfg) s moves).redis.lookup (loginKey client) = none := by
  obtain ⟨-, hentry, hclock⟩ := run_idle cfg moves hm hidle
  cases hl : (run (limiterStep cfg) s moves).redis.lookup (loginKey client) with
  | none => rfl
  | some e =>
    have hbefore := CounterStore.lookup_of_later hentry (by rw [hclock]; omega) hl
    obtain ⟨t, ht, hle⟩ := h.keysExpire hidle hbefore
    have hgone := CounterStore.lookup_eq_none_of_expired (Option.filter_eq_some_iff.mp hl).1 ht
      (by rw [hclock]; omega)
    exact absurd (hl.symm.trans hgone) (by simp)

/-- The call at `n` is the only one in progress under its key, and it is on its way to being let
in: it has yet to count and finds no key, or it has counted one. -/
structure Returning (s : Limiter) (k : String) (n : Nat) : Prop where
  call : ∃ c, s.calls[n]? = some c ∧ c.key = k ∧
    (c.point = .incr ∧ s.redis.lookup k = none ∨ c.point = .expire 1 ∨ c.point = .admitted)
  others : ∀ i c, i ≠ n → s.calls[i]? = some c → c.key = k → c.Done

/-- A new attempt under a key that is gone. -/
theorem Returning.of_attempt (cfg : LoginSettings) {client : Option String}
    (hidle : s.Idle (loginKey client))
    (hgone : s.redis.lookup (loginKey client) = none) :
    Returning (limiterStep cfg s (.attempt client)) (loginKey client) s.calls.length where
  call := by
    refine ⟨_, List.getElem?_concat_length, rfl, ?_⟩
    show (if cfg.hasRedis then EnforcePoint.incr else .admitted) = .incr ∧ _ ∨ _
    split_ifs
    · exact Or.inl ⟨rfl, hgone⟩
    · exact Or.inr (Or.inr rfl)
  others i c hi hc hkey := by
    have hlt : i < s.calls.length := by
      have hbound := (List.getElem?_eq_some_iff.mp hc).1
      simp only [limiterStep, List.length_append, List.length_singleton] at hbound
      omega
    refine hidle c ?_ hkey
    refine List.mem_of_getElem? (i := i) ?_
    rw [← hc]
    exact (List.getElem?_append_left hlt).symm

/-- The point a returning call comes to when it sends a command. -/
theorem Returning.next_point {c : EnforceCall} (redis : CounterStore String)
    (hmax : 0 < cfg.loginRateLimitMaxAttempts) (fails : Bool)
    (h : c.point = .incr ∧ redis.lookup c.key = none ∨ c.point = .expire 1 ∨ c.point = .admitted) :
    (c.next cfg redis fails).1 = .admitted ∨
      (c.point = .incr ∧ (c.next cfg redis fails).1 = .expire 1) := by
  unfold EnforceCall.next
  rcases h with ⟨hp, hgone⟩ | hp | hp
  · cases fails with
    | true => simp [hp]
    | false => simp [hp, CounterStore.incr_of_missing hgone]
  · cases fails with
    | true => simp [hp]
    | false =>
      have hle : ¬ cfg.loginRateLimitMaxAttempts < 1 := by omega
      simp [hp, checkCount, hle]
  · simp [hp]

/-- **One move** of a run in which nobody else tries the key keeps the call on its way. -/
theorem Returning.step {n : Nat} (hmax : 0 < cfg.loginRateLimitMaxAttempts)
    (h : Returning s k n) {m : LimiterMove} (hm : ¬ m.Attempts k) :
    Returning (limiterStep cfg s m) k n := by
  obtain ⟨⟨c, hc, hkey, hpoint⟩, hothers⟩ := h
  have hn : n < s.calls.length := (List.getElem?_eq_some_iff.mp hc).1
  cases m with
  | attempt client =>
    refine ⟨⟨c, (List.getElem?_append_left hn).trans hc, hkey, hpoint⟩, ?_⟩
    intro i x hi hx hxkey
    rcases List.mem_append.mp (List.mem_of_getElem? hx) with hmem | hmem
    · by_cases hlt : i < s.calls.length
      · exact hothers i x hi ((List.getElem?_append_left hlt).symm.trans hx) hxkey
      · have hnew := List.mem_singleton.mp (List.mem_of_getElem?
          ((List.getElem?_append_right (Nat.not_lt.mp hlt)).symm.trans hx))
        rw [hnew] at hxkey
        exact absurd hxkey hm
    · rw [List.mem_singleton.mp hmem] at hxkey
      exact absurd hxkey hm
  | wait ms =>
    refine ⟨⟨c, hc, hkey, hpoint.imp_left fun ⟨hp, hgone⟩ => ⟨hp, ?_⟩⟩, hothers⟩
    cases hl : (s.redis.advance ms).lookup k with
    | none => exact hl
    | some e =>
      have hbefore : s.redis.lookup k = some e :=
        CounterStore.lookup_of_advance ms hl
      exact absurd (hgone.symm.trans hbefore) (by simp)
  | proceed i fails =>
    cases hi : s.calls[i]? with
    | none =>
      rw [limiterStep_of_no_call cfg fails hi]
      exact ⟨⟨c, hc, hkey, hpoint⟩, hothers⟩
    | some x =>
      rw [limiterStep_of_call cfg fails hi]
      by_cases hin : i = n
      · subst hin
        obtain rfl : c = x := Option.some.inj (hc.symm.trans hi)
        refine ⟨⟨_, List.getElem?_set_self hn, hkey, ?_⟩, fun j y hj hy => ?_⟩
        · rw [← hkey] at hpoint
          rcases Returning.next_point s.redis hmax fails hpoint with hnew | ⟨-, hnew⟩
          · exact Or.inr (Or.inr hnew)
          · exact Or.inr (Or.inl hnew)
        · exact hothers j y hj ((List.getElem?_set_ne (Ne.symm hj)).symm.trans hy)
      · have hframe := x.next_frame cfg s.redis fails
        have hsame : (x.next cfg s.redis fails).2.lookup k = s.redis.lookup k := by
          by_cases hxk : x.key = k
          · rw [EnforceCall.next_done cfg (hothers i x hin hi hxk)]
          · exact CounterStore.lookup_congr (hframe.2 k fun e => hxk e.symm) hframe.1
        refine ⟨⟨c, (List.getElem?_set_ne hin).trans hc, hkey, ?_⟩, fun j y hj hy hykey => ?_⟩
        · rw [hsame]
          exact hpoint
        · by_cases hij : i = j
          · subst hij
            rw [List.getElem?_set_self (List.getElem?_eq_some_iff.mp hi).1] at hy
            obtain rfl := Option.some.inj hy
            have hdone := hothers i x hin hi hykey
            rw [EnforceCall.next_done cfg hdone]
            exact hdone
          · exact hothers j y hj ((List.getElem?_set_ne hij).symm.trans hy) hykey

end Return

/-! ## Runs -/

/-- Where the call at `n` is. -/
def Limiter.pointAt (s : Limiter) (n : Nat) : Option EnforcePoint :=
  s.calls[n]?.map EnforceCall.point

/-- A returning call has not been refused. -/
theorem Returning.not_refused {s : Limiter} {k : String} {n : Nat}
    (h : Returning s k n) (retryAfter : Int) : s.pointAt n ≠ some (.refused retryAfter) := by
  obtain ⟨⟨c, hc, -, hpoint⟩, -⟩ := h
  unfold Limiter.pointAt
  rw [hc]
  rcases hpoint with ⟨hp, -⟩ | hp | hp <;> simp [hp]

/-- A returning call is let in after two commands at most. -/
theorem Returning.admitted {cfg : LoginSettings} {s : Limiter} {k : String} {n : Nat}
    (hmax : 0 < cfg.loginRateLimitMaxAttempts) (h : Returning s k n) (f₁ f₂ : Bool) :
    (run (limiterStep cfg) s [.proceed n f₁, .proceed n f₂]).pointAt n = some .admitted := by
  have hafter := h.step hmax (m := .proceed n f₁) id
  obtain ⟨⟨c, hc, hkey, hpoint⟩, -⟩ := h
  obtain ⟨⟨c₁, hc₁, hkey₁, hpoint₁⟩, -⟩ := hafter
  have hn := (List.getElem?_eq_some_iff.mp hc).1
  have hn₁ := (List.getElem?_eq_some_iff.mp hc₁).1
  -- After one command the call has counted or is in.
  have hnot : c₁.point ≠ .incr := by
    rw [limiterStep_of_call cfg f₁ hc, List.getElem?_set_self hn] at hc₁
    obtain rfl := Option.some.inj hc₁
    rw [← hkey] at hpoint
    rcases Returning.next_point s.redis hmax f₁ hpoint with hp | ⟨-, hp⟩
    · simp [hp]
    · simp [hp]
  rw [run_cons, run_cons, run_nil, limiterStep_of_call cfg f₂ hc₁]
  show ((List.set _ n _)[n]?).map EnforceCall.point = _
  rw [List.getElem?_set_self hn₁, Option.map_some]
  rw [← hkey₁] at hpoint₁
  rcases Returning.next_point _ hmax f₂ hpoint₁ with hp | ⟨hp, -⟩
  · exact congrArg some hp
  · exact absurd hp hnot

/-- **A login block ends, unless an `EXPIRE` failed.** Along every run of interleaved calls in which
commands may fail but no `EXPIRE` does: in a state without a call in progress every key has at most
the window to live; and if a client, none of whose calls is in progress, makes no attempt while a
window passes, whatever the others do and whichever commands fail, its next attempt is let in by two
commands and never refused, provided the limit allows one attempt at all. -/
theorem loginBlock_ends (cfg : LoginSettings) (s : Limiter) (hkeys : KeysExpire cfg s)
    (moves : List LimiterMove) (hok : Along (limiterStep cfg) ExpireSucceeds s moves) :
    ((run (limiterStep cfg) s moves).Quiet →
      KeysExpire cfg (run (limiterStep cfg) s moves)) ∧
    ∀ client later, (run (limiterStep cfg) s moves).Idle (loginKey client) →
      (∀ m ∈ later, ¬ m.Attempts (loginKey client)) → cfg.window ≤ elapsedOver later →
      0 < cfg.loginRateLimitMaxAttempts →
      ∀ back n, back = run (limiterStep cfg) s (moves ++ later) → n = back.calls.length →
        (∀ f₁ f₂, (run (limiterStep cfg) back
          [.attempt client, .proceed n f₁, .proceed n f₂]).pointAt n = some .admitted) ∧
        ∀ more, (∀ m ∈ more, ¬ m.Attempts (loginKey client)) →
          ∀ retryAfter, (run (limiterStep cfg) back (.attempt client :: more)).pointAt n ≠
            some (.refused retryAfter) := by
  have hstart : LifetimeInv cfg s := fun client e he => Or.inl (hkeys client e he)
  have hinv := run_inv (@LifetimeInv.step cfg) moves hstart hok
  refine ⟨fun hquiet client e he => hinv.keysExpire (fun c hc _ => hquiet c hc) he, ?_⟩
  rintro client later hidle hlater hlong hmax back n rfl rfl
  rw [run_append]
  have hgone := lookup_after_window hinv hidle hlater hlong
  have hidle' := (run_idle cfg later hlater hidle).1
  have hreturning := Returning.of_attempt cfg hidle' hgone
  refine ⟨hreturning.admitted hmax, fun more hmore retryAfter => ?_⟩
  refine Returning.not_refused (k := loginKey client) ?_ retryAfter
  exact run_inv (P := fun s => Returning s (loginKey client) _)
    (G := fun _ m => ¬ m.Attempts (loginKey client)) (fun s m h hm => h.step hmax hm) more
    hreturning (along_of_forall more _ hmore)

theorem keysExpire_empty (cfg : LoginSettings) : KeysExpire cfg {} := by
  intro client e he
  cases he

/-- Three attempts a minute. -/
def threePerMinute : LoginSettings where
  loginRateLimitMaxAttempts := 3
  loginRateLimitWindowSeconds := 60

/-- The address the attempts come from. -/
def oneClient : Option String := some "203.0.113.7"

/-- A call at position `n` that sends two commands, the second of which may fail. -/
def attemptAt (n : Nat) (secondFails : Bool) : List LimiterMove :=
  [.attempt oneClient, .proceed n false, .proceed n secondFails]

/-- Four attempts, the last of which is refused. -/
def fourAttempts (expireFails : Bool) : List LimiterMove :=
  attemptAt 0 expireFails ++ attemptAt 1 false ++ attemptAt 2 false ++ attemptAt 3 false

/-- The client is refused, waits for a minute and is let in. -/
theorem loginBlock_ends_after_refusal :
    (run (limiterStep threePerMinute) {} (fourAttempts false)).pointAt 3 = some (.refused 60) ∧
      (run (limiterStep threePerMinute) {}
        (fourAttempts false ++ [.wait 60000] ++ attemptAt 4 false)).pointAt 4 =
        some .admitted := by
  refine ⟨by decide +kernel, ?_⟩
  have hok : Along (limiterStep threePerMinute) ExpireSucceeds {} (fourAttempts false) := by
    simp [fourAttempts, attemptAt, Along, ExpireSucceeds]
  have hidle : (run (limiterStep threePerMinute) {} (fourAttempts false)).Idle
      (loginKey oneClient) := by
    have hquiet :
        ∀ c ∈ (run (limiterStep threePerMinute) {} (fourAttempts false)).calls, c.Done := by
      decide +kernel
    exact fun c hc _ => hquiet c hc
  have hends := loginBlock_ends threePerMinute {} (keysExpire_empty _) (fourAttempts false) hok
  have hback := (hends.2 oneClient [.wait 60000] hidle (by simp [LimiterMove.Attempts]) (by decide)
    (by decide) _ _ rfl rfl).1 false false
  rw [run_append]
  exact hback

/-- **A failed `EXPIRE` blocks a client for good**: no call is in progress, its key has no lifetime,
and a minute after the refusal it is refused again. -/
theorem failedExpire_blocks :
    KeysExpire threePerMinute {} ∧
      (run (limiterStep threePerMinute) {} (fourAttempts true)).Quiet ∧
      ¬ KeysExpire threePerMinute (run (limiterStep threePerMinute) {} (fourAttempts true)) ∧
      (run (limiterStep threePerMinute) {} (fourAttempts true)).pointAt 3 = some (.refused 1) ∧
      (run (limiterStep threePerMinute) {}
        (fourAttempts true ++ [.wait 60000] ++ attemptAt 4 false)).pointAt 4 =
        some (.refused 1) := by
  refine ⟨keysExpire_empty _, ?_, fun hkeys => ?_, by decide +kernel, by decide +kernel⟩
  · have hquiet :
        ∀ c ∈ (run (limiterStep threePerMinute) {} (fourAttempts true)).calls, c.Done := by
      decide +kernel
    exact hquiet
  · have hentry : (run (limiterStep threePerMinute) {} (fourAttempts true)).redis.lookup
        (loginKey oneClient) = some { count := 4 } := by decide +kernel
    obtain ⟨t, ht, -⟩ := hkeys oneClient _ hentry
    cases ht

end Gateway
