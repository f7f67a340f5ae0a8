import Mathlib.Data.Option.Basic
import Mathlib.Tactic.SplitIfs
import Mathlib.Tactic.TypeStar

/-!
# A store of counters that expire

The part of a Redis server that a counter with a lifetime uses. An entry has a count and perhaps an
instant at which it expires; a key whose instant has come is gone, whether or not the entry has been
removed. `incr` counts up, creating a missing key without expiry, `expire` gives a key a lifetime
(and removes it if that is not positive), `ttl` reads the lifetime, `advance` lets time pass. Times
are milliseconds.

`lookup` is what a command sees of a key. The equations say what each operation does to it: the
other keys are left alone, `incr` keeps the expiry, `expire` bounds it, and time only takes keys
away (`lookup_advance`).
-/

namespace Gateway.Lib

/-- A count, and the instant at which it is gone. -/
structure Expiring where
  count : Nat
  expiresAt : Option Int := none
  deriving DecidableEq, Repr

/-- Counters by key, and the clock. -/
structure CounterStore (κ : Type*) where
  entries : κ → Option Expiring := fun _ => none
  clock : Int := 0

namespace CounterStore

variable {κ : Type*}

/-- The entry of a key that has not expired. -/
def lookup (s : CounterStore κ) (k : κ) : Option Expiring :=
  (s.entries k).filter fun e => e.expiresAt.all fun t => s.clock < t

/-- Let time pass. -/
def advance (s : CounterStore κ) (ms : Nat) : CounterStore κ := { s with clock := s.clock + ms }

theorem clock_le_advance (s : CounterStore κ) (ms : Nat) : s.clock ≤ (s.advance ms).clock := by
  show s.clock ≤ s.clock + ms
  omega

/-- `TTL`: the lifetime left in seconds, `-1` without one, `-2` for a missing key. -/
def ttl (s : CounterStore κ) (k : κ) : Int :=
  match s.lookup k with
  | none => -2
  | some e => e.expiresAt.elim (-1) fun t => (t - s.clock + 500) / 1000

variable [DecidableEq κ]

/-- Write or remove the entry of a key. -/
def set (s : CounterStore κ) (k : κ) (e : Option Expiring) : CounterStore κ :=
  { s with entries := fun j => if j = k then e else s.entries j }

/-- `INCR`: the new count. -/
def incr (s : CounterStore κ) (k : κ) : Nat × CounterStore κ :=
  match s.lookup k with
  | none => (1, s.set k (some { count := 1 }))
  | some e => (e.count + 1, s.set k (some { e with count := e.count + 1 }))

/-- `EXPIRE` with a lifetime in milliseconds. -/
def expire (s : CounterStore κ) (k : κ) (ms : Int) : CounterStore κ :=
  match s.lookup k with
  | none => s
  | some e =>
    if ms ≤ 0 then s.set k none else s.set k (some { e with expiresAt := some (s.clock + ms) })

/-! ## What the operations do to the entries -/

section Set

variable (s : CounterStore κ) {k j : κ}

@[simp] theorem set_clock (k : κ) (e : Option Expiring) : (s.set k e).clock = s.clock := rfl

theorem set_entries_of_ne (e : Option Expiring) (h : j ≠ k) :
    (s.set k e).entries j = s.entries j := if_neg h

theorem set_entries_self (k : κ) (e : Option Expiring) : (s.set k e).entries k = e := if_pos rfl

@[simp] theorem incr_clock (k : κ) : (s.incr k).2.clock = s.clock := by
  unfold incr
  cases s.lookup k <;> rfl

@[simp] theorem expire_clock (k : κ) (ms : Int) : (s.expire k ms).clock = s.clock := by
  unfold expire
  cases s.lookup k with
  | none => rfl
  | some e =>
    simp only
    split_ifs <;> rfl

theorem incr_entries_of_ne (h : j ≠ k) : (s.incr k).2.entries j = s.entries j := by
  unfold incr
  cases s.lookup k with
  | none => exact set_entries_of_ne s _ h
  | some e => exact set_entries_of_ne s _ h

theorem expire_entries_of_ne (ms : Int) (h : j ≠ k) : (s.expire k ms).entries j = s.entries j := by
  unfold expire
  cases s.lookup k with
  | none => rfl
  | some e =>
    simp only
    split_ifs
    · exact set_entries_of_ne s _ h
    · exact set_entries_of_ne s _ h

end Set

/-! ## What they do to the keys that are there -/

section Lookup

variable {s s' : CounterStore κ} {k : κ} {e : Expiring}

omit [DecidableEq κ] in
/-- Stores that agree on an entry and on the clock show the same of it. -/
theorem lookup_congr (he : s'.entries k = s.entries k) (hc : s'.clock = s.clock) :
    s'.lookup k = s.lookup k := by
  unfold lookup
  rw [he, hc]

/-- The count of a missing key starts at one. -/
theorem incr_of_missing (h : s.lookup k = none) :
    s.incr k = (1, s.set k (some { count := 1 })) := by
  unfold incr
  rw [h]

/-- Counting up keeps the expiry of a key that is there. -/
theorem lookup_incr_self {e₀ : Expiring} (h₀ : s.lookup k = some e₀)
    (h : (s.incr k).2.lookup k = some e) : e.expiresAt = e₀.expiresAt := by
  have hmem := (Option.filter_eq_some_iff.mp h).1
  unfold incr at hmem
  rw [h₀] at hmem
  simp only [set_entries_self] at hmem
  obtain rfl := Option.some.inj hmem
  rfl

/-- A key that has been given a lifetime expires within it. -/
theorem lookup_expire_self {ms : Int} (h : (s.expire k ms).lookup k = some e) :
    e.expiresAt = some (s.clock + ms) := by
  have hmem := (Option.filter_eq_some_iff.mp h).1
  unfold expire at h hmem
  cases hk : s.lookup k with
  | none =>
    rw [hk] at h
    exact absurd (hk.symm.trans h) (by simp)
  | some e₀ =>
    rw [hk] at hmem
    simp only at hmem
    split_ifs at hmem with hms
    · rw [set_entries_self] at hmem
      cases hmem
    · rw [set_entries_self] at hmem
      obtain rfl := Option.some.inj hmem
      rfl

omit [DecidableEq κ] in
/-- What is there later was there before. -/
theorem lookup_of_later (he : s'.entries k = s.entries k) (hc : s.clock ≤ s'.clock)
    (h : s'.lookup k = some e) : s.lookup k = some e := by
  obtain ⟨hmem, halive⟩ := Option.filter_eq_some_iff.mp h
  refine Option.filter_eq_some_iff.mpr ⟨he ▸ hmem, ?_⟩
  cases ht : e.expiresAt with
  | none => rfl
  | some t =>
    rw [ht] at halive
    have hlt : s'.clock < t := by simpa using halive
    have hbefore : s.clock < t := by omega
    simpa using hbefore

omit [DecidableEq κ] in
/-- Time only removes keys. -/
theorem lookup_of_advance (ms : Nat) (h : (s.advance ms).lookup k = some e) :
    s.lookup k = some e := by
  have hentry : (s.advance ms).entries k = s.entries k := rfl
  exact lookup_of_later hentry (s.clock_le_advance ms) h

omit [DecidableEq κ] in
/-- A key whose instant has come is gone. -/
theorem lookup_eq_none_of_expired {e : Expiring} {t : Int} (he : s.entries k = some e)
    (ht : e.expiresAt = some t) (hle : t ≤ s.clock) : s.lookup k = none := by
  unfold lookup
  rw [he]
  refine Option.filter_eq_none_iff.mpr fun x hx => ?_
  obtain rfl := Option.some.inj hx
  simp [ht, hle]

end Lookup

end CounterStore

end Gateway.Lib
