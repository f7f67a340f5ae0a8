import Mathlib.Algebra.BigOperators.Group.Multiset.Basic
import Gateway.Accounts.Api
import Gateway.Lib.Trace

/-!
# Usage buckets add up

`record` and `flush_requests` upsert different columns of the same rows, one row for each agent and
UTC hour. A run here is any sequence of recorded usage, counted requests and flushes, some of which
may fail, with timestamps of any time zone. The result does not depend on the order: it is a sum
over the multiset of what was contributed.

* `stored`, `waiting`: what the rows and the requests not yet flushed hold of a column, over the
  buckets that meet a condition. `stored_add_waiting_step` says what one step adds, and
  `stored_add_waiting_run` what a run does.
* `hourStart_eq_iff`, `le_hourStart_iff`, `hourStart_lt_iff`: a bucket is the instants of its hour,
  and bounds on whole hours do not cut through one.
* `periodTotalsUntil_flushed`: after a flush that does not fail `period_totals` says the sums of
  what was contributed, rounded.
* **`usageBuckets_add_up`**: after every run each row holds, column by column, the contributions of
  its agent in its hour, and the sums of a period are those of the user's agents in it.
-/

namespace Gateway

open Lib

/-! ## What is metered -/

/-- An aware `datetime`: the wall clock and its offset from UTC, in microseconds. -/
structure AwareTime where
  wall : Int
  utcOffset : Int := 0
  deriving DecidableEq, Repr

/-- `astimezone(UTC)`. -/
def AwareTime.utc (t : AwareTime) : Instant := t.wall - t.utcOffset

/-- The arguments of `record` or of `count_request`, besides the agent and the time. -/
inductive Reading where
  | usage (replicas : Int) (seconds : ℚ)
  | request
  deriving DecidableEq, Repr

/-- A call of `record` or `count_request`. -/
structure Contribution where
  agent : Agent
  time : AwareTime
  metered : Reading
  deriving DecidableEq

/-- The columns that are summed. -/
inductive UsageColumn where
  | replicaSeconds
  | vcpuSeconds
  | memoryMbSeconds
  | requests
  deriving DecidableEq, Repr

/-- A column of a row. -/
def UsageHour.column (r : UsageHour) : UsageColumn → ℚ
  | .replicaSeconds => r.replicaSeconds
  | .vcpuSeconds => r.vcpuSeconds
  | .memoryMbSeconds => r.memoryMbSeconds
  | .requests => r.requests

/-- What a contribution is worth in a column: usage counts with positive replicas and seconds, a
request if the account is there to bill. -/
def Contribution.amount (users : Table User User.id) (c : UsageColumn) (x : Contribution) : ℚ :=
  match x.metered with
  | .usage n s =>
    if 0 < n ∧ 0 < s then
      match c with
      | .replicaSeconds => n * s
      | .vcpuSeconds => n * x.agent.cpu * s
      | .memoryMbSeconds => n * x.agent.memoryMb * s
      | .requests => 0
    else 0
  | .request => if c = .requests ∧ (users.find? x.agent.userId).isSome then 1 else 0

/-- A step of the metering: a contribution, or a flush. -/
inductive BucketStep where
  | add (x : Contribution)
  | flush (fails : Bool)

/-- The step's effect. -/
def bucketStep (w : World) : BucketStep → World
  | .add x =>
    match x.metered with
    | .usage n s =>
      -- `replicas <= 0` records nothing, as `0` does.
      { w with
        db := { w.db with usageHours := record w.db.usageHours x.agent n.toNat s x.time.utc } }
    | .request => { w with pending := countRequest w.pending x.agent x.time.utc }
  | .flush fails => flushRequests w fails

/-- The contributions of a run, in order. -/
def contributions (steps : List BucketStep) : List Contribution :=
  steps.filterMap fun
    | .add x => some x
    | .flush _ => none

/-! ## What the rows and the pending counts hold -/

section Stored

variable (P : AgentId → Instant → Bool) (c : UsageColumn)

/-- What the rows of the buckets in `P` hold of a column. -/
def stored (t : UsageHours) : ℚ :=
  t.total fun r => if P r.agentId r.hourStart then r.column c else 0

/-- What the requests not yet flushed will add to it. -/
def waiting (users : Table User User.id) (pending : Counter RequestKey) : ℚ :=
  if c = .requests then
    (Counter.total
      (fun k => P k.agentId k.hourStart && (users.find? k.userId).isSome) pending : ℚ)
  else 0

/-- An upsert that adds to the columns of its bucket. -/
theorem stored_upsert (t : UsageHours) (r : UsageHour) {merge : UsageHour → UsageHour}
    (hkey : ∀ o, (merge o).bucket = o.bucket)
    (hadd : ∀ o, (merge o).column c = o.column c + r.column c) :
    stored P c (t.upsert r merge) =
      stored P c t + if P r.agentId r.hourStart then r.column c else 0 := by
  refine Table.total_upsert t r _ hkey fun o ho => ?_
  have hmerged := (hkey o).trans ho
  simp only [UsageHour.bucket, Prod.mk.injEq] at ho hmerged
  rw [hmerged.1, hmerged.2, ho.1, ho.2, hadd o]
  split_ifs
  · rfl
  · rw [add_zero]

theorem stored_record (t : UsageHours) (users : Table User User.id) (a : Agent) (n : Int) (s : ℚ)
    (time : AwareTime) :
    stored P c (record t a n.toNat s time.utc) =
      stored P c t + if P a.id (hourStart time.utc) then
        Contribution.amount users c ⟨a, time, .usage n s⟩ else 0 := by
  unfold record
  by_cases hpos : 0 < n ∧ 0 < s
  · have hn : ((n.toNat : ℕ) : ℚ) = n := by
      have hcast : (n.toNat : Int) = n := Int.toNat_of_nonneg hpos.1.le
      exact_mod_cast congrArg (Int.cast : Int → ℚ) hcast
    have hsome : ¬ (n.toNat = 0 ∨ s ≤ 0) := by
      rw [not_or, not_le]
      exact ⟨by omega, hpos.2⟩
    rw [if_neg hsome]
    unfold addUsage
    rw [stored_upsert]
    · simp only [Contribution.amount, if_pos hpos, hn]
      cases c <;> simp [UsageHour.column]
    · intro o
      rfl
    · intro o
      cases c <;> simp [UsageHour.column]
  · have hnone : n.toNat = 0 ∨ s ≤ 0 := by
      by_contra hh
      rw [not_or, not_le] at hh
      exact hpos ⟨by omega, hh.2⟩
    rw [if_pos hnone]
    simp [Contribution.amount, hpos]

theorem stored_addRequests (t : UsageHours) (k : RequestKey) (n : Nat) :
    stored P c (addRequests t k n) =
      stored P c t +
        if c = .requests then (if P k.agentId k.hourStart then (n : ℚ) else 0) else 0 := by
  unfold addRequests
  rw [stored_upsert]
  · cases c <;> simp [UsageHour.column]
  · intro o
    rfl
  · intro o
    cases c <;> simp [UsageHour.column]

/-- Committing a flush adds each of its entries to its bucket. -/
theorem stored_commitRequests (entries : Counter RequestKey) (t : UsageHours) :
    stored P c (commitRequests t entries) =
      stored P c t +
        if c = .requests then (Counter.total (fun k => P k.agentId k.hourStart) entries : ℚ)
        else 0 := by
  induction entries generalizing t with
  | nil => simp [commitRequests]
  | cons e entries ih =>
    show stored P c (commitRequests (addRequests t e.1 e.2) entries) = _
    rw [ih, stored_addRequests, add_assoc, Counter.total_cons]
    congr 1
    split_ifs
    · push_cast
      rfl
    · push_cast
      rfl
    · exact add_zero 0

/-- **What one step adds to the rows and the waiting requests together.** -/
theorem stored_add_waiting_step (w : World) (step : BucketStep) :
    stored P c (bucketStep w step).db.usageHours +
        waiting P c w.db.users (bucketStep w step).pending =
      stored P c w.db.usageHours + waiting P c w.db.users w.pending +
        ((contributions [step]).map fun x =>
          if P x.agent.id (hourStart x.time.utc) then x.amount w.db.users c else 0).sum := by
  cases step with
  | add x =>
    obtain ⟨a, time, metered⟩ := x
    cases metered with
    | usage n s =>
      simp only [bucketStep, contributions, List.filterMap_cons, List.filterMap_nil, List.map_cons,
        List.map_nil, List.sum_cons, List.sum_nil, add_zero]
      rw [stored_record P c _ w.db.users]
      ring
    | request =>
      simp only [bucketStep, contributions, List.filterMap_cons, List.filterMap_nil, List.map_cons,
        List.map_nil, List.sum_cons, List.sum_nil, add_zero]
      rw [add_assoc]
      congr 1
      unfold waiting countRequest Contribution.amount
      rw [Counter.total_add]
      by_cases hc : c = .requests
      · simp only [hc, if_true, true_and, requestKey, Bool.and_eq_true]
        push_cast
        congr 1
        split_ifs <;> simp_all
      · simp [hc]
  | flush fails =>
    simp only [bucketStep, contributions, List.filterMap_cons, List.filterMap_nil, List.map_nil,
      List.sum_nil, add_zero]
    unfold flushRequests
    split_ifs with hempty hfails
    · rfl
    · simp only [waiting, Counter.total_update, Counter.total_nil, Nat.zero_add]
    · simp only [waiting, stored_commitRequests, total_kept, Counter.total_nil]
      split_ifs
      · push_cast
        ring
      · ring

theorem users_bucketStep (w : World) (step : BucketStep) :
    (bucketStep w step).db.users = w.db.users := by
  cases step with
  | add x =>
    obtain ⟨a, time, metered⟩ := x
    cases metered <;> rfl
  | flush fails =>
    simp only [bucketStep, flushRequests]
    split_ifs <;> rfl

/-- What a run adds to the rows and the waiting requests together. -/
theorem stored_add_waiting_run (steps : List BucketStep) (w : World) :
    stored P c (run bucketStep w steps).db.usageHours +
        waiting P c w.db.users (run bucketStep w steps).pending =
      stored P c w.db.usageHours + waiting P c w.db.users w.pending +
        ((contributions steps).map fun x =>
          if P x.agent.id (hourStart x.time.utc) then x.amount w.db.users c else 0).sum := by
  induction steps generalizing w with
  | nil => simp [contributions]
  | cons step steps ih =>
    have hsplit : contributions (step :: steps) = contributions [step] ++ contributions steps :=
      List.filterMap_append (l := [step])
    have hrest := ih (bucketStep w step)
    rw [users_bucketStep] at hrest
    rw [run_cons, hrest, stored_add_waiting_step, hsplit, List.map_append, List.sum_append,
      add_assoc]

end Stored

/-! ## Hours -/

theorem dvd_hourStart (t : Instant) : hourMicros ∣ hourStart t := Int.dvd_mul_left _ _

/-- A bucket is the instants of its hour. -/
theorem hourStart_eq_iff {h t : Int} (hh : hourMicros ∣ h) :
    hourStart t = h ↔ h ≤ t ∧ t < h + hourMicros := by
  obtain ⟨k, rfl⟩ := hh
  unfold hourStart hourMicros
  show (t / 3600000000 * 3600000000 : Int) = _ ↔ _
  omega

/-- A whole hour does not cut through a bucket. -/
theorem le_hourStart_iff {s t : Int} (hs : hourMicros ∣ s) : s ≤ hourStart t ↔ s ≤ t := by
  obtain ⟨k, rfl⟩ := hs
  unfold hourStart hourMicros
  omega

theorem hourStart_lt_iff {e t : Instant} (he : hourMicros ∣ e) : hourStart t < e ↔ t < e := by
  rw [← not_le, le_hourStart_iff he, not_le]

/-- The start of a month is a whole hour. -/
theorem dvd_monthStart (now : Instant) : hourMicros ∣ monthStart now := by
  have hday : hourMicros ∣ dayMicros := ⟨24, by decide⟩
  exact Dvd.dvd.mul_left hday _

/-! ## Periods -/

/-- The rows of a user that `period_totals` sums. -/
def periodRows (db : Db) (userId : UserId) (start : Instant) (stop : Option Instant) :
    List UsageHour :=
  db.usageHours.rows.filter fun r =>
    r.userId = userId ∧ start ≤ r.hourStart ∧ stop.all fun e => r.hourStart < e

/-- The sum of a column over a period, before any rounding. -/
def periodSum (db : Db) (userId : UserId) (start : Instant) (stop : Option Instant)
    (c : UsageColumn) : ℚ := ((periodRows db userId start stop).map (·.column c)).sum

/-- `period_totals`. -/
def periodTotalsUntil (d : SiteDeps) (db : Db) (userId : UserId) (start : Instant)
    (stop : Option Instant) : PeriodTotals where
  start := start
  replicaHours := d.round4.round (periodSum db userId start stop .replicaSeconds / 3600)
  vcpuHours := d.round4.round (periodSum db userId start stop .vcpuSeconds / 3600)
  memoryGbHours := d.round4.round (periodSum db userId start stop .memoryMbSeconds / 1024 / 3600)
  requests := ((periodRows db userId start stop).map UsageHour.requests).sum

/-- The totals an account is shown have no end. -/
theorem periodTotals_eq_until (d : SiteDeps) (db : Db) (userId : UserId) (start : Instant) :
    periodTotals d db userId start = periodTotalsUntil d db userId start none := by
  have hrows : (db.usageHours.rows.filter fun r => r.userId = userId ∧ start ≤ r.hourStart) =
      periodRows db userId start none := by
    unfold periodRows
    simp
  unfold periodTotals periodTotalsUntil periodSum
  rw [hrows]
  rfl

theorem cast_periodRequests (db : Db) (userId : UserId) (start : Instant)
    (stop : Option Instant) :
    ((((periodRows db userId start stop).map UsageHour.requests).sum : Nat) : ℚ) =
      periodSum db userId start stop .requests := by
  unfold periodSum
  rw [Nat.cast_list_sum, List.map_map]
  rfl

/-! ## The rows of a run -/

/-- The rows and the waiting counts are of whole hours and carry the agent's owner. -/
structure Owned (owner : AgentId → UserId) (w : World) : Prop where
  rows : ∀ r ∈ w.db.usageHours.rows, r.userId = owner r.agentId ∧ hourMicros ∣ r.hourStart
  keys : ∀ e ∈ w.pending, e.1.userId = owner e.1.agentId ∧ hourMicros ∣ e.1.hourStart

/-- The agent of a step belongs to its owner. -/
def BucketStep.OwnedBy (owner : AgentId → UserId) (step : BucketStep) : Prop :=
  ∀ x ∈ contributions [step], x.agent.userId = owner x.agent.id

theorem owned_commitRequests {owner : AgentId → UserId} {entries : Counter RequestKey}
    {t : UsageHours} (ht : ∀ r ∈ t.rows, r.userId = owner r.agentId ∧ hourMicros ∣ r.hourStart)
    (h : ∀ e ∈ entries, e.1.userId = owner e.1.agentId ∧ hourMicros ∣ e.1.hourStart) :
    ∀ r ∈ (commitRequests t entries).rows,
      r.userId = owner r.agentId ∧ hourMicros ∣ r.hourStart := by
  induction entries generalizing t with
  | nil => exact ht
  | cons e entries ih =>
    refine ih ?_ fun x hx => h x (List.mem_cons_of_mem e hx)
    exact Table.forall_upsert ht (h e List.mem_cons_self) fun o ho => ho

theorem owned_bucketStep {owner : AgentId → UserId} (w : World) (step : BucketStep)
    (h : Owned owner w) (hstep : step.OwnedBy owner) : Owned owner (bucketStep w step) := by
  cases step with
  | add x =>
    have hx : x.agent.userId = owner x.agent.id := hstep x (by simp [contributions])
    obtain ⟨a, time, metered⟩ := x
    cases metered with
    | usage n s =>
      refine ⟨?_, h.keys⟩
      simp only [bucketStep, record]
      split_ifs
      · exact h.rows
      · exact Table.forall_upsert h.rows ⟨hx, dvd_hourStart _⟩ fun o ho => ho
    | request =>
      exact ⟨h.rows, Counter.keys_add
        (P := fun k : RequestKey => k.userId = owner k.agentId ∧ hourMicros ∣ k.hourStart)
        ⟨hx, dvd_hourStart _⟩ h.keys⟩
  | flush fails =>
    simp only [bucketStep, flushRequests]
    split_ifs
    · exact h
    · exact ⟨h.rows, Counter.keys_update
        (P := fun k : RequestKey => k.userId = owner k.agentId ∧ hourMicros ∣ k.hourStart)
        (fun e he => absurd he List.not_mem_nil) h.keys⟩
    · refine ⟨owned_commitRequests h.rows fun e he => h.keys e (List.mem_of_mem_filter he), ?_⟩
      exact fun e he => absurd he List.not_mem_nil

theorem ownedBy_of_contributions {owner : AgentId → UserId} {steps : List BucketStep}
    (h : ∀ x ∈ contributions steps, x.agent.userId = owner x.agent.id) :
    ∀ step ∈ steps, step.OwnedBy owner := by
  intro step hstep x hx
  refine h x ?_
  unfold contributions at hx ⊢
  obtain ⟨y, hy, hval⟩ := List.mem_filterMap.mp hx
  obtain rfl := List.mem_singleton.mp hy
  exact List.mem_filterMap.mpr ⟨y, hstep, hval⟩

/-- What is waiting is nothing once every count is flushed. -/
@[simp] theorem waiting_nil (P : AgentId → Instant → Bool) (c : UsageColumn)
    (users : Table User User.id) : waiting P c users [] = 0 := by
  unfold waiting
  split_ifs <;> simp

/-- What a run from empty tables leaves. -/
theorem stored_add_waiting_of_empty {w : World} (hrows : w.db.usageHours.rows = [])
    (hpending : w.pending = []) (P : AgentId → Instant → Bool) (c : UsageColumn)
    (steps : List BucketStep) :
    stored P c (run bucketStep w steps).db.usageHours +
        waiting P c w.db.users (run bucketStep w steps).pending =
      ((contributions steps).map fun x =>
        if P x.agent.id (hourStart x.time.utc) then x.amount w.db.users c else 0).sum := by
  have hnone : stored P c w.db.usageHours = 0 := by
    unfold stored Table.total
    rw [hrows]
    rfl
  rw [stored_add_waiting_run, hnone, hpending, waiting_nil, add_zero, zero_add]

/-- A bucket has at most one row. -/
theorem length_filter_bucket_le (t : UsageHours) (a : AgentId) (h : Instant) :
    (t.rows.filter fun r => r.agentId = a ∧ r.hourStart = h).length ≤ 1 := by
  have hcount : (t.rows.filter fun r => r.agentId = a ∧ r.hourStart = h).length =
      (t.rows.map UsageHour.bucket).count (a, h) := by
    rw [← List.countP_eq_length_filter, List.count, List.countP_map]
    refine List.countP_congr fun r _ => ?_
    simp [UsageHour.bucket]
  rw [hcount]
  exact List.nodup_iff_count_le_one.mp t.nodup (a, h)

/-- A filtered sum over what was contributed. -/
theorem sum_filter_contributions (xs : List Contribution) (p : Contribution → Prop)
    [DecidablePred p] (f : Contribution → ℚ) :
    (((xs : Multiset Contribution).filter p).map f).sum =
      (xs.map fun x => if p x then f x else 0).sum := by
  rw [Multiset.filter_coe, Multiset.map_coe, Multiset.sum_coe]
  induction xs with
  | nil => rfl
  | cons x xs ih =>
    by_cases hx : p x
    · simp [hx, ih]
    · simp [hx, ih]

/-- The rows of a bucket hold what was contributed to it. -/
theorem stored_bucket {t : UsageHours} {r : UsageHour} (hr : r ∈ t.rows) (c : UsageColumn) :
    stored (fun a h => a = r.agentId ∧ h = r.hourStart) c t = r.column c := by
  rw [← Table.total_ite_key (fun x : UsageHour => x.column c) hr]
  refine Table.total_congr fun x _ => ?_
  simp [UsageHour.bucket]

/-- The sum of a period is what the buckets of the user's agents hold. -/
theorem stored_period {owner : AgentId → UserId} {w : World} (h : Owned owner w) (u : UserId)
    (start : Instant) (stop : Option Instant) (c : UsageColumn) :
    stored (fun a hour => owner a = u ∧ start ≤ hour ∧ stop.all fun e => hour < e) c
        w.db.usageHours = periodSum w.db u start stop c := by
  unfold periodSum periodRows
  rw [Table.total_ite]
  refine Table.total_congr fun r hr => ?_
  rw [(h.rows r hr).1]

/-- The rows and waiting counts of a run from empty tables are owned. -/
theorem owned_run {w : World} (hrows : w.db.usageHours.rows = []) (hpending : w.pending = [])
    {steps : List BucketStep} {owner : AgentId → UserId}
    (howner : ∀ x ∈ contributions steps, x.agent.userId = owner x.agent.id) :
    Owned owner (run bucketStep w steps) := by
  refine run_inv (G := fun _ step => step.OwnedBy owner) owned_bucketStep steps ⟨?_, ?_⟩
    (along_of_forall steps w (ownedBy_of_contributions howner))
  · rw [hrows]
    exact fun r hr => absurd hr List.not_mem_nil
  · rw [hpending]
    exact fun e he => absurd he List.not_mem_nil

/-- The sum of a period between whole hours, with what waits for it, is what was contributed. -/
theorem periodSum_add_waiting {w : World} (hrows : w.db.usageHours.rows = [])
    (hpending : w.pending = []) {steps : List BucketStep} {owner : AgentId → UserId}
    (howner : ∀ x ∈ contributions steps, x.agent.userId = owner x.agent.id) (u : UserId)
    {start : Instant} {stop : Option Instant} (hstart : hourMicros ∣ start)
    (hstop : ∀ e ∈ stop, hourMicros ∣ e) (c : UsageColumn) :
    periodSum (run bucketStep w steps).db u start stop c +
        waiting (fun a h => owner a = u ∧ start ≤ h ∧ stop.all fun e => h < e) c w.db.users
          (run bucketStep w steps).pending =
      (((contributions steps : Multiset Contribution).filter fun x => x.agent.userId = u ∧
        start ≤ x.time.utc ∧ ∀ e ∈ stop, x.time.utc < e).map (·.amount w.db.users c)).sum := by
  rw [← stored_period (owned_run hrows hpending howner), stored_add_waiting_of_empty hrows hpending,
    sum_filter_contributions]
  refine congrArg List.sum (List.map_congr_left fun x hx => ?_)
  have hstop' : (stop.all fun e => decide (hourStart x.time.utc < e)) = true ↔
      ∀ e ∈ stop, x.time.utc < e := by
    rw [Option.all_eq_true]
    constructor
    · intro h e he
      exact (hourStart_lt_iff (hstop e he)).mp (of_decide_eq_true (h e he))
    · intro h e he
      exact decide_eq_true ((hourStart_lt_iff (hstop e he)).mpr (h e he))
  simp only [decide_eq_true_eq, howner x hx, le_hourStart_iff hstart, hstop']

/-- **After a flush that does not fail nothing waits**, and `period_totals` are what was
contributed, rounded. -/
theorem periodTotalsUntil_flushed {w : World} (hrows : w.db.usageHours.rows = [])
    (hpending : w.pending = []) {steps : List BucketStep} {owner : AgentId → UserId}
    (howner : ∀ x ∈ contributions steps, x.agent.userId = owner x.agent.id) (d : SiteDeps)
    (u : UserId) {start : Instant} {stop : Option Instant} (hstart : hourMicros ∣ start)
    (hstop : ∀ e ∈ stop, hourMicros ∣ e) :
    let after := run bucketStep w (steps ++ [.flush false])
    let sum (c : UsageColumn) : ℚ :=
      (((contributions steps : Multiset Contribution).filter fun x => x.agent.userId = u ∧
        start ≤ x.time.utc ∧ ∀ e ∈ stop, x.time.utc < e).map (·.amount w.db.users c)).sum
    let totals := periodTotalsUntil d after.db u start stop
    after.pending = [] ∧ totals.replicaHours = d.round4.round (sum .replicaSeconds / 3600) ∧
      totals.vcpuHours = d.round4.round (sum .vcpuSeconds / 3600) ∧
      totals.memoryGbHours = d.round4.round (sum .memoryMbSeconds / 1024 / 3600) ∧
      (totals.requests : ℚ) = sum .requests := by
  intro after sum totals
  have hnone : after.pending = [] := by
    show (run bucketStep w (steps ++ [.flush false])).pending = []
    rw [run_append]
    exact flushRequests_pending _
  have hsame : contributions (steps ++ [.flush false]) = contributions steps := by
    simp [contributions]
  have hsum : ∀ c, periodSum after.db u start stop c = sum c := by
    intro c
    have howner' : ∀ x ∈ contributions (steps ++ [.flush false]),
        x.agent.userId = owner x.agent.id := by
      rw [hsame]
      exact howner
    have hperiod := periodSum_add_waiting hrows hpending howner' u hstart hstop c
    rw [hnone, waiting_nil, add_zero, hsame] at hperiod
    exact hperiod
  refine ⟨hnone, ?_, ?_, ?_, ?_⟩
  · rw [← hsum]
    rfl
  · rw [← hsum]
    rfl
  · rw [← hsum]
    rfl
  · rw [← hsum]
    exact cast_periodRequests after.db u start stop

/-- **Usage buckets add up whatever the order.** From empty tables, for every collection `X` of
recorded usage and counted requests, in any order and with any flushes in between: there is at most
one row for each agent and hour; each column of a row, with the requests of its bucket not yet
flushed, is the sum of the contributions of its agent in its hour; so is the sum of a period between
whole hours for the agents of a user; and the start of a month is a whole hour. -/
theorem usageBuckets_add_up {w : World} (hrows : w.db.usageHours.rows = [])
    (hpending : w.pending = []) {steps : List BucketStep} {X : Multiset Contribution}
    (hX : (contributions steps : Multiset Contribution) = X) {owner : AgentId → UserId}
    (howner : ∀ x ∈ X, x.agent.userId = owner x.agent.id) :
    let after := run bucketStep w steps
    (∀ a h, (after.db.usageHours.rows.filter fun r => r.agentId = a ∧ r.hourStart = h).length ≤ 1) ∧
    (∀ r ∈ after.db.usageHours.rows, ∀ c,
      r.column c + waiting (fun a h => a = r.agentId ∧ h = r.hourStart) c w.db.users after.pending =
        ((X.filter fun x => x.agent.id = r.agentId ∧
          r.hourStart ≤ x.time.utc ∧ x.time.utc < r.hourStart + hourMicros).map
            (·.amount w.db.users c)).sum) ∧
    (∀ u start stop, hourMicros ∣ start → (∀ e ∈ stop, hourMicros ∣ e) → ∀ c,
      periodSum after.db u start stop c +
          waiting (fun a h => owner a = u ∧ start ≤ h ∧ stop.all fun e => h < e) c w.db.users
            after.pending =
        ((X.filter fun x => x.agent.userId = u ∧
          start ≤ x.time.utc ∧ ∀ e ∈ stop, x.time.utc < e).map (·.amount w.db.users c)).sum) ∧
    ∀ now : AwareTime, hourMicros ∣ monthStart now.utc := by
  intro after
  subst hX
  refine ⟨fun a h => ?_, fun r hr c => ?_, fun u start stop hstart hstop c => ?_,
    fun now => dvd_monthStart now.utc⟩
  · exact length_filter_bucket_le after.db.usageHours a h
  · have hhour := ((owned_run hrows hpending howner).rows r hr).2
    rw [← stored_bucket hr, stored_add_waiting_of_empty hrows hpending, sum_filter_contributions]
    refine congrArg List.sum (List.map_congr_left fun x _ => ?_)
    simp only [decide_eq_true_eq, hourStart_eq_iff hhour]
  · exact periodSum_add_waiting hrows hpending howner u hstart hstop c

/-- A request and a failing flush, then half a minute of two replicas with another offset from UTC,
and a flush. -/
def meteredSteps : List BucketStep :=
  [.add ⟨freeAgent, { wall := hourMicros }, .request⟩, .flush true,
    .add ⟨freeAgent, { wall := 2 * hourMicros, utcOffset := 1 }, .usage 2 30⟩, .flush false]

/-- The hour holds both contributions, the second of which comes in its last microsecond. -/
theorem usageBuckets_add_up_one_hour :
    (run bucketStep freeWorld meteredSteps).pending = [] ∧
      periodSum (run bucketStep freeWorld meteredSteps).db freeUser.id hourMicros
        (some (2 * hourMicros)) .replicaSeconds = 60 ∧
      periodSum (run bucketStep freeWorld meteredSteps).db freeUser.id hourMicros
        (some (2 * hourMicros)) .requests = 1 := by
  have hflushed : (run bucketStep freeWorld meteredSteps).pending = [] := by decide +kernel
  have hperiod := (@usageBuckets_add_up freeWorld rfl rfl meteredSteps _ rfl
    (fun _ => freeUser.id) (by decide +kernel)).2.2.1 freeUser.id hourMicros
      (some (2 * hourMicros)) (dvd_refl _) (by simp)
  rw [hflushed] at hperiod
  simp only [waiting_nil, add_zero] at hperiod
  exact ⟨hflushed, (hperiod .replicaSeconds).trans (by decide +kernel),
    (hperiod .requests).trans (by decide +kernel)⟩

end Gateway
