import Gateway.Model.World

/-!
# Usage metering (`services/metering_service.py`)

The statements of `record`, `count_request` and `flush_requests` as functions of the tables they
touch. Both writers upsert the row of one `(agent, hour)` bucket: `record` adds to the three
resource columns and leaves `requests` alone, `flush_requests` adds to `requests` and leaves the
others alone, and whichever comes first inserts the row with zeros for the rest.
`requestsIn` reads the `requests` column of a bucket, `0` when it has no row; it is what
`requestsIn_addRequests` and `requestsIn_record` say the two writers do to it.
-/

namespace Gateway

open Lib

/-- One hour in microseconds. -/
def hourMicros : Int := 3600000000

/-- `_hour_start`: the start of the UTC hour. -/
def hourStart (t : Instant) : Instant := t / hourMicros * hourMicros

/-- The key `count_request` uses for a request to `a` at `t`. -/
def requestKey (a : Agent) (t : Instant) : RequestKey := ⟨a.id, a.userId, hourStart t⟩

/-- `count_request`. -/
def countRequest (pending : Counter RequestKey) (a : Agent) (t : Instant) : Counter RequestKey :=
  Counter.add pending (requestKey a t) 1

/-- The columns of `usage_hours`. -/
abbrev UsageHours := Table UsageHour UsageHour.bucket

/-- The upsert of `record`. -/
def addUsage (t : UsageHours) (r : UsageHour) : UsageHours :=
  t.upsert r fun o =>
    { o with
      replicaSeconds := o.replicaSeconds + r.replicaSeconds
      vcpuSeconds := o.vcpuSeconds + r.vcpuSeconds
      memoryMbSeconds := o.memoryMbSeconds + r.memoryMbSeconds }

/-- `record`: nothing for no replicas or no time. -/
def record (t : UsageHours) (a : Agent) (replicas : Nat) (seconds : ℚ) (now : Instant) :
    UsageHours :=
  if replicas = 0 ∨ seconds ≤ 0 then t
  else
    addUsage t
      { userId := a.userId
        agentId := a.id
        hourStart := hourStart now
        replicaSeconds := replicas * seconds
        vcpuSeconds := replicas * a.cpu * seconds
        memoryMbSeconds := replicas * a.memoryMb * seconds }

/-- The upsert of `flush_requests` for one entry of the batch. -/
def addRequests (t : UsageHours) (k : RequestKey) (count : Nat) : UsageHours :=
  t.upsert { userId := k.userId, agentId := k.agentId, hourStart := k.hourStart, requests := count }
    fun o => { o with requests := o.requests + count }

/-- The upserts of a flush, applied when its transaction commits. -/
def commitRequests (t : UsageHours) (entries : Counter RequestKey) : UsageHours :=
  entries.foldl (fun t e => addRequests t e.1 e.2) t

/-- `select(User.id).where(User.id.in_(user_ids))` for the users of a batch. -/
def existingUsers (users : Table User User.id) (batch : Counter RequestKey) : List UserId :=
  (users.rows.map User.id).filter fun u => batch.any fun e => e.1.userId = u

/-- The entries a flush writes: those whose user still exists. -/
def kept (existing : List UserId) (batch : Counter RequestKey) : Counter RequestKey :=
  batch.filter fun e => e.1.userId ∈ existing

/-- The entries a flush skips. -/
def dropped (existing : List UserId) (batch : Counter RequestKey) : Counter RequestKey :=
  batch.filter fun e => !decide (e.1.userId ∈ existing)

/-- `flush_requests` run without interruption; when `fails`, some statement of its transaction
raises and the counts are put back. -/
def flushRequests (w : World) (fails : Bool) : World :=
  if w.pending = [] then w
  else if fails then { w with pending := Counter.update [] w.pending }
  else
    let written := kept (existingUsers w.db.users w.pending) w.pending
    { w with
      pending := []
      db := { w.db with usageHours := commitRequests w.db.usageHours written } }

/-- A flush that does not fail leaves nothing pending. -/
theorem flushRequests_pending (w : World) : (flushRequests w false).pending = [] := by
  unfold flushRequests
  split_ifs with hnone hfails
  · exact hnone
  · cases hfails
  · rfl

/-! ## The `requests` column -/

/-- The `requests` column of a bucket, `0` without a row. -/
def requestsIn (t : UsageHours) (agentId : AgentId) (hour : Instant) : Nat :=
  (t.find? (agentId, hour)).elim 0 UsageHour.requests

/-- The bucket a counted request belongs to. -/
def inBucket (agentId : AgentId) (hour : Instant) (k : RequestKey) : Bool :=
  k.agentId = agentId ∧ k.hourStart = hour

theorem requestsIn_addRequests (t : UsageHours) (k : RequestKey) (n : Nat) (a : AgentId)
    (h : Instant) :
    requestsIn (addRequests t k n) a h = requestsIn t a h + if inBucket a h k then n else 0 := by
  unfold requestsIn addRequests
  rw [Table.find?_upsert _ _ (by intro o; rfl)]
  simp only [UsageHour.bucket, inBucket, Prod.mk.injEq, decide_eq_true_eq]
  by_cases hb : a = k.agentId ∧ h = k.hourStart
  · obtain ⟨rfl, rfl⟩ := hb
    simp only [and_self, if_true]
    cases t.find? (k.agentId, k.hourStart) with
    | none => simp
    | some o => rfl
  · rw [if_neg hb, if_neg (fun h' => hb ⟨h'.1.symm, h'.2.symm⟩), Nat.add_zero]

/-- Committing a flush adds each of its entries to its bucket. -/
theorem requestsIn_commitRequests (a : AgentId) (h : Instant) :
    ∀ (entries : Counter RequestKey) (t : UsageHours),
      requestsIn (commitRequests t entries) a h =
        requestsIn t a h + Counter.total (inBucket a h) entries := by
  intro entries
  induction entries with
  | nil =>
    intro _
    rfl
  | cons e entries ih =>
    intro t
    show requestsIn (commitRequests (addRequests t e.1 e.2) entries) a h = _
    rw [ih, requestsIn_addRequests, Counter.total_cons]
    omega

/-- `record` leaves every `requests` column as it was. -/
theorem requestsIn_record (t : UsageHours) (a : Agent) (n : Nat) (s : ℚ) (now : Instant)
    (b : AgentId) (h : Instant) : requestsIn (record t a n s now) b h = requestsIn t b h := by
  unfold record
  split
  · rfl
  · unfold requestsIn addUsage
    rw [Table.find?_upsert _ _ (by intro o; rfl)]
    split_ifs with hb
    · rw [hb]
      cases t.find? _ <;> rfl
    · rfl

/-- The users of a batch that are found are those that are there. -/
theorem mem_existingUsers {users : Table User User.id} {batch : Counter RequestKey}
    {e : RequestKey × Nat} (he : e ∈ batch) :
    e.1.userId ∈ existingUsers users batch ↔ (users.find? e.1.userId).isSome := by
  unfold existingUsers
  rw [List.mem_filter, List.mem_map, List.any_eq_true]
  constructor
  · rintro ⟨⟨user, hmem, hid⟩, -⟩
    rw [← hid, Table.find?_of_mem hmem]
    rfl
  · intro hsome
    obtain ⟨user, huser⟩ := Option.isSome_iff_exists.mp hsome
    exact ⟨⟨user, Table.mem_of_find? huser, Table.key_of_find? huser⟩, e, he, decide_eq_true rfl⟩

/-- What a flush writes of a batch. -/
theorem total_kept (p : RequestKey → Bool) (users : Table User User.id)
    (batch : Counter RequestKey) :
    Counter.total p (kept (existingUsers users batch) batch) =
      Counter.total (fun k => p k && (users.find? k.userId).isSome) batch := by
  have hfound : ∀ e ∈ batch, decide (e.1.userId ∈ existingUsers users batch) =
      (users.find? e.1.userId).isSome := fun e he => by
    rw [Bool.eq_iff_iff, decide_eq_true_iff, mem_existingUsers he]
  exact Counter.total_filter
    (q := fun k : RequestKey => decide (k.userId ∈ existingUsers users batch))
    (r := fun k : RequestKey => (users.find? k.userId).isSome) hfound

/-- A batch is what its flush writes and what it skips. -/
theorem total_kept_add_dropped (p : RequestKey → Bool) (existing : List UserId)
    (batch : Counter RequestKey) :
    Counter.total p (kept existing batch) + Counter.total p (dropped existing batch) =
      Counter.total p batch :=
  Counter.total_filter_add p (fun k => decide (k.userId ∈ existing)) batch

end Gateway
