import Mathlib.Algebra.BigOperators.Ring.Finset
import Gateway.Model.World

/-!
# Plan quotas (`services/quota_service.py`)

`currentUsage`, `ensureCanCreateAgent` and `ensureResources` as the source computes them. The
source's floats are rationals and `round(x, 3)` is any rule picking a nearest multiple of `0.001`
(`Deps.round3`).

What the checks are for is said in `Resource` terms: a resource has a per-replica `unit`, a plan
`limit`, and the `slack` the rounding of the check leaves it. `charge` is what one row holds of a
resource (nothing unless it is active), and a user's holding is the table total of the charges.
`ensureResources_le` is the one fact later proofs use: if the check passes for a user who is not
exempt, the other rows' charges and the requested one fit the limit up to the slack.
-/

namespace Gateway

open Lib

/-- `ACTIVE_STATUSES`: agents in these states hold their replicas' resources. -/
def activeStatuses : List AgentStatus := [.running, .scaling, .starting]

/-- `Usage`. -/
structure Usage where
  agents : Nat
  replicas : Nat
  vcpu : ℚ
  memoryMb : Nat
  deriving DecidableEq, Repr

/-- The rows `current_usage` sums over. -/
def activeAgents (db : Db) (userId : UserId) (excludeAgentId : Option AgentId) : List Agent :=
  db.agents.rows.filter fun a =>
    a.userId = userId ∧ a.status ∈ activeStatuses ∧ excludeAgentId ≠ some a.id

/-- `current_usage`. -/
def currentUsage (d : Deps) (db : Db) (userId : UserId) (excludeAgentId : Option AgentId) :
    Usage where
  agents := (db.agents.rows.filter fun a => a.userId = userId).length
  replicas := ((activeAgents db userId excludeAgentId).map Agent.replicas).sum
  vcpu := d.round3.round
    ((activeAgents db userId excludeAgentId).map fun a => (a.replicas : ℚ) * a.cpu).sum
  memoryMb := ((activeAgents db userId excludeAgentId).map fun a => a.replicas * a.memoryMb).sum

/-- The message `_user` raises with. -/
def invalidToken : GatewayError := .authentication "Invalid or expired token."

/-- `ensure_can_create_agent`. -/
def ensureCanCreateAgent (d : Deps) (db : Db) (userId : UserId) : Except GatewayError Unit :=
  match db.users.find? userId with
  | none => .error invalidToken
  | some user =>
    if isExempt d user then .ok ()
    else
      let limits := limitsFor user.plan
      let usage := currentUsage d db userId none
      if limits.maxAgents < usage.agents + 1 then
        .error (.quotaExceeded .agents user.plan limits.maxAgents 1 (some usage.agents))
      else .ok ()

/-- One line of the `checks` of `ensure_resources`. -/
structure QuotaCheck where
  resource : QuotaResource
  current : ℚ
  requested : ℚ
  limit : ℚ

/-- The `checks` of `ensure_resources`. -/
def quotaChecks (d : Deps) (usage : Usage) (limits : PlanLimits) (replicas : Nat) (cpu : ℚ)
    (memoryMb : Nat) : List QuotaCheck :=
  [⟨.replicas, usage.replicas, replicas, limits.maxReplicas⟩,
    ⟨.vcpu, usage.vcpu, d.round3.round (replicas * cpu), limits.maxVcpu⟩,
    ⟨.memoryMb, usage.memoryMb, (replicas * memoryMb : Nat), limits.maxMemoryMb⟩]

/-- `ensure_resources`: would running `agentId` with this shape stay within the plan? -/
def ensureResources (d : Deps) (db : Db) (userId : UserId) (agentId : Option AgentId)
    (replicas : Nat) (cpu : ℚ) (memoryMb : Nat) : Except GatewayError Unit :=
  match db.users.find? userId with
  | none => .error invalidToken
  | some user =>
    if isExempt d user then .ok ()
    else
      let limits := limitsFor user.plan
      if limits.maxReplicaCpu < cpu then
        .error (.quotaExceeded .cpuPerReplica user.plan limits.maxReplicaCpu cpu none)
      else if limits.maxReplicaMemoryMb < memoryMb then
        .error (.quotaExceeded .memoryMbPerReplica user.plan limits.maxReplicaMemoryMb memoryMb
          none)
      else
        let usage := currentUsage d db userId agentId
        -- The loop raises at the first line over its limit.
        match (quotaChecks d usage limits replicas cpu memoryMb).find? fun c =>
            decide (c.limit < d.round3.round (c.current + c.requested)) with
        | some c =>
          .error (.quotaExceeded c.resource user.plan c.limit c.requested (some c.current))
        | none => .ok ()

/-- `has_headroom_for_replica`: only `QuotaExceededError` means no; anything else propagates. -/
def hasHeadroomForReplica (d : Deps) (db : Db) (a : Agent) : Except GatewayError Bool :=
  match ensureResources d db a.userId (some a.id) (a.replicas + 1) a.cpu a.memoryMb with
  | .ok () => .ok true
  | .error (.quotaExceeded ..) => .ok false
  | .error e => .error e

/-- The quota query answers as long as the owner is there. -/
theorem hasHeadroomForReplica_ok {d : Deps} {db : Db} {a : Agent} {user : User}
    (h : db.users.find? a.userId = some user) :
    ∃ room, hasHeadroomForReplica d db a = .ok room := by
  unfold hasHeadroomForReplica ensureResources
  rw [h]
  simp only
  split_ifs
  · exact ⟨true, rfl⟩
  · exact ⟨false, rfl⟩
  · exact ⟨false, rfl⟩
  · split
    · exact ⟨true, rfl⟩
    · exact ⟨false, rfl⟩
    · rename_i e hnot heq
      split at heq
      · cases heq
        exact absurd rfl (hnot _ _ _ _ _)
      · cases heq

/-! ## Resources -/

/-- The three resources a plan bounds across an account's active replicas. -/
inductive Resource where
  | replicas
  | vcpu
  | memoryMb
  deriving DecidableEq, Repr

namespace Resource

/-- What one replica of a shape holds. -/
def unit : Resource → ℚ → Nat → ℚ
  | .replicas, _, _ => 1
  | .vcpu, cpu, _ => cpu
  | .memoryMb, _, mb => mb

/-- What the plan allows. -/
def limit : Resource → PlanLimits → ℚ
  | .replicas, l => l.maxReplicas
  | .vcpu, l => l.maxVcpu
  | .memoryMb, l => l.maxMemoryMb

/-- How far the check may let the exact sum past the limit. -/
def slack : Resource → ℚ
  | .vcpu => 1 / 1000
  | _ => 0

/-- What `n` replicas of a shape hold. -/
def demand (res : Resource) (n : Nat) (cpu : ℚ) (memoryMb : Nat) : ℚ := n * res.unit cpu memoryMb

/-- What a row holds of its owner's plan: its replicas' share while it is active. -/
def charge (res : Resource) (userId : UserId) (a : Agent) : ℚ :=
  if a.userId = userId ∧ a.status ∈ activeStatuses then res.demand a.replicas a.cpu a.memoryMb
  else 0

theorem demand_nonneg (res : Resource) (n : Nat) {cpu : ℚ} (h : 0 ≤ cpu) (m : Nat) :
    0 ≤ res.demand n cpu m := by
  unfold demand
  cases res with
  | replicas => exact mul_nonneg (Nat.cast_nonneg n) zero_le_one
  | vcpu => exact mul_nonneg (Nat.cast_nonneg n) h
  | memoryMb => exact mul_nonneg (Nat.cast_nonneg n) (Nat.cast_nonneg m)

theorem demand_mono (res : Resource) {m n : Nat} (hmn : m ≤ n) {cpu : ℚ} (h : 0 ≤ cpu)
    (mem : Nat) : res.demand m cpu mem ≤ res.demand n cpu mem := by
  have hunit : 0 ≤ res.unit cpu mem := by
    cases res with
    | replicas => exact zero_le_one
    | vcpu => exact h
    | memoryMb => exact Nat.cast_nonneg mem
  exact mul_le_mul_of_nonneg_right (Nat.cast_le.mpr hmn) hunit

theorem charge_nonneg (res : Resource) (u : UserId) {a : Agent} (h : 0 ≤ a.cpu) :
    0 ≤ res.charge u a := by
  unfold charge
  split_ifs
  · exact res.demand_nonneg _ h _
  · exact le_refl _

/-- A row's charge never exceeds its own demand. -/
theorem charge_le_demand (res : Resource) (u : UserId) {a : Agent} (h : 0 ≤ a.cpu) :
    res.charge u a ≤ res.demand a.replicas a.cpu a.memoryMb := by
  unfold charge
  split_ifs
  · exact le_refl _
  · exact res.demand_nonneg _ h _

theorem charge_of_active (res : Resource) {a : Agent} (h : a.status ∈ activeStatuses) :
    res.charge a.userId a = res.demand a.replicas a.cpu a.memoryMb := if_pos ⟨rfl, h⟩

theorem charge_of_inactive (res : Resource) (u : UserId) {a : Agent}
    (h : a.status ∉ activeStatuses) : res.charge u a = 0 := if_neg fun e => h e.2

theorem charge_of_ne (res : Resource) {u : UserId} {a : Agent} (h : a.userId ≠ u) :
    res.charge u a = 0 := if_neg fun e => h e.1

end Resource

/-- A user's charges, those of the excluded agent left out. -/
def holding (res : Resource) (db : Db) (userId : UserId) : Option AgentId → ℚ
  | none => db.agents.total (res.charge userId)
  | some id => db.agents.totalExcept id (res.charge userId)

/-- The sum `current_usage` takes over the active rows is the user's holding. -/
theorem sum_activeAgents (res : Resource) (db : Db) (u : UserId) (ex : Option AgentId) :
    ((activeAgents db u ex).map fun a => res.demand a.replicas a.cpu a.memoryMb).sum =
      holding res db u ex := by
  unfold activeAgents
  rw [Table.total_ite]
  cases ex with
  | none =>
    refine Table.total_congr fun a _ => ?_
    simp [Resource.charge]
  | some id =>
    refine Table.total_congr fun a _ => ?_
    by_cases hid : a.id = id
    · simp [hid]
    · simp [hid, Ne.symm hid, Resource.charge]

theorem sum_replicas (db : Db) (u : UserId) (ex : Option AgentId) :
    ((((activeAgents db u ex).map Agent.replicas).sum : ℕ) : ℚ) = holding .replicas db u ex := by
  rw [← sum_activeAgents]
  simp [Resource.demand, Resource.unit, Nat.cast_list_sum, Function.comp_def]

theorem sum_vcpu (db : Db) (u : UserId) (ex : Option AgentId) :
    ((activeAgents db u ex).map fun a => (a.replicas : ℚ) * a.cpu).sum =
      holding .vcpu db u ex := sum_activeAgents .vcpu db u ex

theorem sum_memoryMb (db : Db) (u : UserId) (ex : Option AgentId) :
    ((((activeAgents db u ex).map fun a => a.replicas * a.memoryMb).sum : ℕ) : ℚ) =
      holding .memoryMb db u ex := by
  rw [← sum_activeAgents]
  simp [Resource.demand, Resource.unit, Nat.cast_list_sum, Function.comp_def]

theorem currentUsage_replicas (d : Deps) (db : Db) (u : UserId) (ex : Option AgentId) :
    ((currentUsage d db u ex).replicas : ℚ) = holding .replicas db u ex := sum_replicas db u ex

theorem currentUsage_memoryMb (d : Deps) (db : Db) (u : UserId) (ex : Option AgentId) :
    ((currentUsage d db u ex).memoryMb : ℚ) = holding .memoryMb db u ex := sum_memoryMb db u ex

theorem currentUsage_vcpu (d : Deps) (db : Db) (u : UserId) (ex : Option AgentId) :
    (currentUsage d db u ex).vcpu = d.round3.round (holding .vcpu db u ex) :=
  congrArg d.round3.round (sum_vcpu db u ex)

/-- The check of a row goes by the accounts, what the others hold and the shape of the row. -/
theorem hasHeadroomForReplica_of_holding {d : Deps} {db db' : Db} {a a' : Agent}
    (husers : db'.users = db.users) (hid : a'.id = a.id) (huser : a'.userId = a.userId)
    (hreplicas : a'.replicas = a.replicas) (hcpu : a'.cpu = a.cpu)
    (hmemory : a'.memoryMb = a.memoryMb)
    (hholding : ∀ res : Resource,
      holding res db' a.userId (some a.id) = holding res db a.userId (some a.id)) :
    hasHeadroomForReplica d db' a' = hasHeadroomForReplica d db a := by
  have hchecks : ∀ limits n cpu memoryMb,
      quotaChecks d (currentUsage d db' a.userId (some a.id)) limits n cpu memoryMb =
        quotaChecks d (currentUsage d db a.userId (some a.id)) limits n cpu memoryMb := by
    intro limits n cpu memoryMb
    unfold quotaChecks
    rw [currentUsage_replicas, currentUsage_replicas, currentUsage_vcpu, currentUsage_vcpu,
      currentUsage_memoryMb, currentUsage_memoryMb, hholding, hholding, hholding]
  unfold hasHeadroomForReplica ensureResources
  rw [hid, huser, hreplicas, hcpu, hmemory, husers]
  simp only [hchecks]

/-- Whole numbers are on the rounding grid. -/
theorem round3_natCast (d : Deps) (n : Nat) : d.round3.round (n : ℚ) = n := by
  have h : (n : ℚ) = ((n * 1000 : ℤ) : ℚ) * (1 / 1000) := by
    push_cast
    ring
  rw [h, d.round3.round_mul (by norm_num)]

/-! ## What a passed check guarantees -/

/-- What `ensure_resources` has compared when it passes for a user it does not exempt. -/
theorem ensureResources_checks {d : Deps} {db : Db} {user : User} {ex : Option AgentId} {n : Nat}
    {cpu : ℚ} {mem : Nat} (hu : db.users.find? user.id = some user) (hne : isExempt d user = false)
    (h : ensureResources d db user.id ex n cpu mem = .ok ()) :
    cpu ≤ (limitsFor user.plan).maxReplicaCpu ∧ mem ≤ (limitsFor user.plan).maxReplicaMemoryMb ∧
      ∀ c ∈ quotaChecks d (currentUsage d db user.id ex) (limitsFor user.plan) n cpu mem,
        d.round3.round (c.current + c.requested) ≤ c.limit := by
  unfold ensureResources at h
  rw [hu] at h
  simp only [hne, Bool.false_eq_true, if_false] at h
  split at h
  · exact absurd h (by simp)
  · rename_i hcpu
    split at h
    · exact absurd h (by simp)
    · rename_i hmem
      split at h
      · exact absurd h (by simp)
      · rename_i hfind
        refine ⟨not_lt.mp hcpu, not_lt.mp hmem, fun c hc => ?_⟩
        simpa using List.find?_eq_none.mp hfind c hc

/-- **A passed check bounds the exact sums**: the user's other active rows and the requested shape
together stay within the plan, up to the `0.001` the rounding leaves vCPU. -/
theorem ensureResources_le {d : Deps} {db : Db} {user : User} {ex : Option AgentId} {n : Nat}
    {cpu : ℚ} {mem : Nat} (hu : db.users.find? user.id = some user) (hne : isExempt d user = false)
    (h : ensureResources d db user.id ex n cpu mem = .ok ()) (res : Resource) :
    holding res db user.id ex + res.demand n cpu mem ≤
      res.limit (limitsFor user.plan) + res.slack := by
  obtain ⟨-, -, hchecks⟩ := ensureResources_checks hu hne h
  cases res with
  | replicas =>
    have hc := hchecks _ (List.mem_cons_self)
    simp only at hc
    rw [← Nat.cast_add, round3_natCast, Nat.cast_add, currentUsage_replicas] at hc
    simpa [Resource.demand, Resource.unit, Resource.limit, Resource.slack] using hc
  | vcpu =>
    have hc := hchecks _ (List.mem_cons_of_mem _ List.mem_cons_self)
    simp only [currentUsage_vcpu] at hc
    exact d.round3.add_le_of_round_le (by norm_num) hc
  | memoryMb =>
    have hc := hchecks _ (List.mem_cons_of_mem _ (List.mem_cons_of_mem _ List.mem_cons_self))
    simp only at hc
    rw [← Nat.cast_add, round3_natCast, Nat.cast_add, currentUsage_memoryMb, Nat.cast_mul] at hc
    simpa [Resource.demand, Resource.unit, Resource.limit, Resource.slack] using hc

theorem ensureCanCreateAgent_le {d : Deps} {db : Db} {user : User}
    (hu : db.users.find? user.id = some user) (hne : isExempt d user = false)
    (h : ensureCanCreateAgent d db user.id = .ok ()) :
    (db.agents.rows.filter fun a => a.userId = user.id).length + 1 ≤
      (limitsFor user.plan).maxAgents := by
  unfold ensureCanCreateAgent at h
  rw [hu] at h
  simp only [hne, Bool.false_eq_true, if_false] at h
  split at h
  · exact absurd h (by simp)
  · rename_i hle
    exact not_lt.mp hle

end Gateway
