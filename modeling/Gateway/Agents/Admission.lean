import Mathlib.Algebra.BigOperators.Group.List.Basic
import Gateway.Agents.Quota

/-!
# Admission is exact up to one grid step

`ensure_resources` rounds in three places around its comparison with `max_vcpu`: the sum over the
active agents, the request, and their sum. The sum is rounded once however many agents there are, so
the errors do not add up.

* `ensureResources_ok_iff`: the check passes exactly when the caps and its three lines do.
* `OnGrid`: a multiple of `0.001`. On such numbers nothing is lost.
* **`ensureResources_exact`**: what a passed check says of the exact sums, and which exact sums are
  enough for it to pass.
-/

namespace Gateway

open Lib

/-- A multiple of `0.001`. -/
def OnGrid (x : ℚ) : Prop := ∃ k : ℤ, x = k * (1 / 1000)

theorem OnGrid.add {x y : ℚ} (hx : OnGrid x) (hy : OnGrid y) : OnGrid (x + y) := by
  obtain ⟨k, rfl⟩ := hx
  obtain ⟨m, rfl⟩ := hy
  exact ⟨k + m, by push_cast; ring⟩

theorem OnGrid.natCast_mul {x : ℚ} (hx : OnGrid x) (n : Nat) : OnGrid (n * x) := by
  obtain ⟨k, rfl⟩ := hx
  exact ⟨n * k, by push_cast; ring⟩

theorem onGrid_sum {xs : List ℚ} (h : ∀ x ∈ xs, OnGrid x) : OnGrid xs.sum := by
  induction xs with
  | nil => exact ⟨0, by simp⟩
  | cons x xs ih =>
    rw [List.sum_cons]
    exact (h x List.mem_cons_self).add (ih fun y hy => h y (List.mem_cons_of_mem x hy))

theorem OnGrid.round3_eq {x : ℚ} (hx : OnGrid x) (d : Deps) : d.round3.round x = x := by
  obtain ⟨k, rfl⟩ := hx
  exact d.round3.round_mul (by norm_num) k

section Admission

variable {d : Deps} {db : Db} {user : User} {ex : Option AgentId} {n : Nat} {cpu : ℚ} {mem : Nat}

/-- The check passes exactly when the per-replica caps and its three lines do. -/
theorem ensureResources_ok_iff (hu : db.users.find? user.id = some user)
    (hne : isExempt d user = false) :
    ensureResources d db user.id ex n cpu mem = .ok () ↔
      cpu ≤ (limitsFor user.plan).maxReplicaCpu ∧ mem ≤ (limitsFor user.plan).maxReplicaMemoryMb ∧
        ∀ c ∈ quotaChecks d (currentUsage d db user.id ex) (limitsFor user.plan) n cpu mem,
          d.round3.round (c.current + c.requested) ≤ c.limit := by
  refine ⟨ensureResources_checks hu hne, fun ⟨hcpu, hmem, hchecks⟩ => ?_⟩
  have hfind : (quotaChecks d (currentUsage d db user.id ex) (limitsFor user.plan) n cpu mem).find?
      (fun c => decide (c.limit < d.round3.round (c.current + c.requested))) = none :=
    List.find?_eq_none.mpr fun c hc => by simpa using hchecks c hc
  unfold ensureResources
  rw [hu]
  simp only [hne, Bool.false_eq_true, if_false]
  rw [if_neg (not_lt.mpr hcpu), if_neg (not_lt.mpr hmem), hfind]

/-- The three lines, for the exact sums of replicas and memory and the rounded one of vCPU. -/
theorem quotaChecks_le_iff (limits : PlanLimits) :
    (∀ c ∈ quotaChecks d (currentUsage d db user.id ex) limits n cpu mem,
        d.round3.round (c.current + c.requested) ≤ c.limit) ↔
      ((activeAgents db user.id ex).map Agent.replicas).sum + n ≤ limits.maxReplicas ∧
      d.round3.round (d.round3.round
          ((activeAgents db user.id ex).map fun a => (a.replicas : ℚ) * a.cpu).sum +
        d.round3.round (n * cpu)) ≤ limits.maxVcpu ∧
      ((activeAgents db user.id ex).map fun a => a.replicas * a.memoryMb).sum + n * mem ≤
        limits.maxMemoryMb := by
  unfold quotaChecks
  simp only [List.forall_mem_cons, List.not_mem_nil, false_imp_iff, implies_true, and_true]
  rw [← Nat.cast_add, ← Nat.cast_add, round3_natCast, round3_natCast, Nat.cast_le, Nat.cast_le]
  rfl

/-- **Admission is exact up to `0.001` vCPU, however many agents contribute.** For a user who is not
exempt the check passes only if the caps hold, replicas and memory fit exactly and vCPU fits up to
`0.001`; and it does pass if the caps, replicas and memory are fine and the exact vCPU is `0.001`
below its limit, or just within it with every CPU value a multiple of `0.001`. -/
theorem ensureResources_exact (hu : db.users.find? user.id = some user)
    (hne : isExempt d user = false) :
    let limits := limitsFor user.plan
    let active := activeAgents db user.id ex
    let vcpu := (active.map fun a => (a.replicas : ℚ) * a.cpu).sum + n * cpu
    let exactly := cpu ≤ limits.maxReplicaCpu ∧ mem ≤ limits.maxReplicaMemoryMb ∧
      (active.map Agent.replicas).sum + n ≤ limits.maxReplicas ∧
      (active.map fun a => a.replicas * a.memoryMb).sum + n * mem ≤ limits.maxMemoryMb
    (ensureResources d db user.id ex n cpu mem = .ok () →
      exactly ∧ vcpu ≤ limits.maxVcpu + 1 / 1000) ∧
    (exactly → vcpu ≤ limits.maxVcpu - 1 / 1000 ∨
        (vcpu ≤ limits.maxVcpu ∧ OnGrid cpu ∧ ∀ a ∈ active, OnGrid a.cpu) →
      ensureResources d db user.id ex n cpu mem = .ok ()) := by
  intro limits active vcpu exactly
  rw [ensureResources_ok_iff hu hne, quotaChecks_le_iff]
  constructor
  · rintro ⟨hcpu, hmem, hreplicas, hvcpu, hmemory⟩
    exact ⟨⟨hcpu, hmem, hreplicas, hmemory⟩, d.round3.add_le_of_round_le (by norm_num) hvcpu⟩
  · rintro ⟨hcpu, hmem, hreplicas, hmemory⟩ hfits
    refine ⟨hcpu, hmem, hreplicas, ?_, hmemory⟩
    rcases hfits with hbelow | ⟨hwithin, hgrid, hgrids⟩
    · exact d.round3.round_le_of_add_le (by norm_num) hbelow
    · have hsum : OnGrid (active.map fun a => (a.replicas : ℚ) * a.cpu).sum := by
        refine onGrid_sum fun x hx => ?_
        obtain ⟨a, ha, rfl⟩ := List.mem_map.mp hx
        exact (hgrids a ha).natCast_mul a.replicas
      rw [d.round3.round_add_round (by norm_num), hsum.round3_eq, (hgrid.natCast_mul n).round3_eq]
      exact hwithin

end Admission

/-- A free account with two replicas of one vCPU running. -/
def atTwoVcpus : Db :=
  let twoReplicas :=
    { freeAgent with status := .running, replicas := 2, cpu := 1, memoryMb := 512 }
  (World.withAgent twoReplicas).db

/-- A third replica of one vCPU takes the account exactly to its limit, and is admitted. -/
theorem ensureResources_exact_at_limit :
    ((activeAgents atTwoVcpus freeUser.id none).map fun a => (a.replicas : ℚ) * a.cpu).sum = 2 ∧
      ensureResources .transparent atTwoVcpus freeUser.id none 1 1 512 = .ok () := by
  refine ⟨by decide +kernel, (ensureResources_exact (by decide +kernel) (by decide)).2
    (by decide +kernel) (Or.inr ⟨by decide +kernel, ⟨1000, by norm_num⟩, fun a ha => ⟨1000, ?_⟩⟩)⟩
  have hone : ∀ a ∈ activeAgents atTwoVcpus freeUser.id none, a.cpu = 1 := by decide +kernel
  rw [hone a ha]
  norm_num

end Gateway
