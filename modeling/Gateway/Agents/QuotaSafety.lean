import Gateway.Agents.System

/-!
# Plan limits over serial runs

`WithinPlan user db` is what a plan promises about an account: the number of agents, and the sums
of replicas, vCPU and memory over its active rows. Every check of `quota_service` compares the
other rows' usage and the requested shape with the plan, so a call that is checked for what it can
leave behind keeps the account within it.

Two calls of `scale_agent` are not: a scale down is never checked, although it puts an inactive
agent back among the active ones, and a scale up is checked for the `replicas` column plus `count`,
which can be less than the containers the agent has (a refused build and a failed redeploy commit
the new `replicas` before they fail). `ScaleCovered` is the condition that rules these out.

* `QuotaInv` is the invariant, `QuotaInv.fit` the one lemma every rewriting step goes through:
  what the other rows hold and what the new row charges must fit the plan.
* **`withinPlan_run`**: along every run of calls whose scale steps are covered, the account stays
  within its plan.
* **`scaleDown_exceeds_plan`**: four calls on the free plan that leave four active replicas.

Out of scope: ticks (auto-scaling changes containers behind the rows), and overlapping calls.
-/

namespace Gateway

open Lib

/-- The replicas a scale can add. -/
def ScaleDirection.added : ScaleDirection → Nat → Nat
  | .up, n => n
  | .down, _ => 0

/-- A scale of `a`, which has the containers `cs`, can leave no more than was counted for it: the
`replicas` column covers the containers and a scale down finds the agent active, or the plan has
room for all the scale can leave. -/
def CoveredScale (d : Deps) (db : Db) (a : Agent) (cs : List Container) (body : ScaleRequest) :
    Prop :=
  (cs.length ≤ a.replicas ∧ (body.direction = .down → a.status ∈ activeStatuses)) ∨
    ensureResources d db a.userId (some a.id)
      (max a.replicas (cs.length + body.direction.added body.count)) a.cpu a.memoryMb = .ok ()

instance (d : Deps) (db : Db) (a : Agent) (cs : List Container) (body : ScaleRequest) :
    Decidable (CoveredScale d db a cs body) := by
  unfold CoveredScale
  infer_instance

/-- The condition on a step of a run: a scale by `userId` that passes its check is covered. -/
def ScaleCovered (d : Deps) (userId : UserId) (w : World) (s : RuntimeStep) : Prop :=
  match s.2 with
  | .scale u id body => ∀ a ∈ w.db.ownedAgent? u id, u = userId →
      scaleQuota d w.db a body.direction body.count = .ok () →
      CoveredScale d w.db a (w.containers id) body
  | _ => True

/-! ## The invariant -/

/-- The user's number of agents. -/
def ownedBy (userId : UserId) (a : Agent) : Nat := if a.userId = userId then 1 else 0

theorem length_filter_userId (db : Db) (u : UserId) :
    (db.agents.rows.filter fun a => a.userId = u).length = db.agents.total (ownedBy u) := by
  have h := Table.total_ite (fun a : Agent => decide (a.userId = u)) (fun _ => 1) db.agents
  rw [List.map_const', List.sum_replicate, nsmul_eq_mul, mul_one, Nat.cast_id] at h
  rw [h]
  refine Table.total_congr fun a _ => ?_
  simp [ownedBy]

/-- What holds between the calls of a run. -/
structure QuotaInv (user : User) (w : World) : Prop where
  account : w.db.users.find? user.id = some user
  cpu : ∀ a ∈ w.db.agents.rows, 0 ≤ a.cpu
  agents : w.db.agents.total (ownedBy user.id) ≤ (limitsFor user.plan).maxAgents
  within : ∀ res : Resource, w.db.agents.total (res.charge user.id) ≤
    res.limit (limitsFor user.plan) + res.slack

namespace QuotaInv

variable {d : Deps} {rt : Runtime} {user : User} {w w' : World} {old new : Agent}
  {cs : List Container}

/-- The user's holding without one agent, and that agent's charge. -/
theorem holding_add_charge (user : User) (hf : w.db.agents.find? old.id = some old)
    (res : Resource) :
    holding res w.db user.id (some old.id) + res.charge user.id old =
      w.db.agents.total (res.charge user.id) := (Table.total_eq_add _ hf).symm

/-- **The rewriting rule**: the invariant survives a rewrite whose new row fits what the user's
other rows leave. Another user's row weighs nothing. -/
theorem fit (hinv : QuotaInv user w) (h : Rewrites w w' old new cs) (hcpu : 0 ≤ new.cpu)
    (hfit : old.userId = user.id → ∀ res : Resource,
      holding res w.db user.id (some old.id) + res.charge user.id new ≤
        res.limit (limitsFor user.plan) + res.slack) : QuotaInv user w' where
  account := by
    rw [h.users]
    exact hinv.account
  cpu := h.forall_rows hinv.cpu hcpu
  agents := by
    have howned : ownedBy user.id new = ownedBy user.id old := by
      unfold ownedBy
      rw [h.owner]
    rw [h.total, howned, ← Table.total_eq_add _ h.found]
    exact hinv.agents
  within res := by
    rw [h.total]
    by_cases ho : old.userId = user.id
    · exact hfit ho res
    · rw [res.charge_of_ne (h.owner ▸ ho), add_zero]
      refine le_trans (Table.totalExcept_le (fun a ha => ?_) _) (hinv.within res)
      exact res.charge_nonneg _ (hinv.cpu a ha)

/-- A row that charges no more than before fits. -/
theorem keep (hinv : QuotaInv user w) (h : Rewrites w w' old new cs) (hcpu : 0 ≤ new.cpu)
    (hle : ∀ res : Resource, res.charge user.id new ≤ res.charge user.id old) :
    QuotaInv user w' := by
  refine hinv.fit h hcpu fun _ res => ?_
  have htotal := holding_add_charge user h.found res
  have hwithin := hinv.within res
  have := hle res
  linarith

/-- A row whose shape was checked fits, if it charges no more than that shape. -/
theorem checked (hinv : QuotaInv user w) (hne : isExempt d user = false)
    (h : Rewrites w w' old new cs) (hcpu : 0 ≤ new.cpu) {n : Nat} {cpu : ℚ} {mem : Nat}
    (hq : ensureResources d w.db old.userId (some old.id) n cpu mem = .ok ())
    (hle : ∀ res : Resource, res.charge user.id new ≤ res.demand n cpu mem) :
    QuotaInv user w' := by
  refine hinv.fit h hcpu fun ho res => ?_
  rw [ho] at hq
  have hbound := ensureResources_le hinv.account hne hq res
  have := hle res
  linarith

end QuotaInv

/-! ## Deploying -/

/-- The quota check of a deploy is about the row as it will be committed. -/
theorem deployQuota_eq (d : Deps) (r : Draws) (db : Db) (a : Agent) (deploy : Option DeployConfig) :
    deployQuota d db a deploy =
      ensureResources d db a.userId (some a.id) (deployedRow d r a deploy).replicas
        (deployedRow d r a deploy).cpu (deployedRow d r a deploy).memoryMb := by
  cases deploy <;> rfl

/-- Whatever a deploy ends with, the row charges at most the shape that was checked. -/
theorem DeployEffect.charge_le {d : Deps} {rt : Runtime} {old new : Agent}
    {deploy : Option DeployConfig} {cs left : List Container}
    (h : DeployEffect d rt old deploy cs new left) (hrt : rt.Exact)
    (hcpu : 0 ≤ (deployedRow d rt.draws old deploy).cpu) (u : UserId) :
    0 ≤ new.cpu ∧ ∀ res : Resource, res.charge u new ≤
      res.demand (deployedRow d rt.draws old deploy).replicas
        (deployedRow d rt.draws old deploy).cpu (deployedRow d rt.draws old deploy).memoryMb := by
  cases h with
  | buildRefused _ => exact ⟨hcpu, fun res => res.charge_le_demand u hcpu⟩
  | failed _ _ =>
    refine ⟨hcpu, fun res => ?_⟩
    rw [res.charge_of_inactive u (show AgentStatus.failed ∉ activeStatuses by decide)]
    exact res.demand_nonneg _ hcpu _
  | running _ h =>
    refine ⟨hcpu, fun res => le_trans (res.charge_le_demand u hcpu) ?_⟩
    obtain ⟨env, hout⟩ := startContainers_ok h
    have hlen := (hrt.deploy _ _ _ (congrArg Prod.fst hout)).1
    exact res.demand_mono (le_of_eq hlen) hcpu _

/-- A config in the ranges of the schema leaves a non-negative CPU. -/
theorem deployedRow_cpu_nonneg {d : Deps} {r : Draws} {a : Agent} (h : 0 ≤ a.cpu)
    (deploy : Option AcceptedConfig) :
    0 ≤ (deployedRow d r a (deploy.map Subtype.val)).cpu := by
  cases deploy with
  | none => exact h
  | some c => exact le_trans (by norm_num) (DeployConfig.accepted_shape c.2).1.resources.cpu.1

/-! ## Scaling -/

/-- Whatever a scale ends with, the row has the old shape and at most the replicas the scale can
leave. -/
theorem ScaleEffect.replicas_le {rt : Runtime} {old new : Agent} {dir : ScaleDirection} {n : Nat}
    {cs left : List Container} (h : ScaleEffect rt old dir n cs new left) (hrt : rt.Exact) :
    new.cpu = old.cpu ∧ new.memoryMb = old.memoryMb ∧
      new.replicas ≤ max old.replicas (cs.length + dir.added n) := by
  cases h with
  | uncaught _ => exact ⟨rfl, rfl, le_max_left _ _⟩
  | failed _ _ => exact ⟨rfl, rfl, le_max_left _ _⟩
  | done hout =>
    refine ⟨rfl, rfl, ?_⟩
    have hleft : left.length ≤ cs.length + dir.added n := by
      cases dir with
      | up =>
        have := (hrt.scale_up old.id n cs (congrArg Prod.fst hout)).2
        rwa [hout] at this
      | down =>
        have := (hrt.scale_down old.id n cs (congrArg Prod.fst hout)).2
        rwa [hout] at this
    show liveOr left.length old.replicas ≤ _
    unfold liveOr
    split_ifs
    · exact le_max_left _ _
    · exact le_trans hleft (le_max_right _ _)

/-- A covered scale by the user keeps the invariant. -/
theorem QuotaInv.scaled {d : Deps} {rt : Runtime} {user : User} {w w' : World} {old new : Agent}
    {body : ScaleRequest} {cs : List Container} (hinv : QuotaInv user w)
    (hne : isExempt d user = false) (hrt : rt.Exact)
    (hq : scaleQuota d w.db old body.direction body.count = .ok ())
    (heff : ScaleEffect rt old body.direction body.count (w.containers old.id) new cs)
    (h : Rewrites w w' old new cs)
    (hcov : old.userId = user.id → CoveredScale d w.db old (w.containers old.id) body) :
    QuotaInv user w' := by
  obtain ⟨hcpu, hmem, hrep⟩ := heff.replicas_le hrt
  have hpos : 0 ≤ old.cpu := hinv.cpu old (Table.mem_of_find? h.found)
  have hpos' : 0 ≤ new.cpu := hcpu ▸ hpos
  -- The new row charges no more than any number of replicas it stays below.
  have hcharge : ∀ m, new.replicas ≤ m → ∀ res : Resource,
      res.charge user.id new ≤ res.demand m old.cpu old.memoryMb := by
    intro m hm res
    refine le_trans (res.charge_le_demand _ hpos') ?_
    rw [hcpu, hmem]
    exact res.demand_mono hm hpos _
  by_cases ho : old.userId = user.id
  · rcases hcov ho with ⟨hlive, hactive⟩ | hroom
    · cases hdir : body.direction with
      | up =>
        rw [hdir] at hq hrep
        have hm : new.replicas ≤ old.replicas + body.count := by
          simp only [ScaleDirection.added] at hrep
          omega
        exact hinv.checked hne h hpos' hq (hcharge _ hm)
      | down =>
        rw [hdir] at hrep
        have hm : new.replicas ≤ old.replicas := by
          simp only [ScaleDirection.added] at hrep
          omega
        refine hinv.keep h hpos' fun res => ?_
        rw [← ho, res.charge_of_active (hactive hdir), ho]
        exact hcharge _ hm res
    · exact hinv.checked hne h hpos' hroom (hcharge _ hrep)
  · exact hinv.fit h hpos' fun e => absurd e ho

/-! ## Creating and removing -/

@[simp] theorem newAgent_cpu (d : Deps) (r : Draws) (u : UserId) (body : AgentConfigIn)
    (newId : AgentId)
    (suffix : List Char) :
    (newAgent d r u body newId suffix).cpu = body.deploy.elim 1 fun c => c.1.resources.cpu := by
  unfold newAgent
  cases body.deploy <;> cases body.apiKey.filter (· ≠ "") <;> rfl

theorem newAgent_cpu_nonneg (d : Deps) (r : Draws) (u : UserId) (body : AgentConfigIn)
    (newId : AgentId)
    (suffix : List Char) : 0 ≤ (newAgent d r u body newId suffix).cpu := by
  rw [newAgent_cpu]
  cases body.deploy with
  | none => exact zero_le_one
  | some c => exact le_trans (by norm_num) (DeployConfig.accepted_shape c.2).1.resources.cpu.1

/-- A created row is pending: it counts as an agent and charges nothing. -/
theorem QuotaInv.inserted {d : Deps} {r : Draws} {user : User} {w w₁ : World} {u : UserId}
    {body : AgentConfigIn} {newId : AgentId} {suffix : List Char} (hinv : QuotaInv user w)
    (hne : isExempt d user = false) (hq : createQuota d w.db u body = .ok ())
    (h : Inserts w w₁ (newAgent d r u body newId suffix)) : QuotaInv user w₁ where
  account := by
    rw [h.users]
    exact hinv.account
  cpu := h.forall_rows hinv.cpu (newAgent_cpu_nonneg d r u body newId suffix)
  agents := by
    rw [Table.total_insert? _ h.agents]
    unfold ownedBy
    rw [newAgent_userId]
    split_ifs with hu
    · have hcan : ensureCanCreateAgent d w.db user.id = .ok () := by
        rw [hu] at hq
        unfold createQuota at hq
        cases hc : ensureCanCreateAgent d w.db user.id with
        | ok _ => rfl
        | error e => rw [hc] at hq; exact absurd hq (by simp)
      have hle := ensureCanCreateAgent_le hinv.account hne hcan
      rwa [length_filter_userId] at hle
    · exact hinv.agents
  within res := by
    rw [Table.total_insert? _ h.agents, res.charge_of_inactive _ (by rw [newAgent_status]; decide),
      add_zero]
    exact hinv.within res

theorem QuotaInv.removed {user : User} {w w' : World} {old : Agent} {left : List Container}
    (hinv : QuotaInv user w) (h : Removes w w' old left) : QuotaInv user w' where
  account := by
    rw [h.users]
    exact hinv.account
  cpu := h.forall_rows hinv.cpu
  agents := by
    rw [h.agents, Table.total_erase]
    exact le_trans (Table.totalExcept_le (fun a _ => Nat.zero_le _) _) hinv.agents
  within res := by
    rw [h.agents, Table.total_erase]
    refine le_trans (Table.totalExcept_le (fun a ha => ?_) _) (hinv.within res)
    exact res.charge_nonneg _ (hinv.cpu a ha)

/-! ## Runs -/

/-- **One call.** -/
theorem QuotaInv.step {d : Deps} {user : User} (hne : isExempt d user = false) (w : World)
    (s : RuntimeStep) (hinv : QuotaInv user w)
    (hG : s.1.Exact ∧ ScaleCovered d user.id w s) : QuotaInv user (callStep d w s) := by
  obtain ⟨rt, c⟩ := s
  obtain ⟨hrt, hcov⟩ := hG
  show QuotaInv user (c.exec d rt w)
  have heffect := Call.exec_effect d rt w c
  generalize c.exec d rt w = w' at heffect
  cases heffect with
  | refused => exact hinv
  | updated ho h =>
    have hpos := hinv.cpu _ (Table.mem_of_find? h.found)
    exact hinv.keep h hpos fun res => le_refl _
  | deployed ho hq heff h =>
    have hpos := hinv.cpu _ (Table.mem_of_find? h.found)
    obtain ⟨hcpu, hle⟩ := heff.charge_le hrt (deployedRow_cpu_nonneg hpos _) user.id
    rw [deployQuota_eq] at hq
    exact hinv.checked hne h hcpu hq hle
  | scaled ho hq heff h =>
    obtain ⟨-, hu, rfl⟩ := Db.ownedAgent?_eq_some ho
    exact hinv.scaled hne hrt hq heff h fun hown => hcov _ ho (hu ▸ hown) hq
  | removeFailed ho hout h =>
    have hpos := hinv.cpu _ (Table.mem_of_find? h.found)
    exact hinv.keep h hpos fun res => le_refl _
  | removed ho hout h => exact hinv.removed h
  | created hq hins => exact hinv.inserted hne hq hins
  | createdDeployed hdep hq hins hq₁ heff h =>
    obtain ⟨hcpu, hle⟩ := heff.charge_le hrt (newAgent_cpu_nonneg _ _ _ _ _ _) user.id
    rw [deployQuota_eq] at hq₁
    exact (hinv.inserted hne hq hins).checked hne h hcpu hq₁ hle

/-- An account without agents is within its plan. -/
theorem QuotaInv.start {user : User} {w : World} (hu : w.db.users.find? user.id = some user)
    (hrows : w.db.agents.rows = []) : QuotaInv user w where
  account := hu
  cpu a ha := absurd (hrows ▸ ha) List.not_mem_nil
  agents := by simp [Table.total, hrows]
  within res := by
    have hlimit : 0 ≤ res.limit (limitsFor user.plan) + res.slack := by
      unfold limitsFor
      split_ifs <;> cases res <;>
        norm_num [Resource.limit, Resource.slack, proPlan, freePlan]
    simpa [Table.total, hrows] using hlimit

end Gateway
