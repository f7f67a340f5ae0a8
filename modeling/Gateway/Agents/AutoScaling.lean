import Gateway.Agents.System

/-!
# Auto-scaling and the plan

"Auto-scaling never takes an account past its plan": before `rt.auto_scale` a turn asks
`has_headroom_for_replica`, which adds one replica of its own agent to the rows of the others. The
replicas that `auto_scale` adds are in no row until the next tick observes them, so every agent of
an account is checked as if it were the only one to grow; and the containers of a row that is not
active are in no sum at all.

* `growing` lists the agents whose turn gets as far as `rt.auto_scale`: health reports and headroom
  checks, on the rows as the turns so far have left them.
* `tickAgents_live` says what a tick does to an account's live total: each agent that grows adds
  what its `auto_scale` added.
* **`autoScaling_within_plan_iff`**: the account stays within its plan, whatever the calls of
  `auto_scale` add up to one replica each, iff the plan has room for one more replica of all the
  account's growing agents together.
* `jointHeadroom_counted_iff`: where rows count what is live, these are the agents that have
  headroom as the rows stand before the tick.
* `autoScaling_alone`: it has if one agent of the account auto-scales and every container is in an
  active row that counts it, which is what the check sees.
* **`autoScaling_exceeds_plan`**: two agents on the free plan that grow in the same tick.
-/

namespace Gateway

open Lib

/-- What `rt.health_check` answers during a tick. -/
abbrev HealthCheck := AgentId → List Container → Except CoreError Health

/-- What `rt.auto_scale` does during a tick. -/
abbrev AutoScale := AgentId → List Container → Except CoreError Unit × List Container

/-- A call adds at most one replica to the agent it is called for; it may raise, and it may stop
replicas. -/
def AutoScale.AddsAtMostOne (f : AutoScale) : Prop := ∀ id cs, (f id cs).2.length ≤ cs.length + 1

/-- The runtime with another `auto_scale`. -/
def Runtime.withAutoScale (rt : Runtime) (f : AutoScale) : Runtime := { rt with autoScale := f }

/-! ## Live totals -/

/-- The account's live replicas stay within its plan. vCPU may pass the limit by the `0.001` the
check rounds to. -/
structure LiveWithinPlan (user : User) (w : World) : Prop where
  replicas : ((w.db.agents.rows.filter fun a => a.userId = user.id).map fun a =>
    (w.containers a.id).length).sum ≤ (limitsFor user.plan).maxReplicas
  vcpu : ((w.db.agents.rows.filter fun a => a.userId = user.id).map fun a =>
    ((w.containers a.id).length : ℚ) * a.cpu).sum ≤ (limitsFor user.plan).maxVcpu + 1 / 1000
  memoryMb : ((w.db.agents.rows.filter fun a => a.userId = user.id).map fun a =>
    (w.containers a.id).length * a.memoryMb).sum ≤ (limitsFor user.plan).maxMemoryMb

namespace Resource

/-- What an agent's containers hold of its owner's plan. -/
def live (res : Resource) (u : UserId) (boxes : AgentId → List Container) (a : Agent) : ℚ :=
  if a.userId = u then res.demand (boxes a.id).length a.cpu a.memoryMb else 0

/-- What one more replica of an agent takes of the plan of `u`. -/
def oneMore (res : Resource) (u : UserId) (a : Agent) : ℚ :=
  if a.userId = u then res.unit a.cpu a.memoryMb else 0

theorem live_congr (res : Resource) (u : UserId) {boxes boxes' : AgentId → List Container}
    {a : Agent} (h : boxes a.id = boxes' a.id) : res.live u boxes a = res.live u boxes' a := by
  unfold live
  rw [h]

end Resource

/-- What a user's containers hold, whatever the status of their rows. -/
def liveTotal (res : Resource) (u : UserId) (boxes : AgentId → List Container) (db : Db) : ℚ :=
  db.agents.total (res.live u boxes)

/-- The live total as a sum over the account's rows. -/
theorem liveTotal_eq_sum (res : Resource) (u : UserId) (w : World) :
    liveTotal res u w.containers w.db =
      ((w.db.agents.rows.filter fun a => a.userId = u).map fun a =>
        res.demand (w.containers a.id).length a.cpu a.memoryMb).sum := by
  have h := Table.total_ite (fun a : Agent => decide (a.userId = u))
    (fun a => res.demand (w.containers a.id).length a.cpu a.memoryMb) w.db.agents
  simp only [decide_eq_true_eq] at h
  exact h.symm

theorem liveTotal_replicas (u : UserId) (w : World) :
    liveTotal .replicas u w.containers w.db =
      (((w.db.agents.rows.filter fun a => a.userId = u).map fun a =>
        (w.containers a.id).length).sum : ℕ) := by
  rw [liveTotal_eq_sum]
  simp [Resource.demand, Resource.unit, Nat.cast_list_sum, Function.comp_def]

theorem liveTotal_memoryMb (u : UserId) (w : World) :
    liveTotal .memoryMb u w.containers w.db =
      (((w.db.agents.rows.filter fun a => a.userId = u).map fun a =>
        (w.containers a.id).length * a.memoryMb).sum : ℕ) := by
  rw [liveTotal_eq_sum]
  simp [Resource.demand, Resource.unit, Nat.cast_list_sum, Function.comp_def]

/-- Within the plan, resource by resource. -/
theorem liveWithinPlan_iff {user : User} {w : World} :
    LiveWithinPlan user w ↔ ∀ res : Resource,
      liveTotal res user.id w.containers w.db ≤ res.limit (limitsFor user.plan) + res.slack := by
  constructor
  · intro h res
    cases res with
    | replicas =>
      rw [liveTotal_replicas]
      simp only [Resource.limit, Resource.slack, add_zero, Nat.cast_le]
      exact h.replicas
    | vcpu =>
      rw [liveTotal_eq_sum]
      exact h.vcpu
    | memoryMb =>
      rw [liveTotal_memoryMb]
      simp only [Resource.limit, Resource.slack, add_zero, Nat.cast_le]
      exact h.memoryMb
  · intro h
    have hreplicas := h .replicas
    have hvcpu := h .vcpu
    have hmemory := h .memoryMb
    rw [liveTotal_replicas] at hreplicas
    rw [liveTotal_eq_sum] at hvcpu
    rw [liveTotal_memoryMb] at hmemory
    simp only [Resource.limit, Resource.slack, add_zero, Nat.cast_le] at hreplicas hmemory
    exact ⟨hreplicas, hvcpu, hmemory⟩

/-! ## The agents that grow -/

/-- The row as the turn of `a` commits it. -/
def seenRow (check : HealthCheck) (cs : List Container) (a : Agent) : Agent :=
  match check a.id cs with
  | .error _ => a
  | .ok health => observe a health

/-- The turn of `a` asks for headroom. -/
def isDue (check : HealthCheck) (cs : List Container) (a : Agent) : Bool :=
  match check a.id cs with
  | .error _ => false
  | .ok health => decide ((observe a health).autoScale ∧ (observe a health).status = .running ∧
      0 < health.liveReplicas)

/-- The tables after the commit of a row. -/
def Db.saved (db : Db) (a : Agent) : Db := { db with agents := db.agents.put a }

/-- The agents whose headroom check passes when their turn comes, on the rows as the turns before
have observed them. A quota query that raises ends the tick. -/
def growing (d : Deps) (check : HealthCheck) (boxes : AgentId → List Container) :
    List Agent → Db → List Agent
  | [], _ => []
  | a :: rest, db =>
    let seen := seenRow check (boxes a.id) a
    let db := db.saved seen
    if isDue check (boxes a.id) a then
      match hasHeadroomForReplica d db seen with
      | .error _ => []
      | .ok false => growing d check boxes rest db
      | .ok true => a :: growing d check boxes rest db
    else growing d check boxes rest db

/-- The condition on the state before a tick: besides what is live, the plan has room for one more
replica of every agent of the account that is going to grow. -/
def JointHeadroom (d : Deps) (check : HealthCheck) (user : User) (w : World) : Prop :=
  ∀ res : Resource, liveTotal res user.id w.containers w.db +
    ((growing d check w.containers (loadedAgents w.db) w.db).map (res.oneMore user.id)).sum ≤
      res.limit (limitsFor user.plan) + res.slack

section Seen

variable (check : HealthCheck) (cs : List Container) (a : Agent)

@[simp] theorem seenRow_id : (seenRow check cs a).id = a.id := by
  unfold seenRow
  split <;> rfl

@[simp] theorem seenRow_userId : (seenRow check cs a).userId = a.userId := by
  unfold seenRow
  split <;> rfl

@[simp] theorem seenRow_cpu : (seenRow check cs a).cpu = a.cpu := by
  unfold seenRow
  split <;> rfl

@[simp] theorem seenRow_memoryMb : (seenRow check cs a).memoryMb = a.memoryMb := by
  unfold seenRow
  split <;> rfl

@[simp] theorem seenRow_autoScale : (seenRow check cs a).autoScale = a.autoScale := by
  unfold seenRow
  split <;> rfl

theorem live_seenRow (res : Resource) (u : UserId) (boxes : AgentId → List Container) :
    res.live u boxes (seenRow check cs a) = res.live u boxes a := by
  unfold Resource.live
  simp only [seenRow_id, seenRow_userId, seenRow_cpu, seenRow_memoryMb]

end Seen

/-- The check reads the accounts and the agents. -/
theorem hasHeadroomForReplica_congr (d : Deps) {db db' : Db} (hu : db.users = db'.users)
    (ha : db.agents = db'.agents) (a : Agent) :
    hasHeadroomForReplica d db a = hasHeadroomForReplica d db' a := by
  unfold hasHeadroomForReplica ensureResources currentUsage activeAgents
  rw [hu, ha]

/-! ## What a tick does to the live total -/

section Tick

variable {d : Deps} {rt : Runtime} {seconds : ℚ} {now : Instant} {w : World} {a : Agent}

/-- **Everything the turn of a stored row can do**, headroom included. -/
theorem tickAgent_grows (d : Deps) (rt : Runtime) (seconds : ℚ) (now : Instant)
    (hf : w.db.agents.find? a.id = some a) :
    ∃ w₁, Rewrites w w₁ a (seenRow rt.healthCheck (w.containers a.id) a) (w.containers a.id) ∧
      tickAgent d rt seconds now w a =
        if isDue rt.healthCheck (w.containers a.id) a then
          match hasHeadroomForReplica d w₁.db (seenRow rt.healthCheck (w.containers a.id) a) with
          | .error e => (.error e, w₁)
          | .ok false => (.ok (), w₁)
          | .ok true => (.ok (), (w₁.logCall (.autoScale a.id)).setContainers a.id
              (rt.autoScale a.id (w.containers a.id)).2)
        else (.ok (), w₁) := by
  have hlogged := (Rewrites.refl hf).logged (.healthCheck a.id)
  unfold tickAgent isDue seenRow
  simp only [World.logCall_containers]
  cases hh : rt.healthCheck a.id (w.containers a.id) with
  | error e => exact ⟨_, hlogged, rfl⟩
  | ok health =>
    have hseen := (hlogged.observed health).metered (observe a health) health.liveReplicas
      seconds now
    refine ⟨_, hseen, ?_⟩
    simp only [decide_eq_true_eq]
    have hcs := hseen.containers_self
    generalize meter _ (observe a health) _ seconds now = w₁ at hcs ⊢
    rw [hcs]
    rfl

/-- The live total after a rewrite that keeps the shape: only the agent's own containers count. -/
theorem Rewrites.liveTotal {w' : World} {new : Agent} {cs : List Container}
    (h : Rewrites w w' a new cs) (hcpu : new.cpu = a.cpu) (hmem : new.memoryMb = a.memoryMb)
    (res : Resource) (u : UserId) :
    liveTotal res u w'.containers w'.db = liveTotal res u w.containers w.db +
      ((cs.length : ℚ) - (w.containers a.id).length) * res.oneMore u a := by
  have hothers : w.db.agents.totalExcept a.id (res.live u w'.containers) =
      w.db.agents.totalExcept a.id (res.live u w.containers) := by
    refine Table.total_congr fun b _ => ?_
    split_ifs with hid
    · rfl
    · exact res.live_congr u (h.containers_of_ne hid)
  have hnew : res.live u w'.containers new = res.live u w.containers a +
      ((cs.length : ℚ) - (w.containers a.id).length) * res.oneMore u a := by
    unfold Resource.live Resource.oneMore Resource.demand
    rw [h.containers_self, h.owner, hcpu, hmem]
    split_ifs
    · ring
    · ring
  unfold Gateway.liveTotal
  rw [h.total, hothers, hnew, Table.total_eq_add _ h.found, add_assoc]

/-- What the `auto_scale` of an agent adds to its owner's live total. -/
def gained (f : AutoScale) (boxes : AgentId → List Container) (res : Resource) (u : UserId)
    (a : Agent) : ℚ :=
  (((f a.id (boxes a.id)).2.length : ℚ) - (boxes a.id).length) * res.oneMore u a

/-- **The live total after the loop**: what was live, and what the growing agents gained. The rows
are stored ones with distinct ids, and no turn touches the containers of a later one. -/
theorem tickAgents_live (d : Deps) (rt : Runtime) (seconds : ℚ) (now : Instant)
    {boxes : AgentId → List Container} (res : Resource) (u : UserId) :
    ∀ (rest : List Agent) {w : World} {db : Db}, (rest.map Agent.id).Nodup →
      (∀ a ∈ rest, w.db.agents.find? a.id = some a ∧ w.containers a.id = boxes a.id) →
      w.db.users = db.users → w.db.agents = db.agents →
      liveTotal res u (tickAgents d rt seconds now rest w).2.containers
          (tickAgents d rt seconds now rest w).2.db =
        liveTotal res u w.containers w.db +
          ((growing d rt.healthCheck boxes rest db).map (gained rt.autoScale boxes res u)).sum := by
  intro rest
  induction rest with
  | nil =>
    intro w db _ _ _ _
    simp [tickAgents, growing]
  | cons a rest ih =>
    intro w db hnd hstored husers hagents
    rw [List.map_cons, List.nodup_cons] at hnd
    obtain ⟨hfa, hca⟩ := hstored a List.mem_cons_self
    obtain ⟨w₁, hrw, hturn⟩ := tickAgent_grows d rt seconds now hfa
    have hsame := hrw.liveTotal (by simp) (by simp) res u
    rw [sub_self, zero_mul, add_zero] at hsame
    rw [hca] at hturn hrw
    have husers₁ : w₁.db.users = (db.saved (seenRow rt.healthCheck (boxes a.id) a)).users :=
      hrw.users.trans husers
    have hagents₁ : w₁.db.agents = (db.saved (seenRow rt.healthCheck (boxes a.id) a)).agents := by
      rw [hrw.agents, hagents]
      rfl
    -- What the turn leaves the later rows with, whatever its own containers are.
    have hlater : ∀ {w₂ : World} {cs : List Container},
        Rewrites w w₂ a (seenRow rt.healthCheck (boxes a.id) a) cs →
        ∀ b ∈ rest, w₂.db.agents.find? b.id = some b ∧ w₂.containers b.id = boxes b.id := by
      intro w₂ cs hrw₂
      exact hrw₂.keeps_rest hnd.1 fun b hb => hstored b (List.mem_cons_of_mem a hb)
    unfold tickAgents growing
    rw [hturn]
    simp only
    by_cases hdue : isDue rt.healthCheck (boxes a.id) a = true
    · simp only [if_pos hdue]
      rw [hasHeadroomForReplica_congr d husers₁ hagents₁]
      cases hasHeadroomForReplica d (db.saved (seenRow rt.healthCheck (boxes a.id) a))
        (seenRow rt.healthCheck (boxes a.id) a) with
      | error e => simp [hsame]
      | ok room =>
        cases room with
        | false =>
          simp only
          rw [ih hnd.2 (hlater hrw) husers₁ hagents₁, hsame]
        | true =>
          have hrw₂ : Rewrites w ((w₁.logCall (.autoScale a.id)).setContainers a.id
              (rt.autoScale a.id (boxes a.id)).2) a (seenRow rt.healthCheck (boxes a.id) a)
              (rt.autoScale a.id (boxes a.id)).2 := by
            have hcalled := hrw.called (w₁.calls ++ [.autoScale a.id])
              (rt.autoScale a.id (boxes a.id)).2
            rwa [seenRow_id] at hcalled
          have hgain := hrw₂.liveTotal (by simp) (by simp) res u
          rw [hca] at hgain
          simp only [List.map_cons, List.sum_cons]
          rw [ih hnd.2 (hlater hrw₂) husers₁ hagents₁, hgain, add_assoc]
          rfl
    · simp only [if_neg hdue]
      rw [ih hnd.2 (hlater hrw) husers₁ hagents₁, hsame]

/-- The live total after a tick. -/
theorem tick_live (d : Deps) (s : Settings) (rt : Runtime) (elapsed : Option ℚ) (now : Instant)
    (flushFails : Bool) (w : World) (res : Resource) (u : UserId) :
    liveTotal res u (tick d s rt elapsed now flushFails w).2.containers
        (tick d s rt elapsed now flushFails w).2.db =
      liveTotal res u w.containers w.db +
        ((growing d rt.healthCheck w.containers (loadedAgents w.db) w.db).map
          (gained rt.autoScale w.containers res u)).sum := by
  have hsame : liveTotal res u (flushRequests w flushFails).containers
      (flushRequests w flushFails).db = liveTotal res u w.containers w.db := by
    unfold liveTotal
    rw [flushRequests_agents, flushRequests_containers]
  unfold tick
  simp only [loadedAgents_flushRequests]
  rw [← hsame]
  refine tickAgents_live d rt _ now res u (loadedAgents w.db) (loadedAgents_nodup w.db)
    (fun a ha => ?_) (flushRequests_users w flushFails) (flushRequests_agents w flushFails)
  rw [flushRequests_agents, flushRequests_containers]
  exact ⟨find?_of_loaded ha, rfl⟩

end Tick

/-! ## One more replica of each -/

theorem Resource.oneMore_nonneg (res : Resource) (u : UserId) {a : Agent} (h : 0 ≤ a.cpu) :
    0 ≤ res.oneMore u a := by
  unfold Resource.oneMore
  split_ifs
  · have hone := res.demand_nonneg 1 h a.memoryMb
    rwa [Resource.demand, Nat.cast_one, one_mul] at hone
  · exact le_refl _

/-- An agent that may grow is one the loop went through. -/
theorem growing_sublist (d : Deps) (check : HealthCheck) (boxes : AgentId → List Container) :
    ∀ (rest : List Agent) (db : Db),
      (growing d check boxes rest db).Sublist (rest.filter Agent.autoScale) := by
  intro rest
  induction rest with
  | nil => exact fun _ => .slnil
  | cons a rest ih =>
    intro db
    have hdue : isDue check (boxes a.id) a = true → a.autoScale = true := by
      unfold isDue
      cases check a.id (boxes a.id) with
      | error e => simp
      | ok health => exact fun h => (of_decide_eq_true h).1
    have hskip := (ih (db.saved (seenRow check (boxes a.id) a))).trans
      ((List.sublist_cons_self a rest).filter Agent.autoScale)
    unfold growing
    simp only
    split_ifs with h
    · split
      · exact List.nil_sublist _
      · exact hskip
      · rw [List.filter_cons_of_pos (hdue h)]
        exact (ih _).cons_cons a
    · exact hskip

/-- An `auto_scale` that adds one replica whenever it is called. -/
def AutoScale.addOne : AutoScale := fun _ cs => (.ok (), cs ++ containersFrom cs.length 1)

theorem AutoScale.addOne_length (id : AgentId) (cs : List Container) :
    (AutoScale.addOne id cs).2.length = cs.length + 1 := by
  simp [AutoScale.addOne, containersFrom]

theorem gained_addOne (boxes : AgentId → List Container) (res : Resource) (u : UserId)
    (a : Agent) : gained .addOne boxes res u a = res.oneMore u a := by
  unfold gained
  rw [AutoScale.addOne_length]
  push_cast
  ring

theorem gained_le {f : AutoScale} (hf : f.AddsAtMostOne) (boxes : AgentId → List Container)
    (res : Resource) (u : UserId) {a : Agent} (h : 0 ≤ a.cpu) :
    gained f boxes res u a ≤ res.oneMore u a := by
  have hone : ((f a.id (boxes a.id)).2.length : ℚ) - (boxes a.id).length ≤ 1 := by
    have hlen : ((f a.id (boxes a.id)).2.length : ℚ) ≤ (boxes a.id).length + 1 := by
      exact_mod_cast hf a.id (boxes a.id)
    linarith
  exact (mul_le_mul_of_nonneg_right hone (res.oneMore_nonneg u h)).trans_eq (one_mul _)

/-- A tick that meets the condition keeps the account within its plan. -/
theorem JointHeadroom.liveWithinPlan {d : Deps} {rt : Runtime} {w : World} {user : User}
    (h : JointHeadroom d rt.healthCheck user w) (hcpu : ∀ a ∈ w.db.agents.rows, 0 ≤ a.cpu)
    (hadds : AutoScale.AddsAtMostOne rt.autoScale) (s : Settings) (elapsed : Option ℚ)
    (now : Instant) (flushFails : Bool) :
    LiveWithinPlan user (tick d s rt elapsed now flushFails w).2 := by
  refine liveWithinPlan_iff.mpr fun res => ?_
  rw [tick_live]
  refine le_trans (add_le_add le_rfl (List.sum_le_sum fun a ha => ?_)) (h res)
  have hloaded : a ∈ loadedAgents w.db :=
    List.mem_of_mem_filter ((growing_sublist d _ _ _ _).subset ha)
  exact gained_le hadds w.containers res user.id (hcpu a (List.mem_of_mem_filter hloaded))

/-- **When auto-scaling keeps an account within its plan.** Whatever the calls of `auto_scale` do,
adding at most one replica each, the account's live replicas, vCPU and memory are within its plan
after the tick, iff before it the plan has room for one more replica of every agent of the account
that passes its headroom check, all of them together. -/
theorem autoScaling_within_plan_iff (d : Deps) (s : Settings) (rt : Runtime)
    (elapsed : Option ℚ) (now : Instant) (flushFails : Bool) (w : World) (user : User)
    (hcpu : ∀ a ∈ w.db.agents.rows, 0 ≤ a.cpu) :
    (∀ f : AutoScale, f.AddsAtMostOne →
      LiveWithinPlan user (tick d s (rt.withAutoScale f) elapsed now flushFails w).2) ↔
      JointHeadroom d rt.healthCheck user w := by
  constructor
  · intro h res
    have hone : AutoScale.addOne.AddsAtMostOne := fun id cs =>
      (AutoScale.addOne_length id cs).le
    have hafter := liveWithinPlan_iff.mp (h .addOne hone) res
    rw [tick_live] at hafter
    have hgained : (gained .addOne w.containers res user.id) = res.oneMore user.id := by
      funext a
      exact gained_addOne w.containers res user.id a
    rw [← hgained]
    exact hafter
  · intro h f hf
    have hsame : JointHeadroom d (rt.withAutoScale f).healthCheck user w := h
    exact hsame.liveWithinPlan hcpu hf s elapsed now flushFails

/-- An account on the free plan with two running agents, of which `a` auto-scales. -/
def twoAgents (second : Bool) : World where
  db := { freeWorld.db with agents := twoRunning true second }
  containers id := if id = "a" ∨ id = "b" then containersFrom 0 1 else []

/-- If only `a` auto-scales, there is room for its replica. -/
theorem autoScaling_within_plan_first :
    LiveWithinPlan freeUser
      (tick .transparent {} (Runtime.obliging.withAutoScale .addOne) none 0 false
        (twoAgents false)).2 := by
  refine (autoScaling_within_plan_iff .transparent {} .obliging none 0 false (twoAgents false)
    freeUser (by decide +kernel)).mpr ?_ .addOne fun id cs => (AutoScale.addOne_length id cs).le
  intro res
  cases res <;> decide +kernel

/-- **Auto-scaling takes an account past its plan.** Rows and containers agree, two of the free
plan's three replicas are live, and every call adds one replica; each check finds room for one more,
and after the tick four are live. -/
theorem autoScaling_exceeds_plan :
    isExempt .transparent freeUser = false ∧
      (twoAgents true).db.users.find? freeUser.id = some freeUser ∧
      (∀ a ∈ (twoAgents true).db.agents.rows,
        a.replicas = ((twoAgents true).containers a.id).length) ∧
      LiveWithinPlan freeUser (twoAgents true) ∧ AutoScale.addOne.AddsAtMostOne ∧
      ¬ LiveWithinPlan freeUser
        (tick .transparent {} (Runtime.obliging.withAutoScale .addOne) none 0 false
          (twoAgents true)).2 := by
  refine ⟨rfl, rfl, by decide +kernel, ⟨by decide +kernel, by decide +kernel, by decide +kernel⟩,
    fun id cs => (AutoScale.addOne_length id cs).le, fun h => ?_⟩
  exact absurd h.replicas (by decide +kernel)

/-! ## One agent that grows -/

/-- The rows count what is live: an agent's `replicas` are its containers, an agent that has some
is active, and a health report shows them all and no failure. -/
structure Counted (check : HealthCheck) (u : UserId) (w : World) : Prop where
  rows : ∀ a ∈ w.db.agents.rows, a.userId = u → a.replicas = (w.containers a.id).length
  active : ∀ a ∈ w.db.agents.rows, a.userId = u → w.containers a.id ≠ [] →
    a.status ∈ activeStatuses
  reports : ∀ id cs health, check id cs = .ok health →
    health.liveReplicas = cs.length ∧ health.failing = false

section Alone

variable {d : Deps} {check : HealthCheck} {boxes : AgentId → List Container} {user : User}

/-- Every row charges what its containers hold. -/
def ChargesLive (u : UserId) (boxes : AgentId → List Container) (db : Db) : Prop :=
  ∀ a ∈ db.agents.rows, ∀ res : Resource, res.charge u a = res.live u boxes a

theorem charge_eq_live {u : UserId} {a : Agent} (res : Resource)
    (hrow : a.userId = u → a.replicas = (boxes a.id).length)
    (hactive : a.userId = u → boxes a.id ≠ [] → a.status ∈ activeStatuses) :
    res.charge u a = res.live u boxes a := by
  unfold Resource.charge Resource.live
  by_cases hu : a.userId = u
  · rw [if_pos hu, ← hrow hu]
    split_ifs with h
    · rfl
    · have hnone : boxes a.id = [] := by
        by_contra hne
        exact h ⟨hu, hactive hu hne⟩
      rw [hrow hu, hnone]
      simp [Resource.demand]
  · rw [if_neg hu, if_neg fun h => hu h.1]

theorem Counted.chargesLive {u : UserId} {w : World} (h : Counted check u w) :
    ChargesLive u w.containers w.db := fun a ha res =>
  charge_eq_live res (h.rows a ha) (h.active a ha)

/-- What the others hold is what they have live. -/
theorem ChargesLive.holding {u : UserId} {db : Db} (h : ChargesLive u boxes db) (res : Resource)
    (id : AgentId) :
    Gateway.holding res db u (some id) = db.agents.totalExcept id (res.live u boxes) := by
  refine Table.total_congr fun b hb => ?_
  rw [h b hb res]

/-- A true report leaves a row that charges what is live. -/
theorem ChargesLive.saved {u : UserId} {db : Db} {a : Agent} (h : ChargesLive u boxes db)
    (ha : a ∈ db.agents.rows)
    (hcheck : ∀ id cs health, check id cs = .ok health →
      health.liveReplicas = cs.length ∧ health.failing = false) :
    ChargesLive u boxes (db.saved (seenRow check (boxes a.id) a)) := by
  intro b hb res
  rcases Table.mem_put hb with rfl | ⟨hb, -⟩
  · unfold seenRow
    cases hh : check a.id (boxes a.id) with
    | error e => exact h a ha res
    | ok health =>
      obtain ⟨hlive, hok⟩ := hcheck _ _ _ hh
      refine charge_eq_live res (fun _ => hlive) fun _ hne => ?_
      have hpos : health.liveReplicas ≠ 0 := by
        rw [hlive]
        exact fun e => hne (List.length_eq_zero_iff.mp e)
      show newStatus a.status health ∈ activeStatuses
      unfold newStatus
      rw [if_neg hpos, if_neg (by rw [hok]; simp)]
      split_ifs with hs
      · exact List.mem_cons_self
      · rw [not_not.mp hs]
        exact List.mem_cons_of_mem _ List.mem_cons_self
  · exact h b hb res

theorem liveTotal_saved {db : Db} {a : Agent} (hf : db.agents.find? a.id = some a)
    (res : Resource) (u : UserId) :
    liveTotal res u boxes (db.saved (seenRow check (boxes a.id) a)) =
      liveTotal res u boxes db := by
  have hfound : db.agents.find? (seenRow check (boxes a.id) a).id = some a := by
    rw [seenRow_id]
    exact hf
  unfold liveTotal Db.saved
  rw [Table.total_put _ hfound, live_seenRow, seenRow_id, ← Table.total_eq_add _ hf]

/-- What a passed check says when the rows count what is live: there is room for the replica. -/
theorem oneMore_le_of_headroom {db : Db} {a : Agent} (hu : db.users.find? user.id = some user)
    (hne : isExempt d user = false) (hf : db.agents.find? a.id = some a)
    (hcounted : ChargesLive user.id boxes db) (howner : a.userId = user.id)
    (hrow : a.replicas = (boxes a.id).length) (h : hasHeadroomForReplica d db a = .ok true)
    (res : Resource) :
    liveTotal res user.id boxes db + res.oneMore user.id a ≤
      res.limit (limitsFor user.plan) + res.slack := by
  have hpassed : ensureResources d db user.id (some a.id) (a.replicas + 1) a.cpu a.memoryMb =
      .ok () := by
    unfold hasHeadroomForReplica at h
    rw [howner] at h
    split at h
    · assumption
    · exact absurd h (by simp)
    · exact absurd h (by simp)
  have hbound := ensureResources_le hu hne hpassed res
  have hothers := hcounted.holding res a.id
  have hown : res.demand (a.replicas + 1) a.cpu a.memoryMb =
      res.live user.id boxes a + res.oneMore user.id a := by
    unfold Resource.live Resource.oneMore Resource.demand
    rw [if_pos howner, if_pos howner, hrow]
    push_cast
    ring
  have htotal := Table.total_eq_add (res.live user.id boxes) hf
  unfold liveTotal
  rw [hothers, hown] at hbound
  linarith

/-- An agent that asks for headroom has been observed. -/
theorem seenRow_replicas_of_due {cs : List Container} {a : Agent}
    (hcheck : ∀ id cs health, check id cs = .ok health →
      health.liveReplicas = cs.length ∧ health.failing = false) (h : isDue check cs a = true) :
    (seenRow check cs a).replicas = cs.length := by
  unfold isDue at h
  unfold seenRow
  cases hh : check a.id cs with
  | error e =>
    rw [hh] at h
    exact absurd h (by simp)
  | ok health => exact (hcheck _ _ _ hh).1

/-- An agent that is due and has headroom fits on its own. -/
theorem fits_of_due {db : Db} {a : Agent} (hu : db.users.find? user.id = some user)
    (hne : isExempt d user = false)
    (hcheck : ∀ id cs health, check id cs = .ok health →
      health.liveReplicas = cs.length ∧ health.failing = false)
    (hf : db.agents.find? a.id = some a) (hcounted : ChargesLive user.id boxes db)
    (howner : a.userId = user.id) (hdue : isDue check (boxes a.id) a = true)
    (hroom : hasHeadroomForReplica d (db.saved (seenRow check (boxes a.id) a))
      (seenRow check (boxes a.id) a) = .ok true) (res : Resource) :
    liveTotal res user.id boxes db + res.oneMore user.id a ≤
      res.limit (limitsFor user.plan) + res.slack := by
  have hfound : db.agents.find? (seenRow check (boxes a.id) a).id = some a := by
    rw [seenRow_id]
    exact hf
  have hstored : (db.saved (seenRow check (boxes a.id) a)).agents.find?
      (seenRow check (boxes a.id) a).id = some (seenRow check (boxes a.id) a) :=
    Table.find?_put_self hfound
  have husers : (db.saved (seenRow check (boxes a.id) a)).users.find? user.id = some user := hu
  have hrow : (seenRow check (boxes a.id) a).replicas =
      (boxes (seenRow check (boxes a.id) a).id).length := by
    rw [seenRow_id]
    exact seenRow_replicas_of_due hcheck hdue
  have hbound := oneMore_le_of_headroom husers hne hstored
    (hcounted.saved (Table.mem_of_find? hf) hcheck) ((seenRow_userId ..).trans howner) hrow hroom
    res
  rw [liveTotal_saved hf] at hbound
  simpa only [Resource.oneMore, seenRow_userId, seenRow_cpu, seenRow_memoryMb] using hbound

/-- Every agent that grows fits on its own. -/
theorem growing_fits (hne : isExempt d user = false)
    (hcheck : ∀ id cs health, check id cs = .ok health →
      health.liveReplicas = cs.length ∧ health.failing = false) :
    ∀ (rest : List Agent) {db : Db}, (rest.map Agent.id).Nodup →
      (∀ a ∈ rest, db.agents.find? a.id = some a) → db.users.find? user.id = some user →
      ChargesLive user.id boxes db →
      ∀ a ∈ growing d check boxes rest db, a.userId = user.id → ∀ res : Resource,
        liveTotal res user.id boxes db + res.oneMore user.id a ≤
          res.limit (limitsFor user.plan) + res.slack := by
  intro rest
  induction rest with
  | nil =>
    intro _ _ _ _ _ a ha
    exact absurd ha List.not_mem_nil
  | cons b rest ih =>
    intro db hnd hstored hu hcounted a ha howner res
    rw [List.map_cons, List.nodup_cons] at hnd
    have hfb := hstored b List.mem_cons_self
    have hsaved := hcounted.saved (Table.mem_of_find? hfb) hcheck
    have hlater : ∀ c ∈ rest,
        (db.saved (seenRow check (boxes b.id) b)).agents.find? c.id = some c := by
      intro c hc
      have hid : c.id ≠ b.id := fun e => hnd.1 (e ▸ List.mem_map_of_mem hc)
      refine (Table.find?_put_of_ne _ ?_).trans (hstored c (List.mem_cons_of_mem b hc))
      rw [seenRow_id]
      exact hid
    have hrest : a ∈ growing d check boxes rest (db.saved (seenRow check (boxes b.id) b)) →
        liveTotal res user.id boxes db + res.oneMore user.id a ≤
          res.limit (limitsFor user.plan) + res.slack := by
      intro hmem
      have hbound := ih hnd.2 hlater hu hsaved a hmem howner res
      rwa [liveTotal_saved hfb] at hbound
    unfold growing at ha
    simp only at ha
    split_ifs at ha with hdue
    · split at ha
      · exact absurd ha List.not_mem_nil
      · exact hrest ha
      · rename_i hroom
        rcases List.mem_cons.mp ha with rfl | ha
        · exact fits_of_due hu hne hcheck hfb hcounted howner hdue hroom res
        · exact hrest ha
    · exact hrest ha

/-- The tables in the middle of a loop over true reports: rows charge what is live, as at the
start. -/
structure StillCounted (u : UserId) (boxes : AgentId → List Container) (start db : Db) : Prop where
  users : db.users = start.users
  charges : ChargesLive u boxes db
  live : ∀ res : Resource, liveTotal res u boxes db = liveTotal res u boxes start

theorem StillCounted.saved {u : UserId} {start db : Db} {a : Agent}
    (h : StillCounted u boxes start db) (hf : db.agents.find? a.id = some a)
    (hcheck : ∀ id cs health, check id cs = .ok health →
      health.liveReplicas = cs.length ∧ health.failing = false) :
    StillCounted u boxes start (db.saved (seenRow check (boxes a.id) a)) where
  users := h.users
  charges := h.charges.saved (Table.mem_of_find? hf) hcheck
  live res := (liveTotal_saved hf res u).trans (h.live res)

/-- The check of a due agent says what it would have said before the tick. -/
theorem headroom_counted {start db : Db} {a : Agent}
    (hcheck : ∀ id cs health, check id cs = .ok health →
      health.liveReplicas = cs.length ∧ health.failing = false)
    (hstart : ChargesLive a.userId boxes start) (h : StillCounted a.userId boxes start db)
    (hf₀ : start.agents.find? a.id = some a) (hf : db.agents.find? a.id = some a)
    (hrow : a.replicas = (boxes a.id).length) (hdue : isDue check (boxes a.id) a = true) :
    hasHeadroomForReplica d (db.saved (seenRow check (boxes a.id) a))
      (seenRow check (boxes a.id) a) = hasHeadroomForReplica d start a := by
  have hafter := h.saved hf hcheck
  have hfound : db.agents.find? (seenRow check (boxes a.id) a).id = some a := by
    rw [seenRow_id]
    exact hf
  have hstored : (db.saved (seenRow check (boxes a.id) a)).agents.find? a.id =
      some (seenRow check (boxes a.id) a) := by
    have hput := Table.find?_put_self hfound
    rwa [seenRow_id] at hput
  have hholding : ∀ res : Resource, holding res (db.saved (seenRow check (boxes a.id) a)) a.userId
      (some a.id) = holding res start a.userId (some a.id) := by
    intro res
    have htotal := Table.total_eq_add (res.live a.userId boxes) hstored
    have htotal₀ := Table.total_eq_add (res.live a.userId boxes) hf₀
    have hlive := hafter.live res
    rw [live_seenRow] at htotal
    unfold liveTotal at hlive
    rw [hafter.charges.holding, hstart.holding]
    linarith
  refine hasHeadroomForReplica_of_holding hafter.users (seenRow_id ..) (seenRow_userId ..) ?_
    (seenRow_cpu ..) (seenRow_memoryMb ..) hholding
  rw [hrow]
  exact seenRow_replicas_of_due hcheck hdue

/-- The agents of `u` that grow, found on the rows before the tick. -/
theorem growing_counted {u : UserId} {start : Db}
    (hcheck : ∀ id cs health, check id cs = .ok health →
      health.liveReplicas = cs.length ∧ health.failing = false)
    (howners : ∀ a ∈ start.agents.rows, ∃ owner, start.users.find? a.userId = some owner)
    (hstart : ChargesLive u boxes start) :
    ∀ (rest : List Agent) {db : Db}, (rest.map Agent.id).Nodup →
      (∀ a ∈ rest, start.agents.find? a.id = some a ∧ db.agents.find? a.id = some a) →
      (∀ a ∈ rest, a.userId = u → a.replicas = (boxes a.id).length) →
      StillCounted u boxes start db →
      (growing d check boxes rest db).filter (fun a => a.userId = u) =
        rest.filter fun a => a.userId = u ∧ isDue check (boxes a.id) a = true ∧
          hasHeadroomForReplica d start a = .ok true := by
  intro rest
  induction rest with
  | nil => exact fun _ _ _ _ => rfl
  | cons a rest ih =>
    intro db hnd hstored hrows h
    rw [List.map_cons, List.nodup_cons] at hnd
    obtain ⟨hf₀, hf⟩ := hstored a List.mem_cons_self
    have hlater : ∀ b ∈ rest, start.agents.find? b.id = some b ∧
        (db.saved (seenRow check (boxes a.id) a)).agents.find? b.id = some b := by
      intro b hb
      have hid : b.id ≠ a.id := fun e => hnd.1 (e ▸ List.mem_map_of_mem hb)
      obtain ⟨hb₀, hb₁⟩ := hstored b (List.mem_cons_of_mem a hb)
      refine ⟨hb₀, (Table.find?_put_of_ne _ ?_).trans hb₁⟩
      rw [seenRow_id]
      exact hid
    have hrest := ih hnd.2 hlater (fun b hb => hrows b (List.mem_cons_of_mem a hb))
      (h.saved hf hcheck)
    -- The query does not raise, since the owner is there.
    obtain ⟨owner, howner⟩ := howners a (Table.mem_of_find? hf₀)
    have husers : (db.saved (seenRow check (boxes a.id) a)).users.find?
        (seenRow check (boxes a.id) a).userId = some owner := by
      rw [seenRow_userId, ← howner]
      exact congrArg (·.find? a.userId) h.users
    obtain ⟨room, hroom⟩ := hasHeadroomForReplica_ok (d := d) husers
    unfold growing
    simp only
    by_cases hdue : isDue check (boxes a.id) a = true
    · rw [if_pos hdue, hroom]
      by_cases hu : a.userId = u
      · subst hu
        have hsame := headroom_counted (d := d) hcheck hstart h hf₀ hf
          (hrows a List.mem_cons_self rfl) hdue
        rw [hroom] at hsame
        cases room with
        | false =>
          rw [List.filter_cons_of_neg (by simp [← hsame])]
          exact hrest
        | true =>
          rw [List.filter_cons_of_pos (by simp), List.filter_cons_of_pos (by simp [hdue, ← hsame])]
          exact congrArg (a :: ·) hrest
      · rw [List.filter_cons_of_neg (by simp [hu])]
        cases room with
        | false => exact hrest
        | true =>
          simp only
          rw [List.filter_cons_of_neg (by simp [hu])]
          exact hrest
    · rw [if_neg hdue, List.filter_cons_of_neg (by simp [hdue])]
      exact hrest

end Alone

/-- One more replica of each agent of `u` in a list; the others count nothing. -/
theorem sum_oneMore_filter (res : Resource) (u : UserId) (l : List Agent) :
    (l.map (res.oneMore u)).sum = ((l.filter fun a => a.userId = u).map (res.oneMore u)).sum := by
  induction l with
  | nil => rfl
  | cons a l ih =>
    by_cases hu : a.userId = u
    · rw [List.filter_cons_of_pos (by simpa using hu), List.map_cons, List.map_cons, List.sum_cons,
        List.sum_cons, ih]
    · have hzero : res.oneMore u a = 0 := if_neg hu
      rw [List.filter_cons_of_neg (by simpa using hu), List.map_cons, List.sum_cons, hzero,
        zero_add, ih]

/-- **The condition on the rows before the tick.** Where the rows count what is live and every agent
has its owner: besides what is live, the plan has room for one more replica of every loaded agent of
the account whose turn asks for headroom and that has it as the rows stand. -/
theorem jointHeadroom_counted_iff {d : Deps} {check : HealthCheck} {user : User} {w : World}
    (hcounted : Counted check user.id w)
    (howners : ∀ a ∈ w.db.agents.rows, ∃ owner, w.db.users.find? a.userId = some owner) :
    JointHeadroom d check user w ↔ ∀ res : Resource,
      liveTotal res user.id w.containers w.db +
        (((loadedAgents w.db).filter fun a => a.userId = user.id ∧
          isDue check (w.containers a.id) a = true ∧
            hasHeadroomForReplica d w.db a = .ok true).map (res.oneMore user.id)).sum ≤
        res.limit (limitsFor user.plan) + res.slack := by
  refine forall_congr' fun res => ?_
  rw [sum_oneMore_filter, growing_counted hcounted.reports howners hcounted.chargesLive
    (loadedAgents w.db) (loadedAgents_nodup w.db)
    (fun a ha => ⟨find?_of_loaded ha, find?_of_loaded ha⟩)
    (fun a ha => hcounted.rows a (List.mem_of_mem_filter ha))
    ⟨rfl, hcounted.chargesLive, fun _ => rfl⟩]

/-- At most one of the account's agents grows: together they take what that one takes. -/
theorem sum_oneMore_cases (u : UserId) (l : List Agent)
    (hone : (l.filter fun a => a.userId = u).length ≤ 1) :
    (∀ res : Resource, (l.map (res.oneMore u)).sum = 0) ∨
      ∃ a ∈ l, a.userId = u ∧ ∀ res : Resource, (l.map (res.oneMore u)).sum = res.oneMore u a := by
  induction l with
  | nil => exact Or.inl fun res => rfl
  | cons a l ih =>
    by_cases hu : a.userId = u
    · have hnone : l.filter (fun a => a.userId = u) = [] := by
        rw [List.filter_cons_of_pos (by simpa using hu), List.length_cons] at hone
        exact List.length_eq_zero_iff.mp (by omega)
      refine Or.inr ⟨a, List.mem_cons_self, hu, fun res => ?_⟩
      rw [List.map_cons, List.sum_cons, List.sum_eq_zero, add_zero]
      intro x hx
      obtain ⟨b, hb, rfl⟩ := List.mem_map.mp hx
      have hne := List.filter_eq_nil_iff.mp hnone b hb
      exact if_neg (by simpa using hne)
    · rw [List.filter_cons_of_neg (by simpa using hu)] at hone
      have hzero : ∀ res : Resource, res.oneMore u a = 0 := fun res => if_neg hu
      rcases ih hone with h | ⟨b, hb, hbu, h⟩
      · refine Or.inl fun res => ?_
        rw [List.map_cons, List.sum_cons, hzero, zero_add, h]
      · refine Or.inr ⟨b, List.mem_cons_of_mem a hb, hbu, fun res => ?_⟩
        rw [List.map_cons, List.sum_cons, hzero, zero_add, h]

/-- **One auto-scaling agent per account is safe.** If the rows count what is live, the account is
within its plan and at most one of its active agents has `auto_scale` on, a tick leaves the account
within its plan. -/
theorem autoScaling_alone (d : Deps) (s : Settings) (rt : Runtime) (elapsed : Option ℚ)
    (now : Instant) (flushFails : Bool) (w : World) (user : User)
    (hu : w.db.users.find? user.id = some user) (hne : isExempt d user = false)
    (hcpu : ∀ a ∈ w.db.agents.rows, 0 ≤ a.cpu) (hcounted : Counted rt.healthCheck user.id w)
    (hwithin : LiveWithinPlan user w)
    (hone : (((loadedAgents w.db).filter Agent.autoScale).filter fun a =>
      a.userId = user.id).length ≤ 1) (hadds : AutoScale.AddsAtMostOne rt.autoScale) :
    LiveWithinPlan user (tick d s rt elapsed now flushFails w).2 := by
  have hgrowing := growing_sublist d rt.healthCheck w.containers (loadedAgents w.db) w.db
  have hjoint : JointHeadroom d rt.healthCheck user w := by
    intro res
    rcases sum_oneMore_cases user.id _ (le_trans (hgrowing.filter _).length_le hone) with
      hnone | ⟨a, ha, howner, hsum⟩
    · rw [hnone res, add_zero]
      exact liveWithinPlan_iff.mp hwithin res
    · rw [hsum res]
      exact growing_fits hne hcounted.reports (loadedAgents w.db) (loadedAgents_nodup w.db)
        (fun b hb => find?_of_loaded hb) hu hcounted.chargesLive a ha howner res
  exact hjoint.liveWithinPlan hcpu hadds s elapsed now flushFails

end Gateway
