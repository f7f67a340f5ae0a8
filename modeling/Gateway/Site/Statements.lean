import Gateway.Metering.Buckets
import Gateway.Metering.Elapsed
import Gateway.Site.Allowance
import Gateway.Site.Integrity
import Gateway.Site.Lifecycle

/-!
# What an account is shown

`GET /v1/account/usage` adds up rows of `usage_hours` that ticks have written, from requests that
visits have counted and from replicas that health checks have found. Between a visit and the page
lie the pending counter, flushes that may fail, deletions of the agent and changes of every other
kind.

* `stepReadings`: what a step of the gateway meters, in the terms of `Metering/Buckets.lean`.
* **`gatewayStep_meters`**: as far as usage and pending counts go, a step of the gateway is these
  readings; the metering machine simulates the gateway.
* `Attributed`: rows, counts and agents are of the account that owns the agent's id.
* **`account_statement`**: over every run, the totals of an account grow by what its agents were
  metered, request by request and column by column.

Out of scope: a flush that fails after its commit, and one that overlaps visits
(`Metering/Counts.lean`).
-/

namespace Gateway

open Lib

/-! ## What a step meters -/

section Readings

variable {d : Deps} {rt : Runtime} {seconds : ℚ} {now : Instant}

/-- What the turn of an agent meters. -/
def turnReadings (rt : Runtime) (seconds : ℚ) (now : Instant) (w : World) (a : Agent) :
    List BucketStep :=
  match rt.healthCheck a.id (w.containers a.id) with
  | .error _ => []
  | .ok health =>
    if isMetered (observe a health) health.liveReplicas then
      [.add ⟨observe a health, ⟨now, 0⟩, .usage health.liveReplicas seconds⟩]
    else []

/-- What the loop of a tick meters: the tick ends at the first turn that raises. -/
def tickReadings (d : Deps) (rt : Runtime) (seconds : ℚ) (now : Instant) :
    List Agent → World → List BucketStep
  | [], _ => []
  | a :: rest, w =>
    turnReadings rt seconds now w a ++
      match tickAgent d rt seconds now w a with
      | (.error _, _) => []
      | (.ok (), w') => tickReadings d rt seconds now rest w'

/-- What a step of the gateway meters. -/
def stepReadings (d : GatewayDeps) (cfg : GatewaySettings) (site : Site) :
    GatewayStep → List BucketStep
  | .visit env req =>
    if (route d.toDeps cfg.gateway env site.world req).1.status = 204 then
      match agentAndOwner d.toDeps cfg.gateway site.world.db req.host with
      | some (agent, _) => [.add ⟨agent, ⟨env.countedAt, 0⟩, .request⟩]
      | none => []
    else []
  | .tick rt elapsed now flushFails =>
    .flush flushFails ::
      tickReadings d.toDeps rt (elapsed.getD cfg.gateway.schedulerIntervalSeconds) now
        (loadedAgents site.world.db) (flushRequests site.world flushFails)
  | _ => []

/-! ## The gateway and the metering machine -/

/-- Two worlds with the same meters. -/
structure MetersAs (w w' : World) : Prop where
  usage : w'.db.usageHours = w.db.usageHours
  pending : w'.pending = w.pending
  users : w'.db.users = w.db.users

theorem MetersAs.trans {w₁ w₂ w₃ : World} (h : MetersAs w₁ w₂) (h' : MetersAs w₂ w₃) :
    MetersAs w₁ w₃ :=
  ⟨h'.usage.trans h.usage, h'.pending.trans h.pending, h'.users.trans h.users⟩

/-- A reading does the same to the same meters. -/
theorem MetersAs.bucketStep {w w' : World} (h : MetersAs w w') (i : BucketStep) :
    MetersAs (bucketStep w i) (bucketStep w' i) := by
  cases i with
  | add x =>
    obtain ⟨a, time, metered⟩ := x
    cases metered with
    | usage n s =>
      refine ⟨?_, h.pending, h.users⟩
      simp only [Gateway.bucketStep, h.usage]
    | request =>
      refine ⟨h.usage, ?_, h.users⟩
      simp only [Gateway.bucketStep, h.pending]
  | flush fails =>
    simp only [Gateway.bucketStep, flushRequests, h.pending, h.users, h.usage]
    split_ifs
    · exact h
    · exact ⟨h.usage, rfl, h.users⟩
    · exact ⟨rfl, rfl, rfl⟩

theorem MetersAs.run {w w' : World} (h : MetersAs w w') (is : List BucketStep) :
    MetersAs (run Gateway.bucketStep w is) (run Gateway.bucketStep w' is) := by
  induction is generalizing w w' with
  | nil => exact h
  | cons i is ih => exact ih (h.bucketStep i)

/-- **A turn is what it meters.** -/
theorem tickAgent_meters (d : Deps) (rt : Runtime) (seconds : ℚ) (now : Instant) (w : World)
    (a : Agent) :
    MetersAs (run bucketStep w (turnReadings rt seconds now w a))
      (tickAgent d rt seconds now w a).2 := by
  unfold turnReadings tickAgent
  simp only [World.logCall_containers]
  cases rt.healthCheck a.id (w.containers a.id) with
  | error e => exact ⟨rfl, rfl, rfl⟩
  | ok health =>
    -- What is stored of the report is the same whether or not the row is written first.
    have hmetered : ∀ w₁ : World, MetersAs w w₁ →
        MetersAs (run bucketStep w (if isMetered (observe a health) health.liveReplicas then
          [.add ⟨observe a health, ⟨now, 0⟩, .usage health.liveReplicas seconds⟩] else []))
        (meter w₁ (observe a health) health.liveReplicas seconds now) := by
      intro w₁ hsame
      unfold meter isMetered
      simp only [decide_eq_true_eq]
      split_ifs
      · refine ⟨?_, hsame.pending, hsame.users⟩
        show record w₁.db.usageHours _ _ seconds now =
          record w.db.usageHours _ (health.liveReplicas : Int).toNat seconds (now - 0)
        rw [hsame.usage, Int.toNat_natCast, Int.sub_zero]
      · exact hsame
    have hseen := hmetered (if observe a health = a then w.logCall (.healthCheck a.id)
      else (w.logCall (.healthCheck a.id)).saveAgent (observe a health))
      (by split_ifs <;> exact ⟨rfl, rfl, rfl⟩)
    simp only
    generalize meter _ (observe a health) _ seconds now = w₁ at hseen ⊢
    generalize run bucketStep w _ = w₀ at hseen ⊢
    split_ifs
    · cases hasHeadroomForReplica d w₁.db (observe a health) with
      | error e => exact hseen
      | ok room =>
        cases room with
        | false => exact hseen
        | true => exact hseen.trans ⟨rfl, rfl, rfl⟩
    · exact hseen

theorem tickAgents_meters (d : Deps) (rt : Runtime) (seconds : ℚ) (now : Instant) :
    ∀ (rest : List Agent) (w : World),
      MetersAs (run bucketStep w (tickReadings d rt seconds now rest w))
        (tickAgents d rt seconds now rest w).2 := by
  intro rest
  induction rest with
  | nil =>
    intro w
    exact ⟨rfl, rfl, rfl⟩
  | cons a rest ih =>
    intro w
    have hturn := tickAgent_meters d rt seconds now w a
    unfold tickReadings tickAgents
    rw [run_append]
    generalize tickAgent d rt seconds now w a = out at hturn
    obtain ⟨res, w'⟩ := out
    cases res with
    | error e => exact hturn
    | ok _ => exact (hturn.run _).trans (ih w')

end Readings

section Gateway

variable {d : GatewayDeps} {cfg : GatewaySettings} {site : Site}

/-- A request to the agents leaves the usage. -/
theorem AgentsWrite.usageHours {d : Deps} {u : UserId} {w w' : World} (h : AgentsWrite d u w w') :
    w'.db.usageHours = w.db.usageHours := by
  cases h with
  | call rt c hu => exact c.exec_usageHours d rt w
  | mints hins =>
    unfold insertAccessKey? at hins
    split at hins
    · cases hins
    · obtain ⟨t, -, rfl⟩ := Option.map_eq_some_iff.mp hins
      rfl
  | drops keyId => rfl

/-- A visit that is let through is counted, and no other. -/
theorem route_pending (d : Deps) (s : Settings) (env : RouteEnv) (w : World) (req : RouteRequest) :
    ((route d s env w req).1.status ≠ 204 ∧ (route d s env w req).2.pending = w.pending) ∨
      ∃ agent owner, Admits d s env w req agent owner ∧ (route d s env w req).1.status = 204 ∧
        (route d s env w req).2.pending = countRequest w.pending agent env.countedAt := by
  unfold route
  cases htoken : checkToken s req with
  | some r => exact Or.inl ⟨checkToken_status htoken, rfl⟩
  | none =>
    simp only
    cases hfound : agentAndOwner d s w.db req.host with
    | none => exact Or.inl ⟨by simp [noAgent], rfl⟩
    | some found =>
      obtain ⟨agent, owner⟩ := found
      simp only
      unfold serve
      cases hhit : hitClient s env.clientAt w req agent with
      | mk res w₁ =>
        obtain rfl : _ = w₁ := congrArg Prod.snd hhit
        cases res with
        | some retryAfter => exact Or.inl ⟨by simp [tooManyRequests], rfl⟩
        | none =>
          have hclient := hitClient_fst_eq_none.mp (congrArg Prod.fst hhit)
          simp only
          split_ifs with hkey
          · exact Or.inl ⟨by simp [privateAgent], rfl⟩
          · by_cases hopen : (hitAgent d env.agentAt (hitClient s env.clientAt w req agent).2 agent
                owner).1 = none ∧
                upstreams ((hitClient s env.clientAt w req agent).2.containers agent.id) ≠ []
            · obtain ⟨target, -, hres, hpending⟩ := dispatch_routed hopen.1 hopen.2
              have hplan := hitAgent_fst_eq_none.mp hopen.1
              refine Or.inr ⟨agent, owner, ?_, by rw [hres]; rfl, hpending⟩
              exact
                { token := htoken
                  found := hfound
                  client := hclient
                  key := fun hpriv => by
                    by_contra hbad
                    exact hkey ⟨hpriv, hbad⟩
                  plan := hplan
                  address := hopen.2 }
            · exact Or.inl (dispatch_refused hopen)

/-- **As far as the meters go, a step of the gateway is what it meters.** -/
theorem gatewayStep_meters (d : GatewayDeps) (cfg : GatewaySettings) (site : Site)
    (i : GatewayStep) :
    (gatewayStep d cfg site i).world.db.usageHours =
        (run bucketStep site.world (stepReadings d cfg site i)).db.usageHours ∧
      (gatewayStep d cfg site i).world.pending =
        (run bucketStep site.world (stepReadings d cfg site i)).pending := by
  have helse : i.touchesAgents = false → stepReadings d cfg site i = [] →
      (gatewayStep d cfg site i).world.db.usageHours =
          (run bucketStep site.world (stepReadings d cfg site i)).db.usageHours ∧
        (gatewayStep d cfg site i).world.pending =
          (run bucketStep site.world (stepReadings d cfg site i)).pending := fun hno hnil => by
    rw [gatewayStep_world hno, hnil]
    exact ⟨rfl, rfl⟩
  cases i with
  | request m creds req =>
    cases req with
    | agents request =>
      show (siteRequest d.toSiteDeps cfg.toSiteSettings m site creds
        (.agents request)).2.world.db.usageHours = site.world.db.usageHours ∧ (siteRequest
        d.toSiteDeps cfg.toSiteSettings m site creds (.agents request)).2.world.pending =
          site.world.pending
      unfold siteRequest
      cases (SiteRequest.agents request).guard.enforce d.toAuthDeps cfg.auth site m.now creds with
      | error e => exact ⟨rfl, rfl⟩
      | ok p =>
        refine ⟨?_, (agentsHandler_keepsRest d.toApiDeps cfg.gateway m.toSurroundings site.world
          p.userId request).pending⟩
        exact agentsHandler_inv (P := fun w => w.db.usageHours = site.world.db.usageHours)
          d.toApiDeps cfg.gateway m.toSurroundings p.userId request
          (fun _ _ hwrite h => hwrite.usageHours.trans h) rfl
    | _ => exact helse rfl rfl
  | visit env req =>
    have hdb := (route_frame d.toDeps cfg.gateway env site.world req).1
    simp only [gatewayStep, hdb, stepReadings]
    rcases route_pending d.toDeps cfg.gateway env site.world req with
      ⟨hstatus, hpending⟩ | ⟨agent, owner, hadm, hstatus, hpending⟩
    · rw [if_neg hstatus, hpending]
      exact ⟨rfl, rfl⟩
    · rw [if_pos hstatus, hpending, hadm.found]
      refine ⟨rfl, ?_⟩
      show _ = countRequest site.world.pending agent (env.countedAt - 0)
      rw [Int.sub_zero]
  | tick rt elapsed now flushFails =>
    have hloop := tickAgents_meters d.toDeps rt
      (elapsed.getD cfg.gateway.schedulerIntervalSeconds) now (loadedAgents site.world.db)
      (flushRequests site.world flushFails)
    simp only [gatewayStep, tick, loadedAgents_flushRequests, stepReadings]
    exact ⟨hloop.usage, hloop.pending⟩
  | _ => exact helse rfl rfl

/-! ## Whose readings they are -/

/-- A step draws the ids of new agents from those of its caller. -/
def DrawsFrom (owner : AgentId → UserId) (d : GatewayDeps) (cfg : GatewaySettings) (site : Site) :
    GatewayStep → Prop
  | .request m creds (.agents (.create body draws)) =>
    ∀ p, (AgentsRequest.create body draws).guard.enforce d.toAuthDeps cfg.auth site m.now creds =
      .ok p → owner draws.newId = p.userId
  | _ => True

/-- The rows, the counts and the agents are of the account that owns the agent's id, and the
accounts of the counts are there. -/
structure Attributed (owner : AgentId → UserId) (site : Site) : Prop where
  owned : Owned owner site.world
  agents : ∀ a ∈ site.world.db.agents.rows, a.userId = owner a.id
  accounts : ∀ e ∈ site.world.pending, ∃ user, site.world.db.users.find? e.1.userId = some user

/-- The agents of a loop's readings are the ones it loaded. -/
theorem mem_tickReadings {d : Deps} {rt : Runtime} {seconds : ℚ} {now : Instant}
    {x : Contribution} :
    ∀ (rest : List Agent) (w : World), x ∈ contributions (tickReadings d rt seconds now rest w) →
      x.metered ≠ .request ∧ ∃ a ∈ rest, x.agent.id = a.id ∧ x.agent.userId = a.userId := by
  intro rest
  induction rest with
  | nil =>
    intro w hx
    cases hx
  | cons a rest ih =>
    intro w hx
    unfold tickReadings contributions at hx
    rw [List.filterMap_append] at hx
    rcases List.mem_append.mp hx with hturn | hrest
    · unfold turnReadings at hturn
      split at hturn
      · cases hturn
      · split_ifs at hturn
        · obtain rfl := List.mem_singleton.mp hturn
          exact ⟨by simp, a, List.mem_cons_self, rfl, rfl⟩
        · cases hturn
    · split at hrest
      · cases hrest
      · obtain ⟨hne, b, hb, hsame⟩ := ih _ hrest
        exact ⟨hne, b, List.mem_cons_of_mem a hb, hsame⟩

/-- The agent of a reading is stored, and the account of a request is there. -/
theorem mem_stepReadings {i : GatewayStep} {x : Contribution}
    (hx : x ∈ contributions (stepReadings d cfg site i)) :
    (∃ a ∈ site.world.db.agents.rows, x.agent.id = a.id ∧ x.agent.userId = a.userId) ∧
      (x.metered = .request → ∃ user, site.world.db.users.find? x.agent.userId = some user) := by
  cases i with
  | visit env req =>
    simp only [stepReadings] at hx
    split at hx
    · split at hx
      · rename_i agent owner hfound
        obtain rfl := List.mem_singleton.mp hx
        obtain ⟨hmem, howner⟩ := agentAndOwner_some hfound
        exact ⟨⟨agent, hmem, rfl, rfl⟩, fun _ => ⟨owner, howner⟩⟩
      · cases hx
    · cases hx
  | tick rt elapsed now flushFails =>
    obtain ⟨hne, a, ha, hsame⟩ := mem_tickReadings (loadedAgents site.world.db) _ hx
    exact ⟨⟨a, List.mem_of_mem_filter ha, hsame⟩, fun hreq => absurd hreq hne⟩
  | _ => cases hx

/-- What holds of the counted keys before and of those a run counts holds of the keys after. -/
theorem forall_pending_run {Q : RequestKey → Prop} {w : World} {is : List BucketStep}
    (h : ∀ e ∈ w.pending, Q e.1)
    (hnew : ∀ x ∈ contributions is, x.metered = .request → Q (requestKey x.agent x.time.utc)) :
    ∀ e ∈ (run bucketStep w is).pending, Q e.1 := by
  induction is generalizing w with
  | nil => exact h
  | cons i is ih =>
    have hrest : ∀ x ∈ contributions is, x.metered = .request →
        Q (requestKey x.agent x.time.utc) := fun x hx => by
      refine hnew x ?_
      obtain ⟨y, hy, hval⟩ := List.mem_filterMap.mp hx
      exact List.mem_filterMap.mpr ⟨y, List.mem_cons_of_mem i hy, hval⟩
    refine ih (w := bucketStep w i) ?_ hrest
    cases i with
    | add x =>
      have hx := hnew x (List.mem_filterMap.mpr ⟨.add x, List.mem_cons_self, rfl⟩)
      obtain ⟨a, time, metered⟩ := x
      cases metered with
      | usage n s => exact h
      | request => exact Counter.keys_add (hx rfl) h
    | flush fails =>
      simp only [bucketStep, flushRequests]
      split_ifs
      · exact h
      · exact Counter.keys_update (fun e he => absurd he List.not_mem_nil) h
      · exact fun e he => absurd he List.not_mem_nil

/-- A step keeps the owners of agents and gives new ones the owner of the id they drew. -/
theorem Attributed.step_agents {owner : AgentId → UserId} (hok : Attributed owner site)
    (i : GatewayStep) (hdraws : DrawsFrom owner d cfg site i) :
    ∀ a ∈ (gatewayStep d cfg site i).world.db.agents.rows, a.userId = owner a.id := by
  have hrewrite : ∀ {w w' : World} {old new : Agent} {cs : List Container},
      (∀ a ∈ w.db.agents.rows, a.userId = owner a.id) → Rewrites w w' old new cs →
        ∀ a ∈ w'.db.agents.rows, a.userId = owner a.id := fun {w w' old new cs} h hrw => by
    refine hrw.forall_rows h ?_
    rw [hrw.owner, hrw.id]
    exact h old (Table.mem_of_find? hrw.found)
  have hstep := gatewayStep_agents d cfg site i
  generalize (gatewayStep d cfg site i).world = w' at hstep
  cases hstep with
  | kept h hno =>
    rw [h.agents]
    exact hok.agents
  | @called m creds request p c w' hguard hcall h =>
    rw [h.agents]
    have heffect := c.exec_effect d.toDeps m.runtime site.world
    generalize c.exec d.toDeps m.runtime site.world = w' at heffect
    -- Only a creation makes a row, under the id it drew.
    have hnew : ∀ {u : UserId} {body : AgentConfigIn} {newId : AgentId} {suffix : List Char},
        c = .create u body newId suffix →
          (newAgent d.toDeps m.runtime.draws u body newId suffix).userId =
            owner (newAgent d.toDeps m.runtime.draws u body newId suffix).id := by
      rintro u body newId suffix rfl
      rw [newAgent_userId, newAgent_id]
      cases request with
      | create body' draws =>
        obtain ⟨rfl, -, rfl, -⟩ := Call.create.inj (Option.some.inj hcall)
        exact (hdraws p hguard).symm
      | _ => cases hcall
    cases heffect with
    | refused => exact hok.agents
    | updated _ hrw => exact hrewrite hok.agents hrw
    | deployed _ _ _ hrw => exact hrewrite hok.agents hrw
    | scaled _ _ _ hrw => exact hrewrite hok.agents hrw
    | removeFailed _ _ hrw => exact hrewrite hok.agents hrw
    | removed _ _ hrm => exact hrm.forall_rows hok.agents
    | created _ hins => exact hins.forall_rows hok.agents (hnew rfl)
    | createdDeployed _ _ hins _ _ hrw =>
      exact hrewrite (hins.forall_rows hok.agents (hnew rfl)) hrw
  | @ticked rt elapsed now flushFails =>
    refine tick_inv (P := fun w => ∀ a ∈ w.db.agents.rows, a.userId = owner a.id) (fun h => ?_)
      (fun _ _ _ _ _ _ h _ _ hrw => hrewrite h hrw) hok.agents
    rw [flushRequests_agents]
    exact h

/-- **One step.** -/
theorem Attributed.step {owner : AgentId → UserId} (hok : Attributed owner site)
    (i : GatewayStep) (hdraws : DrawsFrom owner d cfg site i) :
    Attributed owner (gatewayStep d cfg site i) := by
  obtain ⟨husage, hpending⟩ := gatewayStep_meters d cfg site i
  have howners : ∀ x ∈ contributions (stepReadings d cfg site i),
      x.agent.userId = owner x.agent.id := fun x hx => by
    obtain ⟨⟨a, ha, hid, huser⟩, -⟩ := mem_stepReadings hx
    rw [huser, hid]
    exact hok.agents a ha
  have howned : Owned owner (run bucketStep site.world (stepReadings d cfg site i)) :=
    run_inv (G := fun _ reading => reading.OwnedBy owner) owned_bucketStep _ hok.owned
      (along_of_forall _ _ (ownedBy_of_contributions howners))
  refine ⟨⟨husage ▸ howned.rows, hpending ▸ howned.keys⟩, hok.step_agents i hdraws, ?_⟩
  rw [hpending]
  have hkeeps := (gatewayStep_users d cfg site i).keepsKeys
  refine forall_pending_run (Q := fun k => ∃ user,
    (gatewayStep d cfg site i).world.db.users.find? k.userId = some user)
    (fun e he => ?_) fun x hx hreq => ?_
  · obtain ⟨user, huser⟩ := hok.accounts e he
    exact hkeeps _ user huser
  · obtain ⟨user, huser⟩ := (mem_stepReadings hx).2 hreq
    exact hkeeps _ user huser

/-! ## Totals -/

/-- What a reading adds to a column. -/
def Contribution.worth (c : UsageColumn) (x : Contribution) : ℚ :=
  match c, x.metered with
  | .requests, .request => 1
  | .replicaSeconds, .usage n s => if 0 < n ∧ 0 < s then n * s else 0
  | .vcpuSeconds, .usage n s => if 0 < n ∧ 0 < s then n * x.agent.cpu * s else 0
  | .memoryMbSeconds, .usage n s => if 0 < n ∧ 0 < s then n * x.agent.memoryMb * s else 0
  | _, _ => 0

/-- It is worth that if the account of a request is there. -/
theorem Contribution.amount_eq_worth {users : Table User User.id} (c : UsageColumn)
    (x : Contribution)
    (h : x.metered = .request → ∃ user, users.find? x.agent.userId = some user) :
    x.amount users c = x.worth c := by
  unfold amount worth
  cases hm : x.metered with
  | usage n s => cases c <;> simp
  | request =>
    obtain ⟨user, huser⟩ := h hm
    cases c <;> simp [huser]

variable (P : AgentId → Instant → Bool) (c : UsageColumn)

/-- What is counted of a column and not yet flushed. -/
def unflushed (pending : Counter RequestKey) : ℚ :=
  if c = .requests then (Counter.total (fun k => P k.agentId k.hourStart) pending : ℚ) else 0

theorem waiting_eq_unflushed {users : Table User User.id} {pending : Counter RequestKey}
    (h : ∀ e ∈ pending, ∃ user, users.find? e.1.userId = some user) :
    waiting P c users pending = unflushed P c pending := by
  have htotal : Counter.total (fun k => P k.agentId k.hourStart && (users.find? k.userId).isSome)
      pending = Counter.total (fun k => P k.agentId k.hourStart) pending := by
    refine Counter.total_congr fun e he => ?_
    obtain ⟨user, huser⟩ := h e he
    rw [huser, Option.isSome_some, Bool.and_true]
  unfold waiting unflushed
  rw [htotal]

/-- **One step** adds what it meters. -/
theorem Attributed.stored_add_unflushed_step (d : GatewayDeps) (cfg : GatewaySettings)
    {owner : AgentId → UserId} (hok : Attributed owner site) (i : GatewayStep) :
    stored P c (gatewayStep d cfg site i).world.db.usageHours +
        unflushed P c (gatewayStep d cfg site i).world.pending =
      stored P c site.world.db.usageHours + unflushed P c site.world.pending +
        ((contributions (stepReadings d cfg site i)).map fun x =>
          if P x.agent.id (hourStart x.time.utc) then x.worth c else 0).sum := by
  obtain ⟨husage, hpending⟩ := gatewayStep_meters d cfg site i
  have hrun := stored_add_waiting_run P c (stepReadings d cfg site i) site.world
  have hthere : ∀ e ∈ (run bucketStep site.world (stepReadings d cfg site i)).pending,
      ∃ user, site.world.db.users.find? e.1.userId = some user :=
    forall_pending_run (Q := fun k => ∃ user, site.world.db.users.find? k.userId = some user)
      hok.accounts fun x hx hreq => (mem_stepReadings hx).2 hreq
  rw [waiting_eq_unflushed P c hthere, waiting_eq_unflushed P c hok.accounts] at hrun
  rw [husage, hpending, hrun]
  congr 2
  refine List.map_congr_left fun x hx => ?_
  rw [x.amount_eq_worth c (mem_stepReadings hx).2]

/-- What a run meters, in order. -/
def metered (d : GatewayDeps) (cfg : GatewaySettings) (site : Site) (steps : List GatewayStep) :
    List Contribution :=
  emitted (gatewayStep d cfg) (fun site i => contributions (stepReadings d cfg site i)) site steps

/-- **A run** adds what it meters, for the accounts that own the agents. -/
theorem Attributed.run {owner : AgentId → UserId} (steps : List GatewayStep)
    (hok : Attributed owner site)
    (hdraws : Along (gatewayStep d cfg) (DrawsFrom owner d cfg) site steps) :
    Attributed owner (run (gatewayStep d cfg) site steps) ∧
      (∀ x ∈ metered d cfg site steps, x.agent.userId = owner x.agent.id) ∧
      stored P c (run (gatewayStep d cfg) site steps).world.db.usageHours +
          unflushed P c (run (gatewayStep d cfg) site steps).world.pending =
        stored P c site.world.db.usageHours + unflushed P c site.world.pending +
          ((metered d cfg site steps).map fun x =>
            if P x.agent.id (hourStart x.time.utc) then x.worth c else 0).sum := by
  induction steps generalizing site with
  | nil =>
    refine ⟨hok, fun x hx => absurd hx List.not_mem_nil, ?_⟩
    exact (add_zero _).symm
  | cons i steps ih =>
    obtain ⟨hend, hrest, hsum⟩ := ih (hok.step i hdraws.1) hdraws.2
    refine ⟨hend, fun x hx => ?_, ?_⟩
    · rcases List.mem_append.mp hx with hx | hx
      · obtain ⟨⟨a, ha, hid, huser⟩, -⟩ := mem_stepReadings hx
        rw [huser, hid]
        exact hok.agents a ha
      · exact hrest x hx
    · have hstep := hok.stored_add_unflushed_step P c d cfg i
      have hsplit : metered d cfg site (i :: steps) = contributions (stepReadings d cfg site i) ++
        metered d cfg (gatewayStep d cfg site i) steps := rfl
      rw [run_cons, hsum, hstep, hsplit, List.map_append, List.sum_append, add_assoc]

/-- The requests of an account since `start` that are counted and not yet flushed. -/
def pendingSince (u : UserId) (start : Instant) (pending : Counter RequestKey) : Nat :=
  Counter.total (fun k => k.userId = u ∧ start ≤ k.hourStart) pending

/-- The buckets of an account's agents since `start`. -/
def bucketsSince (owner : AgentId → UserId) (u : UserId) (start : Instant) (a : AgentId)
    (hour : Instant) : Bool := owner a = u ∧ start ≤ hour

omit P in
theorem Attributed.unflushed_since {owner : AgentId → UserId} (hok : Attributed owner site)
    (u : UserId) (start : Instant) :
    unflushed (bucketsSince owner u start) c site.world.pending =
      if c = .requests then (pendingSince u start site.world.pending : ℚ) else 0 := by
  have htotal : Counter.total (fun k : RequestKey =>
      bucketsSince owner u start k.agentId k.hourStart) site.world.pending =
      pendingSince u start site.world.pending := by
    refine Counter.total_congr fun e he => ?_
    rw [bucketsSince, (hok.owned.keys e he).1]
  unfold unflushed
  rw [htotal]

omit P in
theorem Attributed.stored_since {owner : AgentId → UserId} (hok : Attributed owner site)
    (u : UserId) (start : Instant) :
    stored (bucketsSince owner u start) c site.world.db.usageHours =
      periodSum site.world.db u start none c := by
  rw [← stored_period hok.owned u start none c]
  congr 1
  funext a hour
  simp [bucketsSince]

/-- What a run meters of an account since a whole hour. -/
theorem sum_metered_since {owner : AgentId → UserId} {xs : List Contribution}
    (howners : ∀ x ∈ xs, x.agent.userId = owner x.agent.id) (u : UserId) {start : Instant}
    (hstart : hourMicros ∣ start) (f : Contribution → ℚ) :
    (xs.map fun x => if bucketsSince owner u start x.agent.id (hourStart x.time.utc) then f x
      else 0).sum =
      ((xs.filter fun x => x.agent.userId = u ∧ start ≤ x.time.utc).map f).sum := by
  induction xs with
  | nil => rfl
  | cons x xs ih =>
    have hx : bucketsSince owner u start x.agent.id (hourStart x.time.utc) =
        decide (x.agent.userId = u ∧ start ≤ x.time.utc) := by
      rw [bucketsSince, howners x List.mem_cons_self, Bool.eq_iff_iff, decide_eq_true_iff,
        decide_eq_true_iff, le_hourStart_iff hstart]
    rw [List.map_cons, List.sum_cons, ih fun y hy => howners y (List.mem_cons_of_mem x hy), hx]
    rw [List.filter_cons]
    by_cases hin : decide (x.agent.userId = u ∧ start ≤ x.time.utc) = true
    · rw [if_pos hin, if_pos hin, List.map_cons, List.sum_cons]
    · rw [if_neg hin, if_neg hin, zero_add]

theorem sum_worth_requests (xs : List Contribution) :
    (xs.map (Contribution.worth .requests)).sum =
      (xs.countP fun x => x.metered = .request : ℚ) := by
  induction xs with
  | nil => simp
  | cons x xs ih =>
    rw [List.map_cons, List.sum_cons, ih, List.countP_cons]
    unfold Contribution.worth
    cases x.metered <;> simp [add_comm]

omit P c in
/-- **The statement of an account.** Over every run of the gateway that draws each id of an agent
for one account only, and from any whole hour on (such as the start of a month): the requests an
account is shown, with those still to be flushed, grow by one for each visit that was let through
to one of its agents; and its resource columns grow by what the ticks found of its agents running,
whatever else happens to the agents, deletion included. -/
theorem account_statement {owner : AgentId → UserId} {steps : List GatewayStep}
    (hok : Attributed owner site)
    (hdraws : Along (gatewayStep d cfg) (DrawsFrom owner d cfg) site steps) (u : UserId)
    {start : Instant} (hstart : hourMicros ∣ start) :
    let after := run (gatewayStep d cfg) site steps
    let own := (metered d cfg site steps).filter fun x => x.agent.userId = u ∧ start ≤ x.time.utc
    (periodTotals d.toSiteDeps after.world.db u start).requests +
          pendingSince u start after.world.pending =
        (periodTotals d.toSiteDeps site.world.db u start).requests +
          pendingSince u start site.world.pending + own.countP (fun x => x.metered = .request) ∧
      ∀ c, c ≠ .requests → periodSum after.world.db u start none c =
        periodSum site.world.db u start none c + (own.map (Contribution.worth c)).sum := by
  intro after own
  have hcolumn : ∀ c, periodSum after.world.db u start none c +
      (if c = .requests then (pendingSince u start after.world.pending : ℚ) else 0) =
      periodSum site.world.db u start none c +
        (if c = .requests then (pendingSince u start site.world.pending : ℚ) else 0) +
        (own.map (Contribution.worth c)).sum := fun c => by
    obtain ⟨hend, howners, hsum⟩ := hok.run (bucketsSince owner u start) c steps hdraws
    rw [hend.stored_since c, hend.unflushed_since c, hok.stored_since c, hok.unflushed_since c,
      sum_metered_since howners u hstart] at hsum
    exact hsum
  refine ⟨?_, fun c hc => ?_⟩
  · have hrequests := hcolumn .requests
    rw [if_pos rfl, if_pos rfl, sum_worth_requests, ← cast_periodRequests,
      ← cast_periodRequests] at hrequests
    rw [periodTotals_eq_until, periodTotals_eq_until]
    exact_mod_cast hrequests
  · have hresource := hcolumn c
    rw [if_neg hc, if_neg hc, add_zero, add_zero] at hresource
    exact hresource

/-- Two visits of which one is let through, and a tick. -/
def visitsAndTick : List GatewayStep :=
  [.visit { clientAt := 0, agentAt := 0 } sampleVisit,
    .visit { clientAt := 30, agentAt := 30 } sampleVisit, .tick .obliging none 0 false]

/-- The owner is shown the one visit that was let through to the agent. -/
theorem account_statement_visit :
    (periodTotals keyedGateway.toSiteDeps
        (run (gatewayStep keyedGateway { gateway := edgeSettings }) { world := limitedWorld }
          visitsAndTick).world.db 1 (monthStart 0)).requests +
      pendingSince 1 (monthStart 0)
        (run (gatewayStep keyedGateway { gateway := edgeSettings }) { world := limitedWorld }
          visitsAndTick).world.pending = 1 := by
  have hok : Attributed (fun _ => 1) { world := limitedWorld } := by
    refine ⟨⟨?_, ?_⟩, ?_, ?_⟩
    · decide +kernel
    · decide +kernel
    · decide +kernel
    · have hnone : limitedWorld.pending = [] := by decide +kernel
      rw [show ({ world := limitedWorld } : Site).world.pending = [] from hnone]
      exact fun e he => absurd he List.not_mem_nil
  have hdraws : Along (gatewayStep keyedGateway { gateway := edgeSettings })
      (DrawsFrom (fun _ => 1) keyedGateway { gateway := edgeSettings }) { world := limitedWorld }
      visitsAndTick := ⟨trivial, trivial, trivial, trivial⟩
  exact (account_statement hok hdraws 1 (dvd_monthStart 0)).1.trans (by decide +kernel)

end Gateway

end Gateway
