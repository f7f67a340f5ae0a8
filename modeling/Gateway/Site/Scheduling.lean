import Gateway.Site.Deletion

/-!
# What the scheduler sees

A tick loads the rows that are `running`, `scaling` or `starting` and no others. What it finds of
them it writes down; a row it takes to be `stopped` or `crashed` it does not load again.

* **`resting_untouched`**: an agent in any other status is out of the scheduler's sight. Until a
  request about it comes, no run changes its row or its containers or meters a second of them, even
  if they are running and visitors are let through to them.
* `tick_settles`: a tick that goes through brings every row it loads to what the health reports say
  of the containers it finds.
* **`ticks_settle`**: while the reports stay as they are, nobody calls the agent service and
  auto-scaling leaves the containers, one tick is enough: no later one changes a row.

Out of scope: requests that overlap a tick, and failing commits.
-/

namespace Gateway

open Lib

/-! ## Out of sight -/

section Steps

variable {d : GatewayDeps} {cfg : GatewaySettings} {site : Site} {row : Agent}
  {cs : List Container}

/-- A row that is not loaded is not the one whose turn it is. -/
theorem ne_of_loaded {db : Db} {old : Agent} (hrow : db.agents.find? row.id = some row)
    (hrest : row.status ∉ tickStatuses) (hold : old ∈ loadedAgents db) : row.id ≠ old.id := by
  intro heq
  rw [heq, find?_of_loaded hold] at hrow
  obtain rfl := Option.some.inj hrow
  exact hrest (by simpa using (List.mem_filter.mp hold).2)

/-- A tick meters no agent it does not load. -/
theorem readings_of_untouched (hrest : row.status ∉ tickStatuses)
    (h : Standing row.id (some row) cs site.world) (i : GatewayStep) :
    ∀ x ∈ contributions (stepReadings d cfg site i), x.agent.id = row.id →
      x.metered = .request := by
  intro x hx hid
  cases i with
  | visit env req =>
    simp only [stepReadings] at hx
    split at hx
    · split at hx
      · obtain rfl := List.mem_singleton.mp hx
        rfl
      · cases hx
    · cases hx
  | tick rt elapsed now flushFails =>
    obtain ⟨-, a, ha, hsame, -⟩ := mem_tickReadings (loadedAgents site.world.db) _ hx
    exact absurd (hid.symm.trans hsame) (ne_of_loaded h.row hrest ha)
  | _ => cases hx

/-- **Out of sight.** The row of an agent that is not `running`, `scaling` or `starting`, and its
containers, are what they are after every run that does not call the service about the agent,
whatever the health reports would say; and none of the time its containers run is metered, only the
requests of the visitors let through to them. -/
theorem resting_untouched {steps : List GatewayStep}
    (hrow : site.world.db.agents.find? row.id = some row) (hrest : row.status ∉ tickStatuses)
    (hnot : ∀ i ∈ steps, i.target ≠ some row.id) :
    let after := run (gatewayStep d cfg) site steps
    after.world.db.agents.find? row.id = some row ∧
      after.world.containers row.id = site.world.containers row.id ∧
      ∀ x ∈ metered d cfg site steps, x.agent.id = row.id → x.metered = .request := by
  intro after
  have hstart : Standing row.id (some row) (site.world.containers row.id) site.world := ⟨hrow, rfl⟩
  have hnever : Along (gatewayStep d cfg) (fun _ i => i.target ≠ some row.id) site steps :=
    along_of_forall steps site hnot
  have hstep : ∀ s (i : GatewayStep),
      Standing row.id (some row) (site.world.containers row.id) s.world → i.target ≠ some row.id →
        Standing row.id (some row) (site.world.containers row.id) (gatewayStep d cfg s i).world :=
    fun _ i h hi => gatewayStep_stands i (fun _ => Option.some_ne_none row)
      (fun hid => absurd hid hi) (fun a ha => Option.mem_some_iff.mp ha ▸ hrest) h
  have hend := run_inv
    (P := fun s => Standing row.id (some row) (site.world.containers row.id) s.world) hstep steps
    hstart hnever
  have halong := along_inv
    (P := fun s => Standing row.id (some row) (site.world.containers row.id) s.world) hstep steps
    hstart hnever
  exact ⟨hend.row, hend.containers,
    forall_emitted (fun _ i h => readings_of_untouched hrest h i) steps halong⟩

end Steps

/-- The agent of `limitedWorld` after it has crashed. -/
def crashedAgent : Agent :=
  { (limitedWorld.db.agents.find? "a").getD freeAgent with status := .crashed }

/-- Its container runs on. -/
def crashedSite : Site := { world := limitedWorld.saveAgent crashedAgent }

/-- A visitor comes, and the scheduler. -/
def visitAndTick : List GatewayStep :=
  [.visit { clientAt := 0, agentAt := 0 } sampleVisit, .tick .obliging none 0 false]

/-- The visitor is let through and the tick finds a container, but the agent stays crashed. -/
theorem resting_untouched_crashed :
    (emitted (gatewayStep keyedGateway { gateway := edgeSettings })
        (served keyedGateway { gateway := edgeSettings }) crashedSite visitAndTick).length = 1 ∧
      (run (gatewayStep keyedGateway { gateway := edgeSettings }) crashedSite
        visitAndTick).world.db.agents.find? crashedAgent.id = some crashedAgent :=
  ⟨by decide +kernel,
    (resting_untouched (by decide +kernel) (by decide +kernel)
      (by simp [visitAndTick, GatewayStep.target])).1⟩

/-! ## Settling -/

/-- The row as a health check leaves it. -/
def settle (rt : Runtime) (cs : List Container) (a : Agent) : Agent :=
  match rt.healthCheck a.id cs with
  | .error _ => a
  | .ok health => observe a health

/-- The rows a tick would load are what the health reports say. -/
def Reconciled (rt : Runtime) (w : World) : Prop :=
  ∀ a ∈ loadedAgents w.db, settle rt (w.containers a.id) a = a

section Settle

variable {d : Deps} {rt : Runtime} {w w' : World} {a : Agent} {cs : List Container}

theorem settle_id (rt : Runtime) (cs : List Container) (a : Agent) :
    (settle rt cs a).id = a.id := by
  unfold settle
  split <;> rfl

/-- A row that is still to be loaded has nothing more to learn from the same report. -/
theorem observe_observe {health : Health} (h : (observe a health).status ∈ tickStatuses) :
    observe (observe a health) health = observe a health := by
  have hstatus : newStatus (newStatus a.status health) health = newStatus a.status health := by
    unfold observe newStatus at h
    unfold newStatus
    split_ifs at h ⊢ <;> simp_all [tickStatuses]
  simp only [observe, hstatus]

theorem settle_settle (h : (settle rt cs a).status ∈ tickStatuses) :
    settle rt cs (settle rt cs a) = settle rt cs a := by
  unfold settle at h ⊢
  cases hreport : rt.healthCheck a.id cs with
  | error e =>
    simp only [hreport]
  | ok health =>
    rw [hreport] at h
    have hid : (observe a health).id = a.id := rfl
    simp only [hid, hreport]
    exact observe_observe h

/-- What a turn writes. -/
theorem TickEffect.settled {new : Agent} {left : List Container}
    (h : TickEffect rt a cs new left) : new = settle rt cs a := by
  unfold settle
  cases h with
  | unseen he => rw [he]
  | seen he => rw [he]
  | autoScaled he hrun hlive => rw [he]

/-- The containers it leaves, when auto-scaling leaves them. -/
theorem TickEffect.steady {new : Agent} {left : List Container}
    (hsteady : ∀ id cs, (rt.autoScale id cs).2 = cs) (h : TickEffect rt a cs new left) :
    left = cs := by
  cases h with
  | unseen he => rfl
  | seen he => rfl
  | autoScaled he hrun hlive => exact hsteady a.id cs

/-- A rewrite that leaves the containers. -/
theorem Rewrites.same_containers {old new : Agent}
    (hrw : Rewrites w w' old new (w.containers old.id)) : w'.containers = w.containers := by
  funext i
  rw [hrw.containers]
  split_ifs with hi
  · rw [hi]
  · rfl

/-- Reconciled rows stay as they are, also in a tick cut short. -/
theorem Reconciled.tick (hsteady : ∀ id cs, (rt.autoScale id cs).2 = cs) (h : Reconciled rt w)
    (s : Settings) (elapsed : Option ℚ) (now : Instant) (flushFails : Bool) :
    KeepsAgents w (Gateway.tick d s rt elapsed now flushFails w).2 := by
  refine tick_inv (P := KeepsAgents w) (fun _ => ⟨?_, ?_⟩) (fun w₁ w₂ old new cs hold hmid hcs heff
    hrw => ?_) (.refl w)
  · rw [flushRequests_agents]
  · rw [flushRequests_containers]
  · have hnew := heff.settled
    rw [hcs, h old hold] at hnew
    rw [heff.steady hsteady] at hrw
    subst hnew
    refine ⟨?_, hrw.same_containers.trans hmid.containers⟩
    rw [hrw.agents, Table.put_of_find? hrw.found]
    exact hmid.agents

theorem Reconciled.of_same (h : Reconciled rt w) (hsame : KeepsAgents w w') : Reconciled rt w' := by
  unfold Reconciled loadedAgents
  rw [hsame.agents, hsame.containers]
  exact h

/-- The turn of a row whose owner is there goes through. -/
theorem tickAgent_ok {user : User} (seconds : ℚ) (now : Instant)
    (hf : w.db.agents.find? a.id = some a) (hu : w.db.users.find? a.userId = some user) :
    (tickAgent d rt seconds now w a).1 = .ok () := by
  unfold tickAgent
  simp only [World.logCall_containers]
  cases rt.healthCheck a.id (w.containers a.id) with
  | error e => rfl
  | ok health =>
    have hseen := (((Rewrites.refl hf).logged (.healthCheck a.id)).observed health).metered
      (observe a health) health.liveReplicas seconds now
    simp only
    generalize meter _ (observe a health) _ seconds now = w₁ at hseen ⊢
    have howner : w₁.db.users.find? (observe a health).userId = some user := by
      rw [hseen.users]
      exact hu
    obtain ⟨room, hroom⟩ := hasHeadroomForReplica_ok (d := d) howner
    rw [hroom]
    split_ifs
    · cases room <;> rfl
    · rfl

/-- What the rest of the loop leaves: the rows of its agents as their reports say, and the other
rows and containers. -/
theorem tickAgents_settle (seconds : ℚ) (now : Instant) :
    ∀ (rest : List Agent) {w : World}, (rest.map Agent.id).Nodup →
      (∀ a ∈ rest, w.db.agents.find? a.id = some a) →
      (∀ a ∈ rest, ∃ user, w.db.users.find? a.userId = some user) →
      (∀ a ∈ rest, (tickAgents d rt seconds now rest w).2.db.agents.find? a.id =
          some (settle rt (w.containers a.id) a)) ∧
        ∀ id ∉ rest.map Agent.id,
          (tickAgents d rt seconds now rest w).2.db.agents.find? id = w.db.agents.find? id := by
  intro rest
  induction rest with
  | nil =>
    intro w _ _ _
    exact ⟨by simp, fun _ _ => rfl⟩
  | cons a rest ih =>
    intro w hnd hstored howners
    have hfa := hstored a List.mem_cons_self
    obtain ⟨user, huser⟩ := howners a List.mem_cons_self
    have hok : (tickAgent d rt seconds now w a).1 = .ok () := tickAgent_ok seconds now hfa huser
    obtain ⟨new, cs, heff, hrw⟩ := tickAgent_cases d rt seconds now hfa
    obtain rfl := heff.settled
    rw [List.map_cons, List.nodup_cons] at hnd
    unfold tickAgents
    generalize tickAgent d rt seconds now w a = out at hok hrw
    obtain ⟨res, w₁⟩ := out
    cases hok
    have hother : ∀ id, id ≠ a.id → w₁.db.agents.find? id = w.db.agents.find? id := fun id hne => by
      rw [hrw.agents, Table.find?_put_of_ne _ (by rw [hrw.id]; exact hne)]
    have hne : ∀ b ∈ rest, b.id ≠ a.id := fun b hb heq =>
      hnd.1 (heq ▸ List.mem_map_of_mem hb)
    obtain ⟨hrest, hrow⟩ := ih (w := w₁) hnd.2
      (fun b hb => (hother b.id (hne b hb)).trans (hstored b (List.mem_cons_of_mem a hb)))
      (fun b hb => by rw [hrw.users]; exact howners b (List.mem_cons_of_mem a hb))
    refine ⟨fun b hb => ?_, fun id hid => ?_⟩
    · rcases List.mem_cons.mp hb with rfl | hb
      · rw [hrow b.id hnd.1, ← hrw.stored, settle_id]
      · rw [hrest b hb, hrw.containers_of_ne (hne b hb)]
    · rw [List.map_cons, List.mem_cons, not_or] at hid
      rw [hrow id hid.2]
      exact hother id hid.1

/-- **A tick settles.** With the owners of all agents there, a row that is still to be loaded after
a tick was loaded by it, and is what the report on the containers found says. -/
theorem tick_settles (howners : References w.db.agents Agent.userId w.db.users) (s : Settings)
    (elapsed : Option ℚ) (now : Instant) (flushFails : Bool) {b : Agent}
    (hb : b ∈ loadedAgents (tick d s rt elapsed now flushFails w).2.db) :
    settle rt (w.containers b.id) b = b := by
  have hfound := find?_of_loaded hb
  have hactive : b.status ∈ tickStatuses := by simpa using (List.mem_filter.mp hb).2
  unfold tick at hfound
  simp only [loadedAgents_flushRequests] at hfound
  obtain ⟨hloaded, hother⟩ := @tickAgents_settle d rt
    (elapsed.getD s.schedulerIntervalSeconds) now (loadedAgents w.db)
    (w := flushRequests w flushFails) (loadedAgents_nodup w.db)
    (fun a ha => by rw [flushRequests_agents]; exact find?_of_loaded ha)
    (fun a ha => by rw [flushRequests_users]; exact howners a (List.mem_of_mem_filter ha))
  rw [flushRequests_containers] at hloaded
  rw [flushRequests_agents] at hother
  by_cases hid : b.id ∈ (loadedAgents w.db).map Agent.id
  · obtain ⟨a, ha, heq⟩ := List.mem_map.mp hid
    rw [← heq, hloaded a ha] at hfound
    obtain rfl := Option.some.inj hfound
    rw [settle_id]
    exact settle_settle hactive
  · -- A row the tick has not loaded would be as it was, and would have been loaded.
    rw [hother b.id hid] at hfound
    refine absurd (List.mem_map_of_mem ?_) hid
    exact List.mem_filter.mpr ⟨Table.mem_of_find? hfound, by simpa using hactive⟩

/-- A tick whose auto-scaling leaves the containers leaves them. -/
theorem tick_containers (hsteady : ∀ id cs, (rt.autoScale id cs).2 = cs) (s : Settings)
    (elapsed : Option ℚ) (now : Instant) (flushFails : Bool) :
    (tick d s rt elapsed now flushFails w).2.containers = w.containers := by
  refine tick_inv (P := fun w' => w'.containers = w.containers)
    (fun _ => flushRequests_containers w flushFails) (fun _ _ _ _ _ _ hmid _ heff hrw => ?_) rfl
  rw [heff.steady hsteady] at hrw
  exact hrw.same_containers.trans hmid

end Settle

/-- Nobody calls the agent service, and the runtime reports as `rt` does. -/
def GatewayStep.Quiet (rt : Runtime) : GatewayStep → Prop
  | .request _ _ (.agents req) => ∀ u, req.call? u = none
  | .tick rt' _ _ _ => rt' = rt
  | _ => True

section Quiet

variable {d : GatewayDeps} {cfg : GatewaySettings} {site : Site} {rt : Runtime}

/-- A quiet step leaves settled agents. -/
theorem Reconciled.step (hsteady : ∀ id cs, (rt.autoScale id cs).2 = cs)
    (h : Reconciled rt site.world)
    {i : GatewayStep} (hi : i.Quiet rt) :
    KeepsAgents site.world (gatewayStep d cfg site i).world := by
  have hstep := gatewayStep_agents d cfg site i
  generalize (gatewayStep d cfg site i).world = w' at hstep
  cases hstep with
  | kept hsame hno => exact hsame
  | @called m creds request p c _ hguard hcall hsame =>
    have hnone : request.call? p.userId = none := hi p.userId
    rw [hnone] at hcall
    cases hcall
  | @ticked rt' elapsed now flushFails =>
    have hrt : rt' = rt := hi
    rw [hrt]
    exact h.tick hsteady cfg.gateway elapsed now flushFails

/-- A report that leaves a row as it is, still to be loaded, counts its replicas, at least one, and
none failing. -/
theorem observe_fixed {a : Agent} {health : Health} (hsame : observe a health = a)
    (hactive : a.status ∈ tickStatuses) :
    a.replicas = health.liveReplicas ∧ 0 < a.replicas ∧ health.failing = false := by
  have hnew : newStatus a.status health ∈ tickStatuses := by
    have hstatus : newStatus a.status health = a.status := congrArg Agent.status hsame
    rw [hstatus]
    exact hactive
  have hreplicas : health.liveReplicas = a.replicas := congrArg Agent.replicas hsame
  refine ⟨hreplicas.symm, ?_, ?_⟩
  · rw [← hreplicas, Nat.pos_iff_ne_zero]
    intro hzero
    simp [newStatus, hzero, tickStatuses] at hnew
  · by_contra hfail
    rw [Bool.not_eq_false] at hfail
    unfold newStatus at hnew
    split_ifs at hnew <;> simp_all [tickStatuses]

/-- **One tick is enough.** Whatever the rows said before, after one tick those the scheduler still
watches have the replicas the tick's health reports count, at least one, and none is failing. If its
auto-scaling leaves the containers as they are, then as long as nobody calls the agent service and
the runtime goes on like that, no run of ticks, visits, logins, payments or anything else changes a
row or a container. -/
theorem ticks_settle (hok : Integrity site) (elapsed : Option ℚ) (now : Instant)
    (flushFails : Bool) :
    let ticked := gatewayStep d cfg site (.tick rt elapsed now flushFails)
    (∀ a ∈ loadedAgents ticked.world.db, ∀ health,
        rt.healthCheck a.id (site.world.containers a.id) = .ok health →
          a.replicas = health.liveReplicas ∧ 0 < a.replicas ∧ health.failing = false) ∧
      ((∀ id cs, (rt.autoScale id cs).2 = cs) → ∀ steps : List GatewayStep,
        (∀ i ∈ steps, i.Quiet rt) →
          KeepsAgents ticked.world (run (gatewayStep d cfg) ticked steps).world) := by
  intro ticked
  have hsettled : ∀ a ∈ loadedAgents ticked.world.db,
      settle rt (site.world.containers a.id) a = a :=
    fun a ha => tick_settles hok.agents.owners cfg.gateway elapsed now flushFails ha
  refine ⟨fun a ha health hreport => ?_, fun hsteady steps hquiet => ?_⟩
  · have hsame := hsettled a ha
    rw [settle, hreport] at hsame
    exact observe_fixed hsame (by simpa using (List.mem_filter.mp ha).2)
  · have hrec : Reconciled rt ticked.world := by
      intro a ha
      have hleft : ticked.world.containers = site.world.containers :=
        tick_containers hsteady cfg.gateway elapsed now flushFails
      rw [hleft]
      exact hsettled a ha
    refine run_inv (P := fun s => KeepsAgents ticked.world s.world)
      (G := fun _ i => GatewayStep.Quiet rt i) (fun s i hs hi => ?_) steps (.refl _)
      (along_of_forall steps ticked hquiet)
    have hstep : KeepsAgents s.world (gatewayStep d cfg s i).world :=
      (hrec.of_same hs).step hsteady hi
    exact ⟨hstep.agents.trans hs.agents, hstep.containers.trans hs.containers⟩

end Quiet

/-- A runtime that finds two replicas of every agent. -/
def Runtime.findsTwo : Runtime :=
  { Runtime.obliging with
    healthCheck := fun _ _ => .ok { containers := some ["r0", "r1"], healthy := some true } }

/-- The owner has deployed the agent, with one replica. -/
def ownerDeployed : Site :=
  gatewayStep .transparent {} ownerWithAgent
    (.request quietSurroundings (some "agnt_k") (.agents (.deploy "a" (some oneReplica))))

/-- The scheduler has looked once. -/
def ownerTicked : Site := gatewayStep .transparent {} ownerDeployed (.tick .findsTwo none 0 false)

/-- Two replicas are found: the row says so after the first tick and after all others. -/
theorem ticks_settle_two :
    (ownerTicked.world.db.agents.find? "a").map Agent.replicas = some 2 ∧
      KeepsAgents ownerTicked.world (run (gatewayStep .transparent {}) ownerTicked
        [.tick .findsTwo none 30 false, .login "owner@example.com" "quiet river",
          .tick .findsTwo none 60 true]).world := by
  refine ⟨by decide +kernel,
    (ticks_settle ?_ none 0 false).2 (fun _ _ => rfl) _ (by simp [GatewayStep.Quiet])⟩
  exact integrity_ownerWithAgent.step _

end Gateway
