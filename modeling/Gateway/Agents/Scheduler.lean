import Gateway.Agents.Effects
import Gateway.Metering.Model

/-!
# The scheduler's tick (`scheduler.py`)

`tick` flushes the request counts, loads the active rows and goes through them: a health check
whose verdict rewrites `replicas` and `status` (`observe`), the metering of the live replicas, and
auto-scaling for the agents that asked for it. The rows are those loaded at the start; in a serial
run each is still the stored one when its turn comes.

* `TickEffect` relates an agent's row and containers before its turn to those after it, as
  `DeployEffect` and `ScaleEffect` do for the calls.
* `tick_inv` is the rule for ticks: what the flush and every turn preserve, the tick preserves,
  also one cut short by an error of the quota query.
-/

namespace Gateway

open Lib

/-- `_ACTIVE_STATUSES`: the rows a tick loads. -/
def tickStatuses : List AgentStatus := [.running, .scaling, .starting]

/-- The rows `select(Agent).where(Agent.status.in_(_ACTIVE_STATUSES))` loads. -/
def loadedAgents (db : Db) : List Agent := db.agents.rows.filter fun a => a.status ∈ tickStatuses

/-- `new_status` for an agent whose status was `status`. -/
def newStatus (status : AgentStatus) (health : Health) : AgentStatus :=
  if health.liveReplicas = 0 then .stopped
  else if health.failing then .crashed
  else if status ≠ .scaling then .running
  else status

/-- The row as a health report leaves it. -/
def observe (a : Agent) (health : Health) : Agent :=
  { a with replicas := health.liveReplicas, status := newStatus a.status health }

/-- Meter the live replicas of a running or scaling agent. -/
def meter (w : World) (a : Agent) (live : Nat) (seconds : ℚ) (now : Instant) : World :=
  if (a.status = .running ∨ a.status = .scaling) ∧ 0 < live then
    { w with db := { w.db with usageHours := record w.db.usageHours a live seconds now } }
  else w

/-- The turn of one loaded agent. Only the quota query can end the tick: the errors of the two
runtime calls are logged and passed over. -/
def tickAgent (d : Deps) (rt : Runtime) (seconds : ℚ) (now : Instant) (w : World) (agent : Agent) :
    Except GatewayError Unit × World :=
  let w := w.logCall (.healthCheck agent.id)
  match rt.healthCheck agent.id (w.containers agent.id) with
  | .error _ => (.ok (), w)
  | .ok health =>
    let seen := observe agent health
    let w := if seen = agent then w else w.saveAgent seen
    let w := meter w seen health.liveReplicas seconds now
    if seen.autoScale ∧ seen.status = .running ∧ 0 < health.liveReplicas then
      match hasHeadroomForReplica d w.db seen with
      | .error e => (.error e, w)
      | .ok false => (.ok (), w)
      | .ok true =>
        let out := rt.autoScale seen.id (w.containers seen.id)
        (.ok (), (w.logCall (.autoScale seen.id)).setContainers seen.id out.2)
    else (.ok (), w)

/-- The `for` loop of `_tick`. -/
def tickAgents (d : Deps) (rt : Runtime) (seconds : ℚ) (now : Instant) :
    List Agent → World → Except GatewayError Unit × World
  | [], w => (.ok (), w)
  | a :: rest, w =>
    match tickAgent d rt seconds now w a with
    | (.error e, w) => (.error e, w)
    | (.ok (), w) => tickAgents d rt seconds now rest w

/-- `_tick`; `elapsed` is `none` on the first one, and `flushFails` says that the flush raises. -/
def tick (d : Deps) (s : Settings) (rt : Runtime) (elapsed : Option ℚ) (now : Instant)
    (flushFails : Bool) (w : World) : Except GatewayError Unit × World :=
  let w := flushRequests w flushFails
  tickAgents d rt (elapsed.getD s.schedulerIntervalSeconds) now (loadedAgents w.db) w

/-! ## What a turn can do -/

/-- What the turn of a loaded agent does to its row and containers. -/
inductive TickEffect (rt : Runtime) (old : Agent) (cs : List Container) :
    Agent → List Container → Prop
  | unseen {e : CoreError} (h : rt.healthCheck old.id cs = .error e) :
      TickEffect rt old cs old cs
  | seen {health : Health} (h : rt.healthCheck old.id cs = .ok health) :
      TickEffect rt old cs (observe old health) cs
  | autoScaled {health : Health} (h : rt.healthCheck old.id cs = .ok health)
      (hrun : (observe old health).status = .running) (hlive : 0 < health.liveReplicas) :
      TickEffect rt old cs (observe old health) (rt.autoScale old.id cs).2

section Frame

variable {w w₁ : World} {old mid : Agent} {cs : List Container}

theorem Rewrites.logged (h : Rewrites w w₁ old mid cs) (c : RuntimeCall) :
    Rewrites w (w₁.logCall c) old mid cs := { h with }

theorem Rewrites.metered (h : Rewrites w w₁ old mid cs) (a : Agent) (live : Nat) (seconds : ℚ)
    (now : Instant) : Rewrites w (meter w₁ a live seconds now) old mid cs := by
  unfold meter
  split
  · exact { h with }
  · exact h

theorem Rewrites.observed (h : Rewrites w w₁ old old cs) (health : Health) :
    Rewrites w (if observe old health = old then w₁ else w₁.saveAgent (observe old health)) old
      (observe old health) cs := by
  split_ifs with hs
  · rw [hs]
    exact h
  · exact h.save _ rfl rfl rfl

end Frame

/-- **Everything the turn of a stored row can do.** -/
theorem tickAgent_cases (d : Deps) (rt : Runtime) (seconds : ℚ) (now : Instant) {w : World}
    {old : Agent} (hf : w.db.agents.find? old.id = some old) :
    ∃ new cs, TickEffect rt old (w.containers old.id) new cs ∧
      Rewrites w (tickAgent d rt seconds now w old).2 old new cs := by
  unfold tickAgent
  have hlogged := (Rewrites.refl hf).logged (.healthCheck old.id)
  simp only [World.logCall_containers]
  cases hh : rt.healthCheck old.id (w.containers old.id) with
  | error e => exact ⟨_, _, .unseen hh, hlogged⟩
  | ok health =>
    have hseen := (hlogged.observed health).metered (observe old health) health.liveReplicas
      seconds now
    simp only
    generalize meter _ (observe old health) _ seconds now = w₁ at hseen ⊢
    split_ifs with hauto
    · cases hasHeadroomForReplica d w₁.db (observe old health) with
      | error e => exact ⟨_, _, .seen hh, hseen⟩
      | ok room =>
        cases room with
        | false => exact ⟨_, _, .seen hh, hseen⟩
        | true =>
          have hcs : w₁.containers (observe old health).id = w.containers old.id :=
            hseen.containers_self
          simp only [hcs]
          exact ⟨_, _, .autoScaled hh hauto.2.1 hauto.2.2, hseen.called _ _⟩
    · exact ⟨_, _, .seen hh, hseen⟩

/-! ## What a tick preserves -/

/-- A tick loads each row once. -/
theorem loadedAgents_nodup (db : Db) : ((loadedAgents db).map Agent.id).Nodup :=
  db.agents.nodup.sublist (List.filter_sublist.map Agent.id)

theorem find?_of_loaded {db : Db} {a : Agent} (h : a ∈ loadedAgents db) :
    db.agents.find? a.id = some a := Table.find?_of_mem (List.mem_of_mem_filter h)

/-- The turn of another row leaves the rows to come and their containers alone. -/
theorem Rewrites.keeps_rest {w w' : World} {old new : Agent} {cs : List Container}
    {rest : List Agent} {boxes : AgentId → List Container} (h : Rewrites w w' old new cs)
    (hnot : old.id ∉ rest.map Agent.id)
    (hrest : ∀ b ∈ rest, w.db.agents.find? b.id = some b ∧ w.containers b.id = boxes b.id) :
    ∀ b ∈ rest, w'.db.agents.find? b.id = some b ∧ w'.containers b.id = boxes b.id := by
  intro b hb
  have hne : b.id ≠ old.id := fun e => hnot (e ▸ List.mem_map_of_mem hb)
  obtain ⟨hfb, hcb⟩ := hrest b hb
  refine ⟨?_, (h.containers_of_ne hne).trans hcb⟩
  rw [h.agents, Table.find?_put_of_ne _ (by rw [h.id]; exact hne)]
  exact hfb

/-- What every turn of the remaining rows preserves, the rest of the loop preserves. The rows are
stored ones with distinct ids, so a turn leaves the later ones and their containers alone. -/
theorem tickAgents_inv (d : Deps) (rt : Runtime) (seconds : ℚ) (now : Instant)
    {Inv : World → Prop} {boxes : AgentId → List Container} :
    ∀ (rest : List Agent) {w : World}, (rest.map Agent.id).Nodup →
      (∀ a ∈ rest, w.db.agents.find? a.id = some a ∧ w.containers a.id = boxes a.id) →
      (∀ w₁ w₂ old new cs, old ∈ rest → Inv w₁ → w₁.containers old.id = boxes old.id →
        TickEffect rt old (w₁.containers old.id) new cs → Rewrites w₁ w₂ old new cs → Inv w₂) →
      Inv w → Inv (tickAgents d rt seconds now rest w).2 := by
  intro rest
  induction rest with
  | nil =>
    intro _ _ _ _ h
    exact h
  | cons a rest ih =>
    intro w hnd hstored hstep h
    obtain ⟨hfa, hca⟩ := hstored a List.mem_cons_self
    obtain ⟨new, cs, heff, hrw⟩ := tickAgent_cases d rt seconds now hfa
    have hinv := hstep _ _ _ _ _ List.mem_cons_self h hca heff hrw
    rw [List.map_cons, List.nodup_cons] at hnd
    unfold tickAgents
    generalize tickAgent d rt seconds now w a = out at hrw hinv
    obtain ⟨res, w'⟩ := out
    cases res with
    | error e => exact hinv
    | ok _ =>
      have hlater := hrw.keeps_rest hnd.1 fun b hb => hstored b (List.mem_cons_of_mem a hb)
      exact ih hnd.2 hlater
        (fun w₁ w₂ old new cs ho => hstep w₁ w₂ old new cs (List.mem_cons_of_mem a ho)) hinv

@[simp] theorem flushRequests_agents (w : World) (f : Bool) :
    (flushRequests w f).db.agents = w.db.agents := by
  unfold flushRequests
  split_ifs <;> rfl

@[simp] theorem flushRequests_users (w : World) (f : Bool) :
    (flushRequests w f).db.users = w.db.users := by
  unfold flushRequests
  split_ifs <;> rfl

@[simp] theorem flushRequests_containers (w : World) (f : Bool) :
    (flushRequests w f).containers = w.containers := by
  unfold flushRequests
  split_ifs <;> rfl

@[simp] theorem loadedAgents_flushRequests (w : World) (f : Bool) :
    loadedAgents (flushRequests w f).db = loadedAgents w.db := by
  unfold loadedAgents
  rw [flushRequests_agents]

/-- **The rule for ticks.** What the flush preserves, and every turn of a row the tick loaded, the
tick preserves. -/
theorem tick_inv {d : Deps} {s : Settings} {rt : Runtime} {elapsed : Option ℚ} {now : Instant}
    {flushFails : Bool} {w : World} {P : World → Prop}
    (hflush : P w → P (flushRequests w flushFails))
    (hturn : ∀ w₁ w₂ old new cs, old ∈ loadedAgents w.db → P w₁ →
      w₁.containers old.id = w.containers old.id →
      TickEffect rt old (w₁.containers old.id) new cs → Rewrites w₁ w₂ old new cs → P w₂)
    (h : P w) : P (tick d s rt elapsed now flushFails w).2 := by
  unfold tick
  simp only [loadedAgents_flushRequests]
  refine tickAgents_inv d rt _ now (loadedAgents w.db) (loadedAgents_nodup w.db) (fun a ha => ?_)
    hturn (hflush h)
  rw [flushRequests_agents, flushRequests_containers]
  exact ⟨find?_of_loaded ha, rfl⟩

end Gateway
