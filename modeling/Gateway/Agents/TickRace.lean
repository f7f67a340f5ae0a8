import Gateway.Agents.Orphans
import Gateway.Metering.Elapsed

/-!
# A tick while agents are deleted

`_tick` loads its rows once and goes through them turn by turn, with awaits in between during which
`delete_agent` requests proceed. A `TickRace` is the world, the requests, the rows whose turn is to
come and how far the current turn is. A turn guards its two runtime calls: when `health_check` or
`auto_scale` raises, the loop goes on. Its other awaits are not guarded. The commit of an observed
row raises `StaleDataError` when the row has been deleted meanwhile, and that ends the tick for the
agents behind it as well.

* `tickTurns_alone`: undisturbed, the turns do what `tickAgents` does in the serial model.
* `RaceInv` says what each agent's row and usage records are before, during and after its turn;
  `remaining` bounds the steps the tick has left.
* **`tick_serves_others`**: in every run in which each commit of a changed row finds the row, the
  tick does not raise, comes to its end, and every agent it loaded whose health check succeeded has
  its row updated and one usage record if it is to be metered.
* **`deleted_agent_stops_tick`**: an agent deleted before its turn, and the next one is skipped.
-/

namespace Gateway

open Lib

/-! ## The tick and the requests -/

/-- Where the current turn is: the row as it was loaded, and the health report. -/
inductive TurnPc where
  | next
  | checked (a : Agent) (health : Health)
  | observed (a : Agent) (health : Health)
  | metered (a : Agent) (health : Health)
  | scaling (a : Agent) (health : Health)
  | raised

/-- A `delete_agent` request and where it is. -/
structure DeleteRequest where
  userId : UserId
  agentId : AgentId
  pc : DeletingPc := .start

/-- The world, the requests and the tick: the rows to come, the turn, and what the turns so far
answered and recorded. -/
structure TickRace where
  world : World
  deletes : List DeleteRequest := []
  queue : List Agent
  pc : TurnPc := .next
  answers : List (Agent × Except CoreError Health) := []
  records : List RecordCall := []

/-- The tick has loaded its rows. -/
def TickRace.start (w : World) (deletes : List DeleteRequest) : TickRace where
  world := w
  deletes := deletes
  queue := loadedAgents w.db

/-- The turn of `a` is over. -/
def TickRace.endTurn (σ : TickRace) (a : Agent) (answer : Except CoreError Health) : TickRace :=
  { σ with pc := .next, answers := σ.answers ++ [(a, answer)] }

/-- The calls of `record` in the turn of `a` after this report. -/
def recordsOf (seconds : ℚ) (a : Agent) (health : Health) : List RecordCall :=
  if isMetered (observe a health) health.liveReplicas then [⟨a.id, health.liveReplicas, seconds⟩]
  else []

/-- The next step of the tick, which may meet any runtime. -/
def turnStep (d : Deps) (seconds : ℚ) (now : Instant) (rt : Runtime) (σ : TickRace) : TickRace :=
  match σ.pc with
  | .next =>
    match σ.queue with
    | [] => σ
    | a :: rest =>
      let w := σ.world.logCall (.healthCheck a.id)
      match rt.healthCheck a.id (w.containers a.id) with
      | .error e => { σ with world := w, queue := rest }.endTurn a (.error e)
      | .ok health => { σ with world := w, queue := rest, pc := .checked a health }
  | .checked a health =>
    -- `if changed: await db.commit()`, which raises for want of a row to update.
    if observe a health = a then { σ with pc := .observed a health }
    else
      match σ.world.db.agents.find? a.id with
      | none => { σ with pc := .raised }
      | some row =>
        { σ with
          world := σ.world.saveAgent (Agent.flush a (observe a health) row)
          pc := .observed a health }
  | .observed a health =>
    -- `usage_hours` has no foreign key to `agents`, so this does not need the row.
    { σ with
      world := meter σ.world (observe a health) health.liveReplicas seconds now
      records := σ.records ++ recordsOf seconds a health
      pc := .metered a health }
  | .metered a health =>
    if (observe a health).autoScale ∧ (observe a health).status = .running ∧
        0 < health.liveReplicas then
      match hasHeadroomForReplica d σ.world.db (observe a health) with
      | .error _ => { σ with pc := .raised }
      | .ok false => σ.endTurn a (.ok health)
      | .ok true => { σ with pc := .scaling a health }
    else σ.endTurn a (.ok health)
  | .scaling a health =>
    let out := rt.autoScale a.id (σ.world.containers a.id)
    { σ with world := (σ.world.logCall (.autoScale a.id)).setContainers a.id out.2 }.endTurn a
      (.ok health)
  | .raised => σ

/-- The next step of a `delete_agent` request; deleting a row that is gone is no error. -/
def deleteStep (rt : Runtime) (w : World) (r : DeleteRequest) : DeletingPc × World :=
  match r.pc with
  | .start =>
    match w.db.ownedAgent? r.userId r.agentId with
    | none => (.done, w)
    | some a => (.loaded a, w)
  | .loaded a =>
    let out := rt.remove a.id (w.containers a.id)
    let w := (w.logCall (.remove a.id)).setContainers a.id out.2
    match out.1 with
    | .error _ => (.done, w)
    | .ok () => (.removed, w)
  | .removed => (.done, deleteRow w r.agentId)
  | .done => (.done, w)

/-- What happens next: a step of the tick, a new request, or a step of one. -/
inductive RaceMove where
  | turn (rt : Runtime)
  | request (userId : UserId) (agentId : AgentId)
  | delete (i : Nat) (rt : Runtime)

/-- One move. -/
def tickRaceStep (d : Deps) (seconds : ℚ) (now : Instant) (σ : TickRace) : RaceMove → TickRace
  | .turn rt => turnStep d seconds now rt σ
  | .request u id => { σ with deletes := σ.deletes ++ [{ userId := u, agentId := id }] }
  | .delete i rt =>
    match σ.deletes[i]? with
    | none => σ
    | some r =>
      let out := deleteStep rt σ.world r
      { σ with world := out.2, deletes := σ.deletes.set i { r with pc := out.1 } }

/-- The condition on a step: a commit of the tick that has a changed row to write finds it there. -/
def CommitFinds (σ : TickRace) : RaceMove → Prop
  | .turn _ =>
    match σ.pc with
    | .checked a health => observe a health ≠ a → (σ.world.db.agents.find? a.id).isSome
    | _ => True
  | _ => True

instance (σ : TickRace) (m : RaceMove) : Decidable (CommitFinds σ m) := by
  unfold CommitFinds
  split
  · split <;> infer_instance
  · infer_instance

/-- The tick has gone through its rows. -/
def TickRace.Finished (σ : TickRace) : Prop := σ.pc = .next ∧ σ.queue = []

/-- An error has ended the tick. -/
def TickRace.Raised (σ : TickRace) : Prop := σ.pc = .raised

/-! ## Undisturbed turns -/

section Alone

variable {d : Deps} {seconds : ℚ} {now : Instant} {rt : Runtime}

/-- Steps of the tick alone lead from one state to the other. -/
def Leads (d : Deps) (seconds : ℚ) (now : Instant) (rt : Runtime) (σ τ : TickRace) : Prop :=
  ∃ n, run (tickRaceStep d seconds now) σ (List.replicate n (.turn rt)) = τ

theorem Leads.refl (σ : TickRace) : Leads d seconds now rt σ σ := ⟨0, rfl⟩

theorem Leads.step {σ τ : TickRace} (h : Leads d seconds now rt (turnStep d seconds now rt σ) τ) :
    Leads d seconds now rt σ τ := by
  obtain ⟨n, hn⟩ := h
  exact ⟨n + 1, hn⟩

theorem Leads.trans {σ τ υ : TickRace} (h : Leads d seconds now rt σ τ)
    (h' : Leads d seconds now rt τ υ) : Leads d seconds now rt σ υ := by
  obtain ⟨n, rfl⟩ := h
  obtain ⟨m, rfl⟩ := h'
  refine ⟨n + m, ?_⟩
  rw [List.replicate_add, run_append]

/-- How a part of a serial tick ends, told of the state the turns lead to. -/
structure EndsAs (out : Except GatewayError Unit × World) (rest : List Agent) (σ : TickRace) :
    Prop where
  world : σ.world = out.2
  ok : out.1 = .ok () → σ.pc = .next ∧ σ.queue = rest
  error : ∀ e, out.1 = .error e → σ.Raised

/-- An undisturbed turn whose check is answered comes to the question of scaling. -/
theorem leads_metered {w : World} {a : Agent} {health : Health}
    (hf : w.db.agents.find? a.id = some a)
    (hh : rt.healthCheck a.id (w.containers a.id) = .ok health) (deletes : List DeleteRequest)
    (rest : List Agent) (answers : List (Agent × Except CoreError Health))
    (records : List RecordCall) :
    Leads d seconds now rt ⟨w, deletes, a :: rest, .next, answers, records⟩
      ⟨meter (if observe a health = a then w.logCall (.healthCheck a.id)
          else (w.logCall (.healthCheck a.id)).saveAgent (observe a health))
        (observe a health) health.liveReplicas seconds now,
        deletes, rest, .metered a health, answers, records ++ recordsOf seconds a health⟩ := by
  have hchecked : turnStep d seconds now rt ⟨w, deletes, a :: rest, .next, answers, records⟩ =
      ⟨w.logCall (.healthCheck a.id), deletes, rest, .checked a health, answers, records⟩ := by
    simp only [turnStep, World.logCall_containers, hh]
  have hobserved : turnStep d seconds now rt
      ⟨w.logCall (.healthCheck a.id), deletes, rest, .checked a health, answers, records⟩ =
        ⟨if observe a health = a then w.logCall (.healthCheck a.id)
          else (w.logCall (.healthCheck a.id)).saveAgent (observe a health),
          deletes, rest, .observed a health, answers, records⟩ := by
    have hf' : (w.logCall (.healthCheck a.id)).db.agents.find? a.id = some a := hf
    simp only [turnStep, hf', Agent.flush_loaded]
    split_ifs <;> rfl
  refine .step ?_
  rw [hchecked]
  refine .step ?_
  rw [hobserved]
  exact .step (.refl _)

/-- An undisturbed turn does what `tickAgent` does. -/
theorem turn_alone (d : Deps) (seconds : ℚ) (now : Instant) (rt : Runtime) {σ : TickRace}
    {a : Agent} {rest : List Agent} (hpc : σ.pc = .next) (hqueue : σ.queue = a :: rest)
    (hf : σ.world.db.agents.find? a.id = some a) :
    ∃ τ, Leads d seconds now rt σ τ ∧
      EndsAs (tickAgent d rt seconds now σ.world a) rest τ := by
  obtain ⟨w, deletes, queue, pc, answers, records⟩ := σ
  simp only at hpc hqueue hf
  subst hpc hqueue
  unfold tickAgent
  simp only [World.logCall_containers]
  cases hh : rt.healthCheck a.id (w.containers a.id) with
  | error e =>
    refine ⟨_, .step (.refl _), ?_⟩
    simp only [turnStep, World.logCall_containers, hh]
    exact ⟨rfl, fun _ => ⟨rfl, rfl⟩, fun _ h => absurd h (by simp)⟩
  | ok health =>
    have hleads := @leads_metered d seconds now rt w a health hf hh deletes rest answers records
    simp only
    generalize meter (if observe a health = a then w.logCall (.healthCheck a.id)
      else (w.logCall (.healthCheck a.id)).saveAgent (observe a health))
        (observe a health) health.liveReplicas seconds now = w₁ at hleads ⊢
    by_cases hauto : (observe a health).autoScale ∧ (observe a health).status = .running ∧
        0 < health.liveReplicas
    · rw [if_pos hauto]
      cases hroom : hasHeadroomForReplica d w₁.db (observe a health) with
      | error e =>
        refine ⟨_, hleads.trans (.step (.refl _)), ?_⟩
        simp only [turnStep, if_pos hauto, hroom]
        exact ⟨rfl, fun h => absurd h (by simp), fun _ _ => rfl⟩
      | ok room =>
        cases room with
        | false =>
          refine ⟨_, hleads.trans (.step (.refl _)), ?_⟩
          simp only [turnStep, if_pos hauto, hroom]
          exact ⟨rfl, fun _ => ⟨rfl, rfl⟩, fun _ h => absurd h (by simp)⟩
        | true =>
          refine ⟨_, hleads.trans (.step (.step (.refl _))), ?_⟩
          simp only [turnStep, if_pos hauto, hroom]
          exact ⟨rfl, fun _ => ⟨rfl, rfl⟩, fun _ h => absurd h (by simp)⟩
    · rw [if_neg hauto]
      refine ⟨_, hleads.trans (.step (.refl _)), ?_⟩
      simp only [turnStep, if_neg hauto]
      exact ⟨rfl, fun _ => ⟨rfl, rfl⟩, fun _ h => absurd h (by simp)⟩

/-- **The undisturbed tick**: its turns lead to the world the serial tick leaves, and raise when
that one does. -/
theorem tickTurns_alone (d : Deps) (rt : Runtime) (seconds : ℚ) (now : Instant) :
    ∀ (rest : List Agent) {σ : TickRace}, (rest.map Agent.id).Nodup →
      (∀ a ∈ rest, σ.world.db.agents.find? a.id = some a) → σ.pc = .next → σ.queue = rest →
      ∃ τ, Leads d seconds now rt σ τ ∧
        EndsAs (tickAgents d rt seconds now rest σ.world) [] τ := by
  intro rest
  induction rest with
  | nil =>
    intro σ _ _ hpc hqueue
    exact ⟨σ, .refl σ, rfl, fun _ => ⟨hpc, hqueue⟩, fun _ h => absurd h (by simp [tickAgents])⟩
  | cons a rest ih =>
    intro σ hnd hstored hpc hqueue
    rw [List.map_cons, List.nodup_cons] at hnd
    have hfa := hstored a List.mem_cons_self
    obtain ⟨τ, hτ, hends⟩ := turn_alone d seconds now rt hpc hqueue hfa
    obtain ⟨new, cs, -, hrw⟩ := tickAgent_cases d rt seconds now hfa
    unfold tickAgents
    generalize tickAgent d rt seconds now σ.world a = out at hends hrw
    obtain ⟨res, w⟩ := out
    cases res with
    | error e =>
      exact ⟨τ, hτ, hends.world, fun h => absurd h (by simp), fun _ _ => hends.error e rfl⟩
    | ok _ =>
      obtain ⟨hpc', hqueue'⟩ := hends.ok rfl
      have hw : τ.world = w := hends.world
      have hlater : ∀ b ∈ rest, τ.world.db.agents.find? b.id = some b := by
        have hkept := hrw.keeps_rest hnd.1 fun b hb => ⟨hstored b (List.mem_cons_of_mem a hb), rfl⟩
        intro b hb
        rw [hw]
        exact (hkept b hb).1
      obtain ⟨υ, hυ, hend⟩ := ih hnd.2 hlater hpc' hqueue'
      rw [hw] at hend
      exact ⟨υ, hτ.trans hυ, hend⟩

end Alone

/-! ## The invariant -/

/-- The agents whose turn it is. -/
def TurnPc.agent : TurnPc → List Agent
  | .next => []
  | .checked a _ => [a]
  | .observed a _ => [a]
  | .metered a _ => [a]
  | .scaling a _ => [a]
  | .raised => []

/-- The row of `a` is `row`, unless a request has deleted it, and `calls` are the calls of `record`
for it. -/
structure Stands (σ : TickRace) (a row : Agent) (calls : List RecordCall) : Prop where
  row : σ.world.db.agents.find? a.id = some row ∨
    σ.world.db.agents.find? a.id = none ∧ ∃ r ∈ σ.deletes, r.agentId = a.id
  calls : callsFor a.id σ.records = calls

/-- What is true of the agent whose turn it is. -/
def TurnStands (seconds : ℚ) (σ : TickRace) : TurnPc → Prop
  | .next => True
  | .checked a _ => Stands σ a a []
  | .observed a health => Stands σ a (observe a health) []
  | .metered a health => Stands σ a (observe a health) (recordsOf seconds a health)
  | .scaling a health => Stands σ a (observe a health) (recordsOf seconds a health)
  | .raised => False

/-- What holds between the steps of a tick that loaded the rows `loaded`. -/
structure RaceInv (seconds : ℚ) (loaded : List Agent) (σ : TickRace) : Prop where
  order : σ.answers.map Prod.fst ++ (σ.pc.agent ++ σ.queue) = loaded
  queued : ∀ a ∈ σ.queue, Stands σ a a []
  turn : TurnStands seconds σ σ.pc
  answered : ∀ a health, (a, .ok health) ∈ σ.answers →
    Stands σ a (observe a health) (recordsOf seconds a health)
  owners : ∀ a ∈ loaded, σ.world.db.users.find? a.userId ≠ none

section Frame

variable {seconds : ℚ} {loaded : List Agent} {σ τ : TickRace} {a row : Agent}
  {calls : List RecordCall}

/-- An agent stands as before when its row, its calls and the requests for it do. -/
theorem Stands.frame (h : Stands σ a row calls)
    (hrow : τ.world.db.agents.find? a.id = σ.world.db.agents.find? a.id)
    (hdeletes : τ.deletes = σ.deletes)
    (hcalls : callsFor a.id τ.records = callsFor a.id σ.records) : Stands τ a row calls where
  row := by
    rw [hrow, hdeletes]
    exact h.row
  calls := hcalls.trans h.calls

/-- The rule for moves of the requests: the tick is where it was. -/
theorem RaceInv.elsewhere (h : RaceInv seconds loaded σ) (hpc : τ.pc = σ.pc)
    (hqueue : τ.queue = σ.queue) (hanswers : τ.answers = σ.answers)
    (husers : τ.world.db.users = σ.world.db.users)
    (hstands : ∀ {a row calls}, Stands σ a row calls → Stands τ a row calls) :
    RaceInv seconds loaded τ where
  order := by
    rw [hanswers, hpc, hqueue]
    exact h.order
  queued a ha := hstands (h.queued a (hqueue ▸ ha))
  turn := by
    have hturn := h.turn
    rw [hpc]
    cases hp : σ.pc with
    | next => trivial
    | raised =>
      rw [hp] at hturn
      exact hturn
    | checked a health =>
      rw [hp] at hturn
      exact hstands hturn
    | observed a health =>
      rw [hp] at hturn
      exact hstands hturn
    | metered a health =>
      rw [hp] at hturn
      exact hstands hturn
    | scaling a health =>
      rw [hp] at hturn
      exact hstands hturn
  answered a health ha := hstands (h.answered a health (hanswers ▸ ha))
  owners := by
    rw [husers]
    exact h.owners

/-- The rows before and behind the one whose turn it is are other agents'. -/
theorem RaceInv.ne_of_turn (h : RaceInv seconds loaded σ) (hnd : (loaded.map Agent.id).Nodup)
    {rest : List Agent} (hturn : σ.pc.agent ++ σ.queue = a :: rest) :
    (∀ b ∈ rest, b.id ≠ a.id) ∧ ∀ b answer, (b, answer) ∈ σ.answers → b.id ≠ a.id := by
  rw [← h.order, hturn, List.map_append, List.map_cons] at hnd
  obtain ⟨-, hlater, hdisjoint⟩ := List.nodup_append.mp hnd
  constructor
  · intro b hb e
    exact (List.nodup_cons.mp hlater).1 (e ▸ List.mem_map_of_mem hb)
  · intro b answer hb
    refine hdisjoint b.id ?_ a.id List.mem_cons_self
    exact List.mem_map_of_mem (List.mem_map_of_mem hb)

/-- The rule for a step within the turn of `a`: the other agents stand as before. -/
theorem RaceInv.stay (h : RaceInv seconds loaded σ) (hnd : (loaded.map Agent.id).Nodup)
    {rest : List Agent} (hturn : σ.pc.agent ++ σ.queue = a :: rest) (hpc : τ.pc.agent = [a])
    (hqueue : τ.queue = rest) (hanswers : τ.answers = σ.answers)
    (husers : τ.world.db.users = σ.world.db.users)
    (hothers : ∀ {b row calls}, b.id ≠ a.id → Stands σ b row calls → Stands τ b row calls)
    (hstands : TurnStands seconds τ τ.pc) (hqueued : ∀ b ∈ rest, b ∈ σ.queue) :
    RaceInv seconds loaded τ where
  order := by
    rw [hanswers, hpc, hqueue, List.singleton_append, ← hturn]
    exact h.order
  queued b hb := by
    rw [hqueue] at hb
    exact hothers ((h.ne_of_turn hnd hturn).1 b hb) (h.queued b (hqueued b hb))
  turn := hstands
  answered b health hb := by
    rw [hanswers] at hb
    exact hothers ((h.ne_of_turn hnd hturn).2 b _ hb) (h.answered b health hb)
  owners := by
    rw [husers]
    exact h.owners

/-- The rule for the step that ends the turn of `a`. -/
theorem RaceInv.ended (h : RaceInv seconds loaded σ) (hnd : (loaded.map Agent.id).Nodup)
    {rest : List Agent} (hturn : σ.pc.agent ++ σ.queue = a :: rest)
    {answer : Except CoreError Health} (hqueue : τ.queue = rest) (hanswers : τ.answers = σ.answers)
    (husers : τ.world.db.users = σ.world.db.users)
    (hothers : ∀ {b row calls}, b.id ≠ a.id → Stands σ b row calls → Stands τ b row calls)
    (hstands : ∀ health, answer = .ok health →
      Stands τ a (observe a health) (recordsOf seconds a health))
    (hqueued : ∀ b ∈ rest, b ∈ σ.queue) : RaceInv seconds loaded (τ.endTurn a answer) where
  order := by
    have horder := h.order
    rw [hturn] at horder
    show (τ.answers ++ [(a, answer)]).map Prod.fst ++ ([] ++ τ.queue) = loaded
    rw [hanswers, hqueue, List.map_append, List.append_assoc]
    exact horder
  queued b hb := by
    have hb' : b ∈ rest := hqueue ▸ hb
    exact { hothers ((h.ne_of_turn hnd hturn).1 b hb') (h.queued b (hqueued b hb')) with }
  turn := trivial
  answered b health hb := by
    rcases List.mem_append.mp hb with hb | hb
    · rw [hanswers] at hb
      exact { hothers ((h.ne_of_turn hnd hturn).2 b _ hb) (h.answered b health hb) with }
    · obtain ⟨rfl, rfl⟩ := Prod.mk.inj (List.mem_singleton.mp hb)
      exact { hstands health rfl with }
  owners := by
    show ∀ a ∈ loaded, τ.world.db.users.find? a.userId ≠ none
    rw [husers]
    exact h.owners

end Frame

/-! ## One step -/

/-- The quota query of an agent whose account exists does not raise. -/
theorem hasHeadroomForReplica_ne_error (d : Deps) {db : Db} {a : Agent}
    (hu : db.users.find? a.userId ≠ none) (e : GatewayError) :
    hasHeadroomForReplica d db a ≠ .error e := by
  obtain ⟨user, huser⟩ := Option.ne_none_iff_exists'.mp hu
  have hquota : ∀ err, ensureResources d db a.userId (some a.id) (a.replicas + 1) a.cpu a.memoryMb =
      .error err → ∃ res plan limit requested current,
        err = .quotaExceeded res plan limit requested current := by
    intro err h
    unfold ensureResources at h
    rw [huser] at h
    simp only at h
    split_ifs at h
    · exact ⟨_, _, _, _, _, (Except.error.inj h).symm⟩
    · exact ⟨_, _, _, _, _, (Except.error.inj h).symm⟩
    · split at h
      · exact ⟨_, _, _, _, _, (Except.error.inj h).symm⟩
      · exact absurd h (by simp)
  unfold hasHeadroomForReplica
  split
  · simp
  · simp
  · rename_i err hnot herr
    obtain ⟨res, plan, limit, requested, current, rfl⟩ := hquota err herr
    exact absurd rfl (hnot res plan limit requested current)

section Step

variable {d : Deps} {seconds : ℚ} {now : Instant} {loaded : List Agent} {σ : TickRace}

theorem callsFor_recordsOf (seconds : ℚ) (a : Agent) (health : Health) :
    callsFor a.id (recordsOf seconds a health) = recordsOf seconds a health := by
  unfold recordsOf callsFor
  split_ifs <;> simp

theorem callsFor_recordsOf_of_ne (seconds : ℚ) {a : Agent} {id : AgentId} (h : id ≠ a.id)
    (health : Health) : callsFor id (recordsOf seconds a health) = [] := by
  unfold recordsOf callsFor
  split_ifs
  · simp [Ne.symm h]
  · rfl

theorem meter_agents (w : World) (a : Agent) (live : Nat) (seconds : ℚ) (now : Instant) :
    (meter w a live seconds now).db.agents = w.db.agents := by
  unfold meter
  split_ifs <;> rfl

theorem meter_users (w : World) (a : Agent) (live : Nat) (seconds : ℚ) (now : Instant) :
    (meter w a live seconds now).db.users = w.db.users := by
  unfold meter
  split_ifs <;> rfl

/-- **One step of the tick** keeps the invariant, if its commit finds the row. -/
theorem RaceInv.turnStep (h : RaceInv seconds loaded σ) (hnd : (loaded.map Agent.id).Nodup)
    {rt : Runtime} (hfinds : CommitFinds σ (.turn rt)) :
    RaceInv seconds loaded (turnStep d seconds now rt σ) := by
  obtain ⟨w, deletes, queue, pc, answers, records⟩ := σ
  have hstands := h.turn
  cases pc with
  | next =>
    cases queue with
    | nil => exact h
    | cons a rest =>
      have hrest : ∀ b ∈ rest, b ∈ a :: rest := fun b hb => List.mem_cons_of_mem a hb
      simp only [Gateway.turnStep]
      cases rt.healthCheck a.id ((w.logCall (.healthCheck a.id)).containers a.id) with
      | error e =>
        exact h.ended hnd rfl rfl rfl rfl (fun _ hb => hb.frame rfl rfl rfl)
          (fun _ he => absurd he (by simp)) hrest
      | ok health =>
        exact h.stay hnd rfl rfl rfl rfl rfl (fun _ hb => hb.frame rfl rfl rfl)
          ((h.queued a List.mem_cons_self).frame rfl rfl rfl) hrest
  | checked a health =>
    simp only [Gateway.turnStep]
    split_ifs with hsame
    · refine h.stay hnd rfl rfl rfl rfl rfl (fun _ hb => hb.frame rfl rfl rfl) ?_ fun b hb => hb
      show Stands _ a (observe a health) []
      rw [hsame]
      exact hstands.frame rfl rfl rfl
    · cases hrow : w.db.agents.find? a.id with
      | none =>
        have hfound : (w.db.agents.find? a.id).isSome = true := hfinds hsame
        rw [hrow] at hfound
        exact absurd hfound Bool.false_ne_true
      | some row =>
        -- Nobody else writes the row: it is the one that was loaded.
        obtain rfl : row = a := by
          rcases hstands.row with hfound | ⟨hnone, -⟩
          · exact Option.some.inj (hrow.symm.trans hfound)
          · exact absurd (hrow.symm.trans hnone) (by simp)
        simp only [Agent.flush_loaded]
        refine h.stay hnd rfl rfl rfl rfl rfl (fun hb hs => hs.frame ?_ rfl rfl) ?_ fun b hb => hb
        · exact Table.find?_put_of_ne _ hb
        · exact ⟨Or.inl (Table.find?_put_self (o := row) hrow), hstands.calls⟩
  | observed a health =>
    refine h.stay hnd rfl rfl rfl rfl (meter_users ..) (fun hb hs => hs.frame ?_ rfl ?_) ?_
      fun b hb => hb
    · show (meter ..).db.agents.find? _ = _
      rw [meter_agents]
    · show callsFor _ (records ++ recordsOf seconds a health) = _
      rw [callsFor_append, callsFor_recordsOf_of_ne seconds hb, List.append_nil]
    · refine ⟨?_, ?_⟩
      · show (meter ..).db.agents.find? a.id = _ ∨ (meter ..).db.agents.find? a.id = none ∧ _
        rw [meter_agents]
        exact hstands.row
      · show callsFor a.id (records ++ recordsOf seconds a health) = _
        rw [callsFor_append, callsFor_recordsOf, hstands.calls, List.nil_append]
  | metered a health =>
    have hends : RaceInv seconds loaded
        (TickRace.endTurn ⟨w, deletes, queue, .metered a health, answers, records⟩ a
          (.ok health)) :=
      h.ended hnd rfl rfl rfl rfl (fun _ hs => hs)
        (fun _ he => Except.ok.inj he ▸ hstands) fun b hb => hb
    simp only [Gateway.turnStep]
    split_ifs
    · have howner : w.db.users.find? (observe a health).userId ≠ none := by
        refine h.owners a ?_
        rw [← h.order]
        exact List.mem_append_right _ List.mem_cons_self
      cases hroom : hasHeadroomForReplica d w.db (observe a health) with
      | error e => exact absurd hroom (hasHeadroomForReplica_ne_error d howner e)
      | ok room =>
        cases room with
        | false => exact hends
        | true =>
          exact h.stay hnd rfl rfl rfl rfl rfl (fun _ hs => hs.frame rfl rfl rfl)
            (hstands.frame rfl rfl rfl) fun b hb => hb
    · exact hends
  | scaling a health =>
    exact h.ended hnd rfl rfl rfl rfl (fun _ hs => hs.frame rfl rfl rfl)
      (fun _ he => Except.ok.inj he ▸ hstands.frame rfl rfl rfl) fun b hb => hb
  | raised => exact h

/-- A step of a request leaves the accounts, and each row unless it deletes it. -/
theorem deleteStep_frame (rt : Runtime) (w : World) (r : DeleteRequest) :
    (deleteStep rt w r).2.db.users = w.db.users ∧
      ∀ id, (deleteStep rt w r).2.db.agents.find? id = w.db.agents.find? id ∨
        (deleteStep rt w r).2.db.agents.find? id = none ∧ r.agentId = id := by
  unfold deleteStep
  cases r.pc with
  | start =>
    cases w.db.ownedAgent? r.userId r.agentId with
    | none => exact ⟨rfl, fun _ => Or.inl rfl⟩
    | some a => exact ⟨rfl, fun _ => Or.inl rfl⟩
  | loaded a =>
    simp only
    cases (rt.remove a.id (w.containers a.id)).1 with
    | error e => exact ⟨rfl, fun _ => Or.inl rfl⟩
    | ok _ => exact ⟨rfl, fun _ => Or.inl rfl⟩
  | removed =>
    refine ⟨rfl, fun id => ?_⟩
    by_cases hid : id = r.agentId
    · rw [hid]
      exact Or.inr ⟨Table.find?_erase_self _ _, rfl⟩
    · exact Or.inl (Table.find?_erase_of_ne _ hid)
  | done => exact ⟨rfl, fun _ => Or.inl rfl⟩

/-- **One move** keeps the invariant, if a commit of the tick finds its row. -/
theorem RaceInv.step (hnd : (loaded.map Agent.id).Nodup) (σ : TickRace) (m : RaceMove)
    (h : RaceInv seconds loaded σ) (hfinds : CommitFinds σ m) :
    RaceInv seconds loaded (tickRaceStep d seconds now σ m) := by
  cases m with
  | turn rt => exact h.turnStep hnd hfinds
  | request u id =>
    refine h.elsewhere rfl rfl rfl rfl fun hs => ⟨hs.row.imp_right ?_, hs.calls⟩
    rintro ⟨hnone, r, hr, he⟩
    exact ⟨hnone, r, List.mem_append_left _ hr, he⟩
  | delete i rt =>
    simp only [tickRaceStep]
    cases hi : σ.deletes[i]? with
    | none => exact h
    | some r =>
      obtain ⟨husers, hrows⟩ := deleteStep_frame rt σ.world r
      -- The requests stay on the list, whatever becomes of them.
      have hlisted : ∀ {id}, (∃ x ∈ σ.deletes, x.agentId = id) →
          ∃ x ∈ σ.deletes.set i { r with pc := (deleteStep rt σ.world r).1 }, x.agentId = id := by
        rintro id ⟨x, hx, hid⟩
        obtain ⟨j, hj⟩ := List.mem_iff_getElem?.mp hx
        by_cases hij : i = j
        · obtain rfl : r = x := Option.some.inj (hi.symm.trans (hij ▸ hj))
          exact ⟨_, List.mem_set (List.getElem?_eq_some_iff.mp hi).1 _, hid⟩
        · exact ⟨x, List.mem_of_getElem? ((List.getElem?_set_ne hij).trans hj), hid⟩
      refine h.elsewhere rfl rfl rfl husers fun {a row calls} hs => ⟨?_, hs.calls⟩
      rcases hrows a.id with hsame | ⟨hgone, hid⟩
      · show (deleteStep rt σ.world r).2.db.agents.find? a.id = some row ∨
          (deleteStep rt σ.world r).2.db.agents.find? a.id = none ∧ _
        rw [hsame]
        exact hs.row.imp_right fun ⟨hnone, hr⟩ => ⟨hnone, hlisted hr⟩
      · exact Or.inr ⟨hgone, hlisted ⟨r, List.mem_of_getElem? hi, hid⟩⟩

end Step

/-! ## The end of the tick -/

/-- The steps a turn has left. -/
def TurnPc.left : TurnPc → Nat
  | .checked _ _ => 4
  | .observed _ _ => 3
  | .metered _ _ => 2
  | .scaling _ _ => 1
  | .next | .raised => 0

/-- A bound on the steps the tick has left. -/
def TickRace.remaining (σ : TickRace) : Nat :=
  match σ.pc with
  | .raised => 0
  | pc => pc.left + 5 * σ.queue.length

/-- The steps of the tick among the moves. -/
def turns : List RaceMove → Nat
  | [] => 0
  | .turn _ :: moves => turns moves + 1
  | _ :: moves => turns moves

section Progress

variable {d : Deps} {seconds : ℚ} {now : Instant}

theorem turnStep_remaining (rt : Runtime) (σ : TickRace) :
    (turnStep d seconds now rt σ).remaining ≤ σ.remaining - 1 := by
  obtain ⟨w, deletes, queue, pc, answers, records⟩ := σ
  cases pc with
  | next =>
    cases queue with
    | nil => exact Nat.le_refl 0
    | cons a rest =>
      simp only [turnStep]
      cases rt.healthCheck a.id ((w.logCall (.healthCheck a.id)).containers a.id) <;>
        simp [TickRace.remaining, TickRace.endTurn, TurnPc.left] <;> omega
  | checked a health =>
    simp only [turnStep]
    split_ifs
    · simp [TickRace.remaining, TurnPc.left]
    · cases w.db.agents.find? a.id <;> simp [TickRace.remaining, TurnPc.left]
  | observed a health => simp [turnStep, TickRace.remaining, TurnPc.left]
  | metered a health =>
    simp only [turnStep]
    split_ifs
    · split <;> simp [TickRace.remaining, TickRace.endTurn, TurnPc.left]
    · simp [TickRace.remaining, TickRace.endTurn, TurnPc.left]
  | scaling a health => simp [turnStep, TickRace.remaining, TickRace.endTurn, TurnPc.left]
  | raised => exact Nat.le_refl 0

theorem run_remaining (d : Deps) (seconds : ℚ) (now : Instant) (moves : List RaceMove) :
    ∀ σ : TickRace, (run (tickRaceStep d seconds now) σ moves).remaining ≤
      σ.remaining - turns moves := by
  induction moves with
  | nil => exact fun _ => Nat.le_refl _
  | cons m moves ih =>
    intro σ
    have hrest := ih (tickRaceStep d seconds now σ m)
    rw [run_cons]
    cases m with
    | turn rt =>
      have hstep : (tickRaceStep d seconds now σ (.turn rt)).remaining ≤ σ.remaining - 1 :=
        turnStep_remaining rt σ
      simp only [turns]
      omega
    | request u id => exact hrest
    | delete i rt =>
      have hsame : (tickRaceStep d seconds now σ (.delete i rt)).remaining = σ.remaining := by
        simp only [tickRaceStep]
        cases σ.deletes[i]? <;> rfl
      rw [hsame] at hrest
      exact hrest

theorem RaceInv.finished {loaded : List Agent} {σ : TickRace} (h : RaceInv seconds loaded σ)
    (hzero : σ.remaining = 0) : σ.Finished := by
  obtain ⟨w, deletes, queue, pc, answers, records⟩ := σ
  cases pc with
  | next =>
    have hlen : queue.length = 0 := by simpa [TickRace.remaining, TurnPc.left] using hzero
    exact ⟨rfl, List.length_eq_zero_iff.mp hlen⟩
  | raised => exact absurd h.turn id
  | checked a health => simp [TickRace.remaining, TurnPc.left] at hzero
  | observed a health => simp [TickRace.remaining, TurnPc.left] at hzero
  | metered a health => simp [TickRace.remaining, TurnPc.left] at hzero
  | scaling a health => simp [TickRace.remaining, TurnPc.left] at hzero

end Progress

/-! ## The records in `usage_hours` -/

/-- The usage that one step adds is what it records. -/
theorem tickRaceStep_usage {d : Deps} {seconds : ℚ} {now : Instant} (hs : 0 ≤ seconds)
    {id : AgentId} {before : ℚ} (σ : TickRace) (m : RaceMove)
    (h : replicaSecondsOf id σ.world.db.usageHours = before + chargedFor id σ.records) :
    replicaSecondsOf id (tickRaceStep d seconds now σ m).world.db.usageHours =
      before + chargedFor id (tickRaceStep d seconds now σ m).records := by
  cases m with
  | request u agentId => exact h
  | delete i rt =>
    simp only [tickRaceStep]
    cases σ.deletes[i]? with
    | none => exact h
    | some r =>
      have husage : (deleteStep rt σ.world r).2.db.usageHours = σ.world.db.usageHours := by
        unfold deleteStep
        split
        · split <;> rfl
        · simp only
          split <;> rfl
        · rfl
        · rfl
      simp only [husage]
      exact h
  | turn rt =>
    obtain ⟨w, deletes, queue, pc, answers, records⟩ := σ
    show replicaSecondsOf id (turnStep ..).world.db.usageHours =
      _ + chargedFor id (turnStep ..).records
    cases pc with
    | observed a health =>
      simp only [turnStep]
      rw [meter_usageHours, chargedFor_append, ← add_assoc, ← h]
      unfold recordsOf
      split_ifs
      · exact replicaSecondsOf_record _ (observe a health) _ hs now
      · exact (add_zero _).symm
    | next =>
      simp only [turnStep]
      cases queue with
      | nil => exact h
      | cons a rest =>
        simp only
        split <;> exact h
    | checked a health =>
      simp only [turnStep]
      split_ifs
      · exact h
      · split <;> exact h
    | metered a health =>
      simp only [turnStep]
      split_ifs
      · split <;> exact h
      · exact h
    | scaling a health => exact h
    | raised => exact h

/-- **The table follows the records**: along every run an agent's `replica_seconds` grow by what was
recorded for it. -/
theorem usage_of_records {d : Deps} {seconds : ℚ} {now : Instant} (hs : 0 ≤ seconds) (id : AgentId)
    (w : World) (deletes : List DeleteRequest) (moves : List RaceMove) :
    ∀ σ, σ = run (tickRaceStep d seconds now) (.start w deletes) moves →
      replicaSecondsOf id σ.world.db.usageHours =
        replicaSecondsOf id w.db.usageHours + chargedFor id σ.records := by
  rintro σ rfl
  exact run_preserves (P := fun σ : TickRace => replicaSecondsOf id σ.world.db.usageHours =
    replicaSecondsOf id w.db.usageHours + chargedFor id σ.records)
    (tickRaceStep_usage hs) moves (add_zero _).symm

/-! ## Runs -/

theorem RaceInv.start (seconds : ℚ) {w : World} (deletes : List DeleteRequest)
    (howners : ∀ a ∈ w.db.agents.rows, w.db.users.find? a.userId ≠ none) :
    RaceInv seconds (loadedAgents w.db) (.start w deletes) where
  order := rfl
  queued _ ha := ⟨Or.inl (find?_of_loaded ha), rfl⟩
  turn := trivial
  answered _ _ ha := absurd ha List.not_mem_nil
  owners a ha := howners a (List.mem_of_mem_filter ha)

/-- **The others are served.** In every run of a tick and of `delete_agent` requests, with whatever
the runtime answers or raises, in which each commit of a changed row finds the row: the tick does
not raise and is over after five steps per loaded row; then every loaded row has had its turn; and
an agent whose health check succeeded has the calls of `record` that its report asks for, one or
none, and its row shows the report unless the agent was itself to be deleted. -/
theorem tick_serves_others (d : Deps) (seconds : ℚ) (now : Instant) (w : World)
    (deletes : List DeleteRequest)
    (howners : ∀ a ∈ w.db.agents.rows, w.db.users.find? a.userId ≠ none) (moves : List RaceMove)
    (hfinds : Along (tickRaceStep d seconds now) CommitFinds (.start w deletes) moves) :
    ∀ σ, σ = run (tickRaceStep d seconds now) (.start w deletes) moves →
      ¬ σ.Raised ∧ (5 * (loadedAgents w.db).length ≤ turns moves → σ.Finished) ∧
      (σ.Finished → σ.answers.map Prod.fst = loadedAgents w.db) ∧
      ∀ a health, (a, .ok health) ∈ σ.answers →
        ((∀ r ∈ σ.deletes, r.agentId ≠ a.id) →
          σ.world.db.agents.find? a.id = some (observe a health)) ∧
        callsFor a.id σ.records =
          if isMetered (observe a health) health.liveReplicas then
            [⟨a.id, health.liveReplicas, seconds⟩]
          else [] := by
  rintro σ rfl
  have hinv := run_inv (RaceInv.step (loadedAgents_nodup w.db)) moves
    (RaceInv.start seconds deletes howners) hfinds
  refine ⟨fun hraised => ?_, fun hturns => ?_, fun ⟨hpc, hqueue⟩ => ?_, fun a health ha => ?_⟩
  · have hturn := hinv.turn
    rw [hraised] at hturn
    exact hturn
  · refine hinv.finished ?_
    have hbound := run_remaining d seconds now moves (.start w deletes)
    have hstart : (TickRace.start w deletes).remaining = 5 * (loadedAgents w.db).length := by
      simp [TickRace.remaining, TickRace.start, TurnPc.left]
    omega
  · have horder := hinv.order
    rw [hpc, hqueue] at horder
    simpa [TurnPc.agent] using horder
  · have hstands := hinv.answered a health ha
    refine ⟨fun hnone => hstands.row.resolve_right ?_, hstands.calls⟩
    rintro ⟨-, r, hr, hid⟩
    exact hnone r hr hid

/-- Agents `a` and `b` with one replica in their rows; a second one of `b` has come up since. -/
def grownAgent : World where
  db := { freeWorld.db with agents := twoRunning false false }
  containers id :=
    if id = "a" then containersFrom 0 1 else if id = "b" then containersFrom 0 2 else []

/-- A request to delete `a`, from beginning to end. -/
def deleteFirst : List RaceMove :=
  [.request freeUser.id "a", .delete 0 .obliging, .delete 0 .obliging, .delete 0 .obliging]

/-- The tick, `n` steps of it. -/
def turnMoves (n : Nat) : List RaceMove := List.replicate n (.turn .obliging)

/-- Agent `a` is deleted after its turn; the turn of `b` updates its row and records it. -/
theorem tick_serves_second :
    (run (tickRaceStep .transparent 30 0) (.start grownAgent [])
        (turnMoves 4 ++ deleteFirst ++ turnMoves 6)).world.db.agents.find? "b" =
      some { oneReplicaAgent "b" false with replicas := 2 } ∧
    callsFor "b" (run (tickRaceStep .transparent 30 0) (.start grownAgent [])
        (turnMoves 4 ++ deleteFirst ++ turnMoves 6)).records = [⟨"b", 2, 30⟩] := by
  have hserved := (tick_serves_others .transparent 30 0 grownAgent [] (by decide +kernel)
    (turnMoves 4 ++ deleteFirst ++ turnMoves 6) (by decide +kernel) _ rfl).2.2.2
    (oneReplicaAgent "b" false)
    { containers := some ["0", "1"], healthy := some true } (by decide +kernel)
  exact ⟨hserved.1 (by decide +kernel), hserved.2⟩

/-- **A deleted agent stops the tick.** Agent `a` is deleted between the tick's query and its turn.
The health check reports no containers, the commit has a row to change and finds none, and the tick
is over: nobody asked for `b`, whose row still says one replica and which is not recorded. -/
theorem deleted_agent_stops_tick :
    (∀ health, Runtime.obliging.healthCheck "a" [] = .ok health → health.liveReplicas = 0) ∧
      (∀ a ∈ grownAgent.db.agents.rows, grownAgent.db.users.find? a.userId ≠ none) ∧
      oneReplicaAgent "b" false ∈ loadedAgents grownAgent.db ∧
      ∃ σ, σ = run (tickRaceStep .transparent 30 0) (.start grownAgent [])
          (deleteFirst ++ turnMoves 10) ∧
        σ.Raised ∧ (∀ r ∈ σ.deletes, r.agentId ≠ "b") ∧
        (Runtime.obliging.healthCheck "b" (σ.world.containers "b")).isOk = true ∧
        σ.world.db.agents.find? "b" = some (oneReplicaAgent "b" false) ∧
        (σ.world.containers "b").length = 2 ∧ callsFor "b" σ.records = [] := by
  refine ⟨?_, by decide +kernel, by decide +kernel, _, rfl, ?_, by decide +kernel,
    by decide +kernel, by decide +kernel, by decide +kernel, by decide +kernel⟩
  · intro health h
    obtain rfl := Except.ok.inj h
    rfl
  · rfl

end Gateway
