import Gateway.Site.Steps

/-!
# The life of an agent

What a user can rely on while an agent exists and each request about it ends before the next
begins. `Life` is the abstract machine: a status, an error and a
version, and the moves (`LifeEvent`) a deploy, a scale or the scheduler make. A row also has columns
that say which agent it is (`SameIdentity`): its id, owner, slug (and so its URL), name, model and
the like, which no endpoint changes.

* `gatewayStep_agents`: everything a step of the gateway can do to the agents (`AgentsStep`).
* `gatewayStep_row`: a step moves the row of an agent as the machine allows, or deletes it.
* **`life_refined`**: over a serial run in which the agent is not deleted its row follows a path of
  the machine, keeps its identity, and its version has grown by the number of its successful
  deploys.
* **`life_reachable`**: in every serial run of a gateway that starts without agents, a row is never
  `building`, `starting` or `stopping` between two requests, one that failed says why, and one that
  is still `pending` has not been deployed.

Out of scope: overlapping, cancelled and crashed requests. Two deploys at once may both write the
same version, a deploy that is cancelled leaves its agent `starting`, and of two overlapping deploys
of a failed agent the second to fail may leave it `failed` without an error.
-/

namespace Gateway

open Lib

/-! ## The machine -/

/-- What the lifecycle is about. -/
structure Life where
  status : AgentStatus := .pending
  error : Option String := none
  version : Nat := 1
  deriving DecidableEq, Repr

/-- What can happen to an agent: nothing that shows, a deploy, a failed deploy or scale, a scale, a
scale that ends in an error nobody catches, or a look of the scheduler. -/
inductive LifeEvent where
  | keep
  | deploy
  | fail (error : String)
  | scale
  | strand
  | see (status : AgentStatus)
  deriving DecidableEq, Repr

/-- What the scheduler can find. -/
def seenStatuses : List AgentStatus := [.running, .stopped, .crashed]

/-- One move; the scheduler only looks at agents it takes to be up. -/
def Life.move (l : Life) : LifeEvent → Option Life
  | .keep => some l
  | .deploy => some { status := .running, error := none, version := l.version + 1 }
  | .fail error => some { l with status := .failed, error := some error }
  | .scale => some { l with status := .running }
  | .strand => some { l with status := .scaling }
  | .see status =>
    if l.status ∈ tickStatuses ∧ (status ∈ seenStatuses ∨ status = l.status) then
      some { l with status := status }
    else none

/-- The lives the machine reaches from its start. -/
structure Life.Ok (l : Life) : Prop where
  status : l.status ∉ [AgentStatus.building, .starting, .stopping]
  failed : l.status = .failed → l.error.isSome
  pending : l.status = .pending → l.error = none ∧ l.version = 1
  version : 1 ≤ l.version

/-- A new agent. -/
theorem Life.Ok.new : Life.Ok {} := ⟨by decide, by simp, fun _ => ⟨rfl, rfl⟩, Nat.le_refl 1⟩

/-- **One move** of the machine. -/
theorem Life.Ok.move {l l' : Life} (hok : l.Ok) {m : LifeEvent}
    (h : l.move m = some l') : l'.Ok := by
  cases m with
  | keep =>
    obtain rfl := Option.some.inj h
    exact hok
  | deploy =>
    obtain rfl := Option.some.inj h
    exact ⟨by simp, by simp, by simp, Nat.le_add_left 1 l.version⟩
  | fail error =>
    obtain rfl := Option.some.inj h
    exact ⟨by simp, by simp, by simp, hok.version⟩
  | scale =>
    obtain rfl := Option.some.inj h
    exact ⟨by simp, by simp, by simp, hok.version⟩
  | strand =>
    obtain rfl := Option.some.inj h
    exact ⟨by simp, by simp, by simp, hok.version⟩
  | see status =>
    unfold Life.move at h
    simp only at h
    split_ifs at h with hsee
    obtain rfl := Option.some.inj h
    rcases hsee.2 with hseen | hsame
    · simp only [seenStatuses, List.mem_cons, List.not_mem_nil, or_false] at hseen
      rcases hseen with rfl | rfl | rfl <;> exact ⟨by simp, by simp, by simp, hok.version⟩
    · rw [hsame]
      exact hok

/-- The version counts the deploys. -/
theorem Life.move_version {l l' : Life} {m : LifeEvent} (h : l.move m = some l') :
    l'.version = l.version + if m = .deploy then 1 else 0 := by
  cases m with
  | see status =>
    unfold Life.move at h
    simp only at h
    split_ifs at h
    obtain rfl := Option.some.inj h
    rfl
  | _ =>
    obtain rfl := Option.some.inj h
    rfl

/-! ## The rows -/

/-- The life of a row. -/
def Agent.life (a : Agent) : Life where
  status := a.status
  error := a.error
  version := a.version

/-- The columns that say which agent it is. -/
structure SameIdentity (a a' : Agent) : Prop where
  id : a'.id = a.id
  userId : a'.userId = a.userId
  slug : a'.slug = a.slug
  name : a'.name = a.name
  runtime : a'.runtime = a.runtime
  framework : a'.framework = a.framework
  model : a'.model = a.model
  systemPrompt : a'.systemPrompt = a.systemPrompt
  tags : a'.tags = a.tags
  agentMetadata : a'.agentMetadata = a.agentMetadata
  createdAt : a'.createdAt = a.createdAt

theorem SameIdentity.refl (a : Agent) : SameIdentity a a :=
  ⟨rfl, rfl, rfl, rfl, rfl, rfl, rfl, rfl, rfl, rfl, rfl⟩

theorem SameIdentity.trans {a b c : Agent} (h : SameIdentity a b) (h' : SameIdentity b c) :
    SameIdentity a c :=
  ⟨h'.id.trans h.id, h'.userId.trans h.userId, h'.slug.trans h.slug, h'.name.trans h.name,
    h'.runtime.trans h.runtime, h'.framework.trans h.framework, h'.model.trans h.model,
    h'.systemPrompt.trans h.systemPrompt, h'.tags.trans h.tags,
    h'.agentMetadata.trans h.agentMetadata, h'.createdAt.trans h.createdAt⟩

/-- The row makes a move. -/
structure Lives (m : LifeEvent) (a a' : Agent) : Prop where
  identity : SameIdentity a a'
  life : a.life.move m = some a'.life

theorem Lives.refl (a : Agent) : Lives .keep a a := ⟨.refl a, rfl⟩

/-- A config changes neither identity nor life. -/
theorem deployedRow_identity (d : Deps) (r : Draws) (a : Agent) (deploy : Option DeployConfig) :
    SameIdentity a (deployedRow d r a deploy) ∧ (deployedRow d r a deploy).life = a.life := by
  cases deploy with
  | none => exact ⟨.refl a, rfl⟩
  | some config => exact ⟨⟨rfl, rfl, rfl, rfl, rfl, rfl, rfl, rfl, rfl, rfl, rfl⟩, rfl⟩

/-- A deploy that passes the quota check: a deploy of the machine exactly when it succeeds. -/
theorem deployLocal_lives (d : Deps) (rt : Runtime) (old : Agent) (deploy : Option DeployConfig)
    (cs : List Container) :
    ∃ m, Lives m old (deployLocal d rt old deploy cs).2.1 ∧
      (m = .deploy ↔ (deployLocal d rt old deploy cs).1.isOk = true) := by
  obtain ⟨hid, hlife⟩ := deployedRow_identity d rt.draws old deploy
  have hversion : (deployedRow d rt.draws old deploy).version = old.version :=
    congrArg Life.version hlife
  unfold deployLocal
  simp only
  split_ifs
  · exact ⟨.keep, ⟨hid, congrArg some hlife.symm⟩, by simp [Except.isOk, Except.toBool]⟩
  · cases startContainers d rt (deployedRow d rt.draws old deploy) cs with
    | mk res left =>
      cases res with
      | error msg =>
        refine ⟨.fail msg, ⟨{ hid with }, ?_⟩, by simp [Except.isOk, Except.toBool]⟩
        show some _ = some _
        simp [Agent.life, hversion]
      | ok started =>
        refine ⟨.deploy, ⟨{ hid with }, ?_⟩, by simp [Except.isOk, Except.toBool]⟩
        show some _ = some _
        simp [Agent.life, hversion]

/-- A scale that passes the quota check. -/
theorem ScaleEffect.lives {rt : Runtime} {old new : Agent} {direction : ScaleDirection}
    {count : Nat}
    {cs left : List Container} (h : ScaleEffect rt old direction count cs new left) :
    ∃ m, Lives m old new ∧ m ≠ .deploy := by
  cases h with
  | uncaught _ => exact ⟨.strand, ⟨{ SameIdentity.refl old with }, rfl⟩, by simp⟩
  | @failed e _ _ _ => exact ⟨.fail e.str, ⟨{ SameIdentity.refl old with }, rfl⟩, by simp⟩
  | done _ => exact ⟨.scale, ⟨{ SameIdentity.refl old with }, rfl⟩, by simp⟩

/-- What the scheduler finds of a row it loaded. -/
theorem observe_lives {a : Agent} (hloaded : a.status ∈ tickStatuses) (health : Health) :
    Lives (.see (newStatus a.status health)) a (observe a health) := by
  refine ⟨{ SameIdentity.refl a with }, ?_⟩
  have hseen : newStatus a.status health ∈ seenStatuses ∨
      newStatus a.status health = a.status := by
    unfold newStatus
    split_ifs
    · exact Or.inl (by decide)
    · exact Or.inl (by decide)
    · exact Or.inl (by decide)
    · exact Or.inr rfl
  unfold Life.move
  exact if_pos ⟨hloaded, hseen⟩

/-! ## Calls and ticks -/

section Row

variable {d : Deps} {rt : Runtime} {w w' : World} {id : AgentId} {a old new : Agent}
  {cs : List Container}

/-- The row of an agent after another, or its own, has been rewritten. -/
theorem Rewrites.row (h : Rewrites w w' old new cs) (ha : w.db.agents.find? id = some a) :
    (a = old ∧ w'.db.agents.find? id = some new) ∨
      (id ≠ old.id ∧ w'.db.agents.find? id = some a) := by
  by_cases hid : id = old.id
  · subst hid
    obtain rfl := Option.some.inj (ha.symm.trans h.found)
    exact Or.inl ⟨rfl, h.id ▸ h.stored⟩
  · refine Or.inr ⟨hid, ?_⟩
    rw [h.agents, Table.find?_put_of_ne _ (by rw [h.id]; exact hid)]
    exact ha

/-- The row of an agent after another was inserted. -/
theorem Inserts.row (h : Inserts w w' new) (ha : w.db.agents.find? id = some a) :
    id ≠ new.id ∧ w'.db.agents.find? id = some a := by
  have hid : id ≠ new.id := by
    rintro rfl
    exact h.fresh a (Table.mem_of_find? ha) (Table.key_of_find? ha)
  exact ⟨hid, (Table.find?_insert?_of_ne h.agents hid).trans ha⟩

/-- The call deploys the agent. -/
def Call.deploys (d : Deps) (rt : Runtime) (w : World) (id : AgentId) : Call → Bool
  | .deploy u agentId config =>
    agentId = id && (deployAgent d rt w u agentId (config.map Subtype.val)).1.isOk
  | _ => false

/-- A refused deploy is none. -/
theorem deployAgent_not_ok {u : UserId} {deploy : Option DeployConfig}
    (h : ∀ old, w.db.ownedAgent? u id = some old → deployQuota d w.db old deploy ≠ .ok ()) :
    (deployAgent d rt w u id deploy).1.isOk = false := by
  cases ho : w.db.ownedAgent? u id with
  | none =>
    rw [deployAgent_notFound ho]
    rfl
  | some old =>
    cases hq : deployQuota d w.db old deploy with
    | error e =>
      rw [deployAgent_overQuota ho hq]
      rfl
    | ok _ => exact absurd hq (h old ho)

/-- **One call**, seen from the row of an agent: it is gone, or makes a move. -/
theorem Call.exec_row (c : Call) (d : Deps) (rt : Runtime) (ha : w.db.agents.find? id = some a) :
    (c.exec d rt w).db.agents.find? id = none ∨
      ∃ a' m, (c.exec d rt w).db.agents.find? id = some a' ∧ Lives m a a' ∧
        (m = .deploy ↔ c.deploys d rt w id = true) := by
  -- A call that is no deploy of the agent and leaves its row.
  have hkeep : ∀ w' : World, w'.db.agents.find? id = some a → c.deploys d rt w id = false →
      w'.db.agents.find? id = none ∨ ∃ a' m, w'.db.agents.find? id = some a' ∧ Lives m a a' ∧
        (m = .deploy ↔ c.deploys d rt w id = true) :=
    fun w' hrow hno => Or.inr ⟨a, .keep, hrow, .refl a, by simp [hno]⟩
  cases c with
  | create u body newId suffix =>
    have heffect := Call.exec_effect d rt w (.create u body newId suffix)
    generalize (Call.create u body newId suffix).exec d rt w = w' at heffect
    cases heffect with
    | refused => exact hkeep w ha rfl
    | created _ hins => exact hkeep w' (hins.row ha).2 rfl
    | createdDeployed _ _ hins _ _ hrw =>
      obtain ⟨hne, hmid⟩ := hins.row ha
      rcases hrw.row hmid with ⟨rfl, -⟩ | ⟨-, hrow⟩
      · exact absurd (Table.key_of_find? ha).symm hne
      · exact hkeep w' hrow rfl
  | update u agentId body =>
    have heffect := Call.exec_effect d rt w (.update u agentId body)
    generalize (Call.update u agentId body).exec d rt w = w' at heffect
    cases heffect with
    | refused => exact hkeep w ha rfl
    | updated _ hrw =>
      rcases hrw.row ha with ⟨rfl, hrow⟩ | ⟨-, hrow⟩
      · exact Or.inr ⟨_, .keep, hrow, ⟨{ SameIdentity.refl a with }, rfl⟩, by simp [Call.deploys]⟩
      · exact hkeep w' hrow rfl
  | deploy u agentId config =>
    show (deployAgent d rt w u agentId (config.map Subtype.val)).2.db.agents.find? id = none ∨
      ∃ a' m, (deployAgent d rt w u agentId (config.map Subtype.val)).2.db.agents.find? id =
        some a' ∧ Lives m a a' ∧ _
    by_cases hok : ∃ old, w.db.ownedAgent? u agentId = some old ∧
        deployQuota d w.db old (config.map Subtype.val) = .ok ()
    · obtain ⟨old, ho, hq⟩ := hok
      obtain ⟨hans, hrw, -⟩ := deployAgent_local rt ho hq
      obtain ⟨-, -, rfl⟩ := Db.ownedAgent?_eq_some ho
      rcases hrw.row ha with ⟨rfl, hrow⟩ | ⟨hne, hrow⟩
      · obtain ⟨m, hlives, hiff⟩ := deployLocal_lives d rt a (config.map Subtype.val)
          (w.containers a.id)
        obtain rfl := Table.key_of_find? ha
        have hdeploys : Call.deploys d rt w a.id (.deploy u a.id config) =
            (deployLocal d rt a (config.map Subtype.val) (w.containers a.id)).1.isOk := by
          show (decide (a.id = a.id) && _) = _
          rw [hans, decide_eq_true rfl, Bool.true_and]
        refine Or.inr ⟨_, m, hrow, hlives, ?_⟩
        rw [hdeploys]
        exact hiff
      · exact hkeep _ hrow (by simp [Call.deploys, Ne.symm hne])
    · have hrefused : ∀ old, w.db.ownedAgent? u agentId = some old →
          deployQuota d w.db old (config.map Subtype.val) ≠ .ok () :=
        fun old ho hq => hok ⟨old, ho, hq⟩
      have hno : Call.deploys d rt w id (.deploy u agentId config) = false := by
        show (decide (agentId = id) && _) = false
        rw [deployAgent_not_ok hrefused, Bool.and_false]
      rw [deployAgent_refused rt hrefused]
      exact hkeep w ha hno
  | scale u agentId body =>
    have heffect := Call.exec_effect d rt w (.scale u agentId body)
    generalize (Call.scale u agentId body).exec d rt w = w' at heffect
    cases heffect with
    | refused => exact hkeep w ha rfl
    | scaled _ _ heff hrw =>
      rcases hrw.row ha with ⟨rfl, hrow⟩ | ⟨-, hrow⟩
      · obtain ⟨m, hlives, hm⟩ := heff.lives
        exact Or.inr ⟨_, m, hrow, hlives, by simp [Call.deploys, hm]⟩
      · exact hkeep w' hrow rfl
  | delete u agentId =>
    have heffect := Call.exec_effect d rt w (.delete u agentId)
    generalize (Call.delete u agentId).exec d rt w = w' at heffect
    cases heffect with
    | refused => exact hkeep w ha rfl
    | removeFailed _ _ hrw =>
      rcases hrw.row ha with ⟨rfl, hrow⟩ | ⟨-, hrow⟩
      · exact hkeep w' hrow rfl
      · exact hkeep w' hrow rfl
    | @removed _ _ old _ _ _ _ hrm =>
      by_cases hid : id = old.id
      · refine Or.inl ?_
        rw [hrm.agents, hid]
        exact Table.find?_erase_self _ _
      · refine hkeep w' ?_ rfl
        rw [hrm.agents, Table.find?_erase_of_ne _ hid]
        exact ha

/-- **A tick**, seen from the row of an agent. -/
theorem tick_row (d : Deps) (s : Settings) (rt : Runtime) (elapsed : Option ℚ) (now : Instant)
    (flushFails : Bool) (ha : w.db.agents.find? id = some a) :
    ∃ a' m, (tick d s rt elapsed now flushFails w).2.db.agents.find? id = some a' ∧
      Lives m a a' ∧ m ≠ .deploy := by
  refine tick_inv (P := fun w' => ∃ a' m, w'.db.agents.find? id = some a' ∧ Lives m a a' ∧
    m ≠ .deploy) (fun h => ?_) (fun w₁ w₂ old new cs hold h _ heff hrw => ?_)
    ⟨a, .keep, ha, .refl a, by simp⟩
  · obtain ⟨a', m, hrow, hrest⟩ := h
    exact ⟨a', m, by rw [flushRequests_agents]; exact hrow, hrest⟩
  · obtain ⟨a', m, hrow, hlives, hm⟩ := h
    by_cases hid : id = old.id
    · -- The turn of this agent: its row is still the one that was loaded.
      subst hid
      obtain rfl := Option.some.inj (ha.symm.trans (find?_of_loaded hold))
      have hloaded : a.status ∈ tickStatuses := by simpa using (List.mem_filter.mp hold).2
      refine ⟨new, ?_⟩
      have hstored : w₂.db.agents.find? a.id = some new := hrw.id ▸ hrw.stored
      cases heff with
      | unseen _ => exact ⟨.keep, hstored, .refl a, by simp⟩
      | @seen health _ => exact ⟨_, hstored, observe_lives hloaded health, by simp⟩
      | @autoScaled health _ _ _ => exact ⟨_, hstored, observe_lives hloaded health, by simp⟩
    · rcases hrw.row hrow with ⟨rfl, -⟩ | ⟨-, hrow⟩
      · exact absurd (Table.key_of_find? hrow).symm hid
      · exact ⟨a', m, hrow, hlives, hm⟩

end Row

/-! ## Steps of the gateway -/

section Step

variable {d : GatewayDeps} {cfg : GatewaySettings} {site : Site} {id : AgentId} {a : Agent}

/-- The call of the agent service a request makes, if it makes one. -/
def AgentsRequest.call? (u : UserId) : AgentsRequest → Option Call
  | .create body draws => some (.create u body draws.newId draws.suffix)
  | .update agentId body => some (.update u agentId body)
  | .delete agentId => some (.delete u agentId)
  | .deploy agentId body => some (.deploy u agentId body)
  | .scale agentId body => some (.scale u agentId body)
  | _ => none

/-- The agents and their containers are the same. -/
structure KeepsAgents (w w' : World) : Prop where
  agents : w'.db.agents = w.db.agents
  containers : w'.containers = w.containers

theorem KeepsAgents.refl (w : World) : KeepsAgents w w := ⟨rfl, rfl⟩

/-- A key leaves the agents. -/
theorem createAccessKey_agents (d : Deps) (w : World) (agentId : AgentId) (label : String)
    (keyId : KeyId) (token : String) :
    KeepsAgents w (createAccessKey d w agentId label keyId token).2 := by
  rcases createAccessKey_cases d w agentId label keyId token with ⟨e, he⟩ | ⟨w', hok, hkey⟩
  · rw [he]
    exact .refl w
  · rw [hok]
    exact ⟨hkey.agents, hkey.containers⟩

/-- A request leaves the agents as its call does. -/
theorem agentsHandler_agents (d : ApiDeps) (s : Settings) (m : Surroundings) (w : World)
    (u : UserId) (req : AgentsRequest) :
    KeepsAgents ((req.call? u).elim w fun c => c.exec d.toDeps m.runtime w)
      (agentsHandler d s m w u req).2 := by
  cases req with
  | create body draws =>
    show KeepsAgents (Gateway.createAgent d.toDeps m.runtime w u body draws.newId draws.suffix).2
      (Router.createAgent d.toDeps s m.runtime w u body draws.newId draws.suffix draws.keyId
        draws.token).2
    cases hout : Gateway.createAgent d.toDeps m.runtime w u body draws.newId draws.suffix with
    | mk res w₁ =>
      cases res with
      | error e =>
        rw [Router.createAgent_of_error hout]
        exact .refl w₁
      | ok agent =>
        rw [Router.createAgent_of_ok hout]
        cases toAgentResponse s agent with
        | error es => exact .refl w₁
        | ok response =>
          simp only
          split_ifs
          · exact createAccessKey_agents d.toDeps w₁ agent.id "default" draws.keyId draws.token
          · exact .refl w₁
  | createAccessKey agentId label keyId token =>
    show KeepsAgents w (Router.createAccessKey d.toDeps w u agentId label keyId token).2
    unfold Router.createAccessKey
    cases w.db.ownedAgent? u agentId with
    | none => exact .refl w
    | some agent => exact createAccessKey_agents d.toDeps w agent.id _ keyId token
  | deleteAccessKey agentId keyId =>
    show KeepsAgents w (Router.deleteAccessKey w u agentId keyId).2
    unfold Router.deleteAccessKey
    cases w.db.ownedAgent? u agentId with
    | none => exact .refl w
    | some agent =>
      simp only
      rcases deleteAccessKey_cases w agent.id keyId with ⟨e, he⟩ | ⟨key, w', -, -, hok, hdel⟩
      · rw [he]
        exact .refl w
      · rw [hok]
        exact ⟨hdel.agents, hdel.containers⟩
  | _ => exact .refl _

/-- The step is a deploy of the agent that its caller may make and that succeeds. -/
def deploysAgent (d : GatewayDeps) (cfg : GatewaySettings) (id : AgentId) (site : Site) :
    GatewayStep → Bool
  | .request m creds (.agents req) =>
    match req.guard.enforce d.toAuthDeps cfg.auth site m.now creds with
    | .error _ => false
    | .ok p => (req.call? p.userId).any fun c => c.deploys d.toDeps m.runtime site.world id
  | _ => false

/-- What a step of the gateway does to the agents: nothing, a call of the service that its caller
may make, or a tick. -/
inductive AgentsStep (d : GatewayDeps) (cfg : GatewaySettings) (site : Site) :
    GatewayStep → World → Prop
  | kept {i : GatewayStep} {w' : World} (h : KeepsAgents site.world w')
      (hno : ∀ id, deploysAgent d cfg id site i = false) : AgentsStep d cfg site i w'
  | called {m : SiteSurroundings} {creds : Option String} {request : AgentsRequest} {p : Principal}
      {c : Call} {w' : World}
      (hguard : request.guard.enforce d.toAuthDeps cfg.auth site m.now creds = .ok p)
      (hcall : request.call? p.userId = some c)
      (h : KeepsAgents (c.exec d.toDeps m.runtime site.world) w') :
      AgentsStep d cfg site (.request m creds (.agents request)) w'
  | ticked {rt : Runtime} {elapsed : Option ℚ} {now : Instant} {flushFails : Bool} :
      AgentsStep d cfg site (.tick rt elapsed now flushFails)
        (tick d.toDeps cfg.gateway rt elapsed now flushFails site.world).2

/-- **Everything a step can do to the agents.** -/
theorem gatewayStep_agents (d : GatewayDeps) (cfg : GatewaySettings) (site : Site)
    (i : GatewayStep) : AgentsStep d cfg site i (gatewayStep d cfg site i).world := by
  by_cases htouch : i.touchesAgents = false
  · refine .kept ?_ fun id => ?_
    · rw [gatewayStep_world htouch]
      exact ⟨rfl, rfl⟩
    · cases i with
      | request m creds req =>
        cases req with
        | agents request => cases htouch
        | _ => rfl
      | _ => rfl
  cases i with
  | request m creds req =>
    cases req with
    | agents request =>
      have hguard : (SiteRequest.agents request).guard = request.guard := rfl
      simp only [gatewayStep, siteRequest, hguard]
      cases hp : request.guard.enforce d.toAuthDeps cfg.auth site m.now creds with
      | error e => exact .kept (.refl _) fun id => by simp only [deploysAgent, hp]
      | ok p =>
        have hsame := agentsHandler_agents d.toApiDeps cfg.gateway m.toSurroundings site.world
          p.userId request
        cases hc : request.call? p.userId with
        | none =>
          rw [hc] at hsame
          exact .kept hsame fun id => by simp only [deploysAgent, hp, hc, Option.any_none]
        | some c =>
          rw [hc] at hsame
          exact .called hp hc hsame
    | _ => exact absurd rfl htouch
  | visit env req =>
    obtain ⟨hdb, hcs⟩ := route_frame d.toDeps cfg.gateway env site.world req
    exact .kept ⟨congrArg Db.agents hdb, hcs⟩ fun _ => rfl
  | tick rt elapsed now flushFails => exact .ticked
  | _ => exact absurd rfl htouch

/-- **One step of the gateway**, seen from the row of an agent: it is gone, or makes a move, which
is a deploy exactly when the step deploys it. -/
theorem gatewayStep_row (i : GatewayStep) (ha : site.world.db.agents.find? id = some a) :
    (gatewayStep d cfg site i).world.db.agents.find? id = none ∨
      ∃ a' m, (gatewayStep d cfg site i).world.db.agents.find? id = some a' ∧ Lives m a a' ∧
        (m = .deploy ↔ deploysAgent d cfg id site i = true) := by
  have hstep := gatewayStep_agents d cfg site i
  generalize (gatewayStep d cfg site i).world = w' at hstep
  cases hstep with
  | kept h hno =>
    rw [h.agents]
    exact Or.inr ⟨a, .keep, ha, .refl a, by simp [hno]⟩
  | @called m creds request p c _ hguard hcall h =>
    have hdeploys : deploysAgent d cfg id site (.request m creds (.agents request)) =
        c.deploys d.toDeps m.runtime site.world id := by
      simp only [deploysAgent, hguard, hcall, Option.any_some]
    rw [h.agents, hdeploys]
    exact c.exec_row d.toDeps m.runtime ha
  | @ticked rt elapsed now flushFails =>
    obtain ⟨a', m, hrow, hlives, hm⟩ :=
      tick_row d.toDeps cfg.gateway rt elapsed now flushFails ha
    exact Or.inr ⟨a', m, hrow, hlives, by simp [deploysAgent, hm]⟩

end Step

/-! ## Runs -/

/-- The steps of a run that deploy the agent. -/
def deploysOver (d : GatewayDeps) (cfg : GatewaySettings) (id : AgentId) :
    Site → List GatewayStep → Nat
  | _, [] => 0
  | site, i :: is =>
    (if deploysAgent d cfg id site i then 1 else 0) +
      deploysOver d cfg id (gatewayStep d cfg site i) is

/-- The agent is there after the step. -/
def AgentStays (d : GatewayDeps) (cfg : GatewaySettings) (id : AgentId) (site : Site)
    (i : GatewayStep) : Prop :=
  ((gatewayStep d cfg site i).world.db.agents.find? id).isSome

instance decidableAgentStays (d : GatewayDeps) (cfg : GatewaySettings) (id : AgentId) (site : Site)
    (i : GatewayStep) : Decidable (AgentStays d cfg id site i) :=
  inferInstanceAs (Decidable (_ = true))

/-- A path of the machine. -/
def Life.follow (l : Life) (moves : List LifeEvent) : Option Life := moves.foldlM Life.move l

/-- **An agent lives as the machine allows.** In every serial run of the gateway (each request and
tick complete before the next) that does not delete the agent, its row keeps the columns that say
which agent it is, its status, error and version follow a path of the machine, and the path has
exactly as many deploys, and the version has grown by exactly as much, as there were requests that
deployed it successfully. -/
theorem life_refined (d : GatewayDeps) (cfg : GatewaySettings) (site : Site) (id : AgentId)
    (a : Agent) (ha : site.world.db.agents.find? id = some a) (steps : List GatewayStep)
    (hstays : Along (gatewayStep d cfg) (AgentStays d cfg id) site steps) :
    ∃ a' moves, (run (gatewayStep d cfg) site steps).world.db.agents.find? id = some a' ∧
      SameIdentity a a' ∧ a.life.follow moves = some a'.life ∧
      moves.count .deploy = deploysOver d cfg id site steps ∧
      a'.version = a.version + deploysOver d cfg id site steps := by
  induction steps generalizing site a with
  | nil => exact ⟨a, [], ha, .refl a, rfl, rfl, rfl⟩
  | cons i is ih =>
    obtain ⟨hstay, hrest⟩ := hstays
    rcases gatewayStep_row i ha with hgone | ⟨b, m, hb, hlives, hdeploy⟩
    · rw [AgentStays, hgone] at hstay
      cases hstay
    · obtain ⟨a', moves, hrow, hid, hpath, hcount, hversion⟩ := ih _ b hb hrest
      have hone : (if m = .deploy then 1 else 0) =
          if deploysAgent d cfg id site i then 1 else 0 := by
        by_cases hm : m = .deploy
        · rw [if_pos hm, if_pos (hdeploy.mp hm)]
        · rw [if_neg hm, if_neg fun h => hm (hdeploy.mpr h)]
      have hbv : b.version = a.version + if m = .deploy then 1 else 0 :=
        Life.move_version hlives.life
      refine ⟨a', m :: moves, hrow, hlives.identity.trans hid, ?_, ?_, ?_⟩
      · show (a.life.move m).bind (fun l => l.follow moves) = _
        rw [hlives.life]
        exact hpath
      · show (m :: moves).count .deploy = _ + deploysOver d cfg id _ is
        rw [List.count_cons, hcount, ← hone]
        simp only [beq_iff_eq]
        omega
      · show _ = a.version + (_ + deploysOver d cfg id _ is)
        rw [hversion, hbv, hone]
        omega

theorem oneMore_inRange : 1 ≤ 1 ∧ 1 ≤ 50 := by decide

/-- The owner deploys the agent, scales it while Docker refuses, and deploys it again. -/
def deployTwice : List GatewayStep :=
  [.request quietSurroundings (some "agnt_k") (.agents (.deploy "a" (some oneReplica))),
    .request { quietSurroundings with runtime := .scaleRefusing } (some "agnt_k")
      (.agents (.scale "a" { direction := .up, count := 1, inRange := oneMore_inRange })),
    .request quietSurroundings (some "agnt_k") (.agents (.deploy "a" none))]

/-- It is at its third version. -/
theorem life_refined_twice : ∃ a' moves,
    (run (gatewayStep .transparent {}) ownerWithAgent deployTwice).world.db.agents.find? "a" =
        some a' ∧
      SameIdentity freeAgent a' ∧ freeAgent.life.follow moves = some a'.life ∧
      moves.count .deploy = deploysOver .transparent {} "a" ownerWithAgent deployTwice ∧
      a'.version = 1 + 2 := by
  have hcount : deploysOver .transparent {} "a" ownerWithAgent deployTwice = 2 := by decide +kernel
  obtain ⟨a', moves, hrow, hid, hpath, hmoves, hversion⟩ := life_refined .transparent {}
    ownerWithAgent "a" freeAgent (by decide +kernel) deployTwice (by decide +kernel)
  exact ⟨a', moves, hrow, hid, hpath, hmoves, by rw [hversion, hcount]; rfl⟩

/-- Every row has a life the machine reaches. -/
def LivesOk (w : World) : Prop := ∀ a ∈ w.db.agents.rows, a.life.Ok

/-- A new row starts at the machine's start. -/
theorem newAgent_life (d : Deps) (r : Draws) (u : UserId) (body : AgentConfigIn) (newId : AgentId)
    (suffix : List Char) : (newAgent d r u body newId suffix).life = {} := by
  unfold newAgent
  cases body.deploy <;> cases body.apiKey.filter (· ≠ "") <;> rfl

/-- A call keeps the lives, whichever row it is about. -/
theorem LivesOk.call {d : Deps} {w : World} (hok : LivesOk w) (rt : Runtime) (c : Call) :
    LivesOk (c.exec d rt w) := by
  intro a' ha'
  have hfound := Table.find?_of_mem ha'
  cases hbefore : w.db.agents.find? a'.id with
  | some a =>
    have hlife := hok a (Table.mem_of_find? hbefore)
    rcases c.exec_row d rt hbefore with hgone | ⟨b, m, hb, hlives, -⟩
    · rw [hfound] at hgone
      cases hgone
    · obtain rfl := Option.some.inj (hfound.symm.trans hb)
      exact hlife.move hlives.life
  | none =>
    -- A row that was not there before was created by the call.
    have hnew := Table.find?_eq_none.mp hbefore
    have hold : ∀ x ∈ w.db.agents.rows, a' ≠ x := fun x hx he => hnew x hx (he ▸ rfl)
    have hrewritten : ∀ {w' : World} {old new : Agent} {cs : List Container},
        Rewrites w w' old new cs → a' ∈ w'.db.agents.rows → False := by
      intro w' old new cs hrw hmem
      rcases hrw.mem_rows hmem with rfl | ⟨hmem, -⟩
      · exact hnew old (Table.mem_of_find? hrw.found) hrw.id.symm
      · exact hold a' hmem rfl
    have heffect := c.exec_effect d rt w
    generalize c.exec d rt w = w' at heffect ha'
    cases heffect with
    | refused => exact absurd rfl (hold a' ha')
    | created _ hins =>
      rcases hins.mem_rows ha' with rfl | ⟨hmem, -⟩
      · rw [newAgent_life]
        exact .new
      · exact absurd rfl (hold a' hmem)
    | @createdDeployed u body newId suffix w₁ _ new cs _ _ hins hq heff hrw =>
      rcases hrw.mem_rows ha' with rfl | ⟨hmem, -⟩
      · have hstart : (newAgent d rt.draws u body newId suffix).life.Ok := by
          rw [newAgent_life]
          exact .new
        cases heff with
        | buildRefused _ => exact hstart
        | failed _ _ => exact hstart.move (m := .fail _) rfl
        | running _ _ => exact hstart.move (m := .deploy) rfl
      · rcases hins.mem_rows hmem with rfl | ⟨hmem, -⟩
        · rw [newAgent_life]
          exact .new
        · exact absurd rfl (hold a' hmem)
    | updated _ hrw => exact (hrewritten hrw ha').elim
    | deployed _ _ _ hrw => exact (hrewritten hrw ha').elim
    | scaled _ _ _ hrw => exact (hrewritten hrw ha').elim
    | removeFailed _ _ hrw => exact (hrewritten hrw ha').elim
    | removed _ _ hrm =>
      rw [hrm.agents] at ha'
      exact absurd rfl (hold a' (Table.mem_erase.mp ha').1)

/-- **One step** keeps the lives. -/
theorem LivesOk.step {d : GatewayDeps} {cfg : GatewaySettings} {site : Site}
    (hok : LivesOk site.world) (i : GatewayStep) : LivesOk (gatewayStep d cfg site i).world := by
  have hstep := gatewayStep_agents d cfg site i
  generalize (gatewayStep d cfg site i).world = w' at hstep
  cases hstep with
  | kept h hno =>
    unfold LivesOk
    rw [h.agents]
    exact hok
  | @called m creds request p c _ hguard hcall h =>
    unfold LivesOk
    rw [h.agents]
    exact hok.call m.runtime c
  | @ticked rt elapsed now flushFails =>
    intro a' ha'
    -- The rows of a tick are those before it, seen.
    have hback : ∀ b ∈ (tick d.toDeps cfg.gateway rt elapsed now flushFails
        site.world).2.db.agents.rows, ∃ a ∈ site.world.db.agents.rows, a.id = b.id := by
      refine tick_inv (P := fun w' => ∀ b ∈ w'.db.agents.rows,
        ∃ a ∈ site.world.db.agents.rows, a.id = b.id) (fun h => ?_)
        (fun w₁ w₂ old new cs hold h _ _ hrw b hb => ?_) fun b hb => ⟨b, hb, rfl⟩
      · rw [flushRequests_agents]
        exact h
      · rcases hrw.mem_rows hb with rfl | ⟨hmem, -⟩
        · exact ⟨old, List.mem_of_mem_filter hold, hrw.id.symm⟩
        · exact h b hmem
    obtain ⟨a, ha, hid⟩ := hback a' ha'
    obtain ⟨b, m, hb, hlives, -⟩ := tick_row d.toDeps cfg.gateway rt elapsed now flushFails
      (Table.find?_of_mem ha)
    rw [hid] at hb
    obtain rfl := Option.some.inj ((Table.find?_of_mem ha').symm.trans hb)
    exact (hok a ha).move hlives.life

/-- **Every agent is somewhere in its lifecycle.** In every serial run of a gateway whose agents,
if any, have lives of the machine, every request and tick running to its end before the next
begins, and between any two of them: no agent is building, starting or stopping; one that failed
says why; one that is pending has neither failed nor been deployed; versions start at 1. -/
theorem life_reachable (d : GatewayDeps) (cfg : GatewaySettings) (site : Site)
    (hok : LivesOk site.world) (steps : List GatewayStep) :
    LivesOk (run (gatewayStep d cfg) site steps).world :=
  run_preserves (P := fun site : Site => LivesOk site.world) (fun _ i h => h.step i) steps hok

/-- The agent, through those steps. -/
theorem life_reachable_twice :
    LivesOk (run (gatewayStep .transparent {}) ownerWithAgent deployTwice).world := by
  refine life_reachable .transparent {} ownerWithAgent (fun a ha => ?_) deployTwice
  obtain rfl := List.mem_singleton.mp ha
  exact .new

end Gateway
