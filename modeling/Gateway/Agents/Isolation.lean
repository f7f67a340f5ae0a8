import Gateway.Agents.System
import Gateway.Agents.Tenants
import Gateway.Lib.TwoRuns

/-!
# Tenant isolation of the agents API

Two systems that hold the same agents, keys and containers for a user `u`, and the same row
(`SameTenant`), answer a request of `u` alike and stay alike for `u`; `SameTenant` has one lemma per
operation. Ids, slugs and keys that a request draws have to be new in both systems (`Fresh`).

* **`tenant_isolation`**: along any run of a user's requests the others' agents, keys and containers
  stay the same, the answers do not depend on them, and an id that belongs to somebody else is
  answered like one that does not exist.
-/

namespace Gateway

open Lib

/-! ## Requests see only their user's agents -/

/-- The two worlds are alike for user `u`. -/
structure SameTenant (u : UserId) (w w' : World) : Prop extends
    SameAgents (fun v => v = u) w w' where
  user : w.db.users.find? u = w'.db.users.find? u

/-- Two calls of `u` answered alike that leave worlds alike for `u`. -/
structure SameOutcome {α : Type} (u : UserId) (out out' : α × World) : Prop where
  answer : out.1 = out'.1
  world : SameTenant u out.2 out'.2

theorem SameOutcome.map {α β : Type} {u : UserId} {out out' : α × World}
    (h : SameOutcome u out out') (f : α → β) : SameOutcome u (f out.1, out.2) (f out'.1, out'.2) :=
  ⟨congrArg f h.answer, h.world⟩

namespace SameTenant

variable {u : UserId} {w₁ w₂ w₁' w₂' : World} {id : AgentId} {a : Agent}

theorem agentsOf (h : SameTenant u w₁ w₂) : w₁.db.agentsOf u = w₂.db.agentsOf u := h.agents

theorem ownedAgent? (h : SameTenant u w₁ w₂) (id : AgentId) :
    w₁.db.ownedAgent? u id = w₂.db.ownedAgent? u id := by
  unfold Db.ownedAgent?
  rw [Table.filter_find?, Table.filter_find?]
  exact congrArg _ h.agents

theorem keysOf (h : SameTenant u w₁ w₂) (ho : w₁.db.ownedAgent? u id = some a) :
    w₁.db.keysOf id = w₂.db.keysOf id := by
  obtain ⟨hf, hu, rfl⟩ := Db.ownedAgent?_eq_some ho
  exact h.keys a (Table.mem_of_find? hf) (by simp [hu])

theorem containersOf (h : SameTenant u w₁ w₂) (ho : w₁.db.ownedAgent? u id = some a) :
    w₁.containers id = w₂.containers id := by
  obtain ⟨hf, hu, rfl⟩ := Db.ownedAgent?_eq_some ho
  exact h.containers a (Table.mem_of_find? hf) (by simp [hu])

/-- The same effect in both worlds, which keep their users. -/
theorem of_same (h : SameTenant u w₁ w₂) (hsame : SameAgents (fun v => v = u) w₁' w₂')
    (h₁ : w₁'.db.users = w₁.db.users) (h₂ : w₂'.db.users = w₂.db.users) :
    SameTenant u w₁' w₂' :=
  ⟨hsame, by rw [h₁, h₂]; exact h.user⟩

theorem rewrites {old new : Agent} {cs : List Container} (h : SameTenant u w₁ w₂)
    (h₁ : Rewrites w₁ w₁' old new cs) (h₂ : Rewrites w₂ w₂' old new cs) : SameTenant u w₁' w₂' :=
  h.of_same (h.toSameAgents.rewrites h₁ h₂) h₁.users h₂.users

/-! ### The quota checks -/

theorem currentUsage (h : SameTenant u w₁ w₂) (d : Deps) (exclude : Option AgentId) :
    Gateway.currentUsage d w₁.db u exclude = Gateway.currentUsage d w₂.db u exclude := by
  have hactive : activeAgents w₁.db u exclude = activeAgents w₂.db u exclude := by
    have hsplit : ∀ db : Db, activeAgents db u exclude =
        (db.agentsOf u).filter fun a => a.status ∈ activeStatuses ∧ exclude ≠ some a.id := by
      intro db
      unfold activeAgents Db.agentsOf
      rw [List.filter_filter]
      refine List.filter_congr fun a _ => ?_
      by_cases hu : a.userId = u <;> simp [hu]
    rw [hsplit, hsplit, h.agentsOf]
  have hcount : (w₁.db.agents.rows.filter fun a => a.userId = u) =
      w₂.db.agents.rows.filter fun a => a.userId = u := h.agents
  unfold Gateway.currentUsage
  rw [hactive, hcount]

theorem ensureResources (h : SameTenant u w₁ w₂) (d : Deps) (id : Option AgentId) (n : Nat)
    (cpu : ℚ)
    (mem : Nat) :
    Gateway.ensureResources d w₁.db u id n cpu mem =
      Gateway.ensureResources d w₂.db u id n cpu mem := by
  unfold Gateway.ensureResources
  rw [h.user, h.currentUsage d id]

theorem createQuota (h : SameTenant u w₁ w₂) (d : Deps) (body : AgentConfigIn) :
    Gateway.createQuota d w₁.db u body = Gateway.createQuota d w₂.db u body := by
  have hcan : ensureCanCreateAgent d w₁.db u = ensureCanCreateAgent d w₂.db u := by
    unfold ensureCanCreateAgent
    rw [h.user, h.currentUsage d none]
  unfold Gateway.createQuota
  rw [hcan]
  cases body.deploy with
  | none => rfl
  | some c => simp only [h.ensureResources d none]

theorem deployQuota (h : SameTenant u w₁ w₂) (d : Deps) (ho : w₁.db.ownedAgent? u id = some a)
    (config : Option DeployConfig) :
    Gateway.deployQuota d w₁.db a config = Gateway.deployQuota d w₂.db a config := by
  obtain ⟨-, rfl, -⟩ := Db.ownedAgent?_eq_some ho
  exact h.ensureResources d _ _ _ _

theorem scaleQuota (h : SameTenant u w₁ w₂) (d : Deps) (ho : w₁.db.ownedAgent? u id = some a)
    (direction : ScaleDirection) (count : Nat) :
    Gateway.scaleQuota d w₁.db a direction count =
      Gateway.scaleQuota d w₂.db a direction count := by
  obtain ⟨-, rfl, -⟩ := Db.ownedAgent?_eq_some ho
  cases direction with
  | up => exact h.ensureResources d _ _ _ _
  | down => rfl

/-! ### The operations -/

theorem deployAgent (h : SameTenant u w₁ w₂) (d : Deps) (rt : Runtime) (id : AgentId)
    (config : Option DeployConfig) :
    SameOutcome u (Gateway.deployAgent d rt w₁ u id config)
      (Gateway.deployAgent d rt w₂ u id config) := by
  have howned := h.ownedAgent? id
  cases ho : w₁.db.ownedAgent? u id with
  | none =>
    rw [deployAgent_notFound ho, deployAgent_notFound (howned.symm.trans ho)]
    exact ⟨rfl, h⟩
  | some old =>
    have ho₂ : w₂.db.ownedAgent? u id = some old := howned.symm.trans ho
    have hquota := h.deployQuota d ho config
    cases hq : Gateway.deployQuota d w₁.db old config with
    | error e =>
      rw [deployAgent_overQuota ho hq, deployAgent_overQuota ho₂ (hquota.symm.trans hq)]
      exact ⟨rfl, h⟩
    | ok _ =>
      obtain ⟨hans₁, hrw₁, -⟩ := deployAgent_local rt ho hq
      obtain ⟨hans₂, hrw₂, -⟩ := deployAgent_local rt ho₂ (hquota.symm.trans hq)
      rw [← h.containersOf ho] at hans₂ hrw₂
      exact ⟨hans₁.trans hans₂.symm, h.rewrites hrw₁ hrw₂⟩

theorem scaleAgent (h : SameTenant u w₁ w₂) (d : Deps) (rt : Runtime) (id : AgentId)
    (direction : ScaleDirection) (count : Nat) :
    SameOutcome u (Gateway.scaleAgent d rt w₁ u id direction count)
      (Gateway.scaleAgent d rt w₂ u id direction count) := by
  have howned := h.ownedAgent? id
  cases ho : w₁.db.ownedAgent? u id with
  | none =>
    rw [scaleAgent_notFound ho, scaleAgent_notFound (howned.symm.trans ho)]
    exact ⟨rfl, h⟩
  | some old =>
    have ho₂ : w₂.db.ownedAgent? u id = some old := howned.symm.trans ho
    have hquota := h.scaleQuota d ho direction count
    cases hq : Gateway.scaleQuota d w₁.db old direction count with
    | error e =>
      rw [scaleAgent_overQuota ho hq, scaleAgent_overQuota ho₂ (hquota.symm.trans hq)]
      exact ⟨rfl, h⟩
    | ok _ =>
      obtain ⟨hans₁, hrw₁, -⟩ := scaleAgent_local rt ho hq
      obtain ⟨hans₂, hrw₂, -⟩ := scaleAgent_local rt ho₂ (hquota.symm.trans hq)
      rw [← h.containersOf ho] at hans₂ hrw₂
      exact ⟨hans₁.trans hans₂.symm, h.rewrites hrw₁ hrw₂⟩

/-- An agent of `u` is in both worlds, with the same containers. -/
theorem rewrites_refl {old : Agent} (h : SameTenant u w₁ w₂)
    (ho : w₁.db.ownedAgent? u id = some old) :
    Rewrites w₁ w₁ old old (w₁.containers old.id) ∧
      Rewrites w₂ w₂ old old (w₁.containers old.id) := by
  have ho₂ : w₂.db.ownedAgent? u id = some old := (h.ownedAgent? id).symm.trans ho
  obtain ⟨hf₁, -, rfl⟩ := Db.ownedAgent?_eq_some ho
  obtain ⟨hf₂, -, -⟩ := Db.ownedAgent?_eq_some ho₂
  refine ⟨Rewrites.refl hf₁, ?_⟩
  rw [h.containersOf ho]
  exact Rewrites.refl hf₂

theorem updateAgent (h : SameTenant u w₁ w₂) (id : AgentId) (body : AgentUpdate) :
    SameOutcome u (Gateway.updateAgent w₁ u id body) (Gateway.updateAgent w₂ u id body) := by
  unfold Gateway.updateAgent
  rw [← h.ownedAgent? id]
  cases ho : w₁.db.ownedAgent? u id with
  | none => exact ⟨rfl, h⟩
  | some old =>
    obtain ⟨h₁, h₂⟩ := h.rewrites_refl ho
    exact ⟨rfl, h.rewrites (h₁.save _ rfl rfl rfl) (h₂.save _ rfl rfl rfl)⟩

theorem deleteAgent (h : SameTenant u w₁ w₂) (rt : Runtime) (id : AgentId) :
    SameOutcome u (Gateway.deleteAgent rt w₁ u id) (Gateway.deleteAgent rt w₂ u id) := by
  unfold Gateway.deleteAgent
  rw [← h.ownedAgent? id]
  cases ho : w₁.db.ownedAgent? u id with
  | none => exact ⟨rfl, h⟩
  | some old =>
    obtain ⟨h₁, h₂⟩ := h.rewrites_refl ho
    obtain ⟨-, -, rfl⟩ := Db.ownedAgent?_eq_some ho
    simp only
    rw [← h.containersOf ho]
    cases hout : rt.remove old.id (w₁.containers old.id) with
    | mk res left =>
      cases res with
      | error e => exact ⟨rfl, h.rewrites (h₁.called _ left) (h₂.called _ left)⟩
      | ok _ =>
        exact ⟨rfl, h.of_same (h.toSameAgents.removes (deleteRow_removes w₁ old left)
          (deleteRow_removes w₂ old left)) rfl rfl⟩

end SameTenant

/-! ### What a request draws -/

/-- The draws for an access key are new: its row's id and its hash. -/
structure FreshKey (d : Deps) (w : World) (keyId : KeyId) (token : String) : Prop where
  id : ∀ k ∈ w.db.accessKeys.rows, k.id ≠ keyId
  hash : ∀ k ∈ w.db.accessKeys.rows, k.keyHash ≠ d.sha256 (accessKeyStart ++ token)

/-- The draws for an agent are new: nothing has its id and no agent its slug. -/
structure FreshAgent (w : World) (newId : AgentId) (slug : String) : Prop where
  id : ∀ a ∈ w.db.agents.rows, a.id ≠ newId
  slug : ∀ a ∈ w.db.agents.rows, a.slug ≠ slug
  keys : w.db.keysOf newId = []
  containers : w.containers newId = []

/-- What a request draws is distinct from all existing ids, slugs and keys. -/
def Fresh (d : Deps) (w : World) : AgentsRequest → Prop
  | .create body draws => FreshAgent w draws.newId (newSlug d body.name draws.suffix) ∧
      FreshKey d w draws.keyId draws.token
  | .createAccessKey _ _ keyId token => FreshKey d w keyId token
  | _ => True

@[simp] theorem newAgent_slug (d : Deps) (r : Draws) (u : UserId) (body : AgentConfigIn)
    (newId : AgentId) (suffix : List Char) :
    (newAgent d r u body newId suffix).slug = newSlug d body.name suffix := by
  unfold newAgent
  cases body.deploy <;> cases body.apiKey.filter (· ≠ "") <;> rfl

/-- A new key of an existing agent is stored. -/
theorem FreshKey.create {d : Deps} {w : World} {keyId : KeyId} {token : String}
    (h : FreshKey d w keyId token) (id : AgentId) (hagent : (w.db.agents.find? id).isSome)
    (label : String) :
    ∃ w', createAccessKey d w id label keyId token =
        (.ok (newAccessKey d id label keyId token), w') ∧
      CreatedKey w w' (newAccessKey d id label keyId token).1 := by
  rcases createAccessKey_cases d w id label keyId token with ⟨e, he⟩ | hok
  · have hhash : (newAccessKey d id label keyId token).1.keyHash ∉
        w.db.accessKeys.rows.map (·.keyHash) := by
      intro hmem
      obtain ⟨k, hk, hkh⟩ := List.mem_map.mp hmem
      exact h.hash k hk hkh
    have hsome : ¬((w.db.agents.find? (newAccessKey d id label keyId token).1.agentId).isNone ∨
        (newAccessKey d id label keyId token).1.keyHash ∈
          w.db.accessKeys.rows.map (·.keyHash)) := by
      rintro (hnone | hmem)
      · rw [Option.isNone_iff_eq_none] at hnone
        have hagent' : (w.db.agents.find? (newAccessKey d id label keyId token).1.agentId).isSome :=
          hagent
        rw [hnone] at hagent'
        exact absurd hagent' Bool.false_ne_true
      · exact hhash hmem
    obtain ⟨t, ht⟩ := Table.insert?_of_forall_ne (t := w.db.accessKeys)
      (r := (newAccessKey d id label keyId token).1) h.id
    unfold createAccessKey insertAccessKey? at he
    simp only [if_neg hsome, ht] at he
    exact absurd (congrArg Prod.fst he) (by simp)
  · exact hok

/-- `delete_access_key` looks a key up by its id alone, but acts only on the keys of the agent. -/
theorem deleteAccessKey_eq (w : World) (id : AgentId) (keyId : KeyId) :
    deleteAccessKey w id keyId =
      if (w.db.keysOf id).any (fun k => k.id = keyId) then
        (.ok (), { w with db := { w.db with accessKeys := w.db.accessKeys.erase keyId } })
      else (.error (.accessKeyNotFound keyId), w) := by
  have hfind : (w.db.keysOf id).any (fun k => k.id = keyId) =
      ((w.db.accessKeys.find? keyId).filter fun k => k.agentId = id).isSome := by
    rw [Table.filter_find?, List.isSome_find?]
    rfl
  unfold deleteAccessKey
  rw [hfind]
  cases w.db.accessKeys.find? keyId with
  | none => rfl
  | some key => by_cases hk : key.agentId = id <;> simp [hk, Option.filter]

namespace SameTenant

variable {u : UserId} {w₁ w₂ : World} {d : Deps}

theorem createAccessKey (h : SameTenant u w₁ w₂) {id : AgentId} {a : Agent} {keyId : KeyId}
    {token : String} (ho : w₁.db.ownedAgent? u id = some a) (h₁ : FreshKey d w₁ keyId token)
    (h₂ : FreshKey d w₂ keyId token) (label : String) :
    SameOutcome u (Gateway.createAccessKey d w₁ id label keyId token)
      (Gateway.createAccessKey d w₂ id label keyId token) := by
  have ho₂ := (h.ownedAgent? id).symm.trans ho
  obtain ⟨w₁', hok₁, hnew₁⟩ := h₁.create id
    (by rw [(Db.ownedAgent?_eq_some ho).1]; rfl) label
  obtain ⟨w₂', hok₂, hnew₂⟩ := h₂.create id
    (by rw [(Db.ownedAgent?_eq_some ho₂).1]; rfl) label
  rw [hok₁, hok₂]
  exact ⟨rfl, h.of_same (h.toSameAgents.createdKey hnew₁ hnew₂) hnew₁.users hnew₂.users⟩

theorem deleteAccessKey (h : SameTenant u w₁ w₂) {id : AgentId} {a : Agent} (keyId : KeyId)
    (ho : w₁.db.ownedAgent? u id = some a) :
    SameOutcome u (Gateway.deleteAccessKey w₁ id keyId) (Gateway.deleteAccessKey w₂ id keyId) := by
  rw [deleteAccessKey_eq, deleteAccessKey_eq, h.keysOf ho]
  split_ifs
  · have hdeleted : ∀ w : World, DeletedKey w
        { w with db := { w.db with accessKeys := w.db.accessKeys.erase keyId } } keyId :=
      fun _ => ⟨rfl, rfl, rfl, rfl⟩
    exact ⟨rfl, h.of_same (h.toSameAgents.deletedKey (hdeleted w₁) (hdeleted w₂)) rfl rfl⟩
  · exact ⟨rfl, h⟩

theorem createAgent (h : SameTenant u w₁ w₂) (rt : Runtime) (body : AgentConfigIn)
    {newId : AgentId} {suffix : List Char} (h₁ : FreshAgent w₁ newId (newSlug d body.name suffix))
    (h₂ : FreshAgent w₂ newId (newSlug d body.name suffix)) :
    SameOutcome u (Gateway.createAgent d rt w₁ u body newId suffix)
      (Gateway.createAgent d rt w₂ u body newId suffix) := by
  have hquota := h.createQuota d body
  unfold Gateway.createAgent
  rw [← hquota]
  cases Gateway.createQuota d w₁.db u body with
  | error e => exact ⟨rfl, h⟩
  | ok _ =>
    obtain ⟨w₁', hi₁⟩ := insertAgent?_of_free (w := w₁)
      (a := newAgent d rt.draws u body newId suffix)
      (by rw [newAgent_id]; exact h₁.id) (by rw [newAgent_slug]; exact h₁.slug)
    obtain ⟨w₂', hi₂⟩ := insertAgent?_of_free (w := w₂)
      (a := newAgent d rt.draws u body newId suffix)
      (by rw [newAgent_id]; exact h₂.id) (by rw [newAgent_slug]; exact h₂.slug)
    simp only [hi₁, hi₂]
    have hins₁ := insertAgent?_inserts hi₁
    have hins₂ := insertAgent?_inserts hi₂
    have hsame : SameTenant u w₁' w₂' := by
      refine h.of_same (h.toSameAgents.inserts hins₁ hins₂ ?_ ?_) hins₁.users hins₂.users
      · rw [newAgent_id, h₁.keys, h₂.keys]
      · rw [newAgent_id, h₁.containers, h₂.containers]
    cases body.deploy with
    | none => exact ⟨rfl, hsame⟩
    | some c => exact hsame.deployAgent d rt _ none

theorem routerCreateAgent (h : SameTenant u w₁ w₂) (s : Settings) (rt : Runtime)
    (body : AgentConfigIn) {draws : CreateDraws} (h₁ : Fresh d w₁ (.create body draws))
    (h₂ : Fresh d w₂ (.create body draws)) :
    SameOutcome u
      (Router.createAgent d s rt w₁ u body draws.newId draws.suffix draws.keyId draws.token)
      (Router.createAgent d s rt w₂ u body draws.newId draws.suffix draws.keyId draws.token) := by
  have hcreate := h.createAgent rt body h₁.1 h₂.1
  cases hout₁ : Gateway.createAgent d rt w₁ u body draws.newId draws.suffix with
  | mk res w₁' =>
    cases hout₂ : Gateway.createAgent d rt w₂ u body draws.newId draws.suffix with
    | mk res₂ w₂' =>
      rw [hout₁, hout₂] at hcreate
      obtain ⟨rfl, hsame⟩ := hcreate
      cases res with
      | error e =>
        rw [Router.createAgent_of_error hout₁, Router.createAgent_of_error hout₂]
        exact ⟨rfl, hsame⟩
      | ok agent =>
        obtain ⟨hown, hid, hkeys₁⟩ := createAgent_ok hout₁
        obtain ⟨-, -, hkeys₂⟩ := createAgent_ok hout₂
        rw [Router.createAgent_of_ok hout₁, Router.createAgent_of_ok hout₂]
        cases toAgentResponse s agent with
        | error es => exact ⟨rfl, hsame⟩
        | ok response =>
          simp only
          split_ifs
          · have hkey : SameOutcome u
                (Gateway.createAccessKey d w₁' agent.id "default" draws.keyId draws.token)
                (Gateway.createAccessKey d w₂' agent.id "default" draws.keyId draws.token) := by
              rw [hid]
              refine hsame.createAccessKey hown ⟨?_, ?_⟩ ⟨?_, ?_⟩ "default"
              · rw [hkeys₁]
                exact h₁.2.id
              · rw [hkeys₁]
                exact h₁.2.hash
              · rw [hkeys₂]
                exact h₂.2.id
              · rw [hkeys₂]
                exact h₂.2.hash
            exact hkey.map (Except.map fun k => { response with accessKey := some k.2 })
          · exact ⟨rfl, hsame⟩

/-! ### The reads -/

theorem getAgent (h : SameTenant u w₁ w₂) (id : AgentId) :
    Gateway.getAgent w₁.db u id = Gateway.getAgent w₂.db u id := by
  unfold Gateway.getAgent
  rw [h.ownedAgent? id]

theorem getLogs (h : SameTenant u w₁ w₂) (d : ApiDeps) (reads : RuntimeReads) (id : AgentId)
    (level replicaId : Option String) (limit : Nat) :
    Gateway.getLogs d reads w₁ u id level replicaId limit =
      Gateway.getLogs d reads w₂ u id level replicaId limit := by
  unfold Gateway.getLogs
  rw [← h.ownedAgent? id]
  cases ho : w₁.db.ownedAgent? u id with
  | none => rfl
  | some a =>
    obtain ⟨-, -, rfl⟩ := Db.ownedAgent?_eq_some ho
    simp only [h.containersOf ho]

theorem getMetrics (h : SameTenant u w₁ w₂) (d : ApiDeps) (reads : RuntimeReads) (now : Instant)
    (id : AgentId) :
    Gateway.getMetrics d reads now w₁ u id = Gateway.getMetrics d reads now w₂ u id := by
  unfold Gateway.getMetrics
  rw [← h.ownedAgent? id]
  cases ho : w₁.db.ownedAgent? u id with
  | none => rfl
  | some a =>
    obtain ⟨-, -, rfl⟩ := Db.ownedAgent?_eq_some ho
    simp only [h.containersOf ho]

theorem streamLogs (h : SameTenant u w₁ w₂) (d : ApiDeps) (id : AgentId) (level : Option String)
    (polls : List RuntimeReads) (seen : List (String × Instant)) :
    Gateway.streamLogs d w₁ u id level seen polls =
      Gateway.streamLogs d w₂ u id level seen polls := by
  induction polls generalizing seen with
  | nil => rfl
  | cons reads polls ih =>
    have hpoll : pollLogs d w₁ u id level seen reads = pollLogs d w₂ u id level seen reads := by
      unfold pollLogs
      rw [h.getLogs d]
    unfold Gateway.streamLogs
    simp only [hpoll, ih]

theorem streamMetrics (h : SameTenant u w₁ w₂) (d : ApiDeps) (id : AgentId)
    (polls : List (RuntimeReads × Instant)) :
    Gateway.streamMetrics d w₁ u id polls = Gateway.streamMetrics d w₂ u id polls := by
  unfold Gateway.streamMetrics
  simp only [h.getMetrics d]

/-- **A request of `u` sees only what belongs to `u`.** -/
theorem agentsHandler (h : SameTenant u w₁ w₂) (d : ApiDeps) (s : Settings) (m : Surroundings)
    {req : AgentsRequest} (h₁ : Fresh d.toDeps w₁ req) (h₂ : Fresh d.toDeps w₂ req) :
    SameOutcome u (Gateway.agentsHandler d s m w₁ u req)
      (Gateway.agentsHandler d s m w₂ u req) := by
  cases req with
  | create body draws => exact (h.routerCreateAgent s m.runtime body h₁ h₂).map _
  | list status tag q =>
    refine ⟨?_, h⟩
    show respondAgents s q (listAgents m.ties w₁.db u status tag q) = respondAgents s q _
    unfold listAgents selectAgents countAgents Db.agentsMatching
    rw [h.agentsOf]
  | get id => exact ⟨by simp only [Gateway.agentsHandler, h.getAgent id], h⟩
  | update id body => exact (h.updateAgent id body).map fun r => r.bind (respondAgent s)
  | listAccessKeys id =>
    refine ⟨?_, h⟩
    show (Gateway.getAgent w₁.db u id).map _ = (Gateway.getAgent w₂.db u id).map _
    rw [← h.getAgent id]
    unfold Gateway.getAgent
    cases ho : w₁.db.ownedAgent? u id with
    | none => rfl
    | some a =>
      obtain ⟨-, -, rfl⟩ := Db.ownedAgent?_eq_some ho
      simp only [Except.map, h.keysOf ho]
  | createAccessKey id label keyId token =>
    have hkey : SameOutcome u (Router.createAccessKey d.toDeps w₁ u id label keyId token)
        (Router.createAccessKey d.toDeps w₂ u id label keyId token) := by
      unfold Router.createAccessKey
      rw [← h.ownedAgent? id]
      cases ho : w₁.db.ownedAgent? u id with
      | none => exact ⟨rfl, h⟩
      | some a =>
        obtain ⟨-, -, rfl⟩ := Db.ownedAgent?_eq_some ho
        exact h.createAccessKey ho h₁ h₂ _
    exact hkey.map _
  | deleteAccessKey id keyId =>
    have hkey : SameOutcome u (Router.deleteAccessKey w₁ u id keyId)
        (Router.deleteAccessKey w₂ u id keyId) := by
      unfold Router.deleteAccessKey
      rw [← h.ownedAgent? id]
      cases ho : w₁.db.ownedAgent? u id with
      | none => exact ⟨rfl, h⟩
      | some a =>
        obtain ⟨-, -, rfl⟩ := Db.ownedAgent?_eq_some ho
        exact h.deleteAccessKey keyId ho
    exact hkey.map _
  | delete id => exact (h.deleteAgent m.runtime id).map _
  | deploy id body =>
    exact (h.deployAgent d.toDeps m.runtime id (body.map Subtype.val)).map fun r =>
      r.bind (respondAgent s)
  | scale id body => exact (h.scaleAgent d.toDeps m.runtime id _ _).map _
  | logs id q => exact ⟨by simp only [Gateway.agentsHandler, h.getLogs d], h⟩
  | streamLogs id level polls =>
    exact ⟨by simp only [Gateway.agentsHandler, h.getAgent id, h.streamLogs d], h⟩
  | metrics id => exact ⟨by simp only [Gateway.agentsHandler, h.getMetrics d], h⟩
  | streamMetrics id polls =>
    exact ⟨by simp only [Gateway.agentsHandler, h.getAgent id, h.streamMetrics d], h⟩

end SameTenant

/-! ## Runs of one user's requests -/

theorem tenantAct_frame (d : ApiDeps) (s : Settings) (u : UserId) (w : World) (i : TenantStep) :
    SameAgents (others u) w (tenantAct d s u w i).2 := by
  rcases tenantAct_eq d s u w i with ⟨e, -, h⟩ | ⟨p, -, h⟩
  · rw [h]
    exact .refl _ w
  · rw [h]
    exact agentsHandler_frame d s i.surroundings w u i.request

theorem tenantAct_same {u : UserId} {w₁ w₂ : World} (h : SameTenant u w₁ w₂) (d : ApiDeps)
    (s : Settings) {i : TenantStep} (h₁ : Fresh d.toDeps w₁ i.request)
    (h₂ : Fresh d.toDeps w₂ i.request) :
    SameOutcome u (tenantAct d s u w₁ i) (tenantAct d s u w₂ i) := by
  have hadm : admitted d.toDeps w₁.db.users u i = admitted d.toDeps w₂.db.users u i := by
    unfold admitted loadPrincipal
    rw [h.user]
  rcases tenantAct_eq d s u w₁ i with ⟨e₁, ha₁, hact₁⟩ | ⟨p₁, ha₁, hact₁⟩
  · rcases tenantAct_eq d s u w₂ i with ⟨e₂, ha₂, hact₂⟩ | ⟨p₂, ha₂, -⟩
    · obtain rfl : e₁ = e₂ := by
        rw [ha₁, ha₂] at hadm
        exact Except.error.inj hadm
      rw [hact₁, hact₂]
      exact ⟨rfl, h⟩
    · rw [ha₁, ha₂] at hadm
      cases hadm
  · rcases tenantAct_eq d s u w₂ i with ⟨e₂, ha₂, -⟩ | ⟨p₂, -, hact₂⟩
    · rw [ha₁, ha₂] at hadm
      cases hadm
    · rw [hact₁, hact₂]
      exact (h.agentsHandler d s i.surroundings h₁ h₂).map fun r => r.mapError ApiError.service

/-! ## Ids of other users -/

/-- The agent a request names. -/
def AgentsRequest.agentId? : AgentsRequest → Option AgentId
  | .create _ _ => none
  | .list _ _ _ => none
  | .get id => some id
  | .update id _ => some id
  | .listAccessKeys id => some id
  | .createAccessKey id _ _ _ => some id
  | .deleteAccessKey id _ => some id
  | .delete id => some id
  | .deploy id _ => some id
  | .scale id _ => some id
  | .logs id _ => some id
  | .streamLogs id _ _ => some id
  | .metrics id => some id
  | .streamMetrics id _ => some id

/-- The request names an agent that is not of `u`, or a key that is not of the named agent: the
error is the same whether somebody else has one with that id or nobody. -/
inductive Unknown (u : UserId) (w : World) : AgentsRequest → GatewayError → Prop
  | agent {req : AgentsRequest} {id : AgentId} (hreq : req.agentId? = some id)
      (hnone : w.db.ownedAgent? u id = none) : Unknown u w req (.agentNotFound id)
  | key {id : AgentId} {keyId : KeyId} (hagent : (w.db.ownedAgent? u id).isSome)
      (hnone : ∀ k ∈ w.db.keysOf id, k.id ≠ keyId) :
      Unknown u w (.deleteAccessKey id keyId) (.accessKeyNotFound keyId)

theorem agentsHandler_unknown (d : ApiDeps) (s : Settings) (m : Surroundings) {u : UserId}
    {w : World} {req : AgentsRequest} {e : GatewayError} (h : Unknown u w req e) :
    agentsHandler d s m w u req = (.error e, w) := by
  cases h with
  | agent hreq hnone =>
    cases req with
    | create body draws => cases hreq
    | list status tag q => cases hreq
    | get id =>
      obtain rfl := Option.some.inj hreq
      simp only [agentsHandler, getAgent, hnone]
      rfl
    | update id body =>
      obtain rfl := Option.some.inj hreq
      simp only [agentsHandler, updateAgent, hnone]
      rfl
    | listAccessKeys id =>
      obtain rfl := Option.some.inj hreq
      simp only [agentsHandler, getAgent, hnone]
      rfl
    | createAccessKey id label keyId token =>
      obtain rfl := Option.some.inj hreq
      simp only [agentsHandler, Router.createAccessKey, hnone]
      rfl
    | deleteAccessKey id keyId =>
      obtain rfl := Option.some.inj hreq
      simp only [agentsHandler, Router.deleteAccessKey, hnone]
      rfl
    | delete id =>
      obtain rfl := Option.some.inj hreq
      simp only [agentsHandler, deleteAgent, hnone]
      rfl
    | deploy id body =>
      obtain rfl := Option.some.inj hreq
      simp only [agentsHandler, deployAgent, hnone]
      rfl
    | scale id body =>
      obtain rfl := Option.some.inj hreq
      simp only [agentsHandler, scaleAgent, hnone]
      rfl
    | logs id q =>
      obtain rfl := Option.some.inj hreq
      simp only [agentsHandler, getLogs, hnone]
      rfl
    | streamLogs id level polls =>
      obtain rfl := Option.some.inj hreq
      simp only [agentsHandler, getAgent, hnone]
      rfl
    | metrics id =>
      obtain rfl := Option.some.inj hreq
      simp only [agentsHandler, getMetrics, hnone]
      rfl
    | streamMetrics id polls =>
      obtain rfl := Option.some.inj hreq
      simp only [agentsHandler, getAgent, hnone]
      rfl
  | @key id keyId hagent hnone =>
    obtain ⟨a, ho⟩ := Option.isSome_iff_exists.mp hagent
    obtain ⟨-, -, rfl⟩ := Db.ownedAgent?_eq_some ho
    simp only [agentsHandler, Router.deleteAccessKey, ho]
    rw [deleteAccessKey_eq, if_neg (by simpa using hnone)]
    rfl

/-- **Tenant isolation.** For every user `u` and every sequence of their requests: (a) from any
world, the agents, access keys and containers of the other users are the same after it; (b) two
systems that are alike for `u` answer it alike, when what it draws is new in both; and an agent
that is not `u`'s, or a key that is not the agent's, is answered by the error for an id nobody has.
-/
theorem tenant_isolation (d : ApiDeps) (s : Settings) (u : UserId) (steps : List TenantStep) :
    (∀ w, SameAgents (others u) w (run (leaves (tenantAct d s u)) w steps)) ∧
    (∀ w₁ w₂, SameTenant u w₁ w₂ →
      Along (leaves (tenantAct d s u)) (fun w i => Fresh d.toDeps w i.request) w₁ steps →
      Along (leaves (tenantAct d s u)) (fun w i => Fresh d.toDeps w i.request) w₂ steps →
      answers (tenantAct d s u) w₁ steps = answers (tenantAct d s u) w₂ steps) ∧
    ∀ w i e, Unknown u w i.request e →
      tenantAct d s u w i =
        ((admitted d.toDeps w.db.users u i).bind fun _ => .error (.service e), w) := by
  refine ⟨fun w => ?_, fun w₁ w₂ h h₁ h₂ => ?_, fun w i e hunknown => ?_⟩
  · exact run_preserves (P := fun x => SameAgents (others u) w x)
      (fun x i hx => hx.trans (tenantAct_frame d s u x i)) steps (.refl _ w)
  · refine (answers_eq (Q := Eq) ?_ (List.forall₂_eq_eq_eq ▸ rfl) h h₁ h₂).1
    rintro x y i _ hxy rfl hx hy
    obtain ⟨hans, hworld⟩ := tenantAct_same hxy d s hx hy
    exact ⟨hans, hworld⟩
  · rcases tenantAct_eq d s u w i with ⟨e', ha, hact⟩ | ⟨p, ha, hact⟩
    · rw [hact, ha]
      rfl
    · rw [hact, ha, agentsHandler_unknown d s i.surroundings hunknown]
      rfl

/-- The days from the epoch to a date (years from March on, so that leap days come last). -/
def daysTo (year month day : Nat) : Int :=
  let y := if month ≤ 2 then year - 1 else year
  let dayOfYear := (153 * ((month + 9) % 12) + 2) / 5 + (day - 1)
  365 * y + y / 4 - y / 100 + y / 400 + dayOfYear - 719468

/-- A timestamp as Docker writes it, `2026-01-01T00:00:00.000000000Z`, read to the microsecond. -/
def readDockerTimestamp (text : String) : Instant :=
  let number (start size : Nat) : Nat :=
    ((text.toList.drop start).take size).foldl (fun n c => 10 * n + (c.toNat - '0'.toNat)) 0
  let days := daysTo (number 0 4) (number 5 2) (number 8 2)
  let seconds := 3600 * number 11 2 + 60 * number 14 2 + number 17 2
  1000000 * (86400 * days + seconds) + number 20 6

/-- The imported functions to run the API with. -/
def ApiDeps.transparent : ApiDeps :=
  { Deps.transparent with
    upper := List.map Char.toUpper
    readTimestamp := readDockerTimestamp
    round2 := Rounding.halfEven (1 / 100) (by norm_num) }

/-- A runtime without logs or numbers. -/
def RuntimeReads.silent : RuntimeReads where
  getLogs _ _ _ _ := .ok []
  stats _ _ := .ok none

/-- A gateway with a second account. -/
def sharedWorld : World :=
  { freeWorld with
    db := { freeWorld.db with
      users := (freeWorld.db.users.insert?
        { id := 2, email := "other@example.com", name := "Other" }).getD .empty } }

/-- The same gateway after the second account has deployed an agent. -/
def busyWorld : World :=
  (createAgent Deps.transparent .obliging sharedWorld 2
    { name := "b", deploy := some oneReplica } "b" "q1w2e3".toList).2

/-- Create an agent, ask for the other account's agent and list. -/
def isolatedSteps : List TenantStep :=
  [.create { name := "a", deploy := some oneReplica }
      { newId := "a"
        suffix := "x1y2z3".toList
        keyId := 7
        token := "t" },
    .get "b", .list none none .default].map fun req =>
      { method := .jwt
        surroundings :=
          { runtime := .obliging
            reads := .silent
            now := 0 }
        request := req }

/-- The first account gets the same answers whether the second has deployed an agent or not. -/
theorem tenant_isolation_shared :
    (busyWorld.db.agents.rows.map Agent.id = ["b"]) ∧
      answers (tenantAct ApiDeps.transparent {} freeUser.id) sharedWorld isolatedSteps =
        answers (tenantAct ApiDeps.transparent {} freeUser.id) busyWorld isolatedSteps := by
  refine ⟨by decide +kernel, (tenant_isolation ApiDeps.transparent {} freeUser.id isolatedSteps).2.1
    sharedWorld busyWorld ⟨⟨by decide +kernel, by decide +kernel, ?_⟩, by decide +kernel⟩
    ⟨⟨⟨by decide, by decide, by decide, rfl⟩, ⟨by decide, by decide⟩⟩, trivial, trivial, trivial⟩
    ⟨⟨⟨by decide +kernel, by decide +kernel, by decide +kernel, by decide +kernel⟩,
      ⟨by decide +kernel, by decide +kernel⟩⟩, trivial, trivial, trivial⟩⟩
  decide +kernel

end Gateway
