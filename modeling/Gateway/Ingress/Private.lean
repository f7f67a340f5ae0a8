import Mathlib.Data.Set.Function
import Gateway.Agents.System
import Gateway.Ingress.Route

/-!
# Private agents answer to their own live keys

A run mixes the calls of the agent service, ticks, the minting and deletion of access keys and
`route` requests, by any users. Next to the world it keeps the history of what callers saw of the
keys: each raw key returned, each key and each agent deleted, the newest event first. `Live m h`
says that the history `h` minted `m` and has not deleted it or its agent since.

* `KeyInv` ties the key table to the history, both ways, and keeps hostnames and owners such that
  the lookup of `route` finds a stored agent by its slug.
* **`private_routed_iff`**: in every state a run reaches, a request for a private agent is routed
  only with a live key of that agent, and with one it is, when the other gates let it pass.

Only two strings are assumed to have different hashes: the token presented and a minted key.
-/

namespace Gateway

open Lib

/-! ## Keys and their history -/

/-- A key as it was returned to its creator. -/
structure Mint where
  agentId : AgentId
  keyId : KeyId
  rawKey : String
  deriving DecidableEq, Repr

/-- What a caller saw happen to keys. -/
inductive KeyEvent where
  | minted (m : Mint)
  | keyDeleted (keyId : KeyId)
  | agentDeleted (agentId : AgentId)
  deriving DecidableEq, Repr

/-- The key was minted and neither it nor its agent deleted since; newest event first. -/
def Live (m : Mint) : List KeyEvent → Prop
  | [] => False
  | .minted m' :: older => m = m' ∨ Live m older
  | .keyDeleted k :: older => m.keyId ≠ k ∧ Live m older
  | .agentDeleted a :: older => m.agentId ≠ a ∧ Live m older

/-- The raw keys ever returned. -/
def mintedKeys (h : List KeyEvent) : Set String := {raw | ∃ m, .minted m ∈ h ∧ m.rawKey = raw}

theorem Live.minted_mem {m : Mint} : ∀ {h : List KeyEvent}, Live m h → .minted m ∈ h
  | .minted _ :: _, .inl e => e ▸ List.mem_cons_self
  | .minted _ :: _, .inr hlive => List.mem_cons_of_mem _ hlive.minted_mem
  | .keyDeleted _ :: _, hlive => List.mem_cons_of_mem _ (Live.minted_mem hlive.2)
  | .agentDeleted _ :: _, hlive => List.mem_cons_of_mem _ (Live.minted_mem hlive.2)

/-! ## The system -/

/-- The gateway and the history of its keys. -/
structure IngressState where
  world : World
  history : List KeyEvent := []

/-- A step by any user. -/
inductive IngressStep where
  | createAgent (rt : Runtime) (userId : UserId) (body : AgentConfigIn) (newId : AgentId)
      (suffix : List Char) (keyId : KeyId) (token : String)
  | createKey (userId : UserId) (agentId : AgentId) (label : Option String) (keyId : KeyId)
      (token : String)
  | deleteKey (userId : UserId) (agentId : AgentId) (keyId : KeyId)
  | call (rt : Runtime) (c : Call)
  | tick (rt : Runtime) (elapsed : Option ℚ) (now : Instant) (flushFails : Bool)
  | route (env : RouteEnv) (req : RouteRequest)

/-- The key a created agent came with. -/
def firstKey (keyId : KeyId) : Except GatewayError AgentResponse → List KeyEvent
  | .ok response => (response.accessKey.map fun raw => .minted ⟨response.id, keyId, raw⟩).toList
  | .error _ => []

/-- The key a `create_access_key` call returned. -/
def mintedBy : Except GatewayError (AgentAccessKey × String) → List KeyEvent
  | .ok (key, raw) => [.minted ⟨key.agentId, key.id, raw⟩]
  | .error _ => []

/-- An event that stands for a successful answer. -/
def ifOk (answer : Except GatewayError Unit) (e : KeyEvent) : List KeyEvent :=
  match answer with
  | .ok () => [e]
  | .error _ => []

/-- The agent a call deleted. -/
def deletedBy (rt : Runtime) (w : World) : Call → List KeyEvent
  | .delete u id => ifOk (deleteAgent rt w u id).1 (.agentDeleted id)
  | _ => []

/-- One step. -/
def ingressStep (d : Deps) (s : Settings) (σ : IngressState) : IngressStep → IngressState
  | .createAgent rt u body newId suffix keyId token =>
    let out := Router.createAgent d s rt σ.world u body newId suffix keyId token
    ⟨out.2, firstKey keyId out.1 ++ σ.history⟩
  | .createKey u id label keyId token =>
    let out := Router.createAccessKey d σ.world u id label keyId token
    ⟨out.2, mintedBy out.1 ++ σ.history⟩
  | .deleteKey u id keyId =>
    let out := Router.deleteAccessKey σ.world u id keyId
    ⟨out.2, ifOk out.1 (.keyDeleted keyId) ++ σ.history⟩
  | .call rt c => ⟨c.exec d rt σ.world, deletedBy rt σ.world c ++ σ.history⟩
  | .tick rt elapsed now flushFails => ⟨(tick d s rt elapsed now flushFails σ.world).2, σ.history⟩
  | .route env req => ⟨(Gateway.route d s env σ.world req).2, σ.history⟩

/-! ## The invariant -/

/-- The key table is the live part of the history; slugs are unique and owners exist. -/
structure KeyInv (d : Deps) (w : World) (h : List KeyEvent) : Prop where
  stored : ∀ k ∈ w.db.accessKeys.rows, ∃ m, Live m h ∧ m.agentId = k.agentId ∧ m.keyId = k.id ∧
    k.keyHash = d.sha256 m.rawKey
  live : ∀ m, Live m h → accessKeyStart.toList.isPrefixOf m.rawKey.toList = true ∧
    ∃ k ∈ w.db.accessKeys.rows, k.agentId = m.agentId ∧ k.id = m.keyId ∧
      k.keyHash = d.sha256 m.rawKey
  slugs : ∀ a ∈ w.db.agents.rows, ∀ b ∈ w.db.agents.rows, a.slug = b.slug → a.id = b.id
  owners : ∀ a ∈ w.db.agents.rows, ∃ owner, w.db.users.find? a.userId = some owner

namespace KeyInv

variable {d : Deps} {w w' : World} {h : List KeyEvent} {old new : Agent} {cs : List Container}

/-- Only the tables matter. -/
theorem of_eq (hinv : KeyInv d w h) (hkeys : w'.db.accessKeys = w.db.accessKeys)
    (hagents : w'.db.agents = w.db.agents) (husers : w'.db.users = w.db.users) :
    KeyInv d w' h where
  stored := by
    rw [hkeys]
    exact hinv.stored
  live := by
    rw [hkeys]
    exact hinv.live
  slugs := by
    rw [hagents]
    exact hinv.slugs
  owners := by
    rw [hagents, husers]
    exact hinv.owners

/-- A rewritten row keeps its slug and its owner. -/
theorem rewrites (hinv : KeyInv d w h) (hrw : Rewrites w w' old new cs) : KeyInv d w' h := by
  have hold := Table.mem_of_find? hrw.found
  -- Every row after stands for one before, with the same id, slug and owner.
  have hback : ∀ a ∈ w'.db.agents.rows, ∃ b ∈ w.db.agents.rows, b.id = a.id ∧ b.slug = a.slug ∧
      b.userId = a.userId := by
    intro a ha
    rcases hrw.mem_rows ha with rfl | ⟨ha, -⟩
    · exact ⟨old, hold, hrw.id.symm, hrw.slug.symm, hrw.owner.symm⟩
    · exact ⟨a, ha, rfl, rfl, rfl⟩
  exact
    { stored := by
        rw [hrw.accessKeys]
        exact hinv.stored
      live := by
        rw [hrw.accessKeys]
        exact hinv.live
      slugs := by
        intro a ha b hb hab
        obtain ⟨a', ha', hida, hsluga, -⟩ := hback a ha
        obtain ⟨b', hb', hidb, hslugb, -⟩ := hback b hb
        rw [← hida, ← hidb]
        exact hinv.slugs a' ha' b' hb' (by rw [hsluga, hslugb, hab])
      owners := by
        intro a ha
        obtain ⟨b, hb, -, -, huser⟩ := hback a ha
        rw [hrw.users, ← huser]
        exact hinv.owners b hb }

/-- An inserted row has a new slug; its owner was found by the quota check. -/
theorem inserted (hinv : KeyInv d w h) (hins : Inserts w w' new)
    (howner : ∃ owner, w.db.users.find? new.userId = some owner) : KeyInv d w' h where
  stored := by
    rw [hins.accessKeys]
    exact hinv.stored
  live := by
    rw [hins.accessKeys]
    exact hinv.live
  slugs := by
    intro a ha b hb hab
    rcases hins.mem_rows ha with rfl | ⟨ha, -⟩
    · rcases hins.mem_rows hb with rfl | ⟨hb, -⟩
      · rfl
      · exact absurd hab.symm (hins.slug b hb)
    · rcases hins.mem_rows hb with rfl | ⟨hb, -⟩
      · exact absurd hab (hins.slug a ha)
      · exact hinv.slugs a ha b hb hab
  owners := by
    rw [hins.users]
    exact hins.forall_rows hinv.owners howner

/-- The keys go with their agent. -/
theorem removed {left : List Container} (hinv : KeyInv d w h) (hrm : Removes w w' old left) :
    KeyInv d w' (.agentDeleted old.id :: h) where
  stored := by
    intro k hk
    rw [hrm.accessKeys] at hk
    obtain ⟨hk, hne⟩ := List.mem_filter.mp hk
    obtain ⟨m, hlive, hid, hrest⟩ := hinv.stored k hk
    exact ⟨m, ⟨by rw [hid]; simpa using hne, hlive⟩, hid, hrest⟩
  live := by
    rintro m ⟨hne, hlive⟩
    obtain ⟨hform, k, hk, hid, hrest⟩ := hinv.live m hlive
    refine ⟨hform, k, ?_, hid, hrest⟩
    rw [hrm.accessKeys]
    exact List.mem_filter.mpr ⟨hk, by rw [hid]; simpa using hne⟩
  slugs := by
    intro a ha b hb hab
    rw [hrm.agents] at ha hb
    exact hinv.slugs a (Table.mem_erase.mp ha).1 b (Table.mem_erase.mp hb).1 hab
  owners := by
    rw [hrm.users]
    exact hrm.forall_rows hinv.owners

/-- A returned key is stored. -/
theorem minted (hinv : KeyInv d w h) {agentId : AgentId} {label token : String} {keyId : KeyId}
    (hnew : CreatedKey w w' (newAccessKey d agentId label keyId token).1) :
    KeyInv d w' (.minted ⟨agentId, keyId, (newAccessKey d agentId label keyId token).2⟩ :: h) where
  stored := by
    intro k hk
    rw [hnew.keys] at hk
    rcases List.mem_append.mp hk with hk | hk
    · obtain ⟨m, hlive, hrest⟩ := hinv.stored k hk
      exact ⟨m, Or.inr hlive, hrest⟩
    · obtain rfl := List.mem_singleton.mp hk
      exact ⟨_, Or.inl rfl, rfl, rfl, rfl⟩
  live := by
    rintro m (rfl | hlive)
    · refine ⟨newAccessKey_form d agentId label keyId token,
        (newAccessKey d agentId label keyId token).1, ?_, rfl, rfl, rfl⟩
      rw [hnew.keys]
      exact List.mem_append_right _ List.mem_cons_self
    · obtain ⟨hform, k, hk, hrest⟩ := hinv.live m hlive
      refine ⟨hform, k, ?_, hrest⟩
      rw [hnew.keys]
      exact List.mem_append_left _ hk
  slugs := by
    rw [hnew.agents]
    exact hinv.slugs
  owners := by
    rw [hnew.agents, hnew.users]
    exact hinv.owners

/-- A deleted key is gone. -/
theorem deleted (hinv : KeyInv d w h) {keyId : KeyId} (hdel : DeletedKey w w' keyId) :
    KeyInv d w' (.keyDeleted keyId :: h) where
  stored := by
    intro k hk
    rw [hdel.keys] at hk
    obtain ⟨hk, hne⟩ := Table.mem_erase.mp hk
    obtain ⟨m, hlive, hagent, hid, hhash⟩ := hinv.stored k hk
    exact ⟨m, ⟨hid ▸ hne, hlive⟩, hagent, hid, hhash⟩
  live := by
    rintro m ⟨hne, hlive⟩
    obtain ⟨hform, k, hk, hagent, hid, hhash⟩ := hinv.live m hlive
    refine ⟨hform, k, ?_, hagent, hid, hhash⟩
    rw [hdel.keys]
    exact Table.mem_erase.mpr ⟨hk, by rw [hid]; exact hne⟩
  slugs := by
    rw [hdel.agents]
    exact hinv.slugs
  owners := by
    rw [hdel.agents, hdel.users]
    exact hinv.owners

end KeyInv

/-! ## One step -/

/-- The quota check of a creation finds the owner. -/
theorem owner_of_createQuota {d : Deps} {db : Db} {u : UserId} {body : AgentConfigIn}
    (hq : createQuota d db u body = .ok ()) : ∃ owner, db.users.find? u = some owner := by
  unfold createQuota at hq
  cases hu : db.users.find? u with
  | some owner => exact ⟨owner, rfl⟩
  | none =>
    have hcan : ensureCanCreateAgent d db u = .error invalidToken := by
      unfold ensureCanCreateAgent
      rw [hu]
    rw [hcan] at hq
    exact absurd hq (by simp)

/-- A call of the service, with the deletion it may report. -/
theorem KeyInv.call {d : Deps} {w : World} {h : List KeyEvent} (hinv : KeyInv d w h)
    (rt : Runtime) (c : Call) : KeyInv d (c.exec d rt w) (deletedBy rt w c ++ h) := by
  cases c with
  | delete u id =>
    show KeyInv d (deleteAgent rt w u id).2
      (ifOk (deleteAgent rt w u id).1 (.agentDeleted id) ++ h)
    rcases deleteAgent_cases rt w u id with
      ⟨e, he⟩ | ⟨old, left, ho, ⟨e, -, he, hrw⟩ | ⟨-, hok, hrm⟩⟩
    · rw [he]
      exact hinv
    · rw [he]
      exact hinv.rewrites hrw
    · rw [hok]
      obtain ⟨-, -, rfl⟩ := Db.ownedAgent?_eq_some ho
      exact hinv.removed hrm
  | create u body newId suffix =>
    show KeyInv d _ h
    have heffect := Call.exec_effect d rt w (.create u body newId suffix)
    generalize (Call.create u body newId suffix).exec d rt w = w' at heffect
    cases heffect with
    | refused => exact hinv
    | created hq hins =>
      exact hinv.inserted hins (by rw [newAgent_userId]; exact owner_of_createQuota hq)
    | createdDeployed hdep hq hins hq₁ heff hrw =>
      exact (hinv.inserted hins (by
        rw [newAgent_userId]
        exact owner_of_createQuota hq)).rewrites hrw
  | update u id body =>
    show KeyInv d _ h
    rcases updateAgent_cases w u id body with hw | ⟨old, access, rpm, -, hrw⟩
    · exact hinv.of_eq (by rw [Call.exec, hw]) (by rw [Call.exec, hw]) (by rw [Call.exec, hw])
    · exact hinv.rewrites hrw
  | deploy u id config =>
    show KeyInv d _ h
    have heffect := Call.exec_effect d rt w (.deploy u id config)
    generalize (Call.deploy u id config).exec d rt w = w' at heffect
    cases heffect with
    | refused => exact hinv
    | deployed _ _ _ hrw => exact hinv.rewrites hrw
  | scale u id body =>
    show KeyInv d _ h
    have heffect := Call.exec_effect d rt w (.scale u id body)
    generalize (Call.scale u id body).exec d rt w = w' at heffect
    cases heffect with
    | refused => exact hinv
    | scaled _ _ _ hrw => exact hinv.rewrites hrw

theorem toAgentResponse_key {s : Settings} {a : Agent} {r : AgentResponse}
    (hr : toAgentResponse s a = .ok r) : r.id = a.id ∧ r.accessKey = none := by
  unfold toAgentResponse at hr
  simp only at hr
  split at hr
  · split at hr
    · obtain rfl := Except.ok.inj hr
      exact ⟨rfl, rfl⟩
    · exact absurd hr (by simp)
  · obtain rfl := Except.ok.inj hr
    exact ⟨rfl, rfl⟩

/-- Creating through the router: what the service does, then at most the first key. -/
theorem KeyInv.createAgent {d : Deps} {s : Settings} {w : World} {h : List KeyEvent}
    (hinv : KeyInv d w h) (rt : Runtime) (u : UserId) (body : AgentConfigIn) (newId : AgentId)
    (suffix : List Char) (keyId : KeyId) (token : String) :
    KeyInv d (Router.createAgent d s rt w u body newId suffix keyId token).2
      (firstKey keyId (Router.createAgent d s rt w u body newId suffix keyId token).1 ++ h) := by
  have hservice : KeyInv d (Gateway.createAgent d rt w u body newId suffix).2 h :=
    hinv.call rt (.create u body newId suffix)
  cases hout : Gateway.createAgent d rt w u body newId suffix with
  | mk res w₁ =>
    rw [hout] at hservice
    cases res with
    | error e =>
      rw [Router.createAgent_of_error hout]
      exact hservice
    | ok agent =>
      rw [Router.createAgent_of_ok hout]
      cases hresp : toAgentResponse s agent with
      | error es => exact hservice
      | ok response =>
        obtain ⟨hid, hkey⟩ := toAgentResponse_key hresp
        simp only
        split_ifs
        · rcases createAccessKey_cases d w₁ agent.id "default" keyId token with
            ⟨e, he⟩ | ⟨w₂, hok, hnew⟩
          · rw [he]
            exact hservice
          · rw [hok]
            simp only [Except.map, firstKey, hid, Option.map_some, Option.toList_some,
              List.singleton_append]
            exact hservice.minted hnew
        · simp only [firstKey, hkey, Option.map_none, Option.toList_none, List.nil_append]
          exact hservice

/-- **One step.** -/
theorem KeyInv.step {d : Deps} {s : Settings} (σ : IngressState) (i : IngressStep)
    (hinv : KeyInv d σ.world σ.history) :
    KeyInv d (ingressStep d s σ i).world (ingressStep d s σ i).history := by
  cases i with
  | createAgent rt u body newId suffix keyId token =>
    exact hinv.createAgent rt u body newId suffix keyId token
  | createKey u id label keyId token =>
    show KeyInv d (Router.createAccessKey d σ.world u id label keyId token).2
      (mintedBy (Router.createAccessKey d σ.world u id label keyId token).1 ++ σ.history)
    unfold Router.createAccessKey
    cases σ.world.db.ownedAgent? u id with
    | none => exact hinv
    | some agent =>
      simp only
      rcases createAccessKey_cases d σ.world agent.id (label.getD "default") keyId token with
        ⟨e, he⟩ | ⟨w', hok, hnew⟩
      · rw [he]
        exact hinv
      · rw [hok]
        exact hinv.minted hnew
  | deleteKey u id keyId =>
    show KeyInv d (Router.deleteAccessKey σ.world u id keyId).2
      (ifOk (Router.deleteAccessKey σ.world u id keyId).1 (.keyDeleted keyId) ++ σ.history)
    unfold Router.deleteAccessKey
    cases σ.world.db.ownedAgent? u id with
    | none => exact hinv
    | some agent =>
      simp only
      rcases deleteAccessKey_cases σ.world agent.id keyId with
        ⟨e, he⟩ | ⟨key, w', -, -, hok, hdel⟩
      · rw [he]
        exact hinv
      · rw [hok]
        exact hinv.deleted hdel
  | call rt c => exact hinv.call rt c
  | tick rt elapsed now flushFails =>
    show KeyInv d (tick d s rt elapsed now flushFails σ.world).2 σ.history
    refine tick_inv (P := fun w => KeyInv d w σ.history) (fun h => ?_)
      (fun w₁ w₂ old new cs _ h _ _ hrw => h.rewrites hrw) hinv
    exact h.of_eq (by unfold flushRequests; split_ifs <;> rfl) (flushRequests_agents _ _)
      (flushRequests_users _ _)
  | route env req =>
    have hdb := (route_frame d s env σ.world req).1
    exact hinv.of_eq (by rw [ingressStep, hdb]) (by rw [ingressStep, hdb])
      (by rw [ingressStep, hdb])

/-! ## Runs -/

/-- The lookup of `route` finds a stored agent by its slug. -/
theorem KeyInv.agentAndOwner_of_slug {d : Deps} {s : Settings} {w : World} {h : List KeyEvent}
    (hinv : KeyInv d w h) {agent : Agent} (hmem : agent ∈ w.db.agents.rows) {host : String}
    (hhost : slugFromHost d s host = some agent.slug) :
    ∃ owner, w.db.users.find? agent.userId = some owner ∧
      agentAndOwner d s w.db host = some (agent, owner) := by
  obtain ⟨owner, howner⟩ := hinv.owners agent hmem
  refine ⟨owner, howner, ?_⟩
  have hfind : (w.db.agents.rows.find? fun a => a.slug = agent.slug) = some agent :=
    find?_slug hmem fun a ha hslug =>
      w.db.agents.eq_of_key_eq ha hmem (hinv.slugs a ha agent hmem hslug)
  unfold agentAndOwner
  rw [hhost, Option.bind_some, hfind, Option.bind_some, howner, Option.map_some]

/-- An address of a container is the address of one of the agent's containers. -/
theorem mem_upstreams {cs : List Container} {ip : String} :
    ip ∈ upstreams cs ↔ ∃ c ∈ cs, c.ipAddress = some ip ∧ ip ≠ "" := by
  unfold upstreams
  rw [List.mem_filterMap]
  constructor
  · rintro ⟨c, hc, hip⟩
    obtain ⟨haddr, hne⟩ := Option.filter_eq_some_iff.mp hip
    exact ⟨c, hc, haddr, by simpa using hne⟩
  · rintro ⟨c, hc, haddr, hne⟩
    exact ⟨c, hc, Option.filter_eq_some_iff.mpr ⟨haddr, by simpa using hne⟩⟩

/-- The state after a run from a gateway without agents and keys. -/
def ingressRun (d : Deps) (s : Settings) (w : World) (steps : List IngressStep) : IngressState :=
  run (ingressStep d s) { world := w } steps

theorem keyInv_run (d : Deps) (s : Settings) {w : World} (hagents : w.db.agents.rows = [])
    (hkeys : w.db.accessKeys.rows = []) (steps : List IngressStep) :
    KeyInv d (ingressRun d s w steps).world (ingressRun d s w steps).history := by
  have hstart : KeyInv d w [] :=
    { stored := fun k hk => absurd (hkeys ▸ hk) List.not_mem_nil
      live := fun m hm => absurd hm id
      slugs := fun a ha => absurd (hagents ▸ ha) List.not_mem_nil
      owners := fun a ha => absurd (hagents ▸ ha) List.not_mem_nil }
  exact run_preserves (P := fun σ : IngressState => KeyInv d σ.world σ.history) KeyInv.step steps
    hstart

/-- **A private agent answers to its own live keys and to nothing else.** In every state a run
reaches, and for every request to a stored private agent: a 204 means that the bearer token is a
live key of that agent; and with a live key, a valid internal token, neither allowance used up and
a container with an address, the answer is a 204 that names one of the agent's own containers. -/
theorem private_routed_iff (d : Deps) (s : Settings) (w : World)
    (hagents : w.db.agents.rows = []) (hkeys : w.db.accessKeys.rows = [])
    (steps : List IngressStep) (env : RouteEnv) (req : RouteRequest) (agent : Agent)
    (hmem : agent ∈ (ingressRun d s w steps).world.db.agents.rows)
    (hhost : slugFromHost d s req.host = some agent.slug) (hpriv : agent.access = .priv)
    (hsha : Set.InjOn d.sha256 (insert (bearerToken d req.authorization)
      (mintedKeys (ingressRun d s w steps).history))) :
    ((route d s env (ingressRun d s w steps).world req).1.status = 204 →
      ∃ m, Live m (ingressRun d s w steps).history ∧ m.agentId = agent.id ∧
        m.rawKey = bearerToken d req.authorization) ∧
    ((∃ m, Live m (ingressRun d s w steps).history ∧ m.agentId = agent.id ∧
        m.rawKey = bearerToken d req.authorization) →
      ValidInternalToken s req →
      (ingressRun d s w steps).world.perClient.countAt env.clientAt (clientKey agent req) <
        clientLimit s agent →
      (∀ owner, (ingressRun d s w steps).world.db.users.find? agent.userId = some owner →
        isExempt d owner = false →
        (ingressRun d s w steps).world.perAgent.countAt env.agentAt agent.id <
          (limitsFor owner.plan).maxAgentRpm) →
      (∃ c ∈ (ingressRun d s w steps).world.containers agent.id, ∃ ip, c.ipAddress = some ip ∧
        ip ≠ "") →
      ∃ c ∈ (ingressRun d s w steps).world.containers agent.id, ∃ ip, c.ipAddress = some ip ∧
        (route d s env (ingressRun d s w steps).world req).1 = routed ip agent) := by
  have hinv := keyInv_run d s hagents hkeys steps
  generalize ingressRun d s w steps = σ at hinv hmem hsha ⊢
  obtain ⟨owner, howner, hfound⟩ := hinv.agentAndOwner_of_slug hmem hhost
  constructor
  · intro h204
    obtain ⟨agent', owner', hadm⟩ := admits_of_routed h204
    obtain ⟨rfl, rfl⟩ : agent' = agent ∧ owner' = owner := by
      simpa using hadm.found.symm.trans hfound
    obtain ⟨-, k, hk, hagent, hhash⟩ := isValidAccessKey_iff.mp (hadm.key hpriv)
    obtain ⟨m, hlive, hmagent, -, hmhash⟩ := hinv.stored k hk
    refine ⟨m, hlive, hmagent.trans hagent, ?_⟩
    refine hsha (Or.inr ⟨m, hlive.minted_mem, rfl⟩) (Or.inl rfl) ?_
    rw [← hmhash, hhash]
  · rintro ⟨m, hlive, hagent, hraw⟩ htoken hclient hplan ⟨c, hc, ip, hip, hne⟩
    obtain ⟨hform, k, hk, hkagent, -, hkhash⟩ := hinv.live m hlive
    have hadm : Admits d s env σ.world req agent owner :=
      { token := checkToken_of_valid htoken
        found := hfound
        client := hclient
        key := fun _ => isValidAccessKey_iff.mpr
          ⟨hraw ▸ hform, k, hk, hkagent.trans hagent, hraw ▸ hkhash⟩
        plan := hplan owner howner
        address := List.ne_nil_of_mem (mem_upstreams.mpr ⟨c, hc, hip, hne⟩) }
    obtain ⟨target, htarget, hres⟩ := route_of_admits hadm
    obtain ⟨c', hc', hip', -⟩ := mem_upstreams.mp htarget
    exact ⟨c', hc', target, hip', hres⟩

/-! ## A key at work -/

/-- A raw key, and the imported functions with its SHA-256 digest. -/
def sampleToken : String := "q7Jx2mVb0Rk9TzLw4YcNf1HsEu8PdGa3XiOv6BtCe5A"

def sampleKey : String := accessKeyStart ++ sampleToken

def keyedDeps : Deps :=
  { Deps.transparent with
    sha256 := fun x =>
      if x = sampleKey then "6daa48e547c69b39a7e0e5ab141fae88c24f9096f573a7717d79e21cd33f561e"
      else x }

/-- Create a private agent with one replica; the answer carries its first key. -/
def createPrivate : IngressStep :=
  .createAgent .obliging freeUser.id { name := "a", deploy := some oneReplica }
    "a" "x1y2z3".toList 7 sampleToken

/-- A visitor who presents that key. -/
def sampleVisit : RouteRequest where
  host := "a-x1y2z3.run.example.com"
  internalToken := "edge-secret"
  clientIp := "203.0.113.9"
  authorization := "Bearer " ++ sampleKey

/-- The key returned at creation opens the agent, and it is the reason the agent answers. -/
theorem private_routed_with_first_key :
    ∃ agent ∈ (ingressRun keyedDeps edgeSettings freeWorld [createPrivate]).world.db.agents.rows,
      (∃ c ∈
          (ingressRun keyedDeps edgeSettings freeWorld [createPrivate]).world.containers agent.id,
        ∃ ip, c.ipAddress = some ip ∧
          (route keyedDeps edgeSettings {}
            (ingressRun keyedDeps edgeSettings freeWorld [createPrivate]).world sampleVisit).1 =
              routed ip agent) ∧
      ∃ m, Live m (ingressRun keyedDeps edgeSettings freeWorld [createPrivate]).history ∧
        m.agentId = agent.id ∧ m.rawKey = bearerToken keyedDeps sampleVisit.authorization := by
  have hhist : (ingressRun keyedDeps edgeSettings freeWorld [createPrivate]).history =
      [.minted ⟨"a", 7, sampleKey⟩] := by decide +kernel
  have hbearer : bearerToken keyedDeps sampleVisit.authorization = sampleKey := by decide +kernel
  have hrow : ∃ agent ∈
      (ingressRun keyedDeps edgeSettings freeWorld [createPrivate]).world.db.agents.rows,
      agent.id = "a" ∧ slugFromHost keyedDeps edgeSettings sampleVisit.host = some agent.slug ∧
        agent.access = .priv ∧
        (ingressRun keyedDeps edgeSettings freeWorld [createPrivate]).world.perClient.countAt 0
          (clientKey agent sampleVisit) < clientLimit edgeSettings agent ∧
        (ingressRun keyedDeps edgeSettings freeWorld [createPrivate]).world.perAgent.countAt 0
          agent.id < 300 ∧
        (∀ owner ∈ (ingressRun keyedDeps edgeSettings freeWorld
          [createPrivate]).world.db.users.find? agent.userId,
          (limitsFor owner.plan).maxAgentRpm = 300) ∧
        upstreams ((ingressRun keyedDeps edgeSettings freeWorld [createPrivate]).world.containers
          agent.id) ≠ [] := by decide +kernel
  obtain ⟨agent, hmem, hid, hhost, hpriv, hclient, hplan, hlimit, haddr⟩ := hrow
  have hsha : Set.InjOn keyedDeps.sha256 (insert (bearerToken keyedDeps sampleVisit.authorization)
      (mintedKeys (ingressRun keyedDeps edgeSettings freeWorld [createPrivate]).history)) := by
    have hall : ∀ x ∈ insert (bearerToken keyedDeps sampleVisit.authorization)
        (mintedKeys (ingressRun keyedDeps edgeSettings freeWorld [createPrivate]).history),
        x = sampleKey := by
      rintro x (rfl | ⟨m, hm, rfl⟩)
      · exact hbearer
      · rw [hhist] at hm
        obtain rfl : m = ⟨"a", 7, sampleKey⟩ := by simpa using hm
        rfl
    intro x hx y hy _
    rw [hall x hx, hall y hy]
  have hlive : ∃ m, Live m (ingressRun keyedDeps edgeSettings freeWorld [createPrivate]).history ∧
      m.agentId = agent.id ∧ m.rawKey = bearerToken keyedDeps sampleVisit.authorization := by
    rw [hhist, hid, hbearer]
    exact ⟨⟨"a", 7, sampleKey⟩, Or.inl rfl, rfl, rfl⟩
  obtain ⟨honly, hopens⟩ := private_routed_iff keyedDeps edgeSettings freeWorld rfl rfl
    [createPrivate] {} sampleVisit agent hmem hhost hpriv hsha
  obtain ⟨ip, hip⟩ := List.exists_mem_of_ne_nil _ haddr
  obtain ⟨c, hc, haddress, hne⟩ := mem_upstreams.mp hip
  have hrouted := hopens hlive ⟨"edge-secret", rfl, by decide, by decide +kernel⟩ hclient
    (fun owner ho _ => by rw [hlimit owner ho]; exact hplan) ⟨c, hc, ip, haddress, hne⟩
  refine ⟨agent, hmem, hrouted, honly ?_⟩
  obtain ⟨_, _, _, _, hres⟩ := hrouted
  rw [hres]
  rfl

end Gateway
