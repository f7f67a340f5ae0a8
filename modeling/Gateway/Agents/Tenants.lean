import Gateway.Agents.Api
import Gateway.Agents.Effects

/-!
# The agents of some users

`SameAgents p w w'` says that the two worlds hold the same agents, access keys and containers for
the users in `p`. Each effect of `Effects.lean` has two lemmas about it: the effect on an agent of a
user outside `p` leaves the world the same for `p` (`of_rewrites`, `of_removes`, …), and one effect
in two worlds that are the same for `p` leaves them so (`rewrites`, `removes`, …).

**`agentsHandler_frame`**: a request to `/v1/agents` leaves the agents of everybody else alone.
-/

namespace Gateway

open Lib

/-! ## The agents of some users -/

/-- The two worlds hold the same agents, keys and containers for the users in `p`. -/
structure SameAgents (p : UserId → Bool) (w w' : World) : Prop where
  agents : (w.db.agents.rows.filter fun a => p a.userId) =
    w'.db.agents.rows.filter fun a => p a.userId
  keys : ∀ a ∈ w.db.agents.rows, p a.userId → w.db.keysOf a.id = w'.db.keysOf a.id
  containers : ∀ a ∈ w.db.agents.rows, p a.userId → w.containers a.id = w'.containers a.id

namespace SameAgents

variable {p : UserId → Bool} {w w' w₁ w₂ w₁' w₂' : World} {old new : Agent}
  {cs left : List Container} {key : AgentAccessKey} {keyId : KeyId}

theorem refl (p : UserId → Bool) (w : World) : SameAgents p w w :=
  ⟨rfl, fun _ _ _ => rfl, fun _ _ _ => rfl⟩

theorem mem (h : SameAgents p w w') {a : Agent} (ha : a ∈ w.db.agents.rows) (hp : p a.userId) :
    a ∈ w'.db.agents.rows := by
  have hmem : a ∈ w.db.agents.rows.filter fun a => p a.userId := List.mem_filter.mpr ⟨ha, hp⟩
  rw [h.agents] at hmem
  exact List.mem_of_mem_filter hmem

theorem trans (h : SameAgents p w w₁) (h' : SameAgents p w₁ w') : SameAgents p w w' where
  agents := h.agents.trans h'.agents
  keys a ha hp := (h.keys a ha hp).trans (h'.keys a (h.mem ha hp) hp)
  containers a ha hp := (h.containers a ha hp).trans (h'.containers a (h.mem ha hp) hp)

/-! ### Effects on an agent of somebody else -/

theorem ne_of_false {a : Agent} (ha : p a.userId) (hold : p old.userId = false)
    (hf : w.db.agents.find? old.id = some old) (hmem : a ∈ w.db.agents.rows) : a.id ≠ old.id := by
  intro hid
  rw [w.db.agents.eq_of_key_eq hmem (Table.mem_of_find? hf) hid, hold] at ha
  exact absurd ha Bool.false_ne_true

theorem of_rewrites (h : Rewrites w w' old new cs) (hp : p old.userId = false) :
    SameAgents p w w' where
  agents := by
    rw [h.agents]
    refine (Table.filter_put_of_false (o := old) ?_ hp ?_).symm
    · show w.db.agents.find? new.id = some old
      rw [h.id]
      exact h.found
    · rw [h.owner]
      exact hp
  keys a _ _ := by
    unfold Db.keysOf
    rw [h.accessKeys]
  containers a ha hpa := (h.containers_of_ne (ne_of_false hpa hp h.found ha)).symm

theorem of_removes (hf : w.db.agents.find? old.id = some old) (h : Removes w w' old left)
    (hp : p old.userId = false) : SameAgents p w w' where
  agents := by
    rw [h.agents]
    show _ = (w.db.agents.rows.filter fun a => a.id ≠ old.id).filter fun a => p a.userId
    rw [List.filter_filter]
    refine List.filter_congr fun a ha => ?_
    cases hpa : p a.userId with
    | false => rfl
    | true => simpa using ne_of_false hpa hp hf ha
  keys a ha hpa := by
    unfold Db.keysOf
    rw [h.accessKeys]
    show _ = (w.db.accessKeys.rows.filter fun k => k.agentId ≠ old.id).filter fun k =>
      k.agentId = a.id
    rw [List.filter_filter]
    refine List.filter_congr fun k _ => ?_
    by_cases hk : k.agentId = a.id
    · simpa [hk] using ne_of_false hpa hp hf ha
    · simp [hk]
  containers a ha hpa := by rw [h.containers, if_neg (ne_of_false hpa hp hf ha)]

theorem of_inserts (h : Inserts w w' new) (hp : p new.userId = false) : SameAgents p w w' where
  agents := by
    rw [(Table.insert?_eq_some h.agents).1, List.filter_append]
    simp [hp]
  keys a _ _ := by
    unfold Db.keysOf
    rw [h.accessKeys]
  containers a _ _ := by rw [h.containers]

theorem of_createdKey (h : CreatedKey w w' key)
    (hother : ∀ a ∈ w.db.agents.rows, p a.userId → a.id ≠ key.agentId) : SameAgents p w w' where
  agents := by rw [h.agents]
  keys a ha hpa := by
    unfold Db.keysOf
    rw [h.keys, List.filter_append]
    simp [(hother a ha hpa).symm]
  containers a _ _ := by rw [h.containers]

theorem of_deletedKey (h : DeletedKey w w' keyId) (hf : w.db.accessKeys.find? keyId = some key)
    (hother : ∀ a ∈ w.db.agents.rows, p a.userId → a.id ≠ key.agentId) : SameAgents p w w' where
  agents := by rw [h.agents]
  keys a ha hpa := by
    unfold Db.keysOf
    rw [h.keys]
    show _ = (w.db.accessKeys.rows.filter fun k => k.id ≠ keyId).filter fun k => k.agentId = a.id
    rw [List.filter_filter]
    refine List.filter_congr fun k hk => ?_
    by_cases hka : k.agentId = a.id
    · have hne : k.id ≠ keyId := by
        intro hid
        have : k = key := w.db.accessKeys.eq_of_key_eq hk (Table.mem_of_find? hf)
          (hid.trans (Table.key_of_find? hf).symm)
        exact hother a ha hpa (hka.symm.trans (congrArg _ this))
      simp [hka, hne]
    · simp [hka]
  containers a _ _ := by rw [h.containers]

/-! ### The same effect in both worlds -/

theorem rewrites (h : SameAgents p w₁ w₂) (h₁ : Rewrites w₁ w₁' old new cs)
    (h₂ : Rewrites w₂ w₂' old new cs) : SameAgents p w₁' w₂' where
  agents := by
    have hput : ∀ {w w' : World}, Rewrites w w' old new cs →
        (w'.db.agents.rows.filter fun a => p a.userId) =
          (w.db.agents.rows.filter fun a => p a.userId).map fun a =>
            if a.id = new.id then new else a := by
      intro w w' hrw
      rw [hrw.agents]
      refine Table.filter_put (o := old) ?_ (by rw [hrw.owner])
      show w.db.agents.find? new.id = some old
      rw [hrw.id]
      exact hrw.found
    rw [hput h₁, hput h₂, h.agents]
  keys a ha hpa := by
    unfold Db.keysOf
    rw [h₁.accessKeys, h₂.accessKeys]
    rcases h₁.mem_rows ha with rfl | ⟨ha, -⟩
    · rw [h₁.id]
      exact h.keys old (Table.mem_of_find? h₁.found) (h₁.owner ▸ hpa)
    · exact h.keys a ha hpa
  containers a ha hpa := by
    rcases h₁.mem_rows ha with rfl | ⟨ha, hne⟩
    · rw [h₁.containers_self, h₂.containers_self]
    · rw [h₁.containers_of_ne hne, h₂.containers_of_ne hne]
      exact h.containers a ha hpa

theorem removes (h : SameAgents p w₁ w₂) (h₁ : Removes w₁ w₁' old left)
    (h₂ : Removes w₂ w₂' old left) : SameAgents p w₁' w₂' where
  agents := by
    rw [h₁.agents, h₂.agents]
    show (w₁.db.agents.rows.filter fun a => a.id ≠ old.id).filter (fun a => p a.userId) =
      (w₂.db.agents.rows.filter fun a => a.id ≠ old.id).filter fun a => p a.userId
    rw [List.filter_comm, h.agents, List.filter_comm]
  keys a ha hpa := by
    rw [h₁.agents] at ha
    have hkeys := h.keys a (Table.mem_erase.mp ha).1 hpa
    unfold Db.keysOf at hkeys ⊢
    rw [h₁.accessKeys, h₂.accessKeys]
    show (w₁.db.accessKeys.rows.filter fun k => k.agentId ≠ old.id).filter
        (fun k => k.agentId = a.id) =
      (w₂.db.accessKeys.rows.filter fun k => k.agentId ≠ old.id).filter fun k => k.agentId = a.id
    rw [List.filter_comm, hkeys, List.filter_comm]
  containers a ha hpa := by
    rw [h₁.agents] at ha
    rw [h₁.containers, h₂.containers, h.containers a (Table.mem_erase.mp ha).1 hpa]

theorem inserts (h : SameAgents p w₁ w₂) (h₁ : Inserts w₁ w₁' new) (h₂ : Inserts w₂ w₂' new)
    (hkeys : w₁.db.keysOf new.id = w₂.db.keysOf new.id)
    (hcs : w₁.containers new.id = w₂.containers new.id) : SameAgents p w₁' w₂' where
  agents := by
    rw [(Table.insert?_eq_some h₁.agents).1, (Table.insert?_eq_some h₂.agents).1,
      List.filter_append, List.filter_append, h.agents]
  keys a ha hpa := by
    unfold Db.keysOf at hkeys ⊢
    rw [h₁.accessKeys, h₂.accessKeys]
    rcases h₁.mem_rows ha with rfl | ⟨ha, -⟩
    · exact hkeys
    · exact h.keys a ha hpa
  containers a ha hpa := by
    rw [h₁.containers, h₂.containers]
    rcases h₁.mem_rows ha with rfl | ⟨ha, -⟩
    · exact hcs
    · exact h.containers a ha hpa

theorem createdKey (h : SameAgents p w₁ w₂) (h₁ : CreatedKey w₁ w₁' key)
    (h₂ : CreatedKey w₂ w₂' key) : SameAgents p w₁' w₂' where
  agents := by rw [h₁.agents, h₂.agents, h.agents]
  keys a ha hpa := by
    rw [h₁.agents] at ha
    have hkeys := h.keys a ha hpa
    unfold Db.keysOf at hkeys ⊢
    rw [h₁.keys, h₂.keys, List.filter_append, List.filter_append, hkeys]
  containers a ha hpa := by
    rw [h₁.agents] at ha
    rw [h₁.containers, h₂.containers, h.containers a ha hpa]

theorem deletedKey (h : SameAgents p w₁ w₂) (h₁ : DeletedKey w₁ w₁' keyId)
    (h₂ : DeletedKey w₂ w₂' keyId) : SameAgents p w₁' w₂' where
  agents := by rw [h₁.agents, h₂.agents, h.agents]
  keys a ha hpa := by
    rw [h₁.agents] at ha
    have hkeys := h.keys a ha hpa
    unfold Db.keysOf at hkeys ⊢
    rw [h₁.keys, h₂.keys]
    show (w₁.db.accessKeys.rows.filter fun k => k.id ≠ keyId).filter (fun k => k.agentId = a.id) =
      (w₂.db.accessKeys.rows.filter fun k => k.id ≠ keyId).filter fun k => k.agentId = a.id
    rw [List.filter_comm, hkeys, List.filter_comm]
  containers a ha hpa := by
    rw [h₁.agents] at ha
    rw [h₁.containers, h₂.containers, h.containers a ha hpa]

end SameAgents

/-! ## Requests leave other users' agents alone -/

section Frame

variable {u : UserId} {w : World}

/-- The users other than `u`. -/
def others (u : UserId) : UserId → Bool := fun v => v ≠ u

theorem others_self (u : UserId) : others u u = false := by simp [others]

theorem ne_of_others {id : AgentId} {old a : Agent} (ho : w.db.ownedAgent? u id = some old)
    (ha : a ∈ w.db.agents.rows) (hp : others u a.userId) : a.id ≠ id := by
  obtain ⟨hf, hu, rfl⟩ := Db.ownedAgent?_eq_some ho
  exact SameAgents.ne_of_false hp (by rw [hu]; exact others_self u) hf ha

/-- A rewrite of an agent of `u`. -/
theorem Rewrites.frame {w' : World} {id : AgentId} {old new : Agent} {cs : List Container}
    (h : Rewrites w w' old new cs) (ho : w.db.ownedAgent? u id = some old) :
    SameAgents (others u) w w' :=
  .of_rewrites h (by rw [(Db.ownedAgent?_eq_some ho).2.1]; exact others_self u)

theorem deployAgent_frame (d : Deps) (rt : Runtime) (w : World) (u : UserId) (id : AgentId)
    (config : Option DeployConfig) :
    SameAgents (others u) w (deployAgent d rt w u id config).2 := by
  rcases deployAgent_cases d rt w u id config with h | ⟨old, new, cs, ho, -, -, hrw⟩
  · rw [h]
    exact .refl _ w
  · exact hrw.frame ho

theorem createAgent_frame (d : Deps) (rt : Runtime) (w : World) (u : UserId)
    (body : AgentConfigIn) (newId : AgentId) (suffix : List Char) :
    SameAgents (others u) w (createAgent d rt w u body newId suffix).2 := by
  rcases createAgent_cases d rt w u body newId suffix with h | ⟨w₁, -, hins, ⟨-, h⟩ | ⟨-, h⟩⟩
  · rw [h]
    exact .refl _ w
  · rw [h]
    exact .of_inserts hins (by rw [newAgent_userId]; exact others_self u)
  · rw [h]
    exact (SameAgents.of_inserts hins (by rw [newAgent_userId]; exact others_self u)).trans
      (deployAgent_frame d rt w₁ u newId none)

/-- The row a successful creation returns is stored for its owner. -/
theorem createAgent_ok {d : Deps} {rt : Runtime} {body : AgentConfigIn} {newId : AgentId}
    {suffix : List Char} {agent : Agent} {w' : World}
    (h : createAgent d rt w u body newId suffix = (.ok agent, w')) :
    w'.db.ownedAgent? u newId = some agent ∧ agent.id = newId ∧
      w'.db.accessKeys = w.db.accessKeys := by
  unfold createAgent at h
  cases hq : createQuota d w.db u body with
  | error e =>
    rw [hq] at h
    exact absurd (congrArg Prod.fst h) (by simp)
  | ok _ =>
    rw [hq] at h
    simp only at h
    cases hi : insertAgent? w (newAgent d rt.draws u body newId suffix) with
    | none =>
      rw [hi] at h
      exact absurd (congrArg Prod.fst h) (by simp)
    | some w₁ =>
      rw [hi] at h
      have hins := insertAgent?_inserts hi
      have hown : w₁.db.ownedAgent? u newId = some (newAgent d rt.draws u body newId suffix) := by
        have hself := Table.find?_insert?_self hins.agents
        rw [newAgent_id] at hself
        unfold Db.ownedAgent?
        rw [hself]
        simp
      cases hdep : body.deploy with
      | none =>
        rw [hdep] at h
        obtain ⟨hres, rfl⟩ := Prod.mk.inj h
        obtain rfl := Except.ok.inj hres
        exact ⟨hown, newAgent_id .., hins.accessKeys⟩
      | some c =>
        rw [hdep] at h
        simp only [newAgent_id] at h
        cases hq₁ : deployQuota d w₁.db (newAgent d rt.draws u body newId suffix) none with
        | error e =>
          rw [deployAgent_overQuota hown hq₁] at h
          exact absurd (congrArg Prod.fst h) (by simp)
        | ok _ =>
          obtain ⟨hans, hrw, -⟩ := deployAgent_local rt hown hq₁
          rw [h] at hans hrw
          have hnew := deployLocal_ok hans.symm
          rw [← hnew] at hrw
          have hid : agent.id = newId := hrw.id.trans (newAgent_id ..)
          refine ⟨?_, hid, hrw.accessKeys.trans hins.accessKeys⟩
          have hstored := hrw.stored
          rw [hid] at hstored
          unfold Db.ownedAgent?
          rw [hstored]
          simp [hrw.owner]

theorem createAccessKey_frame {id : AgentId} {old : Agent} (d : Deps)
    (ho : w.db.ownedAgent? u id = some old) (label : String) (keyId : KeyId) (token : String) :
    SameAgents (others u) w (createAccessKey d w id label keyId token).2 := by
  rcases createAccessKey_cases d w id label keyId token with ⟨e, he⟩ | ⟨w', hok, hnew⟩
  · rw [he]
    exact .refl _ w
  · rw [hok]
    exact .of_createdKey hnew fun a ha hp => ne_of_others ho ha hp

theorem routerCreateAgent_frame (d : Deps) (s : Settings) (rt : Runtime) (w : World) (u : UserId)
    (body : AgentConfigIn) (draws : CreateDraws) :
    SameAgents (others u) w
      (Router.createAgent d s rt w u body draws.newId draws.suffix draws.keyId draws.token).2 := by
  have hframe := createAgent_frame d rt w u body draws.newId draws.suffix
  cases hout : createAgent d rt w u body draws.newId draws.suffix with
  | mk res w₁ =>
    rw [hout] at hframe
    cases res with
    | error e =>
      rw [Router.createAgent_of_error hout]
      exact hframe
    | ok agent =>
      obtain ⟨hown, hid, -⟩ := createAgent_ok hout
      rw [Router.createAgent_of_ok hout]
      cases toAgentResponse s agent with
      | error es => exact hframe
      | ok response =>
        simp only
        split_ifs
        · rw [hid]
          exact hframe.trans (createAccessKey_frame d hown "default" draws.keyId draws.token)
        · exact hframe

/-- **A request of `u` leaves the agents of the others alone.** -/
theorem agentsHandler_frame (d : ApiDeps) (s : Settings) (m : Surroundings) (w : World) (u : UserId)
    (req : AgentsRequest) : SameAgents (others u) w (agentsHandler d s m w u req).2 := by
  cases req with
  | create body draws => exact routerCreateAgent_frame d.toDeps s m.runtime w u body draws
  | update id body =>
    show SameAgents (others u) w (updateAgent w u id body).2
    rcases updateAgent_cases w u id body with h | ⟨old, access, rpm, ho, hrw⟩
    · rw [h]
      exact .refl _ w
    · exact hrw.frame ho
  | createAccessKey id label keyId token =>
    show SameAgents (others u) w (Router.createAccessKey d.toDeps w u id label keyId token).2
    unfold Router.createAccessKey
    cases ho : w.db.ownedAgent? u id with
    | none => exact .refl _ w
    | some old =>
      obtain ⟨-, -, rfl⟩ := Db.ownedAgent?_eq_some ho
      exact createAccessKey_frame d.toDeps ho (label.getD "default") keyId token
  | deleteAccessKey id keyId =>
    show SameAgents (others u) w (Router.deleteAccessKey w u id keyId).2
    unfold Router.deleteAccessKey
    cases ho : w.db.ownedAgent? u id with
    | none => exact .refl _ w
    | some old =>
      obtain ⟨-, -, rfl⟩ := Db.ownedAgent?_eq_some ho
      simp only
      rcases deleteAccessKey_cases w old.id keyId with ⟨e, he⟩ | ⟨key, w', hf, hkey, hok, hdel⟩
      · rw [he]
        exact .refl _ w
      · rw [hok]
        refine .of_deletedKey hdel hf fun a ha hp => ?_
        rw [hkey]
        exact ne_of_others ho ha hp
  | delete id =>
    show SameAgents (others u) w (deleteAgent m.runtime w u id).2
    rcases deleteAgent_cases m.runtime w u id with
      ⟨e, he⟩ | ⟨old, left, ho, ⟨e, -, -, hrw⟩ | ⟨-, -, hrm⟩⟩
    · rw [he]
      exact .refl _ w
    · exact hrw.frame ho
    · obtain ⟨hf, hu, rfl⟩ := Db.ownedAgent?_eq_some ho
      exact .of_removes hf hrm (by rw [hu]; exact others_self u)
  | deploy id body => exact deployAgent_frame d.toDeps m.runtime w u id (body.map Subtype.val)
  | scale id body =>
    show SameAgents (others u) w (scaleAgent d.toDeps m.runtime w u id body.direction body.count).2
    rcases scaleAgent_cases d.toDeps m.runtime w u id body.direction body.count with
      h | ⟨old, new, cs, ho, -, -, hrw⟩
    · rw [h]
      exact .refl _ w
    · exact hrw.frame ho
  | _ => exact .refl _ w

end Frame

end Gateway
