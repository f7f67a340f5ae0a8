import Gateway.Agents.Service

/-!
# Access keys of private agents (`services/access_key_service.py`, `routers/agents.py`)

A key belongs to one agent; only its hash is stored, and the hash column is unique. The routers
check who owns the agent before they touch its keys, and creating a private agent mints its first
key. The random part of a key and the id of its row are arguments.

`CreatedKey` and `DeletedKey` say what the two writers do to the key table.
-/

namespace Gateway

open Lib

/-- `KEY_PREFIX`. -/
def accessKeyStart : String := "agk_"

/-- The row `create_access_key` adds, and the raw key it returns. -/
def newAccessKey (d : Deps) (agentId : AgentId) (label : String) (keyId : KeyId)
    (token : String) : AgentAccessKey × String :=
  let rawKey := accessKeyStart ++ token
  ({ id := keyId
     agentId := agentId
     label := label
     keyPrefix := String.ofList (rawKey.toList.take 12)
     keyHash := d.sha256 rawKey }, rawKey)

/-- Insert a row of `agent_access_keys`: the agent exists, the primary key and the hash are free. -/
def insertAccessKey? (w : World) (key : AgentAccessKey) : Option World :=
  if (w.db.agents.find? key.agentId).isNone ∨
      key.keyHash ∈ w.db.accessKeys.rows.map (·.keyHash) then
    none
  else (w.db.accessKeys.insert? key).map fun t => { w with db := { w.db with accessKeys := t } }

/-- `create_access_key`: the stored key and the raw key, which is never stored. -/
def createAccessKey (d : Deps) (w : World) (agentId : AgentId) (label : String) (keyId : KeyId)
    (token : String) : Except GatewayError (AgentAccessKey × String) × World :=
  let key := newAccessKey d agentId label keyId token
  match insertAccessKey? w key.1 with
  | none => (.error .integrity, w)
  | some w => (.ok key, w)

/-- `delete_access_key`. -/
def deleteAccessKey (w : World) (agentId : AgentId) (keyId : KeyId) :
    Except GatewayError Unit × World :=
  match w.db.accessKeys.find? keyId with
  | none => (.error (.accessKeyNotFound keyId), w)
  | some key =>
    if key.agentId ≠ agentId then (.error (.accessKeyNotFound keyId), w)
    else (.ok (), { w with db := { w.db with accessKeys := w.db.accessKeys.erase keyId } })

/-- `is_valid_access_key`. -/
def isValidAccessKey (d : Deps) (db : Db) (agentId : AgentId) (rawKey : String) : Bool :=
  if accessKeyStart.toList.isPrefixOf rawKey.toList then
    db.accessKeys.rows.any fun k => k.agentId = agentId ∧ k.keyHash = d.sha256 rawKey
  else false

/-! ## The routers -/

namespace Router

/-- `POST /v1/agents`: a private agent comes with its first key, unless the response cannot be
built. -/
def createAgent (d : Deps) (s : Settings) (rt : Runtime) (w : World) (userId : UserId)
    (body : AgentConfigIn) (newId : AgentId) (suffix : List Char) (keyId : KeyId)
    (token : String) : Except GatewayError AgentResponse × World :=
  match Gateway.createAgent d rt w userId body newId suffix with
  | (.error e, w) => (.error e, w)
  | (.ok agent, w) =>
    match toAgentResponse s agent with
    | .error es => (.error (.validation es), w)
    | .ok response =>
      if agent.access = .priv then
        match Gateway.createAccessKey d w agent.id "default" keyId token with
        | (.error e, w) => (.error e, w)
        | (.ok key, w) => (.ok { response with accessKey := some key.2 }, w)
      else (.ok response, w)

/-- `POST /v1/agents/{agent_id}/access-keys`. -/
def createAccessKey (d : Deps) (w : World) (userId : UserId) (agentId : AgentId)
    (label : Option String) (keyId : KeyId) (token : String) :
    Except GatewayError (AgentAccessKey × String) × World :=
  match w.db.ownedAgent? userId agentId with
  | none => (.error (.agentNotFound agentId), w)
  | some agent => Gateway.createAccessKey d w agent.id (label.getD "default") keyId token

/-- `DELETE /v1/agents/{agent_id}/access-keys/{key_id}`. -/
def deleteAccessKey (w : World) (userId : UserId) (agentId : AgentId) (keyId : KeyId) :
    Except GatewayError Unit × World :=
  match w.db.ownedAgent? userId agentId with
  | none => (.error (.agentNotFound agentId), w)
  | some agent => Gateway.deleteAccessKey w agent.id keyId

section CreateAgent

variable {d : Deps} {rt : Runtime} {w w' : World} {userId : UserId} {body : AgentConfigIn}
  {newId : AgentId} {suffix : List Char}

theorem createAgent_of_error {e : GatewayError}
    (h : Gateway.createAgent d rt w userId body newId suffix = (.error e, w')) (s : Settings)
    (keyId : KeyId) (token : String) :
    createAgent d s rt w userId body newId suffix keyId token = (.error e, w') := by
  unfold createAgent
  rw [h]

/-- What the router adds to the agent the service made: its response and, if it is private, its
first key. -/
theorem createAgent_of_ok {agent : Agent}
    (h : Gateway.createAgent d rt w userId body newId suffix = (.ok agent, w')) (s : Settings)
    (keyId : KeyId) (token : String) :
    createAgent d s rt w userId body newId suffix keyId token =
      match toAgentResponse s agent with
      | .error es => (.error (.validation es), w')
      | .ok response =>
        if agent.access = .priv then
          let key := Gateway.createAccessKey d w' agent.id "default" keyId token
          (key.1.map fun k => { response with accessKey := some k.2 }, key.2)
        else (.ok response, w') := by
  unfold createAgent
  rw [h]
  simp only
  cases toAgentResponse s agent with
  | error es => rfl
  | ok response =>
    simp only
    split_ifs
    · rcases Gateway.createAccessKey d w' agent.id "default" keyId token with ⟨_ | key, w''⟩ <;> rfl
    · rfl

end CreateAgent

end Router

/-! ## What the writers do -/

/-- The world after a key was stored. -/
structure CreatedKey (w w' : World) (key : AgentAccessKey) : Prop where
  keys : w'.db.accessKeys.rows = w.db.accessKeys.rows ++ [key]
  agents : w'.db.agents = w.db.agents
  users : w'.db.users = w.db.users
  containers : w'.containers = w.containers

theorem createAccessKey_cases (d : Deps) (w : World) (agentId : AgentId) (label : String)
    (keyId : KeyId) (token : String) :
    (∃ e, createAccessKey d w agentId label keyId token = (.error e, w)) ∨
      ∃ w', createAccessKey d w agentId label keyId token =
          (.ok (newAccessKey d agentId label keyId token), w') ∧
        CreatedKey w w' (newAccessKey d agentId label keyId token).1 := by
  unfold createAccessKey
  simp only
  cases hins : insertAccessKey? w (newAccessKey d agentId label keyId token).1 with
  | none => exact Or.inl ⟨_, rfl⟩
  | some w' =>
    refine Or.inr ⟨w', rfl, ?_⟩
    unfold insertAccessKey? at hins
    split at hins
    · exact absurd hins (by simp)
    · obtain ⟨t, ht, rfl⟩ := Option.map_eq_some_iff.mp hins
      exact ⟨(Table.insert?_eq_some ht).1, rfl, rfl, rfl⟩

/-- The world after a key was deleted. -/
structure DeletedKey (w w' : World) (keyId : KeyId) : Prop where
  keys : w'.db.accessKeys = w.db.accessKeys.erase keyId
  agents : w'.db.agents = w.db.agents
  users : w'.db.users = w.db.users
  containers : w'.containers = w.containers

theorem deleteAccessKey_cases (w : World) (agentId : AgentId) (keyId : KeyId) :
    (∃ e, deleteAccessKey w agentId keyId = (.error e, w)) ∨
      ∃ key w', w.db.accessKeys.find? keyId = some key ∧ key.agentId = agentId ∧
        deleteAccessKey w agentId keyId = (.ok (), w') ∧ DeletedKey w w' keyId := by
  unfold deleteAccessKey
  cases hf : w.db.accessKeys.find? keyId with
  | none => exact Or.inl ⟨_, rfl⟩
  | some key =>
    simp only
    by_cases hk : key.agentId = agentId
    · rw [if_neg (not_not.mpr hk)]
      exact Or.inr ⟨key, _, rfl, hk, rfl, rfl, rfl, rfl, rfl⟩
    · rw [if_pos hk]
      exact Or.inl ⟨_, rfl⟩

/-- A key is valid for an agent exactly when it has the form of one and its hash is stored for
that agent. -/
theorem isValidAccessKey_iff {d : Deps} {db : Db} {agentId : AgentId} {rawKey : String} :
    isValidAccessKey d db agentId rawKey = true ↔
      accessKeyStart.toList.isPrefixOf rawKey.toList = true ∧
        ∃ k ∈ db.accessKeys.rows, k.agentId = agentId ∧ k.keyHash = d.sha256 rawKey := by
  unfold isValidAccessKey
  split
  · rename_i h
    simp [h]
  · rename_i h
    simp [h]

/-- A generated key has the form of one. -/
theorem newAccessKey_form (d : Deps) (agentId : AgentId) (label : String) (keyId : KeyId)
    (token : String) :
    accessKeyStart.toList.isPrefixOf
      (newAccessKey d agentId label keyId token).2.toList = true := by
  show accessKeyStart.toList.isPrefixOf (accessKeyStart ++ token).toList = true
  rw [String.toList_append]
  exact List.isPrefixOf_iff_prefix.mpr (List.prefix_append _ _)

end Gateway
