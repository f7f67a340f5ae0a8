import Gateway.Agents.Isolation
import Gateway.Agents.Masking

/-!
# Secrets do not reach the API

Two runs of the same requests that differ only in the values of secret variables and in the
`api_key`s, and possibly in the cipher. The runs are compared by their masked rows (`SameShown`),
with one lemma per operation.

* **`secrets_not_shown`**: the two runs answer alike, and in both every stored entry flagged secret
  is a ciphertext.
-/

namespace Gateway

open Lib

/-! ## Worlds -/

/-- The two worlds differ in secrets at most. -/
structure SameShown (w w' : World) : Prop where
  agents : w.db.agents.rows.map Agent.masked = w'.db.agents.rows.map Agent.masked
  users : w.db.users = w'.db.users
  accessKeys : w.db.accessKeys = w'.db.accessKeys
  containers : w.containers = w'.containers

/-- Every stored entry flagged secret is an output of `encrypt_secret`. -/
def Encrypted (d : Deps) (w : World) : Prop := ∀ a ∈ w.db.agents.rows, SecretsEncrypted d a.env

namespace SameShown

variable {w w' w₁ w₁' : World} {u : UserId} {id : AgentId} {old old' new new' : Agent}
  {cs : List Container}

/-- The agent is found in both worlds, and the rows differ in secrets at most. -/
theorem ownedAgent? (h : SameShown w w') (u : UserId) (id : AgentId) :
    w.db.ownedAgent? u id = none ∧ w'.db.ownedAgent? u id = none ∨
      ∃ a a', w.db.ownedAgent? u id = some a ∧ w'.db.ownedAgent? u id = some a' ∧
        a.masked = a'.masked := by
  have hmask : ∀ db : Db, (db.ownedAgent? u id).map Agent.masked =
      ((db.agents.rows.map Agent.masked).filter fun a => a.userId = u).find?
        fun a => a.id = id := by
    intro db
    unfold Db.ownedAgent?
    rw [Table.filter_find?, List.filter_map, List.find?_map]
    rfl
  have heq :
      (w.db.ownedAgent? u id).map Agent.masked = (w'.db.ownedAgent? u id).map Agent.masked := by
    rw [hmask, hmask, h.agents]
  cases ha : w.db.ownedAgent? u id with
  | none =>
    rw [ha] at heq
    exact Or.inl ⟨rfl, Option.map_eq_none_iff.mp heq.symm⟩
  | some a =>
    rw [ha] at heq
    obtain ⟨a', ha', hm⟩ := Option.map_eq_some_iff.mp heq.symm
    exact Or.inr ⟨a, a', rfl, ha', hm.symm⟩

/-! ### The quota checks -/

theorem currentUsage (h : SameShown w w') (d : Deps) (f : Fernet) (u : UserId)
    (exclude : Option AgentId) :
    Gateway.currentUsage d w.db u exclude =
      Gateway.currentUsage { d with fernet := f } w'.db u exclude := by
  have hactive : ∀ {β : Type} (g : Agent → β), (∀ a : Agent, g a.masked = g a) →
      (activeAgents w.db u exclude).map g = (activeAgents w'.db u exclude).map g := by
    intro β g hg
    have hmask : ∀ db : Db, (activeAgents db u exclude).map g =
        ((db.agents.rows.map Agent.masked).filter fun a =>
          a.userId = u ∧ a.status ∈ activeStatuses ∧ exclude ≠ some a.id).map g := by
      intro db
      rw [List.filter_map, List.map_map]
      refine List.map_congr_left fun a _ => (hg a).symm
    rw [hmask, hmask, h.agents]
  have hcount : (w.db.agents.rows.filter fun a => a.userId = u).length =
      (w'.db.agents.rows.filter fun a => a.userId = u).length := by
    have hmask : ∀ db : Db, (db.agents.rows.filter fun a => a.userId = u).length =
        ((db.agents.rows.map Agent.masked).filter fun a => a.userId = u).length := by
      intro db
      rw [List.filter_map, List.length_map]
      rfl
    rw [hmask, hmask, h.agents]
  unfold Gateway.currentUsage
  rw [hactive Agent.replicas fun _ => rfl, hactive (fun a => (a.replicas : ℚ) * a.cpu) fun _ => rfl,
    hactive (fun a => a.replicas * a.memoryMb) fun _ => rfl, hcount]

theorem ensureResources (h : SameShown w w') (d : Deps) (f : Fernet) (u : UserId)
    (id : Option AgentId) (n : Nat) (cpu : ℚ) (mem : Nat) :
    Gateway.ensureResources d w.db u id n cpu mem =
      Gateway.ensureResources { d with fernet := f } w'.db u id n cpu mem := by
  unfold Gateway.ensureResources
  rw [h.users, h.currentUsage d f u id]
  rfl

theorem deployQuota (h : SameShown w w') (d : Deps) (f : Fernet) {a a' : Agent}
    (ha : a.masked = a'.masked) {config config' : Option DeployConfig}
    (hc : config.map DeployConfig.masked = config'.map DeployConfig.masked) :
    Gateway.deployQuota d w.db a config =
      Gateway.deployQuota { d with fernet := f } w'.db a' config' := by
  obtain ⟨env, rfl, -⟩ := Agent.eq_of_masked ha
  unfold Gateway.deployQuota
  rw [h.ensureResources d f]
  cases config with
  | none =>
    cases config' with
    | none => rfl
    | some c' => cases hc
  | some c =>
    cases config' with
    | none => cases hc
    | some c' =>
      obtain ⟨cenv, rfl, -⟩ := DeployConfig.eq_of_masked (Option.some.inj hc)
      rfl

theorem scaleQuota (h : SameShown w w') (d : Deps) (f : Fernet) {a a' : Agent}
    (ha : a.masked = a'.masked) (direction : ScaleDirection) (count : Nat) :
    Gateway.scaleQuota d w.db a direction count =
      Gateway.scaleQuota { d with fernet := f } w'.db a' direction count := by
  obtain ⟨env, rfl, -⟩ := Agent.eq_of_masked ha
  cases direction with
  | up => exact h.ensureResources d f _ _ _ _ _
  | down => rfl

theorem createQuota (h : SameShown w w') (d : Deps) (f : Fernet) (u : UserId)
    {b b' : AgentConfigIn} (hb : b.Alike b') :
    Gateway.createQuota d w.db u b = Gateway.createQuota { d with fernet := f } w'.db u b' := by
  have hcan : ensureCanCreateAgent d w.db u =
      ensureCanCreateAgent { d with fernet := f } w'.db u := by
    unfold ensureCanCreateAgent
    rw [h.users, h.currentUsage d f u none]
    rfl
  have hdeploy := hb.deploy
  unfold Gateway.createQuota
  rw [hcan]
  cases hdep : b.deploy with
  | none =>
    rw [hdep] at hdeploy
    rw [Option.map_eq_none_iff.mp hdeploy.symm]
  | some c =>
    rw [hdep] at hdeploy
    obtain ⟨c', hdep', hc⟩ := Option.map_eq_some_iff.mp hdeploy.symm
    rw [hdep']
    obtain ⟨env, hval, -⟩ := DeployConfig.eq_of_masked hc.symm
    simp only [hval, h.ensureResources d f]

/-! ### Effects -/

theorem rewrites (h : SameShown w w') (h₁ : Rewrites w w₁ old new cs)
    (h₁' : Rewrites w' w₁' old' new' cs) (hid : old.id = old'.id)
    (hnew : new.masked = new'.masked) : SameShown w₁ w₁' where
  agents := by
    have hput : ∀ {w w₁ : World} {old new : Agent}, Rewrites w w₁ old new cs →
        w₁.db.agents.rows.map Agent.masked = (w.db.agents.rows.map Agent.masked).map fun a =>
          if a.id = new.masked.id then new.masked else a := by
      intro w w₁ old new hrw
      rw [hrw.agents, List.map_map]
      show (w.db.agents.rows.map _).map _ = _
      rw [List.map_map]
      refine List.map_congr_left fun a _ => ?_
      simp only [Function.comp]
      by_cases hk : a.id = new.id
      · rw [if_pos hk, if_pos (show a.masked.id = new.masked.id from hk)]
      · rw [if_neg hk, if_neg (show ¬a.masked.id = new.masked.id from hk)]
    rw [hput h₁, hput h₁', h.agents, hnew]
  users := by rw [h₁.users, h₁'.users, h.users]
  accessKeys := by rw [h₁.accessKeys, h₁'.accessKeys, h.accessKeys]
  containers := by
    funext i
    rw [h₁.containers, h₁'.containers, h.containers, hid]

theorem inserts (h : SameShown w w') (h₁ : Inserts w w₁ new) (h₁' : Inserts w' w₁' new')
    (hnew : new.masked = new'.masked) : SameShown w₁ w₁' where
  agents := by
    rw [(Table.insert?_eq_some h₁.agents).1, (Table.insert?_eq_some h₁'.agents).1,
      List.map_append, List.map_append, h.agents, List.map_singleton, List.map_singleton, hnew]
  users := by rw [h₁.users, h₁'.users, h.users]
  accessKeys := by rw [h₁.accessKeys, h₁'.accessKeys, h.accessKeys]
  containers := by rw [h₁.containers, h₁'.containers, h.containers]

/-! ### The operations -/

variable {d : Deps} {f : Fernet} {rt rt' : Runtime}

theorem deployAgent (h : SameShown w w') (hrt : rt.Alike rt') (henc : Encrypted d w)
    (henc' : Encrypted { d with fernet := f } w') (u : UserId) (id : AgentId)
    {config config' : Option DeployConfig}
    (hc : config.map DeployConfig.masked = config'.map DeployConfig.masked) :
    (Gateway.deployAgent d rt w u id config).1.map Agent.masked =
        (Gateway.deployAgent { d with fernet := f } rt' w' u id config').1.map Agent.masked ∧
      SameShown (Gateway.deployAgent d rt w u id config).2
        (Gateway.deployAgent { d with fernet := f } rt' w' u id config').2 := by
  rcases h.ownedAgent? u id with ⟨ho, ho'⟩ | ⟨a, a', ho, ho', hm⟩
  · rw [deployAgent_notFound ho, deployAgent_notFound ho']
    exact ⟨rfl, h⟩
  · have hquota := h.deployQuota d f hm hc
    obtain ⟨hf, -, hid⟩ := Db.ownedAgent?_eq_some ho
    obtain ⟨hf', -, hid'⟩ := Db.ownedAgent?_eq_some ho'
    cases hq : Gateway.deployQuota d w.db a config with
    | error e =>
      rw [deployAgent_overQuota ho hq, deployAgent_overQuota ho' (hquota.symm.trans hq)]
      exact ⟨rfl, h⟩
    | ok _ =>
      obtain ⟨hans, hrw, -⟩ := deployAgent_local rt ho hq
      obtain ⟨hans', hrw', -⟩ := deployAgent_local rt' ho' (hquota.symm.trans hq)
      rw [← h.containers] at hans' hrw'
      have hrow := henc a (Table.mem_of_find? hf)
      have hrow' := henc' a' (Table.mem_of_find? hf')
      obtain ⟨hres, hnew, hcs⟩ := masked_deployLocal (w.containers id) hrt hm hc
        (secretsEncrypted_deployedRow hrow rt.draws config)
        (secretsEncrypted_deployedRow hrow' rt'.draws config')
      rw [hcs] at hrw
      exact ⟨by rw [hans, hans', hres], h.rewrites hrw hrw' (hid.trans hid'.symm) hnew⟩

theorem scaleAgent (h : SameShown w w') (hrt : rt.Alike rt') (u : UserId) (id : AgentId)
    (direction : ScaleDirection) (count : Nat) :
    (Gateway.scaleAgent d rt w u id direction count).1.map (respondScaled direction) =
        (Gateway.scaleAgent { d with fernet := f } rt' w' u id direction count).1.map
          (respondScaled direction) ∧
      SameShown (Gateway.scaleAgent d rt w u id direction count).2
        (Gateway.scaleAgent { d with fernet := f } rt' w' u id direction count).2 := by
  rcases h.ownedAgent? u id with ⟨ho, ho'⟩ | ⟨a, a', ho, ho', hm⟩
  · rw [scaleAgent_notFound ho, scaleAgent_notFound ho']
    exact ⟨rfl, h⟩
  · have hquota := h.scaleQuota d f hm direction count
    obtain ⟨-, -, hid⟩ := Db.ownedAgent?_eq_some ho
    obtain ⟨-, -, hid'⟩ := Db.ownedAgent?_eq_some ho'
    cases hq : Gateway.scaleQuota d w.db a direction count with
    | error e =>
      rw [scaleAgent_overQuota ho hq, scaleAgent_overQuota ho' (hquota.symm.trans hq)]
      exact ⟨rfl, h⟩
    | ok _ =>
      obtain ⟨hans, hrw, -⟩ := scaleAgent_local rt ho hq
      obtain ⟨hans', hrw', -⟩ := scaleAgent_local rt' ho' (hquota.symm.trans hq)
      rw [← h.containers] at hans' hrw'
      obtain ⟨hres, hnew, hcs⟩ := masked_scaleLocal (w.containers id) hrt hm direction count
      rw [hcs] at hrw
      refine ⟨?_, h.rewrites hrw hrw' (hid.trans hid'.symm) hnew⟩
      have hshow : ∀ r : Except GatewayError (Agent × Nat), r.map (respondScaled direction) =
          (r.map fun out => (out.1.masked, out.2)).map (respondScaled direction) := by
        intro r
        cases r <;> rfl
      rw [hans, hans', hshow, hres, ← hshow]

theorem updateAgent (h : SameShown w w') (u : UserId) (id : AgentId) (body : AgentUpdate) :
    (Gateway.updateAgent w u id body).1.map Agent.masked =
        (Gateway.updateAgent w' u id body).1.map Agent.masked ∧
      SameShown (Gateway.updateAgent w u id body).2 (Gateway.updateAgent w' u id body).2 := by
  unfold Gateway.updateAgent
  rcases h.ownedAgent? u id with ⟨ho, ho'⟩ | ⟨a, a', ho, ho', hm⟩
  · rw [ho, ho']
    exact ⟨rfl, h⟩
  · rw [ho, ho']
    obtain ⟨hf, -, rfl⟩ := Db.ownedAgent?_eq_some ho
    obtain ⟨hf', -, -⟩ := Db.ownedAgent?_eq_some ho'
    obtain ⟨env, rfl, henv⟩ := Agent.eq_of_masked hm
    have hnew := congrArg (fun l : List EnvEntry =>
      { a with
        access := body.access.getD a.access
        rateLimitRpm := body.rateLimitRpm.getD a.rateLimitRpm
        env := l }) henv
    have hrw : Rewrites w' w' { a with env := env } { a with env := env } (w'.containers a.id) :=
      Rewrites.refl hf'
    rw [← h.containers] at hrw
    exact ⟨congrArg Except.ok hnew, h.rewrites ((Rewrites.refl hf).save _ rfl rfl rfl)
      (hrw.save _ rfl rfl rfl) rfl hnew⟩

theorem symm (h : SameShown w w') : SameShown w' w :=
  ⟨h.agents.symm, h.users.symm, h.accessKeys.symm, h.containers.symm⟩

theorem insertAgent?_some (h : SameShown w w') (hnew : new.masked = new'.masked)
    (hi : Gateway.insertAgent? w new = some w₁) :
    ∃ w₁', Gateway.insertAgent? w' new' = some w₁' := by
  have hins := insertAgent?_inserts hi
  -- A row of `w'` is, masked, a row of `w`.
  have hrow : ∀ a' ∈ w'.db.agents.rows, ∃ a ∈ w.db.agents.rows, a.masked = a'.masked := by
    intro a' ha'
    have hmem := List.mem_map_of_mem (f := Agent.masked) ha'
    rw [← h.agents] at hmem
    exact List.mem_map.mp hmem
  obtain ⟨env, rfl, -⟩ := Agent.eq_of_masked hnew
  refine insertAgent?_of_free (fun a' ha' => ?_) fun a' ha' => ?_
  · obtain ⟨a, ha, hm⟩ := hrow a' ha'
    obtain ⟨_, rfl, -⟩ := Agent.eq_of_masked hm
    exact hins.fresh a ha
  · obtain ⟨a, ha, hm⟩ := hrow a' ha'
    obtain ⟨_, rfl, -⟩ := Agent.eq_of_masked hm
    exact hins.slug a ha

theorem createAgent (h : SameShown w w') (hrt : rt.Alike rt') (henc : Encrypted d w)
    (henc' : Encrypted { d with fernet := f } w') (u : UserId) {b b' : AgentConfigIn}
    (hb : b.Alike b') (newId : AgentId) (suffix : List Char) :
    (Gateway.createAgent d rt w u b newId suffix).1.map Agent.masked =
        (Gateway.createAgent { d with fernet := f } rt' w' u b' newId suffix).1.map Agent.masked ∧
      SameShown (Gateway.createAgent d rt w u b newId suffix).2
        (Gateway.createAgent { d with fernet := f } rt' w' u b' newId suffix).2 := by
  have hnew := masked_newAgent d f hrt.now u hb newId suffix
  unfold Gateway.createAgent
  rw [← h.createQuota d f u hb]
  cases Gateway.createQuota d w.db u b with
  | error e => exact ⟨rfl, h⟩
  | ok _ =>
    simp only
    cases hi : insertAgent? w (newAgent d rt.draws u b newId suffix) with
    | none =>
      cases hi' : insertAgent? w' (newAgent { d with fernet := f } rt'.draws u b' newId suffix) with
      | none => exact ⟨rfl, h⟩
      | some w₁' =>
        obtain ⟨w₁, hw₁⟩ := h.symm.insertAgent?_some hnew.symm hi'
        rw [hi] at hw₁
        cases hw₁
    | some w₁ =>
      obtain ⟨w₁', hi'⟩ := h.insertAgent?_some hnew hi
      rw [hi']
      have hins := insertAgent?_inserts hi
      have hins' := insertAgent?_inserts hi'
      have hsame := h.inserts hins hins' hnew
      have henc₁ : Encrypted d w₁ :=
        hins.forall_rows henc (secretsEncrypted_newAgent d rt.draws u b newId suffix)
      have henc₁' : Encrypted { d with fernet := f } w₁' :=
        hins'.forall_rows henc' (secretsEncrypted_newAgent _ rt'.draws u b' newId suffix)
      have hdeploy := hb.deploy
      cases hdep : b.deploy with
      | none =>
        rw [hdep] at hdeploy
        rw [Option.map_eq_none_iff.mp hdeploy.symm]
        exact ⟨congrArg Except.ok hnew, hsame⟩
      | some c =>
        rw [hdep] at hdeploy
        obtain ⟨c', hdep', -⟩ := Option.map_eq_some_iff.mp hdeploy.symm
        rw [hdep']
        simp only [newAgent_id]
        exact hsame.deployAgent hrt henc₁ henc₁' u newId rfl

end SameShown

/-! ## Requests -/

/-- The same request up to secret values and non-empty `api_key`s. -/
inductive AgentsRequest.Alike : AgentsRequest → AgentsRequest → Prop
  | create {b b' : AgentConfigIn} (h : b.Alike b') (draws : CreateDraws) :
      Alike (.create b draws) (.create b' draws)
  | deploy (id : AgentId) {c c' : Option AcceptedConfig}
      (h : (c.map Subtype.val).map DeployConfig.masked =
        (c'.map Subtype.val).map DeployConfig.masked) :
      Alike (.deploy id c) (.deploy id c')
  | scale (id : AgentId) (body : ScaleRequest) : Alike (.scale id body) (.scale id body)
  | update (id : AgentId) (body : AgentUpdate) : Alike (.update id body) (.update id body)
  | get (id : AgentId) : Alike (.get id) (.get id)
  | list (status tag : Option String) (q : PageQuery) :
      Alike (.list status tag q) (.list status tag q)

theorem AgentsRequest.Alike.guard {req req' : AgentsRequest} (h : req.Alike req') :
    req.guard = req'.guard := by
  cases h <;> rfl

/-- A response is the same for rows that agree once masked. -/
theorem respondAgent_masked (s : Settings) {r r' : Except GatewayError Agent}
    (h : r.map Agent.masked = r'.map Agent.masked) :
    r.bind (respondAgent s) = r'.bind (respondAgent s) := by
  have hshow : ∀ a : Agent, respondAgent s a.masked = respondAgent s a := by
    intro a
    unfold respondAgent
    rw [toAgentResponse_masked]
  have hbind : ∀ r : Except GatewayError Agent,
      r.bind (respondAgent s) = (r.map Agent.masked).bind (respondAgent s) := by
    intro r
    cases r with
    | error e => rfl
    | ok a => exact (hshow a).symm
  rw [hbind, h, ← hbind]

namespace SameShown

variable {w w' : World} {d : ApiDeps} {f : Fernet} {rt rt' : Runtime}

theorem getAgent (h : SameShown w w') (u : UserId) (id : AgentId) :
    (Gateway.getAgent w.db u id).map Agent.masked =
      (Gateway.getAgent w'.db u id).map Agent.masked := by
  unfold Gateway.getAgent
  rcases h.ownedAgent? u id with ⟨ho, ho'⟩ | ⟨a, a', ho, ho', hm⟩
  · rw [ho, ho']
  · rw [ho, ho']
    exact congrArg Except.ok hm

theorem respondAgents (h : SameShown w w') (s : Settings) (ties : AgentId → Nat) (u : UserId)
    (status tag : Option String) (q : PageQuery) :
    Gateway.respondAgents s q (listAgents ties w.db u status tag q) =
      Gateway.respondAgents s q (listAgents ties w'.db u status tag q) := by
  -- The page and its total, read off the masked rows.
  have hmatching : (w.db.agentsMatching u status tag).map Agent.masked =
      (w'.db.agentsMatching u status tag).map Agent.masked := by
    have hmask : ∀ db : Db, (db.agentsMatching u status tag).map Agent.masked =
        ((db.agents.rows.map Agent.masked).filter fun a => a.userId = u).filter fun a =>
          (truthy status).all (a.status.value = ·) ∧ (truthy tag).all (· ∈ a.tags) := by
      intro db
      rw [List.filter_map, List.filter_map]
      rfl
    rw [hmask, hmask, h.agents]
  have hpage : ∀ db : Db, (selectAgents ties db u status tag q).map Agent.masked =
      ((((db.agentsMatching u status tag).map Agent.masked).insertionSort
        (ListedBefore ties)).drop ((q.page - 1) * q.pageSize)).take q.pageSize := by
    intro db
    have hsort := List.map_insertionSort (ListedBefore ties) (ListedBefore ties) Agent.masked
      (db.agentsMatching u status tag) fun _ _ _ _ => Iff.rfl
    unfold selectAgents
    rw [List.map_take, List.map_drop, hsort]
  have hcount : countAgents w.db u status tag = countAgents w'.db u status tag := by
    have hlength := congrArg List.length hmatching
    rw [List.length_map, List.length_map] at hlength
    exact hlength
  have hmapM : ∀ l : List Agent, l.mapM (toAgentResponse s) =
      (l.map Agent.masked).mapM (toAgentResponse s) := by
    intro l
    rw [List.mapM_map]
    simp only [Function.comp_def, toAgentResponse_masked]
  unfold Gateway.respondAgents listAgents
  simp only
  rw [hmapM, hmapM (selectAgents ties w'.db u status tag q), hpage, hpage, hmatching, hcount]

theorem createAccessKey (h : SameShown w w') (id : AgentId) (label : String) (keyId : KeyId)
    (token : String) :
    (Gateway.createAccessKey d.toDeps w id label keyId token).1 =
        (Gateway.createAccessKey { d.toDeps with fernet := f } w' id label keyId token).1 ∧
      SameShown (Gateway.createAccessKey d.toDeps w id label keyId token).2
        (Gateway.createAccessKey { d.toDeps with fernet := f } w' id label keyId token).2 := by
  have hfind : (w.db.agents.find? id).isNone = (w'.db.agents.find? id).isNone := by
    have hmask : ∀ db : Db, (db.agents.find? id).isNone =
        ((db.agents.rows.map Agent.masked).find? fun a => a.id = id).isNone := by
      intro db
      rw [List.find?_map, Option.isNone_map]
      rfl
    rw [hmask, hmask, h.agents]
  have hkey : newAccessKey { d.toDeps with fernet := f } id label keyId token =
      newAccessKey d.toDeps id label keyId token := rfl
  have hid : (newAccessKey d.toDeps id label keyId token).1.agentId = id := rfl
  unfold Gateway.createAccessKey insertAccessKey?
  rw [hkey]
  simp only [hid, hfind, h.accessKeys]
  by_cases hbad : (w'.db.agents.find? id).isNone = true ∨
      (newAccessKey d.toDeps id label keyId token).1.keyHash ∈
        w'.db.accessKeys.rows.map fun k => k.keyHash
  · simp only [if_pos hbad]
    exact ⟨trivial, h⟩
  · simp only [if_neg hbad]
    cases w'.db.accessKeys.insert? (newAccessKey d.toDeps id label keyId token).1 with
    | none => exact ⟨rfl, h⟩
    | some t => exact ⟨rfl, h.agents, h.users, rfl, h.containers⟩

theorem routerCreateAgent (h : SameShown w w') (hrt : rt.Alike rt') (henc : Encrypted d.toDeps w)
    (henc' : Encrypted { d.toDeps with fernet := f } w') (s : Settings) (u : UserId)
    {b b' : AgentConfigIn} (hb : b.Alike b') (draws : CreateDraws) :
    (Router.createAgent d.toDeps s rt w u b draws.newId draws.suffix draws.keyId draws.token).1 =
        (Router.createAgent { d.toDeps with fernet := f } s rt' w' u b' draws.newId draws.suffix
          draws.keyId draws.token).1 ∧
      SameShown
        (Router.createAgent d.toDeps s rt w u b draws.newId draws.suffix draws.keyId draws.token).2
        (Router.createAgent { d.toDeps with fernet := f } s rt' w' u b' draws.newId draws.suffix
          draws.keyId draws.token).2 := by
  obtain ⟨hres, hworld⟩ := h.createAgent hrt henc henc' u hb draws.newId draws.suffix
  rcases hout : Gateway.createAgent d.toDeps rt w u b draws.newId draws.suffix with ⟨res, w₁⟩
  rcases hout' : Gateway.createAgent { d.toDeps with fernet := f } rt' w' u b' draws.newId
    draws.suffix with ⟨res', w₁'⟩
  rw [hout, hout'] at hres hworld
  cases res with
  | error e =>
    cases res' with
    | error e' =>
      rw [Router.createAgent_of_error hout, Router.createAgent_of_error hout']
      exact ⟨congrArg Except.error (Except.error.inj hres), hworld⟩
    | ok a' => cases hres
  | ok a =>
    cases res' with
    | error e' => cases hres
    | ok a' =>
      rw [Router.createAgent_of_ok hout, Router.createAgent_of_ok hout']
      have hm : a.masked = a'.masked := Except.ok.inj hres
      have hshown : toAgentResponse s a = toAgentResponse s a' := by
        rw [← toAgentResponse_masked, hm, toAgentResponse_masked]
      obtain ⟨env, rfl, -⟩ := Agent.eq_of_masked hm
      obtain ⟨hkey, hkeyed⟩ := createAccessKey (d := d) (f := f) hworld a.id "default" draws.keyId
        draws.token
      simp only [← hshown]
      cases toAgentResponse s a with
      | error es => exact ⟨rfl, hworld⟩
      | ok response =>
        simp only
        split_ifs
        · exact ⟨congrArg (Except.map fun k => { response with accessKey := some k.2 }) hkey,
            hkeyed⟩
        · exact ⟨rfl, hworld⟩

theorem agentsHandler (h : SameShown w w') (henc : Encrypted d.toDeps w)
    (henc' : Encrypted { d.toDeps with fernet := f } w') (s : Settings) {m m' : Surroundings}
    (hrt : m.runtime.Alike m'.runtime) (hties : m.ties = m'.ties) (u : UserId)
    {req req' : AgentsRequest} (hreq : req.Alike req') :
    (Gateway.agentsHandler d s m w u req).1 =
        (Gateway.agentsHandler { d with fernet := f } s m' w' u req').1 ∧
      SameShown (Gateway.agentsHandler d s m w u req).2
        (Gateway.agentsHandler { d with fernet := f } s m' w' u req').2 := by
  cases hreq with
  | create hb draws =>
    obtain ⟨hres, hworld⟩ := h.routerCreateAgent hrt henc henc' s u hb draws
    exact ⟨congrArg (Except.map AgentsAnswer.agent) hres, hworld⟩
  | deploy id hc =>
    obtain ⟨hres, hworld⟩ := h.deployAgent hrt henc henc' u id hc
    exact ⟨respondAgent_masked s hres, hworld⟩
  | scale id body => exact h.scaleAgent hrt u id body.direction body.count
  | update id body =>
    obtain ⟨hres, hworld⟩ := h.updateAgent u id body
    exact ⟨respondAgent_masked s hres, hworld⟩
  | get id => exact ⟨respondAgent_masked s (h.getAgent u id), h⟩
  | list status tag q =>
    refine ⟨?_, h⟩
    show Gateway.respondAgents s q (listAgents m.ties w.db u status tag q) =
      Gateway.respondAgents s q (listAgents m'.ties w'.db u status tag q)
    rw [← hties]
    exact h.respondAgents s m.ties u status tag q

end SameShown

/-! ## Stored secrets -/

section Stored

variable {d : Deps} {w : World}

theorem Encrypted.call (h : Encrypted d w) (rt : Runtime) (c : Call) :
    Encrypted d (c.exec d rt w) := by
  have heffect := c.exec_effect d rt w
  generalize c.exec d rt w = w' at heffect
  cases heffect with
  | refused => exact h
  | updated ho hrw =>
    have hold := h _ (Table.mem_of_find? hrw.found)
    exact hrw.forall_rows h hold
  | deployed ho hq heff hrw =>
    refine hrw.forall_rows h ?_
    rw [heff.env]
    exact secretsEncrypted_deployedRow (h _ (Table.mem_of_find? hrw.found)) _ _
  | scaled ho hq heff hrw =>
    refine hrw.forall_rows h ?_
    rw [heff.env]
    exact h _ (Table.mem_of_find? hrw.found)
  | removeFailed ho hout hrw => exact hrw.forall_rows h (h _ (Table.mem_of_find? hrw.found))
  | removed ho hout hrm => exact hrm.forall_rows h
  | created hq hins => exact hins.forall_rows h (secretsEncrypted_newAgent _ _ _ _ _ _)
  | createdDeployed hdep hq hins hq₁ heff hrw =>
    refine hrw.forall_rows (hins.forall_rows h (secretsEncrypted_newAgent _ _ _ _ _ _)) ?_
    rw [heff.env]
    exact secretsEncrypted_deployedRow (secretsEncrypted_newAgent _ _ _ _ _ _) _ _

theorem Encrypted.of_agents {w' : World} (h : Encrypted d w)
    (heq : w'.db.agents = w.db.agents) : Encrypted d w' := by
  unfold Encrypted
  rw [heq]
  exact h

theorem Encrypted.createAccessKey (h : Encrypted d w) (id : AgentId) (label : String)
    (keyId : KeyId) (token : String) :
    Encrypted d (Gateway.createAccessKey d w id label keyId token).2 := by
  rcases createAccessKey_cases d w id label keyId token with ⟨e, he⟩ | ⟨w', hok, hnew⟩
  · rw [he]
    exact h
  · rw [hok]
    exact h.of_agents hnew.agents

/-- A request stores no secret in the clear. -/
theorem Encrypted.handler {d : ApiDeps} (h : Encrypted d.toDeps w) (s : Settings) (m : Surroundings)
    (u : UserId) (req : AgentsRequest) :
    Encrypted d.toDeps (agentsHandler d s m w u req).2 := by
  cases req with
  | create body draws =>
    show Encrypted d.toDeps (Router.createAgent d.toDeps s m.runtime w u body draws.newId
      draws.suffix draws.keyId draws.token).2
    have hcreate : Encrypted d.toDeps
        (createAgent d.toDeps m.runtime w u body draws.newId draws.suffix).2 :=
      h.call m.runtime (.create u body draws.newId draws.suffix)
    rcases hout : createAgent d.toDeps m.runtime w u body draws.newId draws.suffix with ⟨res, w₁⟩
    rw [hout] at hcreate
    cases res with
    | error e =>
      rw [Router.createAgent_of_error hout]
      exact hcreate
    | ok agent =>
      rw [Router.createAgent_of_ok hout]
      cases toAgentResponse s agent with
      | error es => exact hcreate
      | ok response =>
        simp only
        split_ifs
        · exact Encrypted.createAccessKey hcreate agent.id "default" draws.keyId draws.token
        · exact hcreate
  | update id body => exact h.call m.runtime (.update u id body)
  | createAccessKey id label keyId token =>
    show Encrypted d.toDeps (Router.createAccessKey d.toDeps w u id label keyId token).2
    unfold Router.createAccessKey
    cases w.db.ownedAgent? u id with
    | none => exact h
    | some a => exact h.createAccessKey a.id _ keyId token
  | deleteAccessKey id keyId =>
    show Encrypted d.toDeps (Router.deleteAccessKey w u id keyId).2
    unfold Router.deleteAccessKey
    cases w.db.ownedAgent? u id with
    | none => exact h
    | some a =>
      simp only
      rcases deleteAccessKey_cases w a.id keyId with ⟨e, he⟩ | ⟨key, w', -, -, hok, hdel⟩
      · rw [he]
        exact h
      · rw [hok]
        exact h.of_agents hdel.agents
  | delete id => exact h.call m.runtime (.delete u id)
  | deploy id body => exact h.call m.runtime (.deploy u id body)
  | scale id body => exact h.call m.runtime (.scale u id body)
  | _ => exact h

end Stored

/-! ## Runs -/

/-- A request of some user. -/
structure UserStep where
  userId : UserId
  step : TenantStep

/-- One request. -/
def userAct (d : ApiDeps) (s : Settings) (w : World) (i : UserStep) :
    Except ApiError AgentsAnswer × World :=
  tenantAct d s i.userId w i.step

/-- The same request of the same user up to secrets, met by runtimes with the same outcomes and by
the same order of rows. -/
structure UserStep.Alike (i i' : UserStep) : Prop where
  userId : i.userId = i'.userId
  method : i.step.method = i'.step.method
  request : i.step.request.Alike i'.step.request
  runtime : i.step.surroundings.runtime.Alike i'.step.surroundings.runtime
  ties : i.step.surroundings.ties = i'.step.surroundings.ties

theorem userAct_encrypted (d : ApiDeps) (s : Settings) {w : World} (h : Encrypted d.toDeps w)
    (i : UserStep) : Encrypted d.toDeps (userAct d s w i).2 := by
  unfold userAct
  rcases tenantAct_eq d s i.userId w i.step with ⟨e, -, hact⟩ | ⟨p, -, hact⟩
  · rw [hact]
    exact h
  · rw [hact]
    exact h.handler s i.step.surroundings i.userId i.step.request

/-- **One request** in both runs. -/
theorem userAct_shown {d : ApiDeps} {f : Fernet} {s : Settings} {w w' : World} (h : SameShown w w')
    (henc : Encrypted d.toDeps w) (henc' : Encrypted { d.toDeps with fernet := f } w')
    {i i' : UserStep} (hi : i.Alike i') :
    (userAct d s w i).1 = (userAct { d with fernet := f } s w' i').1 ∧
      SameShown (userAct d s w i).2 (userAct { d with fernet := f } s w' i').2 := by
  have hadm : admitted d.toDeps w.db.users i.userId i.step =
      admitted { d.toDeps with fernet := f } w'.db.users i'.userId i'.step := by
    unfold admitted
    rw [h.users, hi.userId, hi.method, hi.request.guard]
    rfl
  unfold userAct
  rcases tenantAct_eq d s i.userId w i.step with ⟨e, ha, hact⟩ | ⟨p, ha, hact⟩
  · rcases tenantAct_eq { d with fernet := f } s i'.userId w' i'.step with
      ⟨e', ha', hact'⟩ | ⟨p', ha', -⟩
    · obtain rfl : e = e' := by
        rw [ha, ha'] at hadm
        exact Except.error.inj hadm
      rw [hact, hact']
      exact ⟨rfl, h⟩
    · rw [ha, ha'] at hadm
      cases hadm
  · rcases tenantAct_eq { d with fernet := f } s i'.userId w' i'.step with
      ⟨e', ha', -⟩ | ⟨p', -, hact'⟩
    · rw [ha, ha'] at hadm
      cases hadm
    · obtain ⟨hres, hworld⟩ := h.agentsHandler henc henc' s hi.runtime hi.ties i.userId hi.request
      rw [hact, hact', ← hi.userId]
      exact ⟨congrArg (Except.mapError ApiError.service) hres, hworld⟩

/-- **Secret values are never shown.** Two runs of the same requests, from worlds that differ in
secrets at most, whose requests differ only in the values of secret variables and in non-empty
`api_key`s and meet runtimes with the same outcomes, give the same answers; and in every state
either run reaches, every stored entry flagged secret holds an output of `encrypt_secret`. The two
runs may use different ciphers. -/
theorem secrets_not_shown (d : ApiDeps) (f : Fernet) (s : Settings) {w w' : World}
    (h : SameShown w w') (henc : Encrypted d.toDeps w)
    (henc' : Encrypted { d.toDeps with fernet := f } w') {steps steps' : List UserStep}
    (hsteps : List.Forall₂ UserStep.Alike steps steps') :
    answers (userAct d s) w steps = answers (userAct { d with fernet := f } s) w' steps' ∧
      Encrypted d.toDeps (run (leaves (userAct d s)) w steps) ∧
      Encrypted { d.toDeps with fernet := f }
        (run (leaves (userAct { d with fernet := f } s)) w' steps') := by
  obtain ⟨hans, -, hend, hend'⟩ := answers_eq (f := userAct d s)
    (g := userAct { d with fernet := f } s)
    (R := fun x x' => SameShown x x' ∧ Encrypted d.toDeps x ∧
      Encrypted { d.toDeps with fernet := f } x')
    (G := fun _ _ => True) (H := fun _ _ => True)
    (fun x x' i i' hR hi _ _ => by
      obtain ⟨hx, hxe, hxe'⟩ := hR
      obtain ⟨hres, hworld⟩ := userAct_shown (s := s) hx hxe hxe' hi
      exact ⟨hres, hworld, userAct_encrypted d s hxe i,
        userAct_encrypted { d with fernet := f } s hxe' i'⟩)
    hsteps ⟨h, henc, henc'⟩ (along_of_forall steps w fun _ _ => trivial)
    (along_of_forall steps' w' fun _ _ => trivial)
  exact ⟨hans, hend, hend'⟩

/-- The config of `secretConfig` with another secret. -/
def rotatedConfig : AcceptedConfig where
  val := { image := some "nginx", env := [{ key := "TOKEN", value := "t-2", secret := true }] }
  property := ⟨{ image := some "nginx", env := some [⟨"TOKEN", "t-2", true⟩] }, rfl⟩

/-- Creation, redeploy and listing of an agent with a secret variable and an `api_key`. -/
def secretSteps (config : AcceptedConfig) (apiKey : String) : List UserStep :=
  [.create { name := "a", apiKey := some apiKey, deploy := some config }
      { newId := "a"
        suffix := "x1y2z3".toList
        keyId := 7
        token := "t" },
    .deploy "a" (some config), .list none none .default].map fun req =>
      { userId := freeUser.id
        step :=
          { method := .jwt
            surroundings :=
              { runtime := .obliging
                reads := .silent
                now := 0 }
            request := req } }

theorem Runtime.obliging_alike : Runtime.obliging.Alike Runtime.obliging where
  deploy args args' cs h := by
    have hreplicas : args.replicas = args'.replicas := by
      simpa using congrArg DeployArgs.replicas h
    simp only [Runtime.obliging, hreplicas]
  scale := rfl
  now := rfl

/-- Another secret and another key, the same answers. -/
theorem secrets_not_shown_rotated :
    rotatedConfig.1.env ≠ secretConfig.1.env ∧
      answers (userAct ApiDeps.transparent {}) freeWorld (secretSteps secretConfig "sk-1") =
        answers (userAct ApiDeps.transparent {}) freeWorld (secretSteps rotatedConfig "sk-2") := by
  have hnone : Encrypted ApiDeps.transparent.toDeps freeWorld := fun _ ha =>
    absurd ha List.not_mem_nil
  have hbody : ({ name := "a", apiKey := some "sk-1", deploy := some secretConfig } :
      AgentConfigIn).Alike { name := "a", apiKey := some "sk-2", deploy := some rotatedConfig } :=
    ⟨rfl, rfl, Or.inr ⟨"sk-1", "sk-2", by decide, by decide, rfl, rfl⟩⟩
  refine ⟨by decide, (secrets_not_shown ApiDeps.transparent ApiDeps.transparent.fernet {}
    ⟨rfl, rfl, rfl, rfl⟩ hnone hnone ?_).1⟩
  refine .cons ⟨rfl, rfl, .create hbody _, Runtime.obliging_alike, rfl⟩ (.cons ?_ (.cons ?_ .nil))
  · exact ⟨rfl, rfl, .deploy "a" rfl, Runtime.obliging_alike, rfl⟩
  · exact ⟨rfl, rfl, .list _ _ _, Runtime.obliging_alike, rfl⟩

end Gateway
