import Gateway.Agents.Service

/-!
# What the agent operations can do

One statement per operation of `Service.lean`, saying everything it can do to the world; the
results about runs use these and never unfold an operation.

* `Rewrites w w' old new cs`: `w'` is `w` with the row `old` replaced by `new` and that agent's
  containers by `cs`, the other rows, tables, containers and counters being the same. It says
  nothing of the call log and of `usage_hours`, which no check reads.
* `DeployEffect` and `ScaleEffect` relate an agent's row and containers before a call that got
  past the quota check to those after it. Seen through them an agent is a state machine of its
  own, on a row and a list of containers.
* `deployLocal` and `scaleLocal` compute that, with the answer, from the row and the containers
  alone; `deployAgent_local` and `scaleAgent_local` say that the operations do just this to their
  agent.
* `deployAgent_cases`, `scaleAgent_cases`, `updateAgent_cases`, `deleteAgent_cases` and
  `createAgent_cases`: an operation leaves the world alone or acts in one of these ways.
-/

namespace Gateway

open Lib

/-! ## Stored environments -/

theorem mem_envToStorage {d : Deps} {r : Draws} {env : List EnvVar} {e : EnvEntry}
    (h : e ∈ envToStorage d r env) : ∃ n, ∃ v ∈ env, storedVar d n v = e := by
  obtain ⟨i, hi, rfl⟩ := List.mem_mapIdx.mp h
  exact ⟨_, _, List.getElem_mem hi, rfl⟩

/-- What does not depend on the nonces is read off the variables themselves. -/
theorem map_envToStorage {β : Type} (d : Deps) (r : Draws) {f : EnvEntry → β} {g : EnvVar → β}
    (h : ∀ n v, f (storedVar d n v) = g v) (env : List EnvVar) :
    (envToStorage d r env).map f = env.map g := by
  refine List.ext_getElem (by simp [envToStorage]) fun i hi hi' => ?_
  simp [envToStorage, h]

/-! ## Rewriting a row -/

/-- `w'` is `w` with the row `old` replaced by `new` and that agent's containers by `cs`. -/
structure Rewrites (w w' : World) (old new : Agent) (cs : List Container) : Prop where
  found : w.db.agents.find? old.id = some old
  id : new.id = old.id
  owner : new.userId = old.userId
  slug : new.slug = old.slug
  agents : w'.db.agents = w.db.agents.put new
  users : w'.db.users = w.db.users
  accessKeys : w'.db.accessKeys = w.db.accessKeys
  containers : ∀ i, w'.containers i = if i = old.id then cs else w.containers i
  pending : w'.pending = w.pending
  perClient : w'.perClient = w.perClient
  perAgent : w'.perAgent = w.perAgent

namespace Rewrites

variable {w w' : World} {old new : Agent} {cs : List Container}

theorem containers_self (h : Rewrites w w' old new cs) : w'.containers new.id = cs := by
  rw [h.containers, if_pos h.id]

theorem containers_of_ne (h : Rewrites w w' old new cs) {i : AgentId} (hi : i ≠ old.id) :
    w'.containers i = w.containers i := by
  rw [h.containers, if_neg hi]

/-- The rows after: the new one, and the old ones with another key. -/
theorem mem_rows (h : Rewrites w w' old new cs) {a : Agent} (ha : a ∈ w'.db.agents.rows) :
    a = new ∨ (a ∈ w.db.agents.rows ∧ a.id ≠ old.id) := by
  rw [h.agents] at ha
  rcases Table.mem_put ha with rfl | ⟨ha, hne⟩
  · exact Or.inl rfl
  · exact Or.inr ⟨ha, h.id ▸ hne⟩

/-- What every row had and the new one has, every row has. -/
theorem forall_rows {P : Agent → Prop} (h : Rewrites w w' old new cs)
    (hall : ∀ a ∈ w.db.agents.rows, P a) (hnew : P new) : ∀ a ∈ w'.db.agents.rows, P a := by
  intro a ha
  rcases h.mem_rows ha with rfl | ⟨ha, -⟩
  · exact hnew
  · exact hall a ha

/-- The new row is stored. -/
theorem stored (h : Rewrites w w' old new cs) : w'.db.agents.find? new.id = some new := by
  rw [h.agents]
  refine Table.find?_put_self (o := old) ?_
  show w.db.agents.find? new.id = some old
  rw [h.id]
  exact h.found

/-- A total after: the other rows' share and the new row's. -/
theorem total {M : Type} [AddCommMonoid M] (h : Rewrites w w' old new cs) (g : Agent → M) :
    w'.db.agents.total g = w.db.agents.totalExcept old.id g + g new := by
  have hf : w.db.agents.find? new.id = some old := by rw [h.id]; exact h.found
  rw [h.agents, Table.total_put g hf, h.id]

end Rewrites

/-! A call builds its rewrite one statement at a time: it starts from the row it loaded, and every
commit, runtime call and log entry extends what has been rewritten so far. -/

namespace Rewrites

variable {w w₁ : World} {old mid : Agent} {cs : List Container}

theorem refl (hf : w.db.agents.find? old.id = some old) :
    Rewrites w w old old (w.containers old.id) where
  found := hf
  id := rfl
  owner := rfl
  slug := rfl
  agents := (Table.put_of_find? hf).symm
  users := rfl
  accessKeys := rfl
  containers i := by split_ifs with hi <;> simp [hi]
  pending := rfl
  perClient := rfl
  perAgent := rfl

theorem save (h : Rewrites w w₁ old mid cs) (new : Agent) (hid : new.id = mid.id)
    (howner : new.userId = mid.userId) (hslug : new.slug = mid.slug) :
    Rewrites w (w₁.saveAgent new) old new cs where
  found := h.found
  id := hid.trans h.id
  owner := howner.trans h.owner
  slug := hslug.trans h.slug
  agents := by rw [World.saveAgent_agents, h.agents]; exact Table.put_put _ hid.symm
  users := h.users
  accessKeys := h.accessKeys
  containers := h.containers
  pending := h.pending
  perClient := h.perClient
  perAgent := h.perAgent

theorem called (h : Rewrites w w₁ old mid cs) (calls : List RuntimeCall)
    (left : List Container) :
    Rewrites w ({ w₁ with calls := calls }.setContainers mid.id left) old mid left where
  found := h.found
  id := h.id
  owner := h.owner
  slug := h.slug
  agents := h.agents
  users := h.users
  accessKeys := h.accessKeys
  containers i := by
    show (if i = mid.id then left else w₁.containers i) = _
    rw [h.id, h.containers]
    split_ifs <;> rfl
  pending := h.pending
  perClient := h.perClient
  perAgent := h.perAgent

end Rewrites

/-! ## Deploying -/

/-- The `try` block succeeds only when the runtime's deploy does. -/
theorem startContainers_ok {d : Deps} {rt : Runtime} {a : Agent} {cs started left : List Container}
    (h : startContainers d rt a cs = (.ok started, left)) :
    ∃ env, rt.deploy (deployArgs a env) cs = (.ok started, left) := by
  unfold startContainers at h
  split at h
  · exact absurd (congrArg Prod.fst h) (by simp)
  · rename_i env _
    refine ⟨env, ?_⟩
    split at h
    · rename_i hout
      rw [hout]
      simpa using h
    · exact absurd (congrArg Prod.fst h) (by simp)

/-- The `try` block fails before the runtime is called, or because its deploy raises. -/
theorem startContainers_error {d : Deps} {rt : Runtime} {a : Agent} {cs left : List Container}
    {msg : String} (h : startContainers d rt a cs = (.error msg, left)) :
    left = cs ∨ ∃ env e, rt.deploy (deployArgs a env) cs = (.error e, left) := by
  unfold startContainers at h
  split at h
  · exact Or.inl (congrArg Prod.snd h).symm
  · rename_i env _
    split at h
    · exact absurd (congrArg Prod.fst h) (by simp)
    · rename_i e left' hout
      obtain rfl : left' = left := congrArg Prod.snd h
      exact Or.inr ⟨env, e, hout⟩

/-- What a deploy that passed the quota check does to the agent's row and containers. -/
inductive DeployEffect (d : Deps) (rt : Runtime) (old : Agent) (deploy : Option DeployConfig)
    (cs : List Container) : Agent → List Container → Prop
  | buildRefused (hbuild : needsBuild (deployedRow d rt.draws old deploy)) :
      DeployEffect d rt old deploy cs (deployedRow d rt.draws old deploy) cs
  | failed {msg : String} {left : List Container}
      (hbuild : needsBuild (deployedRow d rt.draws old deploy) = false)
      (h : startContainers d rt (deployedRow d rt.draws old deploy) cs = (.error msg, left)) :
      DeployEffect d rt old deploy cs
        { deployedRow d rt.draws old deploy with status := .failed, error := some msg } left
  | running {started left : List Container}
      (hbuild : needsBuild (deployedRow d rt.draws old deploy) = false)
      (h : startContainers d rt (deployedRow d rt.draws old deploy) cs = (.ok started, left)) :
      DeployEffect d rt old deploy cs
        { deployedRow d rt.draws old deploy with
          status := .running
          replicas := started.length
          error := none
          version := (deployedRow d rt.draws old deploy).version + 1 } left

@[simp] theorem deployedRow_id (d : Deps) (r : Draws) (a : Agent)
    (deploy : Option DeployConfig) : (deployedRow d r a deploy).id = a.id := by cases deploy <;> rfl

@[simp] theorem deployedRow_userId (d : Deps) (r : Draws) (a : Agent)
    (deploy : Option DeployConfig) : (deployedRow d r a deploy).userId = a.userId := by
  cases deploy <;> rfl

@[simp] theorem deployedRow_slug (d : Deps) (r : Draws) (a : Agent)
    (deploy : Option DeployConfig) : (deployedRow d r a deploy).slug = a.slug := by
  cases deploy <;> rfl

@[simp] theorem deployedRow_status (d : Deps) (r : Draws) (a : Agent)
    (deploy : Option DeployConfig) : (deployedRow d r a deploy).status = a.status := by
  cases deploy <;> rfl

/-- What a deploy that passed the quota check does, seen from its agent: the answer, the row and the
containers. -/
def deployLocal (d : Deps) (rt : Runtime) (old : Agent) (deploy : Option DeployConfig)
    (cs : List Container) : Except GatewayError Agent × Agent × List Container :=
  let row := deployedRow d rt.draws old deploy
  if needsBuild row then (.error .buildNotSupported, row, cs)
  else
    match startContainers d rt row cs with
    | (.error msg, left) =>
      (.error (.deploymentFailed row.id msg), { row with status := .failed, error := some msg },
        left)
    | (.ok started, left) =>
      let new :=
        { row with
          status := .running
          replicas := started.length
          error := none
          version := row.version + 1 }
      (.ok new, new, left)

theorem deployLocal_effect (d : Deps) (rt : Runtime) (old : Agent) (deploy : Option DeployConfig)
    (cs : List Container) :
    DeployEffect d rt old deploy cs (deployLocal d rt old deploy cs).2.1
      (deployLocal d rt old deploy cs).2.2 := by
  unfold deployLocal
  simp only
  split
  · rename_i hb
    exact .buildRefused hb
  · rename_i hb
    rw [Bool.not_eq_true] at hb
    cases hout : startContainers d rt (deployedRow d rt.draws old deploy) cs with
    | mk res left =>
      cases res with
      | error msg => exact .failed hb hout
      | ok started => exact .running hb hout

/-- A deploy that succeeds answers the row it leaves. -/
theorem deployLocal_ok {d : Deps} {rt : Runtime} {old new : Agent} {deploy : Option DeployConfig}
    {cs : List Container} (h : (deployLocal d rt old deploy cs).1 = .ok new) :
    new = (deployLocal d rt old deploy cs).2.1 := by
  unfold deployLocal at h ⊢
  simp only at h ⊢
  split at h
  · cases h
  · rename_i hb
    rw [if_neg hb]
    cases hout : startContainers d rt (deployedRow d rt.draws old deploy) cs with
    | mk res left =>
      rw [hout] at h
      cases res with
      | error msg => cases h
      | ok started => exact (Except.ok.inj h).symm

/-- The runtime calls of a deploy that passed the quota check. -/
def deployCallsOf (d : Deps) (row : Agent) : List RuntimeCall :=
  if needsBuild row then [] else deployCalls d row

/-- **What `deploy_agent` does** to a world in which it gets past the quota check. -/
theorem deployAgent_local {d : Deps} (rt : Runtime) {w : World} {u : UserId} {id : AgentId}
    {deploy : Option DeployConfig} {old : Agent} (ho : w.db.ownedAgent? u id = some old)
    (hq : deployQuota d w.db old deploy = .ok ()) :
    (deployAgent d rt w u id deploy).1 = (deployLocal d rt old deploy (w.containers id)).1 ∧
      Rewrites w (deployAgent d rt w u id deploy).2 old
        (deployLocal d rt old deploy (w.containers id)).2.1
        (deployLocal d rt old deploy (w.containers id)).2.2 ∧
      (deployAgent d rt w u id deploy).2.calls =
        w.calls ++ deployCallsOf d (deployedRow d rt.draws old deploy) := by
  obtain ⟨hf, -, rfl⟩ := Db.ownedAgent?_eq_some ho
  unfold deployAgent deployLocal deployCallsOf
  rw [ho]
  simp only [hq]
  have hcommit :
      Rewrites w (deploy.elim w fun _ => w.saveAgent (deployedRow d rt.draws old deploy)) old
        (deployedRow d rt.draws old deploy) (w.containers old.id) := by
    cases deploy with
    | none => exact Rewrites.refl hf
    | some c => exact (Rewrites.refl hf).save _ rfl rfl rfl
  have hcalls :
      (deploy.elim w fun _ => w.saveAgent (deployedRow d rt.draws old deploy)).calls = w.calls := by
    cases deploy <;> rfl
  generalize (deploy.elim w fun _ => w.saveAgent (deployedRow d rt.draws old deploy)) = w₁
    at hcommit hcalls ⊢
  split
  · exact ⟨rfl, hcommit, by rw [hcalls, List.append_nil]⟩
  · have hstarting :=
      hcommit.save { deployedRow d rt.draws old deploy with status := .starting } rfl rfl rfl
    have hcs : w₁.containers (deployedRow d rt.draws old deploy).id = w.containers old.id := by
      rw [hcommit.containers_self]
    cases hout : startContainers d rt (deployedRow d rt.draws old deploy) (w.containers old.id) with
    | mk res left =>
      have hout' :
          startContainers d rt { deployedRow d rt.draws old deploy with status := .starting }
          ((w₁.saveAgent { deployedRow d rt.draws old deploy with status := .starting }).containers
            (deployedRow d rt.draws old deploy).id) = (res, left) := by
        rw [World.saveAgent_containers, hcs]
        exact hout
      have hlog : w.calls ++ deployCalls d (deployedRow d rt.draws old deploy) =
          w₁.calls ++
            deployCalls d { deployedRow d rt.draws old deploy with status := .starting } := by
        rw [hcalls]
        rfl
      rw [hout', hlog]
      cases res with
      | error msg => exact ⟨rfl, (hstarting.called _ left).save _ rfl rfl rfl, rfl⟩
      | ok started => exact ⟨rfl, (hstarting.called _ left).save _ rfl rfl rfl, rfl⟩

/-- A deploy that finds no agent or is refused by the quota check. -/
theorem deployAgent_notFound {w : World} {u : UserId} {id : AgentId}
    (ho : w.db.ownedAgent? u id = none) (d : Deps) (rt : Runtime) (deploy : Option DeployConfig) :
    deployAgent d rt w u id deploy = (.error (.agentNotFound id), w) := by
  unfold deployAgent
  rw [ho]

theorem deployAgent_overQuota {d : Deps} {w : World} {u : UserId} {id : AgentId}
    {deploy : Option DeployConfig} {old : Agent} {e : GatewayError}
    (ho : w.db.ownedAgent? u id = some old) (hq : deployQuota d w.db old deploy = .error e)
    (rt : Runtime) : deployAgent d rt w u id deploy = (.error e, w) := by
  unfold deployAgent
  rw [ho]
  simp only [hq]

theorem deployAgent_refused {d : Deps} (rt : Runtime) {w : World} {u : UserId} {id : AgentId}
    {deploy : Option DeployConfig}
    (h : ∀ old, w.db.ownedAgent? u id = some old → deployQuota d w.db old deploy ≠ .ok ()) :
    (deployAgent d rt w u id deploy).2 = w := by
  cases ho : w.db.ownedAgent? u id with
  | none => rw [deployAgent_notFound ho]
  | some old =>
    cases hq : deployQuota d w.db old deploy with
    | error e => rw [deployAgent_overQuota ho hq]
    | ok _ => exact absurd hq (h old ho)

/-- **Everything `deploy_agent` can do.** -/
theorem deployAgent_cases (d : Deps) (rt : Runtime) (w : World) (u : UserId) (id : AgentId)
    (deploy : Option DeployConfig) :
    (deployAgent d rt w u id deploy).2 = w ∨
      ∃ old new cs, w.db.ownedAgent? u id = some old ∧ deployQuota d w.db old deploy = .ok () ∧
        DeployEffect d rt old deploy (w.containers id) new cs ∧
        Rewrites w (deployAgent d rt w u id deploy).2 old new cs := by
  by_cases h : ∃ old, w.db.ownedAgent? u id = some old ∧ deployQuota d w.db old deploy = .ok ()
  · obtain ⟨old, ho, hq⟩ := h
    obtain ⟨-, hrw, -⟩ := deployAgent_local rt ho hq
    exact Or.inr ⟨old, _, _, ho, hq, deployLocal_effect d rt old deploy _, hrw⟩
  · exact Or.inl (deployAgent_refused rt fun old ho hq => h ⟨old, ho, hq⟩)

/-! ## Scaling -/

/-- What a scale that passed the quota check does to the agent's row and containers. -/
inductive ScaleEffect (rt : Runtime) (old : Agent) (direction : ScaleDirection) (count : Nat)
    (cs : List Container) : Agent → List Container → Prop
  | uncaught {msg : String} {left : List Container}
      (h : rt.scale old.id direction count cs = (.error (.other msg), left)) :
      ScaleEffect rt old direction count cs { old with status := .scaling } left
  | failed {e : CoreError} {left : List Container} (hcaught : ∀ msg, e ≠ .other msg)
      (h : rt.scale old.id direction count cs = (.error e, left)) :
      ScaleEffect rt old direction count cs
        { old with status := .failed, error := some e.str } left
  | done {left : List Container} (h : rt.scale old.id direction count cs = (.ok (), left)) :
      ScaleEffect rt old direction count cs
        { old with replicas := liveOr left.length old.replicas, status := .running } left

/-- What a scale that passed the quota check does, seen from its agent: the answer, the row and the
containers. -/
def scaleLocal (rt : Runtime) (old : Agent) (direction : ScaleDirection) (count : Nat)
    (cs : List Container) : Except GatewayError (Agent × Nat) × Agent × List Container :=
  match rt.scale old.id direction count cs with
  | (.error (.other msg), left) =>
    (.error (.core (.other msg)), { old with status := .scaling }, left)
  | (.error e, left) =>
    (.error (.deploymentFailed old.id e.str), { old with status := .failed, error := some e.str },
      left)
  | (.ok (), left) =>
    let new := { old with replicas := liveOr left.length old.replicas, status := .running }
    (.ok (new, old.replicas), new, left)

theorem scaleLocal_effect (rt : Runtime) (old : Agent) (direction : ScaleDirection) (count : Nat)
    (cs : List Container) :
    ScaleEffect rt old direction count cs (scaleLocal rt old direction count cs).2.1
      (scaleLocal rt old direction count cs).2.2 := by
  unfold scaleLocal
  cases hout : rt.scale old.id direction count cs with
  | mk res left =>
    cases res with
    | ok _ => exact .done hout
    | error e =>
      cases e with
      | other msg => exact .uncaught hout
      | scaling msg => exact .failed (fun _ => by simp) hout
      | containerNotFound msg => exact .failed (fun _ => by simp) hout

/-- **What `scale_agent` does** to a world in which it gets past the quota check. -/
theorem scaleAgent_local {d : Deps} (rt : Runtime) {w : World} {u : UserId} {id : AgentId}
    {direction : ScaleDirection} {count : Nat} {old : Agent}
    (ho : w.db.ownedAgent? u id = some old)
    (hq : scaleQuota d w.db old direction count = .ok ()) :
    (scaleAgent d rt w u id direction count).1 =
        (scaleLocal rt old direction count (w.containers id)).1 ∧
      Rewrites w (scaleAgent d rt w u id direction count).2 old
        (scaleLocal rt old direction count (w.containers id)).2.1
        (scaleLocal rt old direction count (w.containers id)).2.2 ∧
      (scaleAgent d rt w u id direction count).2.calls =
        w.calls ++ [.scale id direction count] := by
  obtain ⟨hf, -, rfl⟩ := Db.ownedAgent?_eq_some ho
  have hscaling := (Rewrites.refl hf).save { old with status := .scaling } rfl rfl rfl
  unfold scaleAgent scaleLocal
  rw [ho]
  simp only [hq, World.saveAgent_containers]
  cases hout : rt.scale old.id direction count (w.containers old.id) with
  | mk res left =>
    have hcalled := hscaling.called (w.calls ++ [.scale old.id direction count]) left
    cases res with
    | ok _ =>
      simp only [rt.getContainers_eq, true_and]
      exact ⟨hcalled.save _ rfl rfl rfl, rfl⟩
    | error e =>
      cases e with
      | other msg => exact ⟨rfl, hcalled, rfl⟩
      | scaling msg => exact ⟨rfl, hcalled.save _ rfl rfl rfl, rfl⟩
      | containerNotFound msg => exact ⟨rfl, hcalled.save _ rfl rfl rfl, rfl⟩

/-- A scale that finds no agent or is refused by the quota check. -/
theorem scaleAgent_notFound {w : World} {u : UserId} {id : AgentId}
    (ho : w.db.ownedAgent? u id = none) (d : Deps) (rt : Runtime) (direction : ScaleDirection)
    (count : Nat) :
    scaleAgent d rt w u id direction count = (.error (.agentNotFound id), w) := by
  unfold scaleAgent
  rw [ho]

theorem scaleAgent_overQuota {d : Deps} {w : World} {u : UserId} {id : AgentId}
    {direction : ScaleDirection} {count : Nat} {old : Agent} {e : GatewayError}
    (ho : w.db.ownedAgent? u id = some old)
    (hq : scaleQuota d w.db old direction count = .error e) (rt : Runtime) :
    scaleAgent d rt w u id direction count = (.error e, w) := by
  unfold scaleAgent
  rw [ho]
  simp only [hq]

theorem scaleAgent_refused {d : Deps} (rt : Runtime) {w : World} {u : UserId} {id : AgentId}
    {direction : ScaleDirection} {count : Nat}
    (h : ∀ old, w.db.ownedAgent? u id = some old → scaleQuota d w.db old direction count ≠ .ok ()) :
    (scaleAgent d rt w u id direction count).2 = w := by
  cases ho : w.db.ownedAgent? u id with
  | none => rw [scaleAgent_notFound ho]
  | some old =>
    cases hq : scaleQuota d w.db old direction count with
    | error e => rw [scaleAgent_overQuota ho hq]
    | ok _ => exact absurd hq (h old ho)

/-- **Everything `scale_agent` can do.** -/
theorem scaleAgent_cases (d : Deps) (rt : Runtime) (w : World) (u : UserId) (id : AgentId)
    (direction : ScaleDirection) (count : Nat) :
    (scaleAgent d rt w u id direction count).2 = w ∨
      ∃ old new cs, w.db.ownedAgent? u id = some old ∧
        scaleQuota d w.db old direction count = .ok () ∧
        ScaleEffect rt old direction count (w.containers id) new cs ∧
        Rewrites w (scaleAgent d rt w u id direction count).2 old new cs := by
  by_cases h : ∃ old, w.db.ownedAgent? u id = some old ∧
      scaleQuota d w.db old direction count = .ok ()
  · obtain ⟨old, ho, hq⟩ := h
    obtain ⟨-, hrw, -⟩ := scaleAgent_local rt ho hq
    exact Or.inr ⟨old, _, _, ho, hq, scaleLocal_effect rt old direction count _, hrw⟩
  · exact Or.inl (scaleAgent_refused rt fun old ho hq => h ⟨old, ho, hq⟩)

/-! ## Updating, deleting, creating -/

/-- **Everything `update_agent` can do**: the ingress columns of one row. -/
theorem updateAgent_cases (w : World) (u : UserId) (id : AgentId) (body : AgentUpdate) :
    (updateAgent w u id body).2 = w ∨
      ∃ old access rpm, w.db.ownedAgent? u id = some old ∧
        Rewrites w (updateAgent w u id body).2 old
          { old with access := access, rateLimitRpm := rpm } (w.containers id) := by
  unfold updateAgent
  cases ho : w.db.ownedAgent? u id with
  | none => exact Or.inl rfl
  | some old =>
    obtain ⟨hf, -, rfl⟩ := Db.ownedAgent?_eq_some ho
    exact Or.inr ⟨old, _, _, rfl, (Rewrites.refl hf).save _ rfl rfl rfl⟩

/-- The world after `delete_agent` has removed the containers and the row. -/
structure Removes (w w' : World) (old : Agent) (left : List Container) : Prop where
  agents : w'.db.agents = w.db.agents.erase old.id
  users : w'.db.users = w.db.users
  accessKeys : w'.db.accessKeys = w.db.accessKeys.filter fun k => k.agentId ≠ old.id
  containers : ∀ i, w'.containers i = if i = old.id then left else w.containers i
  pending : w'.pending = w.pending
  perClient : w'.perClient = w.perClient
  perAgent : w'.perAgent = w.perAgent

theorem Removes.forall_rows {w w' : World} {old : Agent} {left : List Container}
    {P : Agent → Prop} (h : Removes w w' old left) (hall : ∀ a ∈ w.db.agents.rows, P a) :
    ∀ a ∈ w'.db.agents.rows, P a := by
  intro a ha
  rw [h.agents] at ha
  exact hall a (Table.mem_erase.mp ha).1

theorem deleteRow_removes (w : World) (old : Agent) (left : List Container) :
    Removes w (deleteRow ((w.logCall (.remove old.id)).setContainers old.id left) old.id) old
      left :=
  ⟨rfl, rfl, rfl, fun _ => rfl, rfl, rfl, rfl⟩

/-- **Everything `delete_agent` can do**: nothing, `remove` raises and only the containers may have
changed, or it returns and the row goes with its keys. -/
theorem deleteAgent_cases (rt : Runtime) (w : World) (u : UserId) (id : AgentId) :
    (∃ e, deleteAgent rt w u id = (.error e, w)) ∨
      ∃ old left, w.db.ownedAgent? u id = some old ∧
        ((∃ e, rt.remove id (w.containers id) = (.error e, left) ∧
            (deleteAgent rt w u id).1 = .error (.core e) ∧
            Rewrites w (deleteAgent rt w u id).2 old old left) ∨
          (rt.remove id (w.containers id) = (.ok (), left) ∧
            (deleteAgent rt w u id).1 = .ok () ∧
            Removes w (deleteAgent rt w u id).2 old left)) := by
  unfold deleteAgent
  cases ho : w.db.ownedAgent? u id with
  | none => exact Or.inl ⟨_, rfl⟩
  | some old =>
    obtain ⟨hf, -, rfl⟩ := Db.ownedAgent?_eq_some ho
    right
    simp only
    cases hout : rt.remove old.id (w.containers old.id) with
    | mk res left =>
      refine ⟨old, left, rfl, ?_⟩
      cases res with
      | error e => exact Or.inl ⟨e, rfl, rfl, (Rewrites.refl hf).called _ left⟩
      | ok _ => exact Or.inr ⟨rfl, rfl, deleteRow_removes w old left⟩

/-- The world after a row of `agents` has been inserted. -/
structure Inserts (w w' : World) (new : Agent) : Prop where
  agents : w.db.agents.insert? new = some w'.db.agents
  slug : ∀ a ∈ w.db.agents.rows, a.slug ≠ new.slug
  users : w'.db.users = w.db.users
  accessKeys : w'.db.accessKeys = w.db.accessKeys
  containers : w'.containers = w.containers
  pending : w'.pending = w.pending
  perClient : w'.perClient = w.perClient
  perAgent : w'.perAgent = w.perAgent

theorem insertAgent?_inserts {w w' : World} {a : Agent} (h : insertAgent? w a = some w') :
    Inserts w w' a := by
  unfold insertAgent? at h
  split at h
  · exact absurd h (by simp)
  · rename_i hslug
    obtain ⟨t, ht, rfl⟩ := Option.map_eq_some_iff.mp h
    exact ⟨ht, fun x hx e => hslug (e ▸ List.mem_map_of_mem hx), rfl, rfl, rfl, rfl, rfl, rfl⟩

/-- A row with a free id and a free slug can be inserted. -/
theorem insertAgent?_of_free {w : World} {a : Agent} (hid : ∀ x ∈ w.db.agents.rows, x.id ≠ a.id)
    (hslug : ∀ x ∈ w.db.agents.rows, x.slug ≠ a.slug) : ∃ w', insertAgent? w a = some w' := by
  have hfree : a.slug ∉ w.db.agents.rows.map Agent.slug := by
    intro hmem
    obtain ⟨x, hx, hxs⟩ := List.mem_map.mp hmem
    exact hslug x hx hxs
  obtain ⟨t, ht⟩ := Table.insert?_of_forall_ne hid
  unfold insertAgent?
  rw [if_neg hfree, ht]
  exact ⟨_, rfl⟩

namespace Inserts

variable {w w' : World} {new : Agent}

theorem mem_rows (h : Inserts w w' new) {a : Agent} (ha : a ∈ w'.db.agents.rows) :
    a = new ∨ (a ∈ w.db.agents.rows ∧ a.id ≠ new.id) := by
  obtain ⟨hrows, hne⟩ := Table.insert?_eq_some h.agents
  rw [hrows] at ha
  rcases List.mem_append.mp ha with ha | ha
  · exact Or.inr ⟨ha, hne a ha⟩
  · exact Or.inl (List.mem_singleton.mp ha)

theorem forall_rows {P : Agent → Prop} (h : Inserts w w' new)
    (hall : ∀ a ∈ w.db.agents.rows, P a) (hnew : P new) : ∀ a ∈ w'.db.agents.rows, P a := by
  intro a ha
  rcases h.mem_rows ha with rfl | ⟨ha, -⟩
  · exact hnew
  · exact hall a ha

/-- No row had the new id. -/
theorem fresh (h : Inserts w w' new) : ∀ a ∈ w.db.agents.rows, a.id ≠ new.id :=
  (Table.insert?_eq_some h.agents).2

/-- The row could be inserted. -/
theorem isSome (h : Inserts w w' new) : (insertAgent? w new).isSome := by
  obtain ⟨w₁, hw₁⟩ := insertAgent?_of_free h.fresh h.slug
  rw [hw₁]
  rfl

end Inserts

@[simp] theorem newAgent_id (d : Deps) (r : Draws) (u : UserId) (body : AgentConfigIn)
    (newId : AgentId)
    (suffix : List Char) : (newAgent d r u body newId suffix).id = newId := by
  unfold newAgent
  cases body.deploy <;> cases body.apiKey.filter (· ≠ "") <;> rfl

@[simp] theorem newAgent_userId (d : Deps) (r : Draws) (u : UserId) (body : AgentConfigIn)
    (newId : AgentId)
    (suffix : List Char) : (newAgent d r u body newId suffix).userId = u := by
  unfold newAgent
  cases body.deploy <;> cases body.apiKey.filter (· ≠ "") <;> rfl

@[simp] theorem newAgent_status (d : Deps) (r : Draws) (u : UserId) (body : AgentConfigIn)
    (newId : AgentId)
    (suffix : List Char) : (newAgent d r u body newId suffix).status = .pending := by
  unfold newAgent
  cases body.deploy <;> cases body.apiKey.filter (· ≠ "") <;> rfl

/-- **Everything `create_agent` can do**: insert the row, and deploy it when a config was sent. -/
theorem createAgent_cases (d : Deps) (rt : Runtime) (w : World) (u : UserId) (body : AgentConfigIn)
    (newId : AgentId) (suffix : List Char) :
    (createAgent d rt w u body newId suffix).2 = w ∨
      ∃ w₁, createQuota d w.db u body = .ok () ∧
        Inserts w w₁ (newAgent d rt.draws u body newId suffix) ∧
        ((body.deploy = none ∧ (createAgent d rt w u body newId suffix).2 = w₁) ∨
          (body.deploy.isSome ∧ (createAgent d rt w u body newId suffix).2 =
            (deployAgent d rt w₁ u newId none).2)) := by
  unfold createAgent
  cases hq : createQuota d w.db u body with
  | error e => exact Or.inl rfl
  | ok _ =>
    simp only
    cases hi : insertAgent? w (newAgent d rt.draws u body newId suffix) with
    | none => exact Or.inl rfl
    | some w₁ =>
      refine Or.inr ⟨w₁, trivial, insertAgent?_inserts hi, ?_⟩
      cases hdep : body.deploy with
      | none => exact Or.inl ⟨rfl, rfl⟩
      | some c => exact Or.inr ⟨by simp, by simp only [newAgent_id]⟩

end Gateway
