import Gateway.Agents.Display
import Gateway.Agents.QuotaSafety

/-!
# What a refused call leaves behind

`create_agent`, `deploy_agent` and `scale_agent` ask the quota service before they write, and
`create_agent` asks a second time through the deploy it ends with, then about the row it has just
inserted. `deploy_agent` has a second reason to refuse, a build path without an image, and finds
that out from the row, after it has committed the new config to it.

* `ensureResources_inserted`: the two checks of a creation are the same check. The second excludes
  the new row, the first does not see it yet.
* **`quotaRefusal_changes_nothing`**: a call that raises `QuotaExceededError` leaves the world as it
  found it, the call log included, and a creation whose first checks pass is not refused by the
  second.
* `ConfigStored`: the row already says what the config says, and nothing of the config is secret. A
  secret is encrypted anew whenever it is sent (`FreshTokens`), so the row is written over even by
  the config it came from.
* **`buildRefusal_keeps_row_iff`**: a deploy refused because it would need a build leaves the
  containers alone and keeps the row exactly when the config it was sent was stored before.
-/

namespace Gateway

open Lib

/-! ## Quota refusals -/

/-- A call raised `QuotaExceededError`. -/
def quotaRefused {α : Type} : Except GatewayError α → Bool
  | .error (.quotaExceeded ..) => true
  | _ => false

/-- An inserted row that is excluded from the sums leaves them as they were. -/
theorem activeAgents_inserted {w w₁ : World} {new : Agent} (h : Inserts w w₁ new) (u : UserId) :
    activeAgents w₁.db u (some new.id) = activeAgents w.db u none := by
  obtain ⟨hrows, hne⟩ := Table.insert?_eq_some h.agents
  unfold activeAgents
  rw [hrows, List.filter_append, List.filter_singleton]
  have hnew : decide (new.userId = u ∧ new.status ∈ activeStatuses ∧ some new.id ≠ some new.id) =
      false := by simp
  rw [hnew]
  simp only [cond_false, List.append_nil]
  refine List.filter_congr fun a ha => ?_
  have hid : some new.id ≠ some a.id := fun e => hne a ha (Option.some.inj e).symm
  simp [hid]

/-- **The two checks of a creation agree**: the one before the insert, about no agent, and the one
after it, about the inserted row. -/
theorem ensureResources_inserted (d : Deps) {w w₁ : World} {new : Agent} (h : Inserts w w₁ new)
    (u : UserId) (n : Nat) (cpu : ℚ) (mem : Nat) :
    ensureResources d w₁.db u (some new.id) n cpu mem =
      ensureResources d w.db u none n cpu mem := by
  have hchecks : ∀ limits, quotaChecks d (currentUsage d w₁.db u (some new.id)) limits n cpu mem =
      quotaChecks d (currentUsage d w.db u none) limits n cpu mem := by
    intro limits
    unfold quotaChecks currentUsage
    rw [activeAgents_inserted h]
  unfold ensureResources
  rw [h.users]
  simp only [hchecks]

/-- The shape of a created row is that of the config sent with it. -/
theorem newAgent_shape (d : Deps) (r : Draws) (u : UserId) {body : AgentConfigIn} (newId : AgentId)
    (suffix : List Char) {c : AcceptedConfig} (hc : body.deploy = some c) :
    (newAgent d r u body newId suffix).replicas = c.1.replicas ∧
      (newAgent d r u body newId suffix).cpu = c.1.resources.cpu ∧
      (newAgent d r u body newId suffix).memoryMb = c.1.resources.memoryMb := by
  unfold newAgent
  rw [hc]
  cases body.apiKey.filter (· ≠ "") <;> exact ⟨rfl, rfl, rfl⟩

/-- A creation that passed its checks passes the check of the deploy that ends it. -/
theorem deployQuota_created {d : Deps} {r : Draws} {w w₁ : World} {u : UserId}
    {body : AgentConfigIn}
    {newId : AgentId} {suffix : List Char} (hq : createQuota d w.db u body = .ok ())
    (hins : Inserts w w₁ (newAgent d r u body newId suffix)) (hdep : body.deploy.isSome) :
    deployQuota d w₁.db (newAgent d r u body newId suffix) none = .ok () := by
  obtain ⟨c, hc⟩ := Option.isSome_iff_exists.mp hdep
  obtain ⟨hrep, hcpu, hmem⟩ := newAgent_shape d r u newId suffix hc
  have hcheck : ensureResources d w.db u none c.1.replicas c.1.resources.cpu
      c.1.resources.memoryMb = .ok () := by
    unfold createQuota at hq
    cases hcan : ensureCanCreateAgent d w.db u with
    | error e =>
      rw [hcan] at hq
      cases hq
    | ok _ =>
      rw [hcan, hc] at hq
      exact hq
  rw [deployQuota_eq d r, newAgent_userId]
  show ensureResources d w₁.db u (some (newAgent d r u body newId suffix).id)
    (newAgent d r u body newId suffix).replicas (newAgent d r u body newId suffix).cpu
    (newAgent d r u body newId suffix).memoryMb = .ok ()
  rw [ensureResources_inserted d hins, hrep, hcpu, hmem]
  exact hcheck

/-- The deploy that ends a creation finds the inserted row. -/
theorem ownedAgent?_created {d : Deps} {r : Draws} {w w₁ : World} {u : UserId}
    {body : AgentConfigIn}
    {newId : AgentId} {suffix : List Char}
    (hins : Inserts w w₁ (newAgent d r u body newId suffix)) :
    w₁.db.ownedAgent? u newId = some (newAgent d r u body newId suffix) := by
  have hself := Table.find?_insert?_self hins.agents
  rw [newAgent_id] at hself
  unfold Db.ownedAgent?
  rw [hself]
  simp

/-- **What a creation with a config does** once its checks have passed and its row is in: it deploys
the row, and the deploy passes its own check. -/
theorem createAgent_deploys {d : Deps} (rt : Runtime) {w w₁ : World} {u : UserId}
    {body : AgentConfigIn} {newId : AgentId} {suffix : List Char}
    (hq : createQuota d w.db u body = .ok ())
    (hi : insertAgent? w (newAgent d rt.draws u body newId suffix) = some w₁)
    (hdep : body.deploy.isSome) :
    createAgent d rt w u body newId suffix = deployAgent d rt w₁ u newId none ∧
      w₁.db.ownedAgent? u newId = some (newAgent d rt.draws u body newId suffix) ∧
      deployQuota d w₁.db (newAgent d rt.draws u body newId suffix) none = .ok () := by
  have hins := insertAgent?_inserts hi
  refine ⟨?_, ownedAgent?_created hins, deployQuota_created hq hins hdep⟩
  obtain ⟨c, hc⟩ := Option.isSome_iff_exists.mp hdep
  unfold createAgent
  rw [hq]
  simp only [hi, hc, newAgent_id]

/-- A deploy past its quota check does not raise `QuotaExceededError`. -/
theorem deployLocal_not_quotaRefused (d : Deps) (rt : Runtime) (old : Agent)
    (deploy : Option DeployConfig) (cs : List Container) :
    ¬ quotaRefused (deployLocal d rt old deploy cs).1 := by
  unfold deployLocal
  simp only
  split
  · exact Bool.false_ne_true
  · cases startContainers d rt (deployedRow d rt.draws old deploy) cs with
    | mk res left => cases res <;> exact Bool.false_ne_true

/-- Neither does a scale. -/
theorem scaleLocal_not_quotaRefused (rt : Runtime) (old : Agent) (direction : ScaleDirection)
    (count : Nat) (cs : List Container) :
    ¬ quotaRefused (scaleLocal rt old direction count cs).1 := by
  unfold scaleLocal
  cases rt.scale old.id direction count cs with
  | mk res left =>
    cases res with
    | ok _ => exact Bool.false_ne_true
    | error e => cases e <;> exact Bool.false_ne_true

theorem deployAgent_quotaRefused {d : Deps} {rt : Runtime} {w : World} {u : UserId} {id : AgentId}
    {deploy : Option DeployConfig} (h : quotaRefused (deployAgent d rt w u id deploy).1) :
    (deployAgent d rt w u id deploy).2 = w := by
  refine deployAgent_refused rt fun old ho hq => ?_
  rw [(deployAgent_local rt ho hq).1] at h
  exact deployLocal_not_quotaRefused _ _ _ _ _ h

theorem scaleAgent_quotaRefused {d : Deps} {rt : Runtime} {w : World} {u : UserId} {id : AgentId}
    {direction : ScaleDirection} {count : Nat}
    (h : quotaRefused (scaleAgent d rt w u id direction count).1) :
    (scaleAgent d rt w u id direction count).2 = w := by
  refine scaleAgent_refused rt fun old ho hq => ?_
  rw [(scaleAgent_local rt ho hq).1] at h
  exact scaleLocal_not_quotaRefused _ _ _ _ _ h

/-- A creation that gets as far as its insert does not raise `QuotaExceededError`. -/
theorem createAgent_quotaRefused {d : Deps} {rt : Runtime} {w : World} {u : UserId}
    {body : AgentConfigIn} {newId : AgentId} {suffix : List Char}
    (h : quotaRefused (createAgent d rt w u body newId suffix).1) :
    (createAgent d rt w u body newId suffix).2 = w := by
  cases hq : createQuota d w.db u body with
  | error e =>
    unfold createAgent
    rw [hq]
  | ok _ =>
    cases hi : insertAgent? w (newAgent d rt.draws u body newId suffix) with
    | none =>
      unfold createAgent
      rw [hq]
      simp only [hi]
    | some w₁ =>
      by_cases hdep : body.deploy.isSome
      · obtain ⟨heq, hown, hq₁⟩ := createAgent_deploys rt hq hi hdep
        rw [heq, (deployAgent_local rt hown hq₁).1] at h
        exact absurd h (deployLocal_not_quotaRefused _ _ _ _ _)
      · have hnone : body.deploy = none := by simpa using hdep
        unfold createAgent at h
        rw [hq] at h
        simp only [hi, hnone] at h
        exact absurd h Bool.false_ne_true

/-- **A quota refusal changes nothing.** Whatever the state and the user, a creation, a deploy or a
scale that raises `QuotaExceededError` leaves rows, containers and the log of runtime calls as they
were; and once the checks of a creation have passed, the check inside its deploy passes too. -/
theorem quotaRefusal_changes_nothing (d : Deps) (rt : Runtime) (w : World) (u : UserId) :
    (∀ body newId suffix, quotaRefused (createAgent d rt w u body newId suffix).1 →
      (createAgent d rt w u body newId suffix).2 = w) ∧
    (∀ id deploy, quotaRefused (deployAgent d rt w u id deploy).1 →
      (deployAgent d rt w u id deploy).2 = w) ∧
    (∀ id direction count, quotaRefused (scaleAgent d rt w u id direction count).1 →
      (scaleAgent d rt w u id direction count).2 = w) ∧
    (∀ body newId suffix w₁, createQuota d w.db u body = .ok () → body.deploy.isSome →
      insertAgent? w (newAgent d rt.draws u body newId suffix) = some w₁ →
      deployQuota d w₁.db (newAgent d rt.draws u body newId suffix) none = .ok ()) := by
  refine ⟨fun _ _ _ => createAgent_quotaRefused, fun _ _ => deployAgent_quotaRefused,
    fun _ _ _ => scaleAgent_quotaRefused, fun body newId suffix w₁ hq hdep hi => ?_⟩
  exact deployQuota_created hq (insertAgent?_inserts hi) hdep

/-- Four replicas on the free plan: refused, and nothing is left behind. -/
theorem quotaRefusal_fourReplicas :
    quotaRefused (createAgent .transparent .obliging freeWorld freeUser.id
        { name := "a", deploy := some fourReplicas } "a" "0000aaaa".toList).1 = true ∧
      (createAgent .transparent .obliging freeWorld freeUser.id
        { name := "a", deploy := some fourReplicas } "a" "0000aaaa".toList).2 = freeWorld := by
  have hrefused : quotaRefused (createAgent .transparent .obliging freeWorld freeUser.id
      { name := "a", deploy := some fourReplicas } "a" "0000aaaa".toList).1 = true := by
    decide +kernel
  exact ⟨hrefused, (quotaRefusal_changes_nothing _ _ _ _).1 _ _ _ hrefused⟩

/-! ## Refused builds -/

/-- The entries of the stored environment that survive a config with environment `env`: provider
keys it does not define. -/
def keptEntries (stored : List EnvEntry) (env : List EnvVar) : List EnvEntry :=
  stored.filter fun e => e.key ∈ providerKeyNames ∧ e.key ∉ env.map EnvVar.key

theorem map_key_envToStorage (d : Deps) (r : Draws) (env : List EnvVar) :
    (envToStorage d r env).map EnvEntry.key = env.map EnvVar.key :=
  map_envToStorage d r (fun _ _ => rfl) env

theorem applyDeployConfig_env (d : Deps) (r : Draws) (a : Agent) (c : DeployConfig) :
    (applyDeployConfig d r a c).env = envToStorage d r c.env ++ keptEntries a.env c.env := by
  unfold keptEntries
  rw [← map_key_envToStorage d r c.env]
  rfl

/-- The tokens of a call are new: Fernet puts the time and a random initialization vector into each,
and no stored secret is one of them. -/
def FreshTokens (d : Deps) (r : Draws) (stored : List EnvEntry) : Prop :=
  ∀ e ∈ stored, e.secret = true → ∀ i v, e.value ≠ d.fernet.encrypt (r.nonce i) v

/-- A variable as it is stored if it is not secret. -/
def plainEntry (v : EnvVar) : EnvEntry where
  key := v.key
  value := v.value
  secret := false

theorem envToStorage_plain (d : Deps) (r : Draws) {env : List EnvVar}
    (h : ∀ v ∈ env, v.secret = false) : envToStorage d r env = env.map plainEntry := by
  refine List.ext_getElem (by simp [envToStorage]) fun i hi hi' => ?_
  have hplain := h _ (List.getElem_mem (by simpa using hi' : i < env.length))
  simp [envToStorage, storedVar, plainEntry, hplain]

/-- The tokens of a call are among the stored entries only if it makes none. -/
theorem plain_of_stored {d : Deps} {r : Draws} {stored : List EnvEntry}
    (hfresh : FreshTokens d r stored) {env : List EnvVar}
    (h : ∀ e ∈ envToStorage d r env, e ∈ stored) : ∀ v ∈ env, v.secret = false := by
  intro v hv
  obtain ⟨i, hi, rfl⟩ := List.getElem_of_mem hv
  have hmem : storedVar d (r.nonce i) env[i] ∈ envToStorage d r env :=
    List.mem_mapIdx.mpr ⟨i, hi, rfl⟩
  by_contra hsecret
  rw [Bool.not_eq_false] at hsecret
  exact hfresh _ (h _ hmem) hsecret i env[i].value (if_pos hsecret)

/-- The row says what the config says: the shape, the environment, of which nothing is secret, and
what is run. -/
structure ConfigStored (a : Agent) (c : DeployConfig) : Prop where
  replicas : a.replicas = c.replicas
  resources : a.resourceColumns = c.resources
  plain : ∀ v ∈ c.env, v.secret = false
  env : a.env = c.env.map plainEntry ++ keptEntries a.env c.env
  image : a.image = c.image
  buildPath : a.buildPath = c.buildPath
  command : a.command = c.command
  args : a.args = c.args
  healthCheckPath : a.healthCheckPath = c.healthCheckPath
  autoScale : a.autoScale = c.autoScale
  minReplicas : a.minReplicas = c.minReplicas
  maxReplicas : a.maxReplicas = c.maxReplicas
  port : a.port = c.port

/-- Applying a config changes nothing exactly when it is stored already. -/
theorem applyDeployConfig_eq_self_iff {d : Deps} {r : Draws} {a : Agent}
    (hfresh : FreshTokens d r a.env) (c : DeployConfig) :
    applyDeployConfig d r a c = a ↔ ConfigStored a c := by
  constructor
  · intro h
    have hcol : ∀ {β : Type} (f : Agent → β), f a = f (applyDeployConfig d r a c) :=
      fun f => congrArg f h.symm
    have henv := (hcol Agent.env).trans (applyDeployConfig_env d r a c)
    have hplain : ∀ v ∈ c.env, v.secret = false :=
      plain_of_stored hfresh fun e he => henv ▸ List.mem_append_left _ he
    exact
      { replicas := hcol Agent.replicas
        resources := hcol Agent.resourceColumns
        plain := hplain
        env := envToStorage_plain d r hplain ▸ henv
        image := hcol Agent.image
        buildPath := hcol Agent.buildPath
        command := hcol Agent.command
        args := hcol Agent.args
        healthCheckPath := hcol Agent.healthCheckPath
        autoScale := hcol Agent.autoScale
        minReplicas := hcol Agent.minReplicas
        maxReplicas := hcol Agent.maxReplicas
        port := hcol Agent.port }
  · intro h
    have hstored : a.env = envToStorage d r c.env ++ keptEntries a.env c.env := by
      rw [envToStorage_plain d r h.plain]
      exact h.env
    have henv := hstored.trans (applyDeployConfig_env d r a c).symm
    unfold applyDeployConfig at henv ⊢
    simp only at henv ⊢
    rw [← henv, ← h.replicas, ← h.resources, ← h.image, ← h.buildPath, ← h.command, ← h.args,
      ← h.healthCheckPath, ← h.autoScale, ← h.minReplicas, ← h.maxReplicas, ← h.port]
    rfl

theorem deployQuota_ne_buildNotSupported (d : Deps) (db : Db) (a : Agent)
    (deploy : Option DeployConfig) : deployQuota d db a deploy ≠ .error .buildNotSupported := by
  unfold deployQuota ensureResources
  split
  · simp [invalidToken]
  · simp only
    split_ifs
    · simp
    · simp
    · simp
    · split <;> simp

/-- A deploy raises `BuildNotSupportedError` only past its quota check, for a row that needs a
build. -/
theorem deployAgent_buildNotSupported {d : Deps} {rt : Runtime} {w : World} {u : UserId}
    {id : AgentId} {deploy : Option DeployConfig} {old : Agent}
    (ho : w.db.ownedAgent? u id = some old)
    (h : (deployAgent d rt w u id deploy).1 = .error .buildNotSupported) :
    deployQuota d w.db old deploy = .ok () ∧
      needsBuild (deployedRow d rt.draws old deploy) = true := by
  cases hq : deployQuota d w.db old deploy with
  | error e =>
    rw [deployAgent_overQuota ho hq] at h
    have hquota : e ≠ .buildNotSupported := by
      rintro rfl
      exact absurd hq (deployQuota_ne_buildNotSupported d w.db old deploy)
    exact absurd (Except.error.inj h) hquota
  | ok _ =>
    refine ⟨rfl, ?_⟩
    rw [(deployAgent_local rt ho hq).1] at h
    unfold deployLocal at h
    simp only at h
    split at h
    · rename_i hbuild
      exact hbuild
    · cases hout : startContainers d rt (deployedRow d rt.draws old deploy) (w.containers id) with
      | mk res left =>
        rw [hout] at h
        cases res <;> cases h

/-- **A refused build keeps the agent's row exactly when the config it was sent is stored already**
and has no secret variable. The containers stay as they are in any case, and no runtime call is
made. -/
theorem buildRefusal_keeps_row_iff (d : Deps) (rt : Runtime) (w : World) (u : UserId) (id : AgentId)
    (deploy : Option DeployConfig) (old : Agent) (ho : w.db.ownedAgent? u id = some old)
    (hfresh : FreshTokens d rt.draws old.env)
    (hraised : (deployAgent d rt w u id deploy).1 = .error .buildNotSupported) :
    (deployAgent d rt w u id deploy).2.containers = w.containers ∧
      (deployAgent d rt w u id deploy).2.calls = w.calls ∧
      ((deployAgent d rt w u id deploy).2.db.agents.find? id = some old ↔
        ∀ c ∈ deploy, ConfigStored old c) := by
  obtain ⟨hq, hbuild⟩ := deployAgent_buildNotSupported ho hraised
  obtain ⟨-, hrw, hcalls⟩ := deployAgent_local rt ho hq
  obtain ⟨-, -, rfl⟩ := Db.ownedAgent?_eq_some ho
  have hlocal : deployLocal d rt old deploy (w.containers old.id) =
      (.error .buildNotSupported, deployedRow d rt.draws old deploy, w.containers old.id) :=
    if_pos hbuild
  rw [hlocal] at hrw
  refine ⟨funext fun i => ?_, ?_, ?_⟩
  · rw [hrw.containers]
    split_ifs with hi
    · rw [hi]
    · rfl
  · rw [hcalls, deployCallsOf, if_pos hbuild, List.append_nil]
  · have hstored : (deployAgent d rt w u old.id deploy).2.db.agents.find? old.id =
        some (deployedRow d rt.draws old deploy) := hrw.id ▸ hrw.stored
    rw [hstored, Option.some.injEq]
    cases deploy with
    | none => simp [deployedRow]
    | some c => simpa [deployedRow] using applyDeployConfig_eq_self_iff hfresh c

/-- The body `{"replicas": 3, "build_path": "./agent"}`. -/
def buildBody : DeployBody where
  replicas := some 3
  buildPath := some "./agent"

def buildConfig : AcceptedConfig where
  val := buildBody.build {} []
  property := ⟨buildBody, by decide +kernel⟩

/-- The same with a secret variable. -/
def secretBuildConfig : AcceptedConfig where
  val := { buildConfig.1 with env := [⟨"TOKEN", "t-1", true⟩] }
  property := ⟨{ buildBody with env := some [⟨"TOKEN", "t-1", true⟩] }, by decide +kernel⟩

/-- The agent `a` of the free account after a creation with `c` and perhaps an `api_key`. -/
def createdWorld (c : AcceptedConfig) (apiKey : Option String := none) : World :=
  (createAgent .transparent .obliging freeWorld freeUser.id
    { name := "a", apiKey := apiKey, deploy := some c } "a" "0000aaaa".toList).2

/-- The row of `a` there. -/
def createdRow (c : AcceptedConfig) (apiKey : Option String := none) : Option Agent :=
  (createdWorld c apiKey).db.ownedAgent? freeUser.id "a"

/-- The nonce a dotted token was made with. -/
def dots (token : String) : Nat := (token.toList.takeWhile (· = '.')).length

theorem dots_encrypt (n : Nonce) (v : String) : dots (Fernet.dotted.encrypt n v) = n := by
  unfold dots Fernet.dotted
  simp [List.takeWhile_append_of_pos]

/-- What a call some time after the creation meets and draws. -/
def laterCall : Runtime :=
  { Runtime.obliging with
    draws :=
      { now := 1
        nonce := fun i => i + 10 } }

theorem freshTokens_laterCall {stored : List EnvEntry}
    (h : ∀ e ∈ stored, e.secret = true → dots e.value < 10) :
    FreshTokens .transparent laterCall.draws stored := by
  intro e he hsecret i v hvalue
  have hlt := h e he hsecret
  rw [hvalue] at hlt
  have hdots : dots (Deps.transparent.fernet.encrypt (laterCall.draws.nonce i) v) = i + 10 :=
    dots_encrypt _ _
  omega

/-- A build that was refused once is refused again. The second refusal keeps the row, a stored
provider key with it, unless the config has a secret variable. -/
theorem buildRefusal_repeated :
    (∃ old, createdRow buildConfig (some "sk-1") = some old ∧
      (deployAgent .transparent laterCall (createdWorld buildConfig (some "sk-1")) freeUser.id "a"
        (some buildConfig.1)).2.db.agents.find? "a" = some old) ∧
    ∃ old, createdRow secretBuildConfig = some old ∧
      (deployAgent .transparent laterCall (createdWorld secretBuildConfig) freeUser.id "a"
        (some secretBuildConfig.1)).2.db.agents.find? "a" ≠ some old := by
  have hkeyed : ∃ old, createdRow buildConfig (some "sk-1") = some old ∧
      (∀ e ∈ old.env, e.secret = true → dots e.value < 10) ∧
      applyDeployConfig .transparent laterCall.draws old buildConfig.1 = old ∧
      (deployAgent .transparent laterCall (createdWorld buildConfig (some "sk-1")) freeUser.id "a"
        (some buildConfig.1)).1 = .error .buildNotSupported := by
    refine ⟨(createdRow buildConfig (some "sk-1")).get (by decide +kernel), by decide +kernel,
      ?_, ?_, ?_⟩
    all_goals decide +kernel
  have hsecret : ∃ old, createdRow secretBuildConfig = some old ∧
      (∀ e ∈ old.env, e.secret = true → dots e.value < 10) ∧
      (deployAgent .transparent laterCall (createdWorld secretBuildConfig) freeUser.id "a"
        (some secretBuildConfig.1)).1 = .error .buildNotSupported := by
    refine ⟨(createdRow secretBuildConfig).get (by decide +kernel), by decide +kernel, ?_, ?_⟩
    all_goals decide +kernel
  constructor
  · obtain ⟨old, ho, hdots, hsame, hraised⟩ := hkeyed
    have hfresh := freshTokens_laterCall hdots
    refine ⟨old, ho, (buildRefusal_keeps_row_iff .transparent laterCall _ freeUser.id "a" _ old ho
      hfresh hraised).2.2.mpr fun c hc => ?_⟩
    obtain rfl := Option.some.inj hc
    exact (applyDeployConfig_eq_self_iff hfresh _).mp hsame
  · obtain ⟨old, ho, hdots, hraised⟩ := hsecret
    refine ⟨old, ho, fun hkept => ?_⟩
    have hstored := (buildRefusal_keeps_row_iff .transparent laterCall _ freeUser.id "a" _ old ho
      (freshTokens_laterCall hdots) hraised).2.2.mp hkept secretBuildConfig.1 rfl
    exact absurd (hstored.plain _ List.mem_cons_self) (by decide)

/-- **A refused build overwrites the row of a running agent**: it has one container, and its row
says three replicas and no image. -/
theorem buildRefusal_overwrites_row : ∃ old new, createdRow oneReplica = some old ∧
    (deployAgent .transparent .obliging (createdWorld oneReplica) freeUser.id "a"
      (some buildConfig.1)).1 = .error .buildNotSupported ∧
    (deployAgent .transparent .obliging (createdWorld oneReplica) freeUser.id "a"
      (some buildConfig.1)).2.db.agents.find? "a" = some new ∧
    new ≠ old ∧ new.status = .running ∧ new.replicas = 3 ∧
    ((createdWorld oneReplica).containers "a").length = 1 := by
  refine ⟨(createdRow oneReplica).get (by decide +kernel),
    applyDeployConfig .transparent {} ((createdRow oneReplica).get (by decide +kernel))
      buildConfig.1,
    ?_, ?_, ?_, ?_, ?_, ?_, ?_⟩
  all_goals decide +kernel

end Gateway
