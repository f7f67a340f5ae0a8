import Gateway.Agents.Quota
import Gateway.Ingress.Host

/-!
# The agent service (`services/agent_service.py`)

The environment bookkeeping, the stored and the displayed deploy config, and the five operations
that change agents. An operation takes the `Runtime` it will meet and answers together with the
`World` it leaves; random ids and slug suffixes are arguments, and the nonces of the tokens it makes
and the time of its transaction are the `draws` that come with its `Runtime`.
-/

namespace Gateway

open Lib

/-! ## Environment entries -/

/-- `_SECRET_MASK`. -/
def secretMask : String := "***"

/-- `_PROVIDER_KEY_ENV`. -/
def providerKeyEnv : LLMProvider → String
  | .openai => "OPENAI_API_KEY"
  | .anthropic => "ANTHROPIC_API_KEY"
  | .google => "GOOGLE_API_KEY"

/-- `_PROVIDER_KEY_ENV.values()`. -/
def providerKeyNames : List String :=
  [providerKeyEnv .openai, providerKeyEnv .anthropic, providerKeyEnv .google]

/-- A variable as it is stored: a secret is encrypted, with nonce `n`. -/
def storedVar (d : Deps) (n : Nonce) (e : EnvVar) : EnvEntry where
  key := e.key
  value := if e.secret then d.fernet.encrypt n e.value else e.value
  secret := e.secret

/-- `_env_to_storage`: every `encrypt_secret` draws its own nonce. -/
def envToStorage (d : Deps) (r : Draws) (env : List EnvVar) : List EnvEntry :=
  env.mapIdx fun i e => storedVar d (r.nonce i) e

/-- The variable shown for a stored entry: a secret's value is masked. -/
def maskedVar (e : EnvEntry) : EnvVar where
  key := e.key
  value := if e.secret then secretMask else e.value
  secret := e.secret

/-- `_env_from_storage_masked`. -/
def envFromStorageMasked (stored : List EnvEntry) : Except (List FieldError) (List EnvVar) :=
  stored.mapM fun e => (maskedVar e).validate

/-- What `SecretDecryptionError` says. -/
def secretDecryptionFailed : String :=
  "Failed to decrypt a stored secret — the encryption key may have changed."

/-- `_env_for_container`: the dictionary of plain values, or the error text. -/
def envForContainer (d : Deps) (stored : List EnvEntry) : Except String (Dict String String) :=
  stored.foldlM
    (fun plain e =>
      if e.secret then
        match d.fernet.decrypt e.value with
        | some v => .ok (plain.set e.key v)
        | none => .error secretDecryptionFailed
      else .ok (plain.set e.key e.value))
    []

/-- `_with_provider_key`; its token comes after those of the entries in `env`. -/
def withProviderKey (d : Deps) (r : Draws) (env : List EnvEntry) (model apiKey : String) :
    List EnvEntry :=
  let keyName := providerKeyEnv (d.forModel model)
  (env.filter fun e => e.key ≠ keyName) ++
    [{ key := keyName, value := d.fernet.encrypt (r.nonce env.length) apiKey, secret := true }]

/-! ## The stored deploy config -/

/-- `_apply_deploy_config`. -/
def applyDeployConfig (d : Deps) (r : Draws) (a : Agent) (deploy : DeployConfig) : Agent :=
  let newEnv := envToStorage d r deploy.env
  let redefined := newEnv.map EnvEntry.key
  let kept := a.env.filter fun e => e.key ∈ providerKeyNames ∧ e.key ∉ redefined
  { a with
    replicas := deploy.replicas
    cpu := deploy.resources.cpu
    memoryMb := deploy.resources.memoryMb
    gpu := deploy.resources.gpu
    gpuType := deploy.resources.gpuType
    diskGb := deploy.resources.diskGb
    ephemeralStorageGb := deploy.resources.ephemeralStorageGb
    env := newEnv ++ kept
    image := deploy.image
    buildPath := deploy.buildPath
    command := deploy.command
    args := deploy.args
    healthCheckPath := deploy.healthCheckPath
    autoScale := deploy.autoScale
    minReplicas := deploy.minReplicas
    maxReplicas := deploy.maxReplicas
    port := deploy.port }

/-- The keyword arguments `_deploy_config_from_agent` gives `ResourceLimits`. -/
def resourcesBody (a : Agent) : ResourceLimitsBody where
  cpu := some a.cpu
  memoryMb := some a.memoryMb
  gpu := some a.gpu
  gpuType := a.gpuType
  diskGb := some a.diskGb
  ephemeralStorageGb := some a.ephemeralStorageGb

/-- The keyword arguments it gives `DeployConfig`, the two nested models apart. -/
def deployBody (a : Agent) : DeployBody where
  replicas := some a.replicas
  image := a.image
  buildPath := a.buildPath
  command := a.command
  args := some a.args
  healthCheckPath := a.healthCheckPath
  autoScale := some a.autoScale
  minReplicas := some a.minReplicas
  maxReplicas := some a.maxReplicas
  port := some a.port

/-- `_deploy_config_from_agent`: the nested models are validated first and are not validated again
as fields of `DeployConfig`. -/
def deployConfigFromAgent (a : Agent) : Except (List FieldError) DeployConfig :=
  match (resourcesBody a).validate with
  | .error es => .error es
  | .ok resources =>
    match envFromStorageMasked a.env with
    | .error es => .error es
    | .ok env =>
      if (deployBody a).errorsWith [] [] = [] then .ok ((deployBody a).build resources env)
      else .error ((deployBody a).errorsWith [] [])

/-- `has_deploy_config` of `to_agent_response`. -/
def hasDeployConfig (a : Agent) : Bool :=
  a.status ≠ .pending || a.image.isSome || a.buildPath.isSome

/-- `to_agent_response`. -/
def toAgentResponse (s : Settings) (a : Agent) : Except (List FieldError) AgentResponse :=
  let respond (deploy : Option DeployConfig) : AgentResponse :=
    { id := a.id
      name := a.name
      runtime := a.runtime
      framework := a.framework
      model := a.model
      status := a.status
      url := publicUrl s a
      deploy := deploy
      tags := a.tags
      metadata := a.agentMetadata
      error := a.error
      version := a.version
      replicas := a.replicas
      access := a.access
      rateLimitRpm := a.rateLimitRpm }
  if hasDeployConfig a then
    match deployConfigFromAgent a with
    | .ok deploy => .ok (respond (some deploy))
    | .error es => .error es
  else .ok (respond none)

/-! ## Deploying -/

/-- The quota check of `deploy_agent`: the shape it is about to run. -/
def deployQuota (d : Deps) (db : Db) (a : Agent) (deploy : Option DeployConfig) :
    Except GatewayError Unit :=
  ensureResources d db a.userId (some a.id)
    (deploy.elim a.replicas DeployConfig.replicas)
    (deploy.elim a.cpu fun c => c.resources.cpu)
    (deploy.elim a.memoryMb fun c => c.resources.memoryMb)

/-- The arguments of the `rt.deploy_agent` call. -/
def deployArgs (a : Agent) (env : Dict String String) : DeployArgs where
  agentId := a.id
  name := a.name
  model := a.model
  systemPrompt := a.systemPrompt
  replicas := a.replicas
  env := env
  image := a.image
  cpu := a.cpu
  memoryMb := a.memoryMb

/-- The `try` block of `deploy_agent`: the returned containers or the text of what was raised,
and the containers the agent has afterwards. -/
def startContainers (d : Deps) (rt : Runtime) (a : Agent) (cs : List Container) :
    Except String (List Container) × List Container :=
  match envForContainer d a.env with
  | .error msg => (.error msg, cs)
  | .ok env =>
    match rt.deploy (deployArgs a env) cs with
    | (.ok started, left) => (.ok started, left)
    | (.error e, left) => (.error e.str, left)

/-- The runtime call the `try` block makes, unless decryption fails before it. -/
def deployCalls (d : Deps) (a : Agent) : List RuntimeCall :=
  match envForContainer d a.env with
  | .error _ => []
  | .ok env => [.deploy (deployArgs a env)]

/-- The row `deploy_agent` works on once a sent config has been applied. -/
def deployedRow (d : Deps) (r : Draws) (a : Agent) (deploy : Option DeployConfig) : Agent :=
  deploy.elim a (applyDeployConfig d r a)

/-- What `BuildNotSupportedError` is raised for: a build path and no image. -/
def needsBuild (a : Agent) : Bool := a.image.isNone && a.buildPath.isSome

/-- `deploy_agent`. -/
def deployAgent (d : Deps) (rt : Runtime) (w : World) (userId : UserId) (agentId : AgentId)
    (deploy : Option DeployConfig) : Except GatewayError Agent × World :=
  match w.db.ownedAgent? userId agentId with
  | none => (.error (.agentNotFound agentId), w)
  | some agent =>
    match deployQuota d w.db agent deploy with
    | .error e => (.error e, w)
    | .ok () =>
      let agent := deployedRow d rt.draws agent deploy
      -- The new config is committed before the build check can refuse it.
      let w := deploy.elim w fun _ => w.saveAgent agent
      if needsBuild agent then (.error .buildNotSupported, w)
      else
        let agent := { agent with status := .starting }
        let w := w.saveAgent agent
        let out := startContainers d rt agent (w.containers agent.id)
        let w := { w with calls := w.calls ++ deployCalls d agent }.setContainers agent.id out.2
        match out.1 with
        | .error msg =>
          let agent := { agent with status := .failed, error := some msg }
          (.error (.deploymentFailed agent.id msg), w.saveAgent agent)
        | .ok started =>
          let agent :=
            { agent with
              status := .running
              replicas := started.length
              error := none
              version := agent.version + 1 }
          (.ok agent, w.saveAgent agent)

/-! ## Creating, updating, deleting -/

/-- The row `create_agent` builds. -/
def newAgent (d : Deps) (r : Draws) (userId : UserId) (body : AgentConfigIn) (newId : AgentId)
    (suffix : List Char) : Agent :=
  let agent : Agent :=
    { id := newId
      slug := newSlug d body.name suffix
      userId := userId
      name := body.name
      runtime := body.runtime
      framework := body.framework
      model := body.model
      systemPrompt := body.systemPrompt
      tags := body.tags
      agentMetadata := body.metadata
      access := body.access
      status := .pending
      createdAt := r.now }
  let agent := body.deploy.elim agent fun c => applyDeployConfig d r agent c.1
  match body.apiKey.filter (· ≠ "") with
  | some apiKey => { agent with env := withProviderKey d r agent.env body.model apiKey }
  | none => agent

/-- The quota checks of `create_agent`. -/
def createQuota (d : Deps) (db : Db) (userId : UserId) (body : AgentConfigIn) :
    Except GatewayError Unit :=
  match ensureCanCreateAgent d db userId with
  | .error e => .error e
  | .ok () =>
    match body.deploy with
    | none => .ok ()
    | some c =>
      ensureResources d db userId none c.1.replicas c.1.resources.cpu c.1.resources.memoryMb

/-- Insert a row of `agents`: the primary key and the unique slug must be free. -/
def insertAgent? (w : World) (a : Agent) : Option World :=
  if a.slug ∈ w.db.agents.rows.map Agent.slug then none
  else (w.db.agents.insert? a).map fun t => { w with db := { w.db with agents := t } }

/-- `create_agent`. -/
def createAgent (d : Deps) (rt : Runtime) (w : World) (userId : UserId) (body : AgentConfigIn)
    (newId : AgentId) (suffix : List Char) : Except GatewayError Agent × World :=
  match createQuota d w.db userId body with
  | .error e => (.error e, w)
  | .ok () =>
    let agent := newAgent d rt.draws userId body newId suffix
    match insertAgent? w agent with
    | none => (.error .integrity, w)
    | some w =>
      match body.deploy with
      | none => (.ok agent, w)
      | some _ => deployAgent d rt w userId agent.id none

/-- `update_agent`. -/
def updateAgent (w : World) (userId : UserId) (agentId : AgentId) (body : AgentUpdate) :
    Except GatewayError Agent × World :=
  match w.db.ownedAgent? userId agentId with
  | none => (.error (.agentNotFound agentId), w)
  | some agent =>
    let agent :=
      { agent with
        access := body.access.getD agent.access
        rateLimitRpm := body.rateLimitRpm.getD agent.rateLimitRpm }
    (.ok agent, w.saveAgent agent)

/-- Deleting a row of `agents` cascades to its access keys. -/
def deleteRow (w : World) (agentId : AgentId) : World :=
  { w with db := { w.db with
      agents := w.db.agents.erase agentId
      accessKeys := w.db.accessKeys.filter fun k => k.agentId ≠ agentId } }

/-- `delete_agent`. -/
def deleteAgent (rt : Runtime) (w : World) (userId : UserId) (agentId : AgentId) :
    Except GatewayError Unit × World :=
  match w.db.ownedAgent? userId agentId with
  | none => (.error (.agentNotFound agentId), w)
  | some agent =>
    let out := rt.remove agent.id (w.containers agent.id)
    let w := (w.logCall (.remove agent.id)).setContainers agent.id out.2
    match out.1 with
    | .error e => (.error (.core e), w)
    | .ok () => (.ok (), deleteRow w agent.id)

/-! ## Scaling -/

/-- The quota check of `scale_agent`: only on the way up. -/
def scaleQuota (d : Deps) (db : Db) (a : Agent) (direction : ScaleDirection) (count : Nat) :
    Except GatewayError Unit :=
  match direction with
  | .up => ensureResources d db a.userId (some a.id) (a.replicas + count) a.cpu a.memoryMb
  | .down => .ok ()

/-- `len(live_containers) or agent.replicas`. -/
def liveOr (live : Nat) (replicas : Nat) : Nat := if live = 0 then replicas else live

/-- `scale_agent`: the agent and its replica count before. Only the two core errors are caught;
anything else leaves the row at `scaling`. -/
def scaleAgent (d : Deps) (rt : Runtime) (w : World) (userId : UserId) (agentId : AgentId)
    (direction : ScaleDirection) (count : Nat) : Except GatewayError (Agent × Nat) × World :=
  match w.db.ownedAgent? userId agentId with
  | none => (.error (.agentNotFound agentId), w)
  | some agent =>
    let previousReplicas := agent.replicas
    match scaleQuota d w.db agent direction count with
    | .error e => (.error e, w)
    | .ok () =>
      let agent := { agent with status := .scaling }
      let w := w.saveAgent agent
      let out := rt.scale agent.id direction count (w.containers agent.id)
      let w := (w.logCall (.scale agent.id direction count)).setContainers agent.id out.2
      match out.1 with
      | .error (.other msg) => (.error (.core (.other msg)), w)
      | .error e =>
        let agent := { agent with status := .failed, error := some e.str }
        (.error (.deploymentFailed agent.id e.str), w.saveAgent agent)
      | .ok () =>
        match rt.getContainers agent.id out.2 with
        | .error e => (.error (.core e), w)
        | .ok liveContainers =>
          let agent :=
            { agent with
              replicas := liveOr liveContainers.length agent.replicas
              status := .running }
          (.ok (agent, previousReplicas), w.saveAgent agent)

end Gateway
