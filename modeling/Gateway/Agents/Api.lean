import Gateway.Accounts.Model
import Gateway.Ingress.AccessKeys

/-!
# The agents API (`routers/agents.py`)

Every endpoint of `/v1/agents`: the request it takes, the dependency that guards it, and the
handler, which answers and leaves a world. Logs and metrics read the runtime (`RuntimeReads`); what
they call is not part of the call log. `list_agents` sorts by `created_at`, and a query may put rows
of one instant in any order (`ties`); access keys are kept in the order they were created in.
-/

namespace Gateway

open Lib

/-! ## What the reads return -/

/-- A line as `rt.get_logs` returns it, with the text of its timestamp. -/
structure RawLog where
  replicaId : String
  timestamp : String
  message : String
  deriving DecidableEq, Repr

/-- An entry of `health["containers"]` as `get_metrics` reads it; a missing number is `none`. -/
structure ContainerStats where
  cpuPercent : Option ℚ := none
  memoryMb : Option ℚ := none
  deriving DecidableEq, Repr

/-- The calls that only read: `get_logs`, and `health_check` for its `containers`. -/
structure RuntimeReads where
  getLogs : AgentId → Option String → Nat → List Container → Except CoreError (List RawLog)
  stats : AgentId → List Container → Except CoreError (Option (List ContainerStats))

/-- The imported functions of the API: those of the services, `str.upper`, pydantic's reading of a
timestamp, to the microsecond, and `round(x, 2)`. -/
structure ApiDeps extends Deps where
  upper : List Char → List Char
  readTimestamp : String → Instant
  round2 : Rounding (1 / 100)

/-- `AgentLog`; `metadata` is always empty. -/
structure AgentLog where
  agentId : AgentId
  replicaId : String
  timestamp : Instant
  level : String
  message : String
  source : String
  deriving DecidableEq, Repr

/-- `LogListResponse`; `next_cursor` is always null. -/
structure LogListResponse where
  logs : List AgentLog
  total : Nat
  hasNext : Bool
  deriving DecidableEq, Repr

/-- `Metrics`, the fields that are always 0 left out. -/
structure Metrics where
  agentId : AgentId
  timestamp : Instant
  cpuPercent : ℚ
  memoryMb : Int
  memoryPercent : ℚ
  replicas : Nat
  deriving DecidableEq, Repr

/-- What the two event streams send. -/
inductive StreamEvent where
  | log (entry : AgentLog)
  | metric (metrics : Metrics)
  | heartbeat
  deriving DecidableEq, Repr

/-! ## The reading services -/

/-- `AgentStatus.value`. -/
def AgentStatus.value : AgentStatus → String
  | .pending => "pending"
  | .building => "building"
  | .starting => "starting"
  | .running => "running"
  | .scaling => "scaling"
  | .stopping => "stopping"
  | .stopped => "stopped"
  | .failed => "failed"
  | .crashed => "crashed"

/-- The agents of a user. -/
def Db.agentsOf (db : Db) (userId : UserId) : List Agent :=
  db.agents.rows.filter fun a => a.userId = userId

/-- `list_access_keys`. -/
def Db.keysOf (db : Db) (agentId : AgentId) : List AgentAccessKey :=
  db.accessKeys.rows.filter fun k => k.agentId = agentId

/-- `get_agent`. -/
def getAgent (db : Db) (userId : UserId) (agentId : AgentId) : Except GatewayError Agent :=
  match db.ownedAgent? userId agentId with
  | none => .error (.agentNotFound agentId)
  | some agent => .ok agent

/-- The `page` and `page_size` of a request. -/
structure PageQuery where
  page : Nat := 1
  pageSize : Nat := 20
  inRange : 1 ≤ page ∧ 1 ≤ pageSize ∧ pageSize ≤ 100

/-- What a request without them asks for. -/
def PageQuery.default : PageQuery where
  inRange := by decide

/-- The rows that meet the conditions of `list_agents`. -/
def Db.agentsMatching (db : Db) (userId : UserId) (status tag : Option String) : List Agent :=
  (db.agentsOf userId).filter fun a =>
    (truthy status).all (a.status.value = ·) ∧ (truthy tag).all (· ∈ a.tags)

/-- `order_by(Agent.created_at.desc())`: rows of one instant come in the order of `ties`. -/
def ListedBefore (ties : AgentId → Nat) (a b : Agent) : Prop :=
  b.createdAt < a.createdAt ∨ a.createdAt = b.createdAt ∧ ties a.id ≤ ties b.id

instance decidableListedBefore (ties : AgentId → Nat) : DecidableRel (ListedBefore ties) :=
  fun a b => inferInstanceAs (Decidable (b.createdAt < a.createdAt ∨ _))

/-- The `count` of `list_agents`. -/
def countAgents (db : Db) (userId : UserId) (status tag : Option String) : Nat :=
  (db.agentsMatching userId status tag).length

/-- The rows `list_agents` selects. -/
def selectAgents (ties : AgentId → Nat) (db : Db) (userId : UserId) (status tag : Option String)
    (q : PageQuery) : List Agent :=
  let found := (db.agentsMatching userId status tag).insertionSort (ListedBefore ties)
  (found.drop ((q.page - 1) * q.pageSize)).take q.pageSize

/-- `list_agents`: the page, newest first, and the total. -/
def listAgents (ties : AgentId → Nat) (db : Db) (userId : UserId) (status tag : Option String)
    (q : PageQuery) : List Agent × Nat :=
  (selectAgents ties db userId status tag q, countAgents db userId status tag)

/-- The `level` filter of `get_logs`. -/
def matchesLevel (d : ApiDeps) (level : String) (line : AgentLog) : Bool :=
  d.lower level.toList <:+: d.lower line.message.toList ∨ d.upper level.toList = line.level.toList

/-- The lines `get_logs` answers for what the runtime returned. -/
def shownLogs (d : ApiDeps) (agentId : AgentId) (level : Option String) (limit : Nat)
    (raw : List RawLog) : List AgentLog :=
  let logs := raw.map fun e =>
    { agentId := agentId
      replicaId := e.replicaId
      timestamp := d.readTimestamp e.timestamp
      level := "INFO"
      message := e.message
      source := "stdout" : AgentLog }
  let logs := (truthy level).elim logs fun level => logs.filter (matchesLevel d level)
  logs.drop (logs.length - limit)

/-- `get_logs`. -/
def getLogs (d : ApiDeps) (reads : RuntimeReads) (w : World) (userId : UserId) (agentId : AgentId)
    (level replicaId : Option String) (limit : Nat) : Except GatewayError (List AgentLog) :=
  match w.db.ownedAgent? userId agentId with
  | none => .error (.agentNotFound agentId)
  | some agent =>
    match reads.getLogs agent.id replicaId limit (w.containers agent.id) with
    | .error (.containerNotFound _) => .ok []
    | .error e => .error (.core e)
    | .ok raw => .ok (shownLogs d agent.id level limit raw)

/-- `int(x)`: towards zero. -/
def truncated (x : ℚ) : Int := if 0 ≤ x then x.floor else -(-x).floor

/-- The mean over the reported containers, a missing number counting as 0. -/
def meanOf (read : ContainerStats → Option ℚ) (cs : List ContainerStats) : ℚ :=
  (cs.map fun c => (read c).getD 0).sum / (if cs.length = 0 then 1 else cs.length : Nat)

/-- The `Metrics` that `get_metrics` builds from what the runtime reported. -/
def metricsOf (d : ApiDeps) (agent : Agent) (now : Instant) (cs : List ContainerStats) :
    Metrics where
  agentId := agent.id
  timestamp := now
  cpuPercent := d.round2.round (meanOf ContainerStats.cpuPercent cs)
  memoryMb := truncated (meanOf ContainerStats.memoryMb cs)
  memoryPercent := d.round2.round
    (if agent.memoryMb = 0 then 0
      else min 100 (meanOf ContainerStats.memoryMb cs / agent.memoryMb * 100))
  replicas := cs.length

/-- The constraints of `Metrics`. -/
def Metrics.errors (m : Metrics) : List FieldError :=
  let atLeastZero (field : String) : FieldError :=
    ⟨[field], "Input should be greater than or equal to 0"⟩
  (if m.cpuPercent < 0 then [atLeastZero "cpu_percent"] else []) ++
    (if m.memoryMb < 0 then [atLeastZero "memory_mb"] else []) ++
    checkRange "memory_percent" 0 100 "0" "100" m.memoryPercent

/-- `get_metrics`. -/
def getMetrics (d : ApiDeps) (reads : RuntimeReads) (now : Instant) (w : World) (userId : UserId)
    (agentId : AgentId) : Except GatewayError Metrics :=
  match w.db.ownedAgent? userId agentId with
  | none => .error (.agentNotFound agentId)
  | some agent =>
    match reads.stats agent.id (w.containers agent.id) with
    | .error e => .error (.core e)
    | .ok stats =>
      let m := metricsOf d agent now (stats.getD [])
      if m.errors = [] then .ok m else .error (.validation m.errors)

/-! ## The event streams -/

/-- One turn of `stream_logs`: the lines not seen before and a heartbeat. -/
def pollLogs (d : ApiDeps) (w : World) (userId : UserId) (agentId : AgentId)
    (level : Option String) (seen : List (String × Instant)) (reads : RuntimeReads) :
    List StreamEvent × List (String × Instant) :=
  -- An error of the poll is logged and the stream goes on.
  let logs := (getLogs d reads w userId agentId level none 200).toOption.getD []
  let out := logs.foldl
    (fun (acc : List StreamEvent × List (String × Instant)) entry =>
      let key := (entry.replicaId, entry.timestamp)
      if key ∈ acc.2 then acc else (acc.1 ++ [.log entry], key :: acc.2))
    ([], seen)
  (out.1 ++ [.heartbeat], out.2)

/-- The events of `stream_logs` over its polls. -/
def streamLogs (d : ApiDeps) (w : World) (userId : UserId) (agentId : AgentId)
    (level : Option String) : List (String × Instant) → List RuntimeReads → List StreamEvent
  | _, [] => []
  | seen, reads :: polls =>
    let out := pollLogs d w userId agentId level seen reads
    out.1 ++ streamLogs d w userId agentId level out.2 polls

/-- The events of `stream_metrics` over its polls. -/
def streamMetrics (d : ApiDeps) (w : World) (userId : UserId) (agentId : AgentId)
    (polls : List (RuntimeReads × Instant)) : List StreamEvent :=
  polls.map fun poll =>
    match getMetrics d poll.1 poll.2 w userId agentId with
    | .ok m => .metric m
    | .error _ => .heartbeat

/-! ## Requests and answers -/

/-- The query of `GET …/logs`; `cursor` is ignored. -/
structure LogQuery where
  level : Option String := none
  replicaId : Option String := none
  limit : Nat := 100
  inRange : 1 ≤ limit ∧ limit ≤ 1000

/-- What a creation draws: the agent's id and slug suffix, and the id and token of its first key. -/
structure CreateDraws where
  newId : AgentId
  suffix : List Char
  keyId : KeyId
  token : String

/-- A request to `/v1/agents`, with what it draws and, for a stream, the polls it makes. -/
inductive AgentsRequest where
  | create (body : AgentConfigIn) (draws : CreateDraws)
  | list (status tag : Option String) (q : PageQuery)
  | get (agentId : AgentId)
  | update (agentId : AgentId) (body : AgentUpdate)
  | listAccessKeys (agentId : AgentId)
  | createAccessKey (agentId : AgentId) (label : Option String) (keyId : KeyId) (token : String)
  | deleteAccessKey (agentId : AgentId) (keyId : KeyId)
  | delete (agentId : AgentId)
  | deploy (agentId : AgentId) (body : Option AcceptedConfig)
  | scale (agentId : AgentId) (body : ScaleRequest)
  | logs (agentId : AgentId) (q : LogQuery)
  | streamLogs (agentId : AgentId) (level : Option String) (polls : List RuntimeReads)
  | metrics (agentId : AgentId)
  | streamMetrics (agentId : AgentId) (polls : List (RuntimeReads × Instant))

/-- `require_developer`. -/
def requireDeveloper : Guard := .role .operator false

/-- The dependency each endpoint names: viewers can look, changing takes the developer role. -/
def AgentsRequest.guard : AgentsRequest → Guard
  | .create _ _ => requireDeveloper
  | .list _ _ _ => .currentPrincipal
  | .get _ => .currentPrincipal
  | .update _ _ => requireDeveloper
  | .listAccessKeys _ => .currentPrincipal
  | .createAccessKey _ _ _ _ => requireDeveloper
  | .deleteAccessKey _ _ => requireDeveloper
  | .delete _ => requireDeveloper
  | .deploy _ _ => requireDeveloper
  | .scale _ _ => requireDeveloper
  | .logs _ _ => .currentPrincipal
  | .streamLogs _ _ _ => .currentPrincipal
  | .metrics _ => .currentPrincipal
  | .streamMetrics _ _ => .currentPrincipal

/-- `AccessKeyOut`. -/
structure AccessKeyOut where
  id : KeyId
  label : String
  keyPreview : String
  deriving DecidableEq, Repr

/-- `_access_key_out`. -/
def accessKeyOut (key : AgentAccessKey) : AccessKeyOut where
  id := key.id
  label := key.label
  keyPreview := key.keyPrefix ++ "..."

/-- `AgentListResponse`. -/
structure AgentListResponse where
  agents : List AgentResponse
  total : Nat
  page : Nat
  pageSize : Nat
  hasNext : Bool
  deriving DecidableEq, Repr

/-- `ScaleResponse`. -/
structure ScaleResponse where
  agentId : AgentId
  previousReplicas : Nat
  currentReplicas : Nat
  direction : ScaleDirection
  status : AgentStatus
  deriving DecidableEq, Repr

/-- What an endpoint returns. -/
inductive AgentsAnswer where
  | agent (response : AgentResponse)
  | agents (response : AgentListResponse)
  | accessKeys (keys : List AccessKeyOut)
  | accessKey (key : AccessKeyOut) (rawKey : String)
  | scaled (response : ScaleResponse)
  | logs (response : LogListResponse)
  | metrics (response : Metrics)
  | events (events : List StreamEvent)
  | noContent
  deriving DecidableEq, Repr

/-! ## The handlers -/

/-- `to_agent_response` at the end of a handler. -/
def respondAgent (s : Settings) (agent : Agent) : Except GatewayError AgentsAnswer :=
  match toAgentResponse s agent with
  | .ok response => .ok (.agent response)
  | .error es => .error (.validation es)

/-- The `AgentListResponse` of a page. -/
def respondAgents (s : Settings) (q : PageQuery) (found : List Agent × Nat) :
    Except GatewayError AgentsAnswer :=
  match found.1.mapM (toAgentResponse s) with
  | .error es => .error (.validation es)
  | .ok agents =>
    .ok (.agents
      { agents := agents
        total := found.2
        page := q.page
        pageSize := q.pageSize
        hasNext := q.page * q.pageSize < found.2 })

/-- The `ScaleResponse` of a scaled agent and its replicas before. -/
def respondScaled (direction : ScaleDirection) (out : Agent × Nat) : AgentsAnswer :=
  .scaled
    { agentId := out.1.id
      previousReplicas := out.2
      currentReplicas := out.1.replicas
      direction := direction
      status := out.1.status }

/-- What a request meets: the runtime, its reads, the clock, and where the database puts agents of
one `created_at`. -/
structure Surroundings where
  runtime : Runtime
  reads : RuntimeReads
  now : Instant
  ties : AgentId → Nat := fun _ => 0

/-- The handler of a request, for the user the guard let in. -/
def agentsHandler (d : ApiDeps) (s : Settings) (m : Surroundings) (w : World) (u : UserId) :
    AgentsRequest → Except GatewayError AgentsAnswer × World
  | .create body draws =>
    let out := Router.createAgent d.toDeps s m.runtime w u body draws.newId draws.suffix
      draws.keyId draws.token
    (out.1.map .agent, out.2)
  | .list status tag q => (respondAgents s q (listAgents m.ties w.db u status tag q), w)
  | .get id => ((getAgent w.db u id).bind (respondAgent s), w)
  | .update id body =>
    let out := updateAgent w u id body
    (out.1.bind (respondAgent s), out.2)
  | .listAccessKeys id =>
    ((getAgent w.db u id).map fun a => .accessKeys ((w.db.keysOf a.id).map accessKeyOut), w)
  | .createAccessKey id label keyId token =>
    let out := Router.createAccessKey d.toDeps w u id label keyId token
    (out.1.map fun key => .accessKey (accessKeyOut key.1) key.2, out.2)
  | .deleteAccessKey id keyId =>
    let out := Router.deleteAccessKey w u id keyId
    (out.1.map fun _ => .noContent, out.2)
  | .delete id =>
    let out := deleteAgent m.runtime w u id
    (out.1.map fun _ => .noContent, out.2)
  | .deploy id body =>
    let out := deployAgent d.toDeps m.runtime w u id (body.map Subtype.val)
    (out.1.bind (respondAgent s), out.2)
  | .scale id body =>
    let out := scaleAgent d.toDeps m.runtime w u id body.direction body.count
    (out.1.map (respondScaled body.direction), out.2)
  | .logs id q =>
    ((getLogs d m.reads w u id q.level q.replicaId q.limit).map fun logs =>
      .logs
        { logs := logs
          total := logs.length
          hasNext := false }, w)
  | .streamLogs id level polls =>
    ((getAgent w.db u id).map fun _ => .events (streamLogs d w u id level [] polls), w)
  | .metrics id => ((getMetrics d m.reads m.now w u id).map .metrics, w)
  | .streamMetrics id polls =>
    ((getAgent w.db u id).map fun _ => .events (streamMetrics d w u id polls), w)

/-- An error of a handler as the endpoint raises it. -/
def fromService {α : Type} (out : Except GatewayError α × World) : Except ApiError α × World :=
  (out.1.mapError .service, out.2)

/-- The message of a failed authentication. -/
def AuthMethod.refusal : AuthMethod → String
  | .jwt => "Invalid or expired token."
  | .apiKey _ => "Invalid or revoked API key."

/-- A request of user `u`, authenticated by a token or a key of theirs. -/
def agentsRequest (d : ApiDeps) (s : Settings) (m : Surroundings) (w : World) (u : UserId)
    (method : AuthMethod) (req : AgentsRequest) : Except ApiError AgentsAnswer × World :=
  match (loadPrincipal w.db.users u method method.refusal).bind (req.guard.check d.toDeps) with
  | .error e => (.error e, w)
  | .ok p => fromService (agentsHandler d s m w p.userId req)

/-! ## Requests of a user -/

/-- A request, with how it authenticated and what it meets. -/
structure TenantStep where
  method : AuthMethod
  surroundings : Surroundings
  request : AgentsRequest

/-- One request of `u`. -/
def tenantAct (d : ApiDeps) (s : Settings) (u : UserId) (w : World) (i : TenantStep) :
    Except ApiError AgentsAnswer × World :=
  agentsRequest d s i.surroundings w u i.method i.request

/-- What a request of `u` finds at the door: their account, and what the endpoint asks of it. -/
def admitted (d : Deps) (users : Table User User.id) (u : UserId) (i : TenantStep) :
    Except ApiError Principal :=
  (loadPrincipal users u i.method i.method.refusal).bind (i.request.guard.check d)

/-- A request of `u`: refused at the door, or handled for `u`. -/
theorem tenantAct_eq (d : ApiDeps) (s : Settings) (u : UserId) (w : World) (i : TenantStep) :
    (∃ e, admitted d.toDeps w.db.users u i = .error e ∧ tenantAct d s u w i = (.error e, w)) ∨
      ∃ p, admitted d.toDeps w.db.users u i = .ok p ∧
        tenantAct d s u w i = fromService (agentsHandler d s i.surroundings w u i.request) := by
  unfold tenantAct agentsRequest
  have hadm : (loadPrincipal w.db.users u i.method i.method.refusal).bind
      (i.request.guard.check d.toDeps) = admitted d.toDeps w.db.users u i := rfl
  rw [hadm]
  cases hcase : admitted d.toDeps w.db.users u i with
  | error e => exact Or.inl ⟨e, rfl, rfl⟩
  | ok p =>
    have hp : p.userId = u := by
      unfold admitted at hcase
      cases hload : loadPrincipal w.db.users u i.method i.method.refusal with
      | error e =>
        rw [hload] at hcase
        cases hcase
      | ok q =>
        rw [hload] at hcase
        rw [Guard.check_ok hcase]
        exact loadPrincipal_userId hload
    exact Or.inr ⟨p, rfl, by rw [← hp]⟩

end Gateway
