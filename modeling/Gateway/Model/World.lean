import Gateway.Lib.Dict
import Gateway.Lib.Table
import Gateway.Ingress.Limits
import Gateway.Model.Plans
import Gateway.Model.Runtime

/-!
# The state of the gateway

`Db` holds the tables the modelled services use, `World` adds what lives outside the database: the
containers the runtime holds, the log of calls made to it, the request counts not yet written
(`metering_service._pending_requests`) and the two ingress limiters. Commits are taken to succeed
unless a unique constraint refuses the row; in the serial model a committed write is visible to
the next statement, so a service function is a function from `World` to its answer and the `World`
it leaves.

`Deps` are the functions the gateway imports: the Fernet cipher of `security/secrets.py`, Python's
`round(x, 3)` and `str.lower`, SHA-256, and from `agntspark_core` `Role.can` and
`LLMProvider.for_model`. What is assumed of them stands with them: decryption undoes encryption
(`decrypt_encrypt`), a viewer can do only what asks for a viewer (`can_viewer`), only an admin what
asks for an admin (`can_admin`), and `for_model` names a provider that has an entry in
`_PROVIDER_KEY_ENV`.
-/

namespace Gateway

open Lib

/-! ## Imported functions and settings -/

/-- The Fernet cipher. Every encryption draws a nonce of its own; decryption undoes encryption and
may reject anything else. -/
structure Fernet where
  encrypt : Nonce → String → String
  decrypt : String → Option String
  decrypt_encrypt : ∀ n v, decrypt (encrypt n v) = some v

/-- The members of `agntspark_core.config.LLMProvider` with an entry in `_PROVIDER_KEY_ENV`. -/
inductive LLMProvider where
  | openai
  | anthropic
  | google
  deriving DecidableEq, Repr

/-- The imported functions the services call. -/
structure Deps where
  fernet : Fernet
  forModel : String → LLMProvider
  can : (role minimum : Role) → Bool
  can_viewer : ∀ r, can .viewer r = true → r = .viewer
  can_admin : ∀ r, can r .admin = true → r = .admin
  round3 : Rounding (1 / 1000)
  lower : List Char → List Char
  sha256 : String → String

/-- The level of a role, to run the model with. -/
def Role.level : Role → Nat
  | .viewer => 0
  | .operator => 1
  | .admin => 2

/-- A cipher to run the model with: a token is a dot for each unit of its nonce, a stroke, and the
plain text. -/
def Fernet.dotted : Fernet where
  encrypt n v := String.ofList (List.replicate n '.' ++ '|' :: v.toList)
  decrypt t := some (String.ofList (t.toList.dropWhile (· = '.')).tail)
  decrypt_encrypt n v := by
    rw [String.toList_ofList, List.dropWhile_append_of_pos (by simp)]
    simp

/-- A choice of the imported functions to run the model with: the dotted cipher, roles that can do
what their level says, ASCII lowercasing, and hashes that are the strings themselves. -/
def Deps.transparent : Deps where
  fernet := .dotted
  forModel _ := .openai
  can role minimum := minimum.level ≤ role.level
  can_viewer r h := by cases r <;> first | rfl | exact absurd h (by decide)
  can_admin r h := by cases r <;> first | rfl | exact absurd h (by decide)
  round3 := Rounding.halfEven (1 / 1000) (by norm_num)
  lower := List.map Char.toLower
  sha256 := id

/-- The settings (`config.py`) the modelled code reads. -/
structure Settings where
  agentBaseDomain : Option String := none
  ingressInternalToken : Option String := none
  ingressDefaultRpmPerIp : Nat := 120
  schedulerIntervalSeconds : Nat := 30
  deriving DecidableEq, Repr

/-! ## Rows -/

/-- An entry of the JSON column `agents.env`; the value of a secret one is ciphertext. -/
structure EnvEntry where
  key : String
  value : String
  secret : Bool
  deriving DecidableEq, Repr

/-- A row of `agents`, with the column defaults of `models/agent.py`. `updated_at`, which only the
response displays, and the unused `url` are left out. -/
structure Agent where
  id : AgentId
  userId : UserId
  slug : String
  name : String
  runtime : AgentRuntimeKind := .python312
  framework : String := "custom"
  model : String := "gpt-4o"
  systemPrompt : Option String := none
  tags : List String := []
  agentMetadata : List (String × String) := []
  status : AgentStatus := .pending
  error : Option String := none
  version : Nat := 1
  access : AgentAccess := .pub
  rateLimitRpm : Option Nat := none
  replicas : Nat := 0
  cpu : ℚ := 1
  memoryMb : Nat := 512
  gpu : Nat := 0
  gpuType : Option String := none
  diskGb : Nat := 10
  ephemeralStorageGb : Nat := 5
  env : List EnvEntry := []
  image : Option String := none
  buildPath : Option String := none
  command : Option String := none
  args : List String := []
  healthCheckPath : Option String := none
  autoScale : Bool := false
  minReplicas : Nat := 1
  maxReplicas : Nat := 10
  port : Nat := 8080
  createdAt : Instant := 0
  deriving DecidableEq, Repr

/-- `quota_service.is_exempt`: admins are not held to plan limits. -/
def isExempt (d : Deps) (user : User) : Bool := d.can user.role .admin

/-- The primary key of `agent_access_keys`, a UUID. -/
abbrev KeyId := BitVec 128

/-- A row of `agent_access_keys`. -/
structure AgentAccessKey where
  id : KeyId
  agentId : AgentId
  label : String
  keyPrefix : String
  keyHash : String
  deriving DecidableEq, Repr

/-- A row of `usage_hours`. -/
structure UsageHour where
  userId : UserId
  agentId : AgentId
  hourStart : Instant
  replicaSeconds : ℚ := 0
  vcpuSeconds : ℚ := 0
  memoryMbSeconds : ℚ := 0
  requests : Nat := 0
  deriving DecidableEq, Repr

/-- The columns of `uq_usage_hours_agent_hour`. -/
def UsageHour.bucket (r : UsageHour) : AgentId × Instant := (r.agentId, r.hourStart)

/-- The key of `_pending_requests`: `(agent_id, user_id, hour_start)`. -/
structure RequestKey where
  agentId : AgentId
  userId : UserId
  hourStart : Instant
  deriving DecidableEq, Repr

/-! ## The state -/

/-- The tables. -/
structure Db where
  users : Table User User.id := .empty
  agents : Table Agent Agent.id := .empty
  accessKeys : Table AgentAccessKey AgentAccessKey.id := .empty
  usageHours : Table UsageHour UsageHour.bucket := .empty

/-- The database, the runtime's containers and the process memory of the gateway. -/
structure World where
  db : Db := {}
  containers : AgentId → List Container := fun _ => []
  calls : List RuntimeCall := []
  pending : Counter RequestKey := []
  perClient : FixedWindowLimiter := {}
  perAgent : FixedWindowLimiter := {}

/-- An account on the free plan. -/
def freeUser : User where
  id := 1
  email := "owner@example.com"
  name := "Owner"

/-- A gateway with that account and nothing else. -/
def freeWorld : World where
  db := { users := ⟨[freeUser], List.nodup_singleton _⟩ }

/-- An agent of that account. -/
def freeAgent : Agent where
  id := "a"
  userId := freeUser.id
  slug := "a"
  name := "a"

/-- That gateway with one agent. -/
def World.withAgent (a : Agent) : World :=
  { freeWorld with db := { freeWorld.db with agents := freeWorld.db.agents.upsert a id } }

/-- `select(Agent).where(Agent.id == agent_id, Agent.user_id == user_id)`. -/
def Db.ownedAgent? (db : Db) (userId : UserId) (agentId : AgentId) : Option Agent :=
  (db.agents.find? agentId).filter fun a => a.userId = userId

namespace World

/-- Commit the row of a loaded agent. -/
def saveAgent (w : World) (a : Agent) : World :=
  { w with db := { w.db with agents := w.db.agents.put a } }

/-- Replace the containers of one agent. -/
def setContainers (w : World) (id : AgentId) (cs : List Container) : World :=
  { w with containers := fun i => if i = id then cs else w.containers i }

/-- Note a call made to the runtime. -/
def logCall (w : World) (c : RuntimeCall) : World := { w with calls := w.calls ++ [c] }

variable (w : World) (a : Agent) (id : AgentId) (cs : List Container) (c : RuntimeCall)

@[simp] theorem saveAgent_agents : (w.saveAgent a).db.agents = w.db.agents.put a := rfl
@[simp] theorem saveAgent_containers : (w.saveAgent a).containers = w.containers := rfl
@[simp] theorem logCall_containers : (w.logCall c).containers = w.containers := rfl

end World

theorem Db.ownedAgent?_eq_some {db : Db} {u : UserId} {id : AgentId} {a : Agent}
    (h : db.ownedAgent? u id = some a) :
    db.agents.find? id = some a ∧ a.userId = u ∧ a.id = id := by
  obtain ⟨hf, hu⟩ := Option.filter_eq_some_iff.mp h
  exact ⟨hf, by simpa using hu, Table.key_of_find? hf⟩

/-! ## Errors -/

/-- The `resource` of a `QuotaExceededError`. -/
inductive QuotaResource where
  | agents
  | replicas
  | vcpu
  | memoryMb
  | cpuPerReplica
  | memoryMbPerReplica
  deriving DecidableEq, Repr

/-- What a service function raises. -/
inductive GatewayError where
  | authentication (message : String)
  | agentNotFound (agentId : AgentId)
  | accessKeyNotFound (keyId : KeyId)
  | quotaExceeded (resource : QuotaResource) (plan : String) (limit requested : ℚ)
      (current : Option ℚ)
  | buildNotSupported
  | deploymentFailed (agentId : AgentId) (reason : String)
  | integrity
  | core (error : CoreError)
  | validation (errors : List FieldError)
  deriving DecidableEq, Repr

/-- The details key `resource` as the error prints it. -/
def QuotaResource.name : QuotaResource → String
  | .agents => "agents"
  | .replicas => "replicas"
  | .vcpu => "vcpu"
  | .memoryMb => "memory_mb"
  | .cpuPerReplica => "cpu_per_replica"
  | .memoryMbPerReplica => "memory_mb_per_replica"

end Gateway
