import Gateway.Model.Schemas

/-!
# The container runtime as the gateway sees it (`runtime.py`)

`agntspark_core`'s `AgentRuntime` is not part of the repository. A `Runtime` is what one gateway
operation finds when it calls it: for each method a function from the arguments and the containers
the agent has at that moment to the answer and the containers it leaves, and with it what the
operation draws while it runs (`Draws`). Every step of a run carries its own `Runtime`, so answers
and draws may differ from call to call in any way; what a result assumes of them it says with the
contracts at the end (`Exact`, `Frames`). That a call touches the containers of the agent it names
and no others is built into the type, and so is that `get_containers`, which only reads what the
runtime tracks in memory, answers with it and does not raise (`getContainers_eq`).
-/

namespace Gateway

/-- The primary key of `agents`. -/
abbrev AgentId := String

/-- `ContainerInfo`, as far as the gateway reads it. -/
structure Container where
  replicaId : String
  ipAddress : Option String := none
  deriving DecidableEq, Repr

/-- What a runtime call raises: the two classes `scale_agent` catches, and any other `Exception`. -/
inductive CoreError where
  | scaling (msg : String)
  | containerNotFound (msg : String)
  | other (msg : String)
  deriving DecidableEq, Repr

/-- `str(exc)`. -/
def CoreError.str : CoreError → String
  | .scaling msg => msg
  | .containerNotFound msg => msg
  | .other msg => msg

/-- The dictionary `health_check` returns; a missing key is `none`. -/
structure Health where
  containers : Option (List String) := none
  healthy : Option Bool := none
  consecutiveFailures : Option Nat := none
  deriving DecidableEq, Repr

/-- `len(health.get("containers", []))`. -/
def Health.liveReplicas (h : Health) : Nat := (h.containers.getD []).length

/-- `not healthy and health.get("consecutive_failures", 0) >= 3`. -/
def Health.failing (h : Health) : Bool :=
  !h.healthy.getD false && 3 ≤ h.consecutiveFailures.getD 0

/-- The arguments of `rt.deploy_agent`. -/
structure DeployArgs where
  agentId : AgentId
  name : String
  model : String
  systemPrompt : Option String
  replicas : Nat
  env : List (String × String)
  image : Option String
  cpu : ℚ
  memoryMb : Nat
  deriving DecidableEq, Repr

/-- An instant in microseconds since the epoch, UTC. -/
abbrev Instant := Int

/-- What Fernet draws for a token: its timestamp and initialization vector, as one number. -/
abbrev Nonce := Nat

/-- What an operation draws: the time its transaction has for `now()`, and the nonce of each token
it makes, by the position of the encryption. -/
structure Draws where
  now : Instant := 0
  nonce : Nat → Nonce := id

/-- What the runtime answers during one operation, and what the operation draws. -/
structure Runtime where
  deploy : DeployArgs → List Container → Except CoreError (List Container) × List Container
  scale : AgentId → ScaleDirection → Nat → List Container → Except CoreError Unit × List Container
  remove : AgentId → List Container → Except CoreError Unit × List Container
  healthCheck : AgentId → List Container → Except CoreError Health
  autoScale : AgentId → List Container → Except CoreError Unit × List Container
  getContainers : AgentId → List Container → Except CoreError (List Container) := fun _ cs => .ok cs
  getContainers_eq : ∀ id cs, getContainers id cs = .ok cs := by intros; rfl
  draws : Draws := {}

/-- A call the gateway made to the runtime. -/
inductive RuntimeCall where
  | deploy (args : DeployArgs)
  | scale (agentId : AgentId) (direction : ScaleDirection) (count : Nat)
  | remove (agentId : AgentId)
  | healthCheck (agentId : AgentId)
  | autoScale (agentId : AgentId)
  deriving DecidableEq, Repr

/-- `n` containers on the bridge network, numbered from `start`. -/
def containersFrom (start n : Nat) : List Container :=
  (List.range' start n).map fun i =>
    { replicaId := toString i, ipAddress := some ("172.17.0." ++ toString i) }

/-- A runtime that does what it is asked: `deploy` starts the requested containers in place of the
old ones, `scale` adds or stops `count` of them, every container is healthy. -/
def Runtime.obliging : Runtime where
  deploy args _ := (.ok (containersFrom 0 args.replicas), containersFrom 0 args.replicas)
  scale _ dir n cs :=
    match dir with
    | .up => (.ok (), cs ++ containersFrom cs.length n)
    | .down => (.ok (), cs.drop n)
  remove _ _ := (.ok (), [])
  healthCheck _ cs :=
    .ok { containers := some (cs.map Container.replicaId), healthy := some true }
  autoScale _ cs := (.ok (), cs)

/-- The same runtime while the Docker daemon refuses to scale. -/
def Runtime.scaleRefusing : Runtime :=
  { Runtime.obliging with scale := fun _ _ _ cs => (.error (.scaling "docker: no space left"), cs) }

/-! ## Contracts -/

/-- What quota results assume of the runtime: `deploy` raises or leaves (and returns) exactly the
requested number of containers, `scale` raises leaving the containers as they were or changes
their number by at most `count` in the asked direction, `remove` removes all of them. -/
structure Runtime.Exact (rt : Runtime) : Prop where
  deploy : ∀ args cs r, (rt.deploy args cs).1 = .ok r →
    r.length = args.replicas ∧ (rt.deploy args cs).2.length = args.replicas
  scale_error : ∀ id dir n cs e, (rt.scale id dir n cs).1 = .error e → (rt.scale id dir n cs).2 = cs
  scale_up : ∀ id n cs, (rt.scale id .up n cs).1 = .ok () →
    cs.length ≤ (rt.scale id .up n cs).2.length ∧ (rt.scale id .up n cs).2.length ≤ cs.length + n
  scale_down : ∀ id n cs, (rt.scale id .down n cs).1 = .ok () →
    cs.length - n ≤ (rt.scale id .down n cs).2.length ∧
      (rt.scale id .down n cs).2.length ≤ cs.length
  remove : ∀ id cs, (rt.remove id cs).2 = []

/-- What accounting results assume: a call that raises leaves the containers as they were, and a
`remove` that returns leaves none. -/
structure Runtime.Frames (rt : Runtime) : Prop where
  deploy_error : ∀ args cs e, (rt.deploy args cs).1 = .error e → (rt.deploy args cs).2 = cs
  scale_error : ∀ id dir n cs e, (rt.scale id dir n cs).1 = .error e → (rt.scale id dir n cs).2 = cs
  remove_ok : ∀ id cs, (rt.remove id cs).1 = .ok () → (rt.remove id cs).2 = []
  remove_error : ∀ id cs e, (rt.remove id cs).1 = .error e → (rt.remove id cs).2 = cs

theorem Runtime.obliging_exact : Runtime.obliging.Exact where
  deploy args cs r h := by
    obtain rfl : containersFrom 0 args.replicas = r := Except.ok.inj h
    simp [Runtime.obliging, containersFrom]
  scale_error _ dir _ _ e h := by cases dir <;> exact absurd h (by simp [Runtime.obliging])
  scale_up _ n cs _ := by simp [Runtime.obliging, containersFrom]
  scale_down _ n cs _ := by simp [Runtime.obliging]
  remove _ _ := rfl

theorem Runtime.obliging_frames : Runtime.obliging.Frames where
  deploy_error _ _ _ h := absurd h (by simp [Runtime.obliging])
  scale_error _ dir _ _ e h := by cases dir <;> exact absurd h (by simp [Runtime.obliging])
  remove_ok _ _ _ := rfl
  remove_error _ _ _ h := absurd h (by simp [Runtime.obliging])

theorem Runtime.scaleRefusing_frames : Runtime.scaleRefusing.Frames where
  deploy_error := Runtime.obliging_frames.deploy_error
  scale_error _ _ _ _ _ _ := rfl
  remove_ok := Runtime.obliging_frames.remove_ok
  remove_error := Runtime.obliging_frames.remove_error

end Gateway
