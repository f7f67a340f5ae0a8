import Gateway.Agents.System
import Gateway.Lib.Interleave
import Gateway.Lib.Orm
import Mathlib.Tactic.IntervalCases

/-!
# A deploy and a tick on the same agent

`deploy_agent` and `_tick` each hold the agent's row in a session of their own and await between
reading and writing it. A `Race` is the stored row, the agent's containers and how far each side
has come; its interleavings are the lists of which side moves, the tick on the left.

The rows the two sides hold are the values they loaded or last wrote: every assignment of the
source is followed by a commit before the next await, so between two steps a session has nothing
pending. A commit writes the columns it changed (`Agent.flush`) and nothing keeps the other side's
writes out.

* `deploy_alone`, `tick_alone`: a side that is not interfered with does what `deployAgent` and
  `tickAgent` do in the serial model.
* **`update_kept_iff`**: after every interleaving of a deploy that succeeds with a tick, the row
  says `running` with the number of containers started exactly when the schedule and the health
  report avoid `Overwritten`.
* **`tick_while_starting_loses_count`**: a tick that comes while the containers of a new agent are
  starting leaves it `running` with no replicas.
-/

namespace Gateway

open Lib

/-! ## Commits -/

/-- What committing an object loaded as `loaded` and now equal to `cur` makes of the stored row. -/
def Agent.flush (loaded cur stored : Agent) : Agent where
  id := column loaded.id cur.id stored.id
  userId := column loaded.userId cur.userId stored.userId
  slug := column loaded.slug cur.slug stored.slug
  name := column loaded.name cur.name stored.name
  runtime := column loaded.runtime cur.runtime stored.runtime
  framework := column loaded.framework cur.framework stored.framework
  model := column loaded.model cur.model stored.model
  systemPrompt := column loaded.systemPrompt cur.systemPrompt stored.systemPrompt
  tags := column loaded.tags cur.tags stored.tags
  agentMetadata := column loaded.agentMetadata cur.agentMetadata stored.agentMetadata
  status := column loaded.status cur.status stored.status
  error := column loaded.error cur.error stored.error
  version := column loaded.version cur.version stored.version
  access := column loaded.access cur.access stored.access
  rateLimitRpm := column loaded.rateLimitRpm cur.rateLimitRpm stored.rateLimitRpm
  replicas := column loaded.replicas cur.replicas stored.replicas
  cpu := column loaded.cpu cur.cpu stored.cpu
  memoryMb := column loaded.memoryMb cur.memoryMb stored.memoryMb
  gpu := column loaded.gpu cur.gpu stored.gpu
  gpuType := column loaded.gpuType cur.gpuType stored.gpuType
  diskGb := column loaded.diskGb cur.diskGb stored.diskGb
  ephemeralStorageGb :=
    column loaded.ephemeralStorageGb cur.ephemeralStorageGb stored.ephemeralStorageGb
  env := column loaded.env cur.env stored.env
  image := column loaded.image cur.image stored.image
  buildPath := column loaded.buildPath cur.buildPath stored.buildPath
  command := column loaded.command cur.command stored.command
  args := column loaded.args cur.args stored.args
  healthCheckPath := column loaded.healthCheckPath cur.healthCheckPath stored.healthCheckPath
  autoScale := column loaded.autoScale cur.autoScale stored.autoScale
  minReplicas := column loaded.minReplicas cur.minReplicas stored.minReplicas
  maxReplicas := column loaded.maxReplicas cur.maxReplicas stored.maxReplicas
  port := column loaded.port cur.port stored.port
  createdAt := column loaded.createdAt cur.createdAt stored.createdAt

/-- Nobody else wrote the row: the commit stores the object. -/
@[simp] theorem Agent.flush_loaded (l c : Agent) : Agent.flush l c l = c := by
  simp [Agent.flush]

/-- A tick's commit touches the two columns it observes. -/
theorem Agent.flush_observe (l s : Agent) (health : Health) :
    Agent.flush l (observe l health) s =
      { s with
        replicas := column l.replicas health.liveReplicas s.replicas
        status := column l.status (newStatus l.status health) s.status } := by
  simp [Agent.flush, observe]

/-- A config committed over a row whose replicas and status have moved on. -/
theorem Agent.flush_applyDeployConfig (d : Deps) (r : Draws) (l : Agent) (c : DeployConfig)
    (k : Nat)
    (st : AgentStatus) :
    Agent.flush l (applyDeployConfig d r l c) { l with replicas := k, status := st } =
      { applyDeployConfig d r l c with
        replicas := column l.replicas c.replicas k
        status := st } := by
  simp [Agent.flush, applyDeployConfig]

/-! ## The two sides -/

/-- Where `deploy_agent` is, past its quota check, and the object it holds. -/
inductive DeployPc where
  | start
  | loaded (a : Agent) (deploy : DeployConfig)
  | configured
  | ready (a : Agent)
  | starting (a : Agent)
  | ran (a : Agent) (out : Except String (List Container))
  | done (out : Except GatewayError (List Container))

/-- Where the tick is with this agent, and the object it holds. -/
inductive TickPc where
  | start
  | loaded (a : Agent)
  | checked (a : Agent) (health : Health)
  | done

/-- The stored row, the agent's containers, and the two sides. -/
structure Race where
  stored : Agent
  containers : List Container
  deploy : DeployPc := .start
  tick : TickPc := .start

/-- The next step of the deploy. The final `refresh`, which only reads, is left out. -/
def deployStep (d : Deps) (rt : Runtime) (deploy : Option DeployConfig) (r : Race) : Race :=
  match r.deploy with
  | .start => { r with deploy := deploy.elim (.ready r.stored) (.loaded r.stored) }
  | .loaded a c =>
    { r with
      stored := Agent.flush a (applyDeployConfig d rt.draws a c) r.stored
      deploy := .configured }
  | .configured => { r with deploy := .ready r.stored }
  | .ready a =>
    if needsBuild a then { r with deploy := .done (.error .buildNotSupported) }
    else
      { r with
        stored := Agent.flush a { a with status := .starting } r.stored
        deploy := .starting { a with status := .starting } }
  | .starting a =>
    let out := startContainers d rt a r.containers
    { r with containers := out.2, deploy := .ran a out.1 }
  | .ran a (.error msg) =>
    { r with
      stored := Agent.flush a { a with status := .failed, error := some msg } r.stored
      deploy := .done (.error (.deploymentFailed a.id msg)) }
  | .ran a (.ok started) =>
    { r with
      stored := Agent.flush a
        { a with
          status := .running
          replicas := started.length
          error := none
          version := a.version + 1 } r.stored
      deploy := .done (.ok started) }
  | .done _ => r

/-- The next step of the tick. What it does after its commit (metering, auto-scaling) writes other
rows or none. -/
def tickStep (rt : Runtime) (r : Race) : Race :=
  match r.tick with
  | .start =>
    { r with tick := if r.stored.status ∈ tickStatuses then .loaded r.stored else .done }
  | .loaded a =>
    match rt.healthCheck a.id r.containers with
    | .error _ => { r with tick := .done }
    | .ok health => { r with tick := .checked a health }
  | .checked a health =>
    { r with stored := Agent.flush a (observe a health) r.stored, tick := .done }
  | .done => r

/-- One step of the race. -/
def raceStep (d : Deps) (rt : Runtime) (deploy : Option DeployConfig) (r : Race) : Side → Race
  | .left => tickStep rt r
  | .right => deployStep d rt deploy r

/-- How many steps a deploy has. The last three are the commit of `starting`, the runtime call and
the commit of the result; before them the row is loaded and, with a config, written and read again,
so a side that comes `k` steps before the end is at the same place with and without one. -/
def deploySteps : Option DeployConfig → Nat
  | none => 4
  | some _ => 6

/-- The deploy has returned `started` and the row says so. -/
def Race.Kept (r : Race) : Prop :=
  ∃ started, r.deploy = .done (.ok started) ∧ r.stored.status = .running ∧
    r.stored.replicas = started.length

/-! ## One side alone -/

section Race

variable (d : Deps) (rt : Runtime) (row : Agent) (cs : List Container)
  (deploy : Option DeployConfig)

/-- What the runtime call of an undisturbed deploy gives, and the containers it leaves. -/
def deployOutcome : Except String (List Container) × List Container :=
  startContainers d rt (deployedRow d rt.draws row deploy) cs

/-- The number of containers it starts. -/
def startedCount : Nat := ((deployOutcome d rt row cs deploy).1.toOption.getD []).length

/-- The row after `t` steps of an undisturbed deploy. -/
def rowAfter (t : Nat) : Agent :=
  if t + 4 < deploySteps deploy then row
  else if t + 2 < deploySteps deploy then deployedRow d rt.draws row deploy
  else if t < deploySteps deploy then { deployedRow d rt.draws row deploy with status := .starting }
  else
    { deployedRow d rt.draws row deploy with
      status := .running
      replicas := startedCount d rt row cs deploy
      error := none
      version := (deployedRow d rt.draws row deploy).version + 1 }

/-- The containers after `t` steps of an undisturbed deploy. -/
def containersAfter (t : Nat) : List Container :=
  if t + 1 < deploySteps deploy then cs else (deployOutcome d rt row cs deploy).2

/-- A deploy that gets through: nothing to build, secrets that decrypt, a runtime that starts
containers. -/
structure Succeeds : Prop where
  build : needsBuild (deployedRow d rt.draws row deploy) = false
  secrets : (envForContainer d (deployedRow d rt.draws row deploy).env).isOk = true
  starts : ∀ args cs, ∃ started left, rt.deploy args cs = (.ok started, left)

end Race

section Alone

variable {d : Deps} {rt : Runtime} {row : Agent} {cs : List Container}
  {deploy : Option DeployConfig}

theorem Succeeds.startContainers (h : Succeeds d rt row deploy) {a : Agent}
    (ha : a.env = (deployedRow d rt.draws row deploy).env) (cs : List Container) :
    ∃ started left, startContainers d rt a cs = (.ok started, left) := by
  have hs := h.secrets
  unfold Gateway.startContainers
  rw [ha]
  cases he : envForContainer d (deployedRow d rt.draws row deploy).env with
  | error msg =>
    rw [he] at hs
    exact absurd hs (by simp [Except.isOk, Except.toBool])
  | ok env =>
    obtain ⟨started, left, hd⟩ := h.starts (deployArgs a env) cs
    exact ⟨started, left, by simp only [hd]⟩

/-- The object the deploy holds after `t` undisturbed steps. -/
def pcAfter (d : Deps) (rt : Runtime) (row : Agent) (cs : List Container) :
    Option DeployConfig → Nat → DeployPc
  | none, 0 => .start
  | none, t + 1 => finalPc d rt row cs none t
  | some _, 0 => .start
  | some c, 1 => .loaded row c
  | some _, 2 => .configured
  | some c, t + 3 => finalPc d rt row cs (some c) t
where
  /-- The last three steps, which a deploy with and one without a config share. -/
  finalPc (d : Deps) (rt : Runtime) (row : Agent) (cs : List Container)
      (deploy : Option DeployConfig) : Nat → DeployPc
    | 0 => .ready (deployedRow d rt.draws row deploy)
    | 1 => .starting { deployedRow d rt.draws row deploy with status := .starting }
    | 2 => .ran { deployedRow d rt.draws row deploy with status := .starting }
        (deployOutcome d rt row cs deploy).1
    | _ => .done (.ok ((deployOutcome d rt row cs deploy).1.toOption.getD []))

/-- The race after `t` steps of an undisturbed deploy. -/
def aloneAfter (d : Deps) (rt : Runtime) (row : Agent) (cs : List Container)
    (deploy : Option DeployConfig) (tick : TickPc) (t : Nat) : Race where
  stored := rowAfter d rt row cs deploy t
  containers := containersAfter d rt row cs deploy t
  deploy := pcAfter d rt row cs deploy t
  tick := tick

theorem Succeeds.outcome (h : Succeeds d rt row deploy) (cs : List Container) :
    ∃ started left, deployOutcome d rt row cs deploy = (.ok started, left) :=
  h.startContainers rfl cs

theorem deployStep_aloneAfter (h : Succeeds d rt row deploy) (tick : TickPc) {t : Nat}
    (ht : t < deploySteps deploy) :
    deployStep d rt deploy (aloneAfter d rt row cs deploy tick t) =
      aloneAfter d rt row cs deploy tick (t + 1) := by
  obtain ⟨started, left, hout⟩ := h.outcome cs
  have hb := h.build
  cases deploy with
  | none =>
    simp only [deploySteps] at ht
    interval_cases t
    · rfl
    · simp [aloneAfter, deployStep, pcAfter, pcAfter.finalPc, rowAfter, containersAfter,
        deploySteps, hb]
    · rfl
    · simp [aloneAfter, deployStep, pcAfter, pcAfter.finalPc, rowAfter, containersAfter,
        deploySteps, startedCount, hout, Except.toOption]
  | some c =>
    simp only [deploySteps] at ht
    interval_cases t
    · rfl
    · simp [aloneAfter, deployStep, pcAfter, rowAfter, containersAfter,
        deploySteps, deployedRow]
    · rfl
    · simp [aloneAfter, deployStep, pcAfter, pcAfter.finalPc, rowAfter, containersAfter,
        deploySteps, hb]
    · rfl
    · simp [aloneAfter, deployStep, pcAfter, pcAfter.finalPc, rowAfter, containersAfter,
        deploySteps, startedCount, hout, Except.toOption]

theorem run_aloneAfter (h : Succeeds d rt row deploy) (tick : TickPc) {t : Nat} :
    ∀ {n : Nat}, t + n ≤ deploySteps deploy →
      run (raceStep d rt deploy) (aloneAfter d rt row cs deploy tick t) (rights n) =
        aloneAfter d rt row cs deploy tick (t + n)
  | 0, _ => rfl
  | n + 1, hn => by
    rw [run_rights_succ]
    show run _ (deployStep d rt deploy _) _ = _
    rw [deployStep_aloneAfter h tick (by omega), run_aloneAfter h tick (by omega)]
    congr 1
    omega

variable (d rt row cs deploy) in
/-- The race before either side has moved. -/
theorem aloneAfter_zero (tick : TickPc) :
    aloneAfter d rt row cs deploy tick 0 =
      { stored := row, containers := cs, deploy := .start, tick := tick } := by
  cases deploy <;> rfl

theorem rowAfter_last :
    rowAfter d rt row cs deploy (deploySteps deploy) =
      { deployedRow d rt.draws row deploy with
        status := .running
        replicas := startedCount d rt row cs deploy
        error := none
        version := (deployedRow d rt.draws row deploy).version + 1 } := by
  unfold rowAfter
  rw [if_neg (by omega), if_neg (by omega), if_neg (by omega)]

/-- **An undisturbed deploy** does to the row and the containers what `deployAgent` does. -/
theorem deploy_alone (h : Succeeds d rt row deploy) :
    DeployEffect d rt row deploy cs
      (run (raceStep d rt deploy) { stored := row, containers := cs }
        (rights (deploySteps deploy))).stored
      (run (raceStep d rt deploy) { stored := row, containers := cs }
        (rights (deploySteps deploy))).containers := by
  obtain ⟨started, left, hout⟩ := h.outcome cs
  rw [← aloneAfter_zero d rt row cs deploy, run_aloneAfter h _ (by omega), Nat.zero_add]
  have hlen : startedCount d rt row cs deploy = started.length := by
    simp [startedCount, hout, Except.toOption]
  have hleft : containersAfter d rt row cs deploy (deploySteps deploy) = left := by
    unfold containersAfter
    rw [if_neg (by omega), hout]
  simp only [aloneAfter, rowAfter_last, hlen, hleft]
  exact DeployEffect.running h.build hout

/-- **An undisturbed tick** does to an active row what the agent's turn in `tickAgents` does. -/
theorem tick_alone (d : Deps) (rt : Runtime) (deploy : Option DeployConfig)
    (hactive : row.status ∈ tickStatuses) :
    TickEffect rt row cs
      (run (raceStep d rt deploy) { stored := row, containers := cs } [.left, .left, .left]).stored
      (run (raceStep d rt deploy) { stored := row, containers := cs }
        [.left, .left, .left]).containers := by
  simp only [run_cons, run_nil, raceStep]
  cases hh : rt.healthCheck row.id cs with
  | error e => simpa [tickStep, hactive, hh] using TickEffect.unseen hh
  | ok health => simpa [tickStep, hactive, hh] using TickEffect.seen hh

end Alone

/-! ## The deploy after the tick's commit -/

section Finish

variable {d : Deps} {rt : Runtime} {deploy : Option DeployConfig} {stored : Agent}
  {cs started left : List Container} {tick : TickPc}

/-- The deploy has returned `started` and left `running` and `k` in the row. -/
structure Finished (started : List Container) (k : Nat) (r : Race) : Prop where
  returned : r.deploy = .done (.ok started)
  status : r.stored.status = .running
  replicas : r.stored.replicas = k

theorem Finished.kept_iff {k : Nat} {r : Race} (h : Finished started k r) :
    r.Kept ↔ k = started.length := by
  constructor
  · rintro ⟨started', hr, -, hk⟩
    have he : started = started' := by simpa using h.returned.symm.trans hr
    rw [he, ← hk, h.replicas]
  · intro hk
    exact ⟨started, h.returned, h.status, h.replicas.trans hk⟩

/-- The last commit leaves `running`, and its count unless that is the one it loaded. -/
theorem finished_of_ran {a : Agent} {k : Nat} (hk : stored.replicas = k)
    (ha : a.status = .starting) :
    Finished started (column a.replicas started.length k)
      (run (raceStep d rt deploy)
        { stored := stored, containers := cs, deploy := .ran a (.ok started), tick := tick }
        (rights 1)) where
  returned := rfl
  status := by
    refine column_of_ne ?_ _
    show AgentStatus.running ≠ a.status
    rw [ha]
    decide
  replicas := by
    subst hk
    rfl

theorem finished_of_starting {a : Agent} {k : Nat} (hk : stored.replicas = k)
    (ha : a.status = .starting) (hs : startContainers d rt a cs = (.ok started, left)) :
    Finished started (column a.replicas started.length k)
      (run (raceStep d rt deploy)
        { stored := stored, containers := cs, deploy := .starting a, tick := tick }
        (rights 2)) := by
  rw [run_rights_succ]
  simp only [raceStep, deployStep, hs]
  exact finished_of_ran hk ha

theorem finished_of_ready {a : Agent} {k : Nat} (hk : stored.replicas = k)
    (hb : needsBuild a = false) (hs : startContainers d rt a cs = (.ok started, left)) :
    Finished started (column a.replicas started.length k)
      (run (raceStep d rt deploy)
        { stored := stored, containers := cs, deploy := .ready a, tick := tick } (rights 3)) := by
  rw [run_rights_succ]
  simp only [raceStep, deployStep, hb]
  refine finished_of_starting (a := { a with status := .starting }) ?_ rfl hs
  rw [← hk]
  simp [Agent.flush]

/-- A deploy that has just read the row keeps its count. -/
theorem kept_of_ready {a : Agent} (ha : stored = a) (hb : needsBuild a = false)
    (hs : startContainers d rt a cs = (.ok started, left)) :
    (run (raceStep d rt deploy)
      { stored := stored, containers := cs, deploy := .ready stored, tick := tick }
      (rights 3)).Kept := by
  subst ha
  exact (finished_of_ready rfl hb hs).kept_iff.mpr (column_loaded _ _)

end Finish

section Interrupted

variable {d : Deps} {rt : Runtime} {row : Agent} {cs : List Container}
  {deploy : Option DeployConfig}

/-- The race after `t` steps of the deploy and a commit that left `k` and `st` in the row. -/
def interrupted (d : Deps) (rt : Runtime) (row : Agent) (cs : List Container)
    (deploy : Option DeployConfig) (tick : TickPc) (t k : Nat) (st : AgentStatus) : Race where
  stored := { rowAfter d rt row cs deploy t with replicas := k, status := st }
  containers := containersAfter d rt row cs deploy t
  deploy := pcAfter d rt row cs deploy t
  tick := tick

theorem Succeeds.startedCount (h : Succeeds d rt row deploy) (cs : List Container) :
    ∃ started left, deployOutcome d rt row cs deploy = (.ok started, left) ∧
      startedCount d rt row cs deploy = started.length := by
  obtain ⟨started, left, hout⟩ := h.outcome cs
  exact ⟨started, left, hout, by simp [Gateway.startedCount, hout, Except.toOption]⟩

/-- Interrupted before its last read of the row, the deploy overwrites what it finds. -/
theorem kept_of_early (h : Succeeds d rt row deploy) (tick : TickPc) {t : Nat}
    (ht : t + 3 < deploySteps deploy) (k : Nat) (st : AgentStatus) :
    (run (raceStep d rt deploy) (interrupted d rt row cs deploy tick t k st)
      (rights (deploySteps deploy - t))).Kept := by
  have hb := h.build
  cases deploy with
  | none =>
    obtain rfl : t = 0 := by simp only [deploySteps] at ht; omega
    obtain ⟨started, left, hs⟩ := h.startContainers (a := { row with replicas := k, status := st })
      rfl cs
    exact kept_of_ready rfl hb hs
  | some c =>
    obtain rfl | rfl | rfl : t = 0 ∨ t = 1 ∨ t = 2 := by simp only [deploySteps] at ht; omega
    · -- not yet loaded: the deploy works on the row the tick left
      obtain ⟨started, left, hs⟩ := h.startContainers
        (a := applyDeployConfig d rt.draws { row with replicas := k, status := st } c) rfl cs
      exact kept_of_ready (Agent.flush_loaded _ _) hb hs
    · -- loaded: the config goes over it, and the refresh reads the outcome
      obtain ⟨started, left, hs⟩ := h.startContainers
        (a := { applyDeployConfig d rt.draws row c with
          replicas := column row.replicas c.replicas k
          status := st }) rfl cs
      exact kept_of_ready (Agent.flush_applyDeployConfig d rt.draws row c k st) hb hs
    · obtain ⟨started, left, hs⟩ := h.startContainers
        (a := { applyDeployConfig d rt.draws row c with replicas := k, status := st }) rfl cs
      exact kept_of_ready rfl hb hs

theorem four_le_deploySteps (deploy : Option DeployConfig) : 4 ≤ deploySteps deploy := by
  cases deploy <;> simp [deploySteps]

theorem pcAfter_ready :
    pcAfter d rt row cs deploy (deploySteps deploy - 3) =
      .ready (deployedRow d rt.draws row deploy) := by
  cases deploy <;> rfl

theorem pcAfter_starting :
    pcAfter d rt row cs deploy (deploySteps deploy - 2) =
      .starting { deployedRow d rt.draws row deploy with status := .starting } := by
  cases deploy <;> rfl

theorem pcAfter_ran :
    pcAfter d rt row cs deploy (deploySteps deploy - 1) =
      .ran { deployedRow d rt.draws row deploy with status := .starting }
        (deployOutcome d rt row cs deploy).1 := by
  cases deploy <;> rfl

theorem pcAfter_last :
    pcAfter d rt row cs deploy (deploySteps deploy) =
      .done (.ok ((deployOutcome d rt row cs deploy).1.toOption.getD [])) := by
  cases deploy <;> rfl

theorem containersAfter_of_lt {t : Nat} (ht : t + 1 < deploySteps deploy) :
    containersAfter d rt row cs deploy t = cs := if_pos ht

/-- Interrupted after it, the deploy writes `running`, and its count unless that is the requested
one: then `k` stays. -/
theorem kept_of_late_iff (h : Succeeds d rt row deploy) (tick : TickPc) {t : Nat}
    (hl : deploySteps deploy ≤ t + 3) (ht : t < deploySteps deploy) (k : Nat) (st : AgentStatus) :
    (run (raceStep d rt deploy) (interrupted d rt row cs deploy tick t k st)
      (rights (deploySteps deploy - t))).Kept ↔
        ((deployedRow d rt.draws row deploy).replicas = startedCount d rt row cs deploy →
          k = startedCount d rt row cs deploy) := by
  obtain ⟨started, left, hout, hn⟩ := h.startedCount cs
  have hm := four_le_deploySteps deploy
  have key : ∀ {r : Race}, Finished started
      (column (deployedRow d rt.draws row deploy).replicas started.length k) r →
      (r.Kept ↔
        ((deployedRow d rt.draws row deploy).replicas = Gateway.startedCount d rt row cs deploy →
          k = Gateway.startedCount d rt row cs deploy)) := by
    intro r hr
    rw [hr.kept_iff, column_eq_cur_iff, hn]
    exact imp_congr_left eq_comm
  refine key ?_
  unfold interrupted
  obtain rfl | rfl | rfl : t = deploySteps deploy - 3 ∨ t = deploySteps deploy - 2 ∨
      t = deploySteps deploy - 1 := by omega
  · rw [pcAfter_ready, containersAfter_of_lt (by omega), Nat.sub_sub_self (by omega)]
    exact finished_of_ready rfl h.build hout
  · rw [pcAfter_starting, containersAfter_of_lt (by omega), Nat.sub_sub_self (by omega)]
    exact finished_of_starting
      (a := { deployedRow d rt.draws row deploy with status := .starting }) rfl rfl hout
  · rw [pcAfter_ran, hout, Nat.sub_sub_self (by omega)]
    exact finished_of_ran
      (a := { deployedRow d rt.draws row deploy with status := .starting }) rfl rfl

/-- Interrupted after its result, the deploy has nothing left to write. -/
theorem kept_of_last_iff (h : Succeeds d rt row deploy) (tick : TickPc) (k : Nat)
    (st : AgentStatus) :
    (interrupted d rt row cs deploy tick (deploySteps deploy) k st).Kept ↔
      st = .running ∧ k = startedCount d rt row cs deploy := by
  obtain ⟨started, left, hout, hn⟩ := h.startedCount cs
  have hpc : (interrupted d rt row cs deploy tick (deploySteps deploy) k st).deploy =
      .done (.ok started) := by
    unfold interrupted
    rw [pcAfter_last, hout]
    rfl
  unfold Race.Kept
  rw [hpc, hn]
  simp [interrupted]

/-- Without the tick's commit the update is kept. -/
theorem kept_alone (h : Succeeds d rt row deploy) (tick : TickPc) :
    (aloneAfter d rt row cs deploy tick (deploySteps deploy)).Kept := by
  have hlast : (interrupted d rt row cs deploy tick (deploySteps deploy)
      (startedCount d rt row cs deploy) .running).Kept :=
    (kept_of_last_iff h tick _ _).mpr ⟨rfl, rfl⟩
  unfold interrupted at hlast
  unfold aloneAfter
  rw [rowAfter_last] at hlast ⊢
  exact hlast

end Interrupted

/-! ## The tick's steps -/

section Tick

variable {d : Deps} {rt : Runtime} {row : Agent} {cs : List Container}
  {deploy : Option DeployConfig}

theorem rowAfter_id (t : Nat) : (rowAfter d rt row cs deploy t).id = row.id := by
  unfold rowAfter
  split_ifs <;> simp

/-- The replicas a tick loads that comes after `t` steps of the deploy. -/
theorem rowAfter_replicas (t : Nat) :
    (rowAfter d rt row cs deploy t).replicas =
      if t + 4 < deploySteps deploy then row.replicas
      else if t < deploySteps deploy then (deployedRow d rt.draws row deploy).replicas
      else startedCount d rt row cs deploy := by
  unfold rowAfter
  split_ifs <;> first | rfl | omega

/-- It loads the row at all when that was active before, or the deploy has got to `starting`. -/
theorem rowAfter_active_iff (t : Nat) :
    (rowAfter d rt row cs deploy t).status ∈ tickStatuses ↔
      row.status ∈ tickStatuses ∨ deploySteps deploy ≤ t + 2 := by
  unfold rowAfter
  split_ifs with h₁ h₂ h₃
  · simp; omega
  · simp; omega
  · simp [tickStatuses]; omega
  · simp [tickStatuses]; omega

@[simp] theorem raceStep_left (r : Race) : raceStep d rt deploy r .left = tickStep rt r := rfl

theorem tickStep_done (t : Nat) :
    tickStep rt (aloneAfter d rt row cs deploy .done t) = aloneAfter d rt row cs deploy .done t :=
  rfl

theorem tickStep_start (t : Nat) :
    tickStep rt (aloneAfter d rt row cs deploy .start t) =
      aloneAfter d rt row cs deploy
        (if (rowAfter d rt row cs deploy t).status ∈ tickStatuses then
          .loaded (rowAfter d rt row cs deploy t) else .done) t := rfl

theorem tickStep_loaded_error {t t₀ : Nat} {e : CoreError}
    (h : rt.healthCheck row.id (containersAfter d rt row cs deploy t) = .error e) :
    tickStep rt (aloneAfter d rt row cs deploy (.loaded (rowAfter d rt row cs deploy t₀)) t) =
      aloneAfter d rt row cs deploy .done t := by
  simp only [tickStep, aloneAfter, rowAfter_id, h]

theorem tickStep_loaded_ok {t t₀ : Nat} {health : Health}
    (h : rt.healthCheck row.id (containersAfter d rt row cs deploy t) = .ok health) :
    tickStep rt (aloneAfter d rt row cs deploy (.loaded (rowAfter d rt row cs deploy t₀)) t) =
      aloneAfter d rt row cs deploy (.checked (rowAfter d rt row cs deploy t₀) health) t := by
  simp only [tickStep, aloneAfter, rowAfter_id, h]

theorem tickStep_checked (a : Agent) (health : Health) (t : Nat) :
    tickStep rt (aloneAfter d rt row cs deploy (.checked a health) t) =
      interrupted d rt row cs deploy .done t
        (column a.replicas health.liveReplicas (rowAfter d rt row cs deploy t).replicas)
        (column a.status (newStatus a.status health) (rowAfter d rt row cs deploy t).status) := by
  simp only [tickStep, aloneAfter, interrupted, Agent.flush_observe]

/-- The status column of a tick's commit after the deploy's: `running` survives a report of live
containers that are not failing. -/
theorem column_newStatus_iff {st : AgentStatus} (hst : st ∈ tickStatuses) (health : Health) :
    column st (newStatus st health) .running = .running ↔
      health.liveReplicas ≠ 0 ∧ health.failing = false := by
  rw [column_eq_stored_iff]
  unfold newStatus
  by_cases hl : health.liveReplicas = 0
  · simp only [hl, if_true]
    cases st <;> simp [tickStatuses] at hst ⊢
  · by_cases hf : health.failing = true
    · simp only [hl, hf, if_true, if_false]
      cases st <;> simp [tickStatuses] at hst ⊢
    · simp only [hl, hf, if_false]
      cases st <;> simp [tickStatuses, hl] at hst ⊢

end Tick

/-! ## Every interleaving -/

section Interleavings

variable (d : Deps) (rt : Runtime) (row : Agent) (cs : List Container)
  (deploy : Option DeployConfig) (es : List Side)

/-- The replica count the tick loaded. -/
def loadedReplicas : Nat :=
  if rightsBefore 0 es + 4 < deploySteps deploy then row.replicas
  else if rightsBefore 0 es < deploySteps deploy then (deployedRow d rt.draws row deploy).replicas
  else startedCount d rt row cs deploy

/-- A report whose count is neither the one the tick loaded nor that of the started containers. -/
def Stale (health : Health) : Prop :=
  health.liveReplicas ≠ loadedReplicas d rt row cs deploy es ∧
    health.liveReplicas ≠ startedCount d rt row cs deploy

/-- A report that loses the deploy's update when it is committed at the tick's position: after the
deploy has returned, one of no container, of failing ones or a stale one; after the deploy has read
the row for the last time, a stale one, if the deploy starts just what was requested and so will
not write its count. -/
def Overwrites (health : Health) : Prop :=
  (rightsBefore 2 es = deploySteps deploy ∧
      (health.liveReplicas = 0 ∨ health.failing = true ∨ Stale d rt row cs deploy es health)) ∨
    (deploySteps deploy ≤ rightsBefore 2 es + 3 ∧ rightsBefore 2 es < deploySteps deploy ∧
      (deployedRow d rt.draws row deploy).replicas = startedCount d rt row cs deploy ∧
      Stale d rt row cs deploy es health)

/-- The schedules that lose the deploy's update: the tick loads the row, which was active before or
is `starting` by then, and commits a report that overwrites it. -/
def Overwritten : Prop :=
  (row.status ∈ tickStatuses ∨ deploySteps deploy ≤ rightsBefore 0 es + 2) ∧
    ∃ health, rt.healthCheck row.id (containersAfter d rt row cs deploy (rightsBefore 1 es)) =
      .ok health ∧ Overwrites d rt row cs deploy es health

end Interleavings

section Kept

variable {d : Deps} {rt : Runtime} {row : Agent} {cs : List Container}
  {deploy : Option DeployConfig} {es : List Side} {health : Health}

/-- For a tick that loaded the row and got a report, it is the report that decides. -/
theorem overwritten_iff
    (hactive : (rowAfter d rt row cs deploy (rightsBefore 0 es)).status ∈ tickStatuses)
    (hh : rt.healthCheck row.id (containersAfter d rt row cs deploy (rightsBefore 1 es)) =
      .ok health) :
    Overwritten d rt row cs deploy es ↔ Overwrites d rt row cs deploy es health := by
  constructor
  · rintro ⟨-, health', hh', ho⟩
    obtain rfl : health = health' := Except.ok.inj (hh.symm.trans hh')
    exact ho
  · intro ho
    exact ⟨(rowAfter_active_iff _).mp hactive, health, hh, ho⟩

/-- The tick's commit keeps the number of started containers unless its report is stale. -/
theorem column_replicas_iff {n : Nat} (hn : n = startedCount d rt row cs deploy) :
    column (rowAfter d rt row cs deploy (rightsBefore 0 es)).replicas health.liveReplicas n = n ↔
      ¬ Stale d rt row cs deploy es health := by
  subst hn
  rw [column_eq_stored_iff, rowAfter_replicas]
  unfold Stale loadedReplicas
  rw [not_and_or, not_not, not_not]

/-- The tick commits a report after `rightsBefore 2 es` steps of the deploy. -/
theorem kept_of_checked_iff (h : Succeeds d rt row deploy)
    (hle : rightsBefore 2 es ≤ deploySteps deploy)
    (hactive : (rowAfter d rt row cs deploy (rightsBefore 0 es)).status ∈ tickStatuses) :
    (run (raceStep d rt deploy)
      (tickStep rt (aloneAfter d rt row cs deploy
        (.checked (rowAfter d rt row cs deploy (rightsBefore 0 es)) health) (rightsBefore 2 es)))
      (rights (deploySteps deploy - rightsBefore 2 es))).Kept ↔
        ¬ Overwrites d rt row cs deploy es health := by
  rw [tickStep_checked]
  unfold Overwrites
  rcases Nat.lt_or_ge (rightsBefore 2 es + 3) (deploySteps deploy) with hearly | hlate
  · refine iff_of_true (kept_of_early h .done hearly _ _) ?_
    rintro (⟨he, -⟩ | ⟨hl, -⟩) <;> omega
  · rcases Nat.lt_or_ge (rightsBefore 2 es) (deploySteps deploy) with hlt | hge
    · have hreq : (rowAfter d rt row cs deploy (rightsBefore 2 es)).replicas =
          (deployedRow d rt.draws row deploy).replicas := by
        rw [rowAfter_replicas, if_neg (by omega), if_pos hlt]
      rw [kept_of_late_iff h .done hlate hlt, hreq]
      constructor
      · intro hk
        rintro (⟨he, -⟩ | ⟨-, -, hn, hs⟩)
        · omega
        · exact (column_replicas_iff hn).mp ((hk hn).trans hn.symm) hs
      · intro ho hn
        have hkeep := (column_replicas_iff hn).mpr fun hs => ho (Or.inr ⟨hlate, hlt, hn, hs⟩)
        exact hkeep.trans hn
    · have he : rightsBefore 2 es = deploySteps deploy := by omega
      have hreq : (rowAfter d rt row cs deploy (deploySteps deploy)).replicas =
          startedCount d rt row cs deploy := by
        rw [rowAfter_last]
      have hrun : (rowAfter d rt row cs deploy (deploySteps deploy)).status = .running := by
        rw [rowAfter_last]
      rw [he, Nat.sub_self, run_rights_zero, kept_of_last_iff h, hreq, hrun,
        column_replicas_iff rfl, column_newStatus_iff hactive]
      simp only [Bool.not_eq_true, true_and, Nat.lt_irrefl, false_and, and_false, or_false,
        not_or, and_assoc, ne_eq]

/-- **No update of a deploy is lost except on these schedules.** After every interleaving of a
deploy that succeeds with the three steps of a tick, the row says `running` and the number of
containers the deploy started if and only if the schedule is not one of `Overwritten`. -/
theorem update_kept_iff (h : Succeeds d rt row deploy) (htick : es.count .left = 3)
    (hdeploy : es.count .right = deploySteps deploy) :
    (run (raceStep d rt deploy) { stored := row, containers := cs } es).Kept ↔
      ¬ Overwritten d rt row cs deploy es := by
  obtain ⟨⟨h01, h12, h2m⟩, hrun⟩ := run_of_three_lefts (raceStep d rt deploy) htick
    { stored := row, containers := cs }
  rw [hdeploy] at h2m hrun
  simp only [raceStep_left] at hrun
  rw [hrun, ← aloneAfter_zero d rt row cs deploy, run_aloneAfter h _ (by omega), Nat.zero_add,
    tickStep_start]
  by_cases hactive : (rowAfter d rt row cs deploy (rightsBefore 0 es)).status ∈ tickStatuses
  · rw [if_pos hactive, run_aloneAfter h _ (by omega), Nat.add_sub_cancel' h01]
    cases hh : rt.healthCheck row.id (containersAfter d rt row cs deploy (rightsBefore 1 es)) with
    | error e =>
      rw [tickStep_loaded_error hh, run_aloneAfter h _ (by omega), Nat.add_sub_cancel' h12,
        tickStep_done, run_aloneAfter h _ (by omega), Nat.add_sub_cancel' h2m]
      refine iff_of_true (kept_alone h _) ?_
      rintro ⟨-, health, hok, -⟩
      rw [hh] at hok
      cases hok
    | ok health =>
      rw [tickStep_loaded_ok hh, run_aloneAfter h _ (by omega), Nat.add_sub_cancel' h12]
      rw [overwritten_iff hactive hh]
      exact kept_of_checked_iff h h2m hactive
  · rw [if_neg hactive, run_aloneAfter h _ (by omega), Nat.add_sub_cancel' h01,
      tickStep_done, run_aloneAfter h _ (by omega), Nat.add_sub_cancel' h12, tickStep_done,
      run_aloneAfter h _ (by omega), Nat.add_sub_cancel' h2m]
    refine iff_of_true (kept_alone h _) ?_
    rintro ⟨hact, -⟩
    exact hactive ((rowAfter_active_iff _).mpr hact)

end Kept

/-- An agent that has never been deployed. -/
def pendingAgent : Agent where
  id := "a"
  userId := freeUser.id
  slug := "a-0000"
  name := "a"

/-- A request for two replicas of an image. -/
def twoReplicas : Option DeployConfig := some (imageConfig 2 (by decide)).1

theorem twoReplicas_succeeds :
    Succeeds Deps.transparent Runtime.obliging pendingAgent twoReplicas where
  build := rfl
  secrets := rfl
  starts _ _ := ⟨_, _, rfl⟩

/-- An agent that runs one replica. -/
def runningAgent : Agent := { pendingAgent with status := .running, image := some "nginx" }

theorem twoReplicas_redeploys :
    Succeeds Deps.transparent Runtime.obliging runningAgent twoReplicas where
  build := rfl
  secrets := rfl
  starts _ _ := ⟨_, _, rfl⟩

/-- A tick that loads the running row and commits its report while the deploy is still at its
config loses nothing: the row ends with the two replicas started. -/
theorem kept_around_tick :
    (run (raceStep Deps.transparent Runtime.obliging twoReplicas)
      { stored := runningAgent, containers := containersFrom 0 1 }
      ([.left, .right, .left, .right, .left] ++ rights 4)).Kept := by
  refine (update_kept_iff twoReplicas_redeploys rfl rfl).mpr ?_
  rintro ⟨-, health, -, ⟨hlast, -⟩ | ⟨hlate, -⟩⟩
  · exact absurd hlast (by decide)
  · exact absurd hlate (by decide)

/-- **A tick while the containers start loses the count.** It finds `starting` with two replicas
requested and no container yet, and stores `stopped` with none. The deploy then starts both and
stores `running`; its count is the one it loaded, so it does not write it. -/
theorem tick_while_starting_loses_count :
    Succeeds Deps.transparent Runtime.obliging pendingAgent twoReplicas ∧
    (let es := rights 4 ++ [.left, .left, .left] ++ rights 2
     let r := run (raceStep Deps.transparent Runtime.obliging twoReplicas)
      { stored := pendingAgent, containers := [] } es
     es.count .left = 3 ∧ es.count .right = deploySteps twoReplicas ∧
      r.deploy = .done (.ok (containersFrom 0 2)) ∧ r.containers = containersFrom 0 2 ∧
      r.stored.status = .running ∧ r.stored.replicas = 0 ∧ ¬ r.Kept) := by
  refine ⟨twoReplicas_succeeds, rfl, rfl, rfl, rfl, rfl, rfl, ?_⟩
  rintro ⟨started, hd, -, hk⟩
  obtain rfl : containersFrom 0 2 = started := Except.ok.inj (DeployPc.done.inj hd)
  exact absurd hk (by decide)

end Gateway
