import Gateway.Agents.DeployRace

/-!
# Containers without a row (`deploy_agent`, `scale_agent`, `delete_agent`, the scheduler)

Any number of operations on one agent, in any interleaving of the steps between their awaits. A
`Lifetime` is the agent's row, if it is still there, its containers and how far each operation has
come. `delete_agent` removes the containers and then the row, in two steps and without a lock; an
operation that has read the row before goes on to its runtime call all the same.

A commit that has a changed column to write raises when the row is gone, one without does not, and a
`refresh` raises. What the quota queries and the runtime answer is part of a step. A statement that
fails otherwise, or the scheduler's metering, ends an operation (`abort`).

* `deploying_alone`, `scaling_alone`, `deleting_alone`: undisturbed, an operation does what the
  serial model's does.
* `orphan_after_delete`: a delete between the `starting` commit of a deploy and its runtime call
  leaves containers that belong to no agent.
* **`no_orphans`**: when every runtime call that leaves containers finds the row there and no delete
  past its `remove`, there are never containers without a row.
-/

namespace Gateway

open Lib

/-! ## Operations -/

/-- Where `deploy_agent` is, and the object it holds. -/
inductive DeployingPc where
  | start
  | loaded (a : Agent)
  | admitted (a : Agent)
  | configured
  | ready (a : Agent)
  | starting (a : Agent)
  | ran (a : Agent) (out : Except String (List Container))
  | done

/-- Where `scale_agent` is, and the object it holds. -/
inductive ScalingPc where
  | start
  | loaded (a : Agent)
  | admitted (a : Agent)
  | scaling (a : Agent)
  | ran (a : Agent) (out : Except CoreError Unit) (live : Nat)
  | done

/-- Where `delete_agent` is, and the object it holds. -/
inductive DeletingPc where
  | start
  | loaded (a : Agent)
  | removed
  | done

/-- Where a tick is with the agent, and the object it holds. -/
inductive AutoScalingPc where
  | start
  | loaded (a : Agent)
  | checked (a : Agent) (health : Health)
  | observed (a : Agent) (live : Nat)
  | scaling (a : Agent)
  | done

/-- An operation on the agent. -/
inductive AgentOp where
  | deploy (userId : UserId) (body : Option DeployConfig) (pc : DeployingPc)
  | scale (userId : UserId) (direction : ScaleDirection) (count : Nat) (pc : ScalingPc)
  | delete (userId : UserId) (pc : DeletingPc)
  | autoScale (pc : AutoScalingPc)

/-- The operation has returned or raised. -/
def AgentOp.finished : AgentOp → Bool
  | .deploy _ _ .done => true
  | .scale _ _ _ .done => true
  | .delete _ .done => true
  | .autoScale .done => true
  | _ => false

/-- The operation raises where it is. -/
def AgentOp.abort : AgentOp → AgentOp
  | .deploy u body _ => .deploy u body .done
  | .scale u direction count _ => .scale u direction count .done
  | .delete u _ => .delete u .done
  | .autoScale _ => .autoScale .done

/-- What a step meets: the runtime, and what the quota queries answer. -/
structure OpEnv where
  runtime : Runtime
  quota : Except GatewayError Unit := .ok ()
  headroom : Except GatewayError Bool := .ok true

/-- Commit an object loaded as `loaded` and now equal to `cur`; `none` if that raises, for want of a
row to update. -/
def commitRow (loaded cur : Agent) (stored : Option Agent) : Option (Option Agent) :=
  if cur = loaded then some stored else stored.map fun row => some (Agent.flush loaded cur row)

/-- What a step leaves: where the operation is, the row and the containers. -/
abbrev OpOutcome (π : Type) := π × Option Agent × List Container

section Steps

variable (d : Deps) (env : OpEnv) (stored : Option Agent) (cs : List Container)

/-- The last commit of an operation: if it raises, the row is as it was. -/
def lastCommit {π : Type} (done : π) (loaded cur : Agent) : OpOutcome π :=
  (done, (commitRow loaded cur stored).getD stored, cs)

/-- The next step of `deploy_agent`. -/
def deployingStep (u : UserId) (body : Option DeployConfig) :
    DeployingPc → OpOutcome DeployingPc
  | .start =>
    match stored.filter fun a => a.userId = u with
    | none => (.done, stored, cs)
    | some a => (.loaded a, stored, cs)
  | .loaded a =>
    match env.quota with
    | .error _ => (.done, stored, cs)
    | .ok () => (.admitted a, stored, cs)
  | .admitted a =>
    match body with
    | none => (.ready a, stored, cs)
    | some c =>
      match commitRow a (applyDeployConfig d env.runtime.draws a c) stored with
      | none => (.done, stored, cs)
      | some stored => (.configured, stored, cs)
  | .configured =>
    match stored with
    | none => (.done, none, cs)
    | some a => (.ready a, some a, cs)
  | .ready a =>
    if needsBuild a then (.done, stored, cs)
    else
      match commitRow a { a with status := .starting } stored with
      | none => (.done, stored, cs)
      | some stored => (.starting { a with status := .starting }, stored, cs)
  | .starting a =>
    let out := startContainers d env.runtime a cs
    (.ran a out.1, stored, out.2)
  | .ran a (.error msg) =>
    lastCommit stored cs .done a { a with status := .failed, error := some msg }
  | .ran a (.ok started) =>
    lastCommit stored cs .done a
      { a with
        status := .running
        replicas := started.length
        error := none
        version := a.version + 1 }
  | .done => (.done, stored, cs)

/-- The next step of `scale_agent`; the live containers are counted as the runtime call returns. -/
def scalingStep (u : UserId) (direction : ScaleDirection) (count : Nat) :
    ScalingPc → OpOutcome ScalingPc
  | .start =>
    match stored.filter fun a => a.userId = u with
    | none => (.done, stored, cs)
    | some a => (.loaded a, stored, cs)
  | .loaded a =>
    match if direction = .up then env.quota else .ok () with
    | .error _ => (.done, stored, cs)
    | .ok () => (.admitted a, stored, cs)
  | .admitted a =>
    match commitRow a { a with status := .scaling } stored with
    | none => (.done, stored, cs)
    | some stored => (.scaling { a with status := .scaling }, stored, cs)
  | .scaling a =>
    let out := env.runtime.scale a.id direction count cs
    match out.1 with
    | .error e => (.ran a (.error e) out.2.length, stored, out.2)
    | .ok () =>
      match env.runtime.getContainers a.id out.2 with
      | .error _ => (.done, stored, out.2)
      | .ok live => (.ran a (.ok ()) live.length, stored, out.2)
  | .ran _ (.error (.other _)) _ => (.done, stored, cs)
  | .ran a (.error e) _ =>
    lastCommit stored cs .done a { a with status := .failed, error := some e.str }
  | .ran a (.ok ()) live =>
    lastCommit stored cs .done a { a with replicas := liveOr live a.replicas, status := .running }
  | .done => (.done, stored, cs)

/-- Where a scale is once the runtime has answered. -/
theorem scalingStep_scaling (u : UserId) (direction : ScaleDirection) (count : Nat) (a : Agent) :
    scalingStep env stored cs u direction count (.scaling a) =
      (.ran a (env.runtime.scale a.id direction count cs).1
          (env.runtime.scale a.id direction count cs).2.length,
        stored, (env.runtime.scale a.id direction count cs).2) := by
  simp only [scalingStep, env.runtime.getContainers_eq]
  cases env.runtime.scale a.id direction count cs with
  | mk res left => cases res <;> rfl

/-- The next step of `delete_agent`; deleting a row that is gone is no error. -/
def deletingStep (u : UserId) : DeletingPc → OpOutcome DeletingPc
  | .start =>
    match stored.filter fun a => a.userId = u with
    | none => (.done, stored, cs)
    | some a => (.loaded a, stored, cs)
  | .loaded a =>
    match env.runtime.remove a.id cs with
    | (.error _, left) => (.done, stored, left)
    | (.ok (), left) => (.removed, stored, left)
  | .removed => (.done, none, cs)
  | .done => (.done, stored, cs)

/-- The next step of a tick with this agent. -/
def autoScalingStep : AutoScalingPc → OpOutcome AutoScalingPc
  | .start =>
    match stored.filter fun a => a.status ∈ tickStatuses with
    | none => (.done, stored, cs)
    | some a => (.loaded a, stored, cs)
  | .loaded a =>
    match env.runtime.healthCheck a.id cs with
    | .error _ => (.done, stored, cs)
    | .ok health => (.checked a health, stored, cs)
  | .checked a health =>
    match commitRow a (observe a health) stored with
    | none => (.done, stored, cs)
    | some stored => (.observed (observe a health) health.liveReplicas, stored, cs)
  | .observed a live =>
    if a.autoScale ∧ a.status = .running ∧ 0 < live then
      match env.headroom with
      | .ok true => (.scaling a, stored, cs)
      | _ => (.done, stored, cs)
    else (.done, stored, cs)
  | .scaling a => (.done, stored, (env.runtime.autoScale a.id cs).2)
  | .done => (.done, stored, cs)

/-- The next step of an operation. -/
def opStep : AgentOp → OpOutcome AgentOp
  | .deploy u body pc =>
    let out := deployingStep d env stored cs u body pc
    (.deploy u body out.1, out.2)
  | .scale u direction count pc =>
    let out := scalingStep env stored cs u direction count pc
    (.scale u direction count out.1, out.2)
  | .delete u pc =>
    let out := deletingStep env stored cs u pc
    (.delete u out.1, out.2)
  | .autoScale pc =>
    let out := autoScalingStep env stored cs pc
    (.autoScale out.1, out.2)

end Steps

/-! ## The life of an agent -/

/-- The agent's row, its containers and the operations on it. -/
structure Lifetime where
  stored : Option Agent
  containers : List Container
  ops : List AgentOp := []

/-- A request to one of the endpoints, or the scheduler loading the row. -/
inductive OpCall where
  | deploy (userId : UserId) (body : Option DeployConfig)
  | scale (userId : UserId) (direction : ScaleDirection) (count : Nat)
  | delete (userId : UserId)
  | autoScale

/-- The operation of a call. -/
def OpCall.op : OpCall → AgentOp
  | .deploy u body => .deploy u body .start
  | .scale u direction count => .scale u direction count .start
  | .delete u => .delete u .start
  | .autoScale => .autoScale .start

/-- What happens next: a call, a step of an operation, or a failure of one. -/
inductive LifeMove where
  | call (call : OpCall)
  | advance (i : Nat) (env : OpEnv)
  | abort (i : Nat)

/-- One move. -/
def lifeStep (d : Deps) (σ : Lifetime) : LifeMove → Lifetime
  | .call call => { σ with ops := σ.ops ++ [call.op] }
  | .advance i env =>
    match σ.ops[i]? with
    | none => σ
    | some op =>
      let out := opStep d env σ.stored σ.containers op
      { stored := out.2.1
        containers := out.2.2
        ops := σ.ops.set i out.1 }
  | .abort i =>
    match σ.ops[i]? with
    | none => σ
    | some op => { σ with ops := σ.ops.set i op.abort }

/-! ## Undisturbed operations -/

section Alone

variable {d : Deps} {env : OpEnv} {u : UserId} {a : Agent} {cs : List Container}

/-- Nobody else wrote the row: the commit stores the object. -/
@[simp] theorem commitRow_loaded (l c : Agent) : commitRow l c (some l) = some (some c) := by
  unfold commitRow
  split_ifs with h
  · rw [h]
  · simp

@[simp] theorem lastCommit_loaded {π : Type} (done : π) (l c : Agent) :
    lastCommit (some l) cs done l c = (done, some c, cs) := by
  simp [lastCommit]

/-- `n` steps of an operation nobody disturbs. -/
def opSteps (d : Deps) (env : OpEnv) (n : Nat) (s : OpOutcome AgentOp) : OpOutcome AgentOp :=
  (fun s => opStep d env s.2.1 s.2.2 s.1)^[n] s

theorem opSteps_succ (n : Nat) (op : AgentOp) (stored : Option Agent) :
    opSteps d env (n + 1) (op, stored, cs) = opSteps d env n (opStep d env stored cs op) :=
  Function.iterate_succ_apply ..

/-- The last three steps of a deploy, from the row it works on. -/
theorem deploying_ready (body : Option DeployConfig) :
    opSteps d env 3
        (.deploy u body (.ready (deployedRow d env.runtime.draws a body)),
          some (deployedRow d env.runtime.draws a body), cs) =
      (.deploy u body .done, some (deployLocal d env.runtime a body cs).2.1,
        (deployLocal d env.runtime a body cs).2.2) := by
  by_cases hb : needsBuild (deployedRow d env.runtime.draws a body) = true
  · have hlocal : deployLocal d env.runtime a body cs =
      (.error .buildNotSupported, deployedRow d env.runtime.draws a body, cs) := if_pos hb
    have hstep : opStep d env (some (deployedRow d env.runtime.draws a body)) cs
        (.deploy u body (.ready (deployedRow d env.runtime.draws a body))) =
          (.deploy u body .done, some (deployedRow d env.runtime.draws a body), cs) := by
      simp [opStep, deployingStep, hb]
    rw [hlocal, opSteps_succ, hstep]
    rfl
  · generalize hrow : deployedRow d env.runtime.draws a body = row at hb
    have hready : opStep d env (some row) cs (.deploy u body (.ready row)) =
        (.deploy u body (.starting { row with status := .starting }),
          some { row with status := .starting }, cs) := by
      simp [opStep, deployingStep, hb]
    have hstart : startContainers d env.runtime { row with status := .starting } cs =
      startContainers d env.runtime row cs := rfl
    rw [opSteps_succ, hready, opSteps_succ]
    simp only [opStep, deployingStep, hstart]
    rw [opSteps_succ]
    unfold deployLocal
    simp only [hrow, hb, Bool.false_eq_true, if_false]
    cases startContainers d env.runtime row cs with
    | mk res left =>
      cases res with
      | error msg => simp [opStep, deployingStep, opSteps]
      | ok started => simp [opStep, deployingStep, opSteps]

/-- **An undisturbed deploy** that passes the quota check does to the row and the containers what
`deployAgent` does. -/
theorem deploying_alone (hu : a.userId = u) (hq : env.quota = .ok ()) (body : Option DeployConfig) :
    opSteps d env (body.elim 6 fun _ => 7) (.deploy u body .start, some a, cs) =
      (.deploy u body .done, some (deployLocal d env.runtime a body cs).2.1,
        (deployLocal d env.runtime a body cs).2.2) := by
  have hload : opStep d env (some a) cs (.deploy u body .start) =
      (.deploy u body (.loaded a), some a, cs) := by
    simp [opStep, deployingStep, Option.filter_some, hu]
  have hquota : opStep d env (some a) cs (.deploy u body (.loaded a)) =
      (.deploy u body (.admitted a), some a, cs) := by
    simp [opStep, deployingStep, hq]
  rw [← deploying_ready]
  cases body with
  | none =>
    rw [Option.elim_none, opSteps_succ, hload, opSteps_succ, hquota, opSteps_succ]
    rfl
  | some c =>
    have hcommit : opStep d env (some a) cs (.deploy u (some c) (.admitted a)) =
        (.deploy u (some c) .configured, some (applyDeployConfig d env.runtime.draws a c), cs) := by
      simp [opStep, deployingStep]
    rw [Option.elim_some, opSteps_succ, hload, opSteps_succ, hquota, opSteps_succ, hcommit,
      opSteps_succ]
    rfl

/-- **An undisturbed scale** that passes the quota check does to the row and the containers what
`scaleAgent` does. -/
theorem scaling_alone (hu : a.userId = u) (hq : env.quota = .ok ()) (direction : ScaleDirection)
    (count : Nat) :
    opSteps d env 5 (.scale u direction count .start, some a, cs) =
      (.scale u direction count .done, some (scaleLocal env.runtime a direction count cs).2.1,
        (scaleLocal env.runtime a direction count cs).2.2) := by
  have hload : opStep d env (some a) cs (.scale u direction count .start) =
      (.scale u direction count (.loaded a), some a, cs) := by
    simp [opStep, scalingStep, Option.filter_some, hu]
  have hquota : opStep d env (some a) cs (.scale u direction count (.loaded a)) =
      (.scale u direction count (.admitted a), some a, cs) := by
    simp [opStep, scalingStep, hq]
  have hcommit : opStep d env (some a) cs (.scale u direction count (.admitted a)) =
      (.scale u direction count (.scaling { a with status := .scaling }),
        some { a with status := .scaling }, cs) := by
    simp [opStep, scalingStep]
  rw [opSteps_succ, hload, opSteps_succ, hquota, opSteps_succ, hcommit, opSteps_succ]
  simp only [opStep, scalingStep_scaling]
  rw [opSteps_succ]
  unfold scaleLocal
  cases env.runtime.scale a.id direction count cs with
  | mk res left =>
    cases res with
    | ok _ => simp [opStep, scalingStep, opSteps]
    | error e => cases e <;> simp [opStep, scalingStep, opSteps]

/-- **An undisturbed delete** removes the containers and then the row, unless the runtime raises. -/
theorem deleting_alone (hu : a.userId = u) :
    opSteps d env 3 (.delete u .start, some a, cs) =
      (.delete u .done,
        (match (env.runtime.remove a.id cs).1 with
          | .error _ => some a
          | .ok () => none), (env.runtime.remove a.id cs).2) := by
  have hload : opStep d env (some a) cs (.delete u .start) =
      (.delete u (.loaded a), some a, cs) := by
    simp [opStep, deletingStep, Option.filter_some, hu]
  rw [opSteps_succ, hload, opSteps_succ]
  simp only [opStep, deletingStep]
  cases env.runtime.remove a.id cs with
  | mk res left =>
    cases res with
    | error e => rfl
    | ok _ => rfl

end Alone

/-! ## Who leaves containers behind -/

/-- The next step of the operation is a runtime call that may start containers: those it leaves. -/
def AgentOp.startedBy (d : Deps) (rt : Runtime) (cs : List Container) :
    AgentOp → Option (List Container)
  | .deploy _ _ (.starting a) => some (startContainers d rt a cs).2
  | .scale _ direction count (.scaling a) => some (rt.scale a.id direction count cs).2
  | .autoScale (.scaling a) => some (rt.autoScale a.id cs).2
  | _ => none

/-- A delete that has removed the containers and not yet the row. -/
def AgentOp.removing : AgentOp → Bool
  | .delete _ .removed => true
  | _ => false

/-- A runtime call that leaves containers is made while the row is there and no delete is past its
`remove`. -/
def Unorphaning (d : Deps) (σ : Lifetime) : LifeMove → Prop
  | .advance i env =>
    match σ.ops[i]?.bind (AgentOp.startedBy d env.runtime σ.containers) with
    | none => True
    | some left => left = [] ∨ σ.stored.isSome = true ∧ ∀ op ∈ σ.ops, op.removing = false
  | _ => True

/-- What `remove` does: having returned it has removed all the agent's containers, having raised it
has added none. -/
structure Runtime.Removes (rt : Runtime) : Prop where
  remove_ok : ∀ id cs, (rt.remove id cs).1 = .ok () → (rt.remove id cs).2 = []
  remove_subset : ∀ id cs, (rt.remove id cs).2 ⊆ cs

/-- The runtime a move meets removes what it is asked to. -/
def LifeMove.Removes : LifeMove → Prop
  | .advance _ env => env.runtime.Removes
  | _ => True

section Safety

variable {d : Deps} {env : OpEnv} {stored : Option Agent} {cs : List Container} {op : AgentOp}

theorem commitRow_eq_none {l c : Agent} {stored' : Option Agent}
    (h : commitRow l c stored = some stored') : stored' = none ↔ stored = none := by
  unfold commitRow at h
  split_ifs at h
  · rw [Option.some.inj h]
  · obtain ⟨row, rfl, rfl⟩ := Option.map_eq_some_iff.mp h
    simp

theorem lastCommit_eq_none {π : Type} (done : π) (l c : Agent) :
    (lastCommit stored cs done l c).2.1 = none ↔ stored = none := by
  unfold lastCommit
  cases h : commitRow l c stored with
  | none => rfl
  | some stored' => exact commitRow_eq_none h

/-- A step that leaves the containers, and the row if it is there. -/
structure Harmless (stored : Option Agent) (cs : List Container) (out : OpOutcome AgentOp) :
    Prop where
  row : out.2.1 = none ↔ stored = none
  containers : out.2.2 = cs
  removing : out.1.removing = false

theorem deploy_cases (u : UserId) (body : Option DeployConfig) (pc : DeployingPc) :
    (∃ a, pc = .starting a) ∨ Harmless stored cs (opStep d env stored cs (.deploy u body pc)) := by
  have hstay : ∀ pc' : DeployingPc, Harmless stored cs (.deploy u body pc', stored, cs) :=
    fun _ => ⟨Iff.rfl, rfl, rfl⟩
  unfold opStep deployingStep
  cases pc with
  | start =>
    right
    simp only
    split <;> exact hstay _
  | loaded a =>
    right
    simp only
    split <;> exact hstay _
  | admitted a =>
    right
    cases body with
    | none => exact ⟨Iff.rfl, rfl, rfl⟩
    | some c =>
      simp only
      split
      · exact hstay _
      · rename_i h
        exact ⟨commitRow_eq_none h, rfl, rfl⟩
  | configured =>
    right
    cases stored <;> exact ⟨Iff.rfl, rfl, rfl⟩
  | ready a =>
    right
    simp only
    split_ifs
    · exact hstay _
    · split
      · exact hstay _
      · rename_i h
        exact ⟨commitRow_eq_none h, rfl, rfl⟩
  | starting a => exact .inl ⟨a, rfl⟩
  | ran a out =>
    right
    cases out with
    | error msg => exact ⟨lastCommit_eq_none .., rfl, rfl⟩
    | ok started => exact ⟨lastCommit_eq_none .., rfl, rfl⟩
  | done => exact .inr (hstay _)

theorem scale_cases (u : UserId) (direction : ScaleDirection) (count : Nat) (pc : ScalingPc) :
    (∃ a, pc = .scaling a) ∨
      Harmless stored cs (opStep d env stored cs (.scale u direction count pc)) := by
  have hstay : ∀ pc' : ScalingPc, Harmless stored cs (.scale u direction count pc', stored, cs) :=
    fun _ => ⟨Iff.rfl, rfl, rfl⟩
  unfold opStep scalingStep
  cases pc with
  | start =>
    right
    simp only
    split <;> exact hstay _
  | loaded a =>
    right
    simp only
    split <;> exact hstay _
  | admitted a =>
    right
    simp only
    split
    · exact hstay _
    · rename_i h
      exact ⟨commitRow_eq_none h, rfl, rfl⟩
  | scaling a => exact .inl ⟨a, rfl⟩
  | ran a out live =>
    right
    cases out with
    | ok _ => exact ⟨lastCommit_eq_none .., rfl, rfl⟩
    | error e =>
      cases e with
      | other msg => exact hstay _
      | scaling msg => exact ⟨lastCommit_eq_none .., rfl, rfl⟩
      | containerNotFound msg => exact ⟨lastCommit_eq_none .., rfl, rfl⟩
  | done => exact .inr (hstay _)

theorem autoScale_cases (pc : AutoScalingPc) :
    (∃ a, pc = .scaling a) ∨ Harmless stored cs (opStep d env stored cs (.autoScale pc)) := by
  have hstay : ∀ pc' : AutoScalingPc, Harmless stored cs (.autoScale pc', stored, cs) :=
    fun _ => ⟨Iff.rfl, rfl, rfl⟩
  unfold opStep autoScalingStep
  cases pc with
  | start =>
    right
    simp only
    split <;> exact hstay _
  | loaded a =>
    right
    simp only
    split <;> exact hstay _
  | checked a health =>
    right
    simp only
    split
    · exact hstay _
    · rename_i h
      exact ⟨commitRow_eq_none h, rfl, rfl⟩
  | observed a live =>
    right
    simp only
    split_ifs
    · split <;> exact hstay _
    · exact hstay _
  | scaling a => exact .inl ⟨a, rfl⟩
  | done => exact .inr (hstay _)

/-- **What a step of an operation can do**: nothing that matters here, a runtime call that may start
containers, the `remove` of a delete, or the end of one. -/
theorem opStep_cases (d : Deps) (env : OpEnv) (stored : Option Agent) (cs : List Container)
    (op : AgentOp) :
    Harmless stored cs (opStep d env stored cs op) ∨
      (∃ left, op.startedBy d env.runtime cs = some left ∧
        (opStep d env stored cs op).2 = (stored, left) ∧
        (opStep d env stored cs op).1.removing = false) ∨
      (∃ a : Agent, (opStep d env stored cs op).2 = (stored, (env.runtime.remove a.id cs).2) ∧
        ((opStep d env stored cs op).1.removing = true →
          (env.runtime.remove a.id cs).1 = .ok ())) ∨
      (op.removing = true ∧ (opStep d env stored cs op).2 = (none, cs) ∧
        (opStep d env stored cs op).1.removing = false) := by
  cases op with
  | deploy u body pc =>
    rcases deploy_cases u body pc with ⟨a, rfl⟩ | h
    · exact .inr (.inl ⟨_, rfl, rfl, rfl⟩)
    · exact .inl h
  | scale u direction count pc =>
    rcases scale_cases u direction count pc with ⟨a, rfl⟩ | h
    · refine .inr (.inl ⟨_, rfl, ?_, rfl⟩)
      simp only [opStep, scalingStep_scaling]
    · exact .inl h
  | autoScale pc =>
    rcases autoScale_cases pc with ⟨a, rfl⟩ | h
    · exact .inr (.inl ⟨_, rfl, rfl, rfl⟩)
    · exact .inl h
  | delete u pc =>
    unfold opStep deletingStep
    cases pc with
    | start =>
      left
      simp only
      split <;> exact ⟨Iff.rfl, rfl, rfl⟩
    | loaded a =>
      refine .inr (.inr (.inl ⟨a, ?_⟩))
      simp only
      cases env.runtime.remove a.id cs with
      | mk res left =>
        cases res with
        | error e => exact ⟨rfl, fun h => by cases h⟩
        | ok _ => exact ⟨rfl, fun _ => rfl⟩
    | removed => exact .inr (.inr (.inr ⟨rfl, rfl, rfl⟩))
    | done => exact .inl ⟨Iff.rfl, rfl, rfl⟩

/-- No containers without a row, and none once a delete has removed them. -/
structure Lifetime.Ok (σ : Lifetime) : Prop where
  row : σ.stored = none → σ.containers = []
  removing : (∃ op ∈ σ.ops, op.removing = true) → σ.containers = []

theorem Lifetime.Ok.advance {σ : Lifetime} {i : Nat} (hok : σ.Ok) (hi : σ.ops[i]? = some op)
    (hrt : env.runtime.Removes) (hun : Unorphaning d σ (.advance i env)) :
    Lifetime.Ok
      { stored := (opStep d env σ.stored σ.containers op).2.1
        containers := (opStep d env σ.stored σ.containers op).2.2
        ops := σ.ops.set i (opStep d env σ.stored σ.containers op).1 } := by
  have hmem : op ∈ σ.ops := List.mem_of_getElem? hi
  have hother : ∀ {op' : AgentOp}, op'.removing = false →
      (∃ x ∈ σ.ops.set i op', x.removing = true) → ∃ x ∈ σ.ops, x.removing = true := by
    rintro op' hnot ⟨x, hx, hrem⟩
    rcases List.mem_or_eq_of_mem_set hx with hx | rfl
    · exact ⟨x, hx, hrem⟩
    · rw [hnot] at hrem
      cases hrem
  rcases opStep_cases d env σ.stored σ.containers op with
    ⟨hrow, hcs, hnot⟩ | ⟨left, hstart, hout, hnot⟩ | ⟨a, hout, hrem⟩ | ⟨hdel, hout, hnot⟩
  · constructor
    · intro hnone
      rw [hcs]
      exact hok.row (hrow.mp hnone)
    · intro hx
      rw [hcs]
      exact hok.removing (hother hnot hx)
  · rw [hout]
    have hleft : left = [] ∨ σ.stored.isSome = true ∧ ∀ x ∈ σ.ops, x.removing = false := by
      simpa [Unorphaning, hi, hstart] using hun
    constructor
    · intro hnone
      rcases hleft with hleft | ⟨hrow, -⟩
      · exact hleft
      · rw [hnone] at hrow
        cases hrow
    · intro hx
      rcases hleft with hleft | ⟨-, hfree⟩
      · exact hleft
      · obtain ⟨x, hx, hxrem⟩ := hother hnot hx
        rw [hfree x hx] at hxrem
        cases hxrem
  · have hsub := hrt.remove_subset a.id σ.containers
    rw [hout]
    constructor
    · intro hnone
      rw [hok.row hnone] at hsub ⊢
      exact List.eq_nil_of_subset_nil hsub
    · rintro ⟨x, hx, hxrem⟩
      rcases List.mem_or_eq_of_mem_set hx with hx | rfl
      · rw [hok.removing ⟨x, hx, hxrem⟩] at hsub ⊢
        exact List.eq_nil_of_subset_nil hsub
      · exact hrt.remove_ok a.id σ.containers (hrem hxrem)
  · rw [hout]
    have hnone : σ.containers = [] := hok.removing ⟨op, hmem, hdel⟩
    exact ⟨fun _ => hnone, fun _ => hnone⟩

theorem lifeStep_ok {σ : Lifetime} {m : LifeMove} (hok : σ.Ok) (hrt : m.Removes)
    (hun : Unorphaning d σ m) : (lifeStep d σ m).Ok := by
  unfold lifeStep
  cases m with
  | call call =>
    refine ⟨hok.row, ?_⟩
    rintro ⟨op, hop, hrem⟩
    rcases List.mem_append.mp hop with hop | hop
    · exact hok.removing ⟨op, hop, hrem⟩
    · rw [List.mem_singleton.mp hop] at hrem
      cases call <;> cases hrem
  | advance i env =>
    simp only
    cases hi : σ.ops[i]? with
    | none => exact hok
    | some op => exact hok.advance hi hrt hun
  | abort i =>
    simp only
    cases hi : σ.ops[i]? with
    | none => exact hok
    | some op =>
      refine ⟨hok.row, ?_⟩
      rintro ⟨x, hx, hrem⟩
      rcases List.mem_or_eq_of_mem_set hx with hx | rfl
      · exact hok.removing ⟨x, hx, hrem⟩
      · cases op <;> cases hrem

end Safety

/-- **When there are no orphan containers.** In every run of any operations on the agent in which
each runtime call that leaves containers finds the row there and no delete between its `remove` and
its commit, every container of every state reached, operations in progress or not, belongs to an
agent whose row exists. -/
theorem no_orphans (d : Deps) (stored : Option Agent) (containers : List Container)
    (moves : List LifeMove) (hstart : stored = none → containers = [])
    (hrt : ∀ m ∈ moves, m.Removes)
    (hun : Along (lifeStep d) (Unorphaning d) { stored := stored, containers := containers }
      moves) :
    ∀ c ∈ (run (lifeStep d) { stored := stored, containers := containers } moves).containers,
      ∃ row, (run (lifeStep d) { stored := stored, containers := containers } moves).stored =
        some row := by
  have hok : (run (lifeStep d) { stored := stored, containers := containers } moves).Ok := by
    refine run_inv (P := Lifetime.Ok) (G := fun σ m => m.Removes ∧ Unorphaning d σ m)
      (fun σ m hok hm => lifeStep_ok hok hm.1 hm.2) moves ?_
      (Along.and (G := fun _ m => m.Removes) moves
        (along_of_forall (P := LifeMove.Removes) moves _ hrt) hun)
    exact ⟨hstart, by rintro ⟨op, hop, -⟩; cases hop⟩
  intro c hc
  refine Option.ne_none_iff_exists'.mp fun hnone => ?_
  rw [hok.row hnone] at hc
  cases hc

/-! ## A delete during a deploy -/

/-- An agent of the account 1 that has not been deployed. -/
def undeployed : Agent where
  id := "a"
  userId := 1
  slug := "solo"
  name := "solo"
  image := some "agent"
  replicas := 1

/-- A deploy up to its runtime call. -/
def deployUpToCall : List LifeMove :=
  .call (.deploy 1 none) :: List.replicate 4 (.advance 0 { runtime := .obliging })

/-- The runtime call of the deploy and its last commit. -/
def deployFromCall : List LifeMove := List.replicate 2 (.advance 0 { runtime := .obliging })

/-- A whole delete. -/
def wholeDelete : List LifeMove :=
  .call (.delete 1) :: List.replicate 3 (.advance 1 { runtime := .obliging })

/-- The delete comes after the `starting` commit and is over before the containers start: nothing
is in progress any more, the row is gone and the container runs. -/
theorem orphan_after_delete :
    let σ := run (lifeStep .transparent) { stored := some undeployed, containers := [] }
      (deployUpToCall ++ wholeDelete ++ deployFromCall)
    (σ.ops.all AgentOp.finished) = true ∧ σ.stored = none ∧ σ.containers = containersFrom 0 1 := by
  decide +kernel

theorem Runtime.obliging_removes : Runtime.obliging.Removes where
  remove_ok _ _ _ := rfl
  remove_subset _ _ := List.nil_subset _

/-- A delete as far as its query, and the rest of it. -/
def deleteLoads : List LifeMove := [.call (.delete 1), .advance 1 { runtime := .obliging }]

def deleteRest : List LifeMove := List.replicate 2 (.advance 1 { runtime := .obliging })

/-- A delete that has loaded the row waits while the same deploy starts its container, which has its
row as long as it runs; then the delete removes both. -/
theorem no_orphans_delete_waits :
    (run (lifeStep .transparent) { stored := some undeployed, containers := [] }
        (deployUpToCall ++ deleteLoads ++ deployFromCall)).containers = containersFrom 0 1 ∧
      (∀ c ∈ (run (lifeStep .transparent) { stored := some undeployed, containers := [] }
          (deployUpToCall ++ deleteLoads ++ deployFromCall)).containers,
        ∃ row, (run (lifeStep .transparent) { stored := some undeployed, containers := [] }
          (deployUpToCall ++ deleteLoads ++ deployFromCall)).stored = some row) ∧
      (run (lifeStep .transparent) { stored := some undeployed, containers := [] }
        (deployUpToCall ++ deleteLoads ++ deployFromCall ++ deleteRest)).stored = none ∧
      (run (lifeStep .transparent) { stored := some undeployed, containers := [] }
        (deployUpToCall ++ deleteLoads ++ deployFromCall ++ deleteRest)).containers = [] := by
  refine ⟨by decide +kernel, no_orphans .transparent (some undeployed) []
    (deployUpToCall ++ deleteLoads ++ deployFromCall) (fun h => by cases h) ?_ ?_,
    by decide +kernel, by decide +kernel⟩
  · intro m hm
    simp only [deployUpToCall, deleteLoads, deployFromCall, List.replicate, List.cons_append,
      List.nil_append, List.mem_cons, List.not_mem_nil, or_false] at hm
    rcases hm with rfl | rfl | rfl | rfl | rfl | rfl | rfl | rfl | rfl
    · trivial
    · exact Runtime.obliging_removes
    · exact Runtime.obliging_removes
    · exact Runtime.obliging_removes
    · exact Runtime.obliging_removes
    · trivial
    all_goals exact Runtime.obliging_removes
  · exact ⟨trivial, trivial, trivial, trivial, trivial, trivial, trivial,
      .inr ⟨rfl, by decide⟩, trivial, trivial⟩

end Gateway
