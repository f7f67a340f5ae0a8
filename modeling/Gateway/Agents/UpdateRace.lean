import Gateway.Agents.Orphans
import Gateway.Lib.Pool
import Gateway.Lib.TwoRuns

/-!
# Updates during other operations (`update_agent`)

`update_agent` loads the row, sets what the body sends and commits, like the operations of
`Agents/Orphans.lean` without a lock and in a session of its own. A `SharedRow` is the life of an
agent with the updates in progress next to it, in any interleaving.

An update owns two columns, `access` and `rate_limit_rpm`: no operation assigns them, and a commit
writes only what its session changed.

* `updating_alone`: undisturbed, an update stores what the serial model's does.
* **`updates_unseen`**: with the two columns blanked, the row, the containers and the objects the
  operations hold are after every interleaving what they are without the updates.
* **`settings_of_updates`**: when no two updates of the same column overlap, the columns are what
  the committed updates make of them in the order of their commits, whatever the operations do.
* `overlapping_update_lost`: two updates of the same column that overlap may both return, and the
  row have the value of the one that committed first.
-/

namespace Gateway

open Lib

/-! ## The columns of an update -/

/-- What `update_agent` assigns. -/
structure AgentSettings where
  access : AgentAccess
  rateLimitRpm : Option Nat
  deriving DecidableEq, Repr

/-- The settings of a row. -/
def Agent.settings (a : Agent) : AgentSettings := ⟨a.access, a.rateLimitRpm⟩

/-- The row without its settings. -/
def Agent.unset (a : Agent) : Agent := { a with access := .priv, rateLimitRpm := none }

/-- What the body makes of settings. -/
def AgentUpdate.settle (s : AgentSettings) (body : AgentUpdate) : AgentSettings where
  access := body.access.getD s.access
  rateLimitRpm := body.rateLimitRpm.getD s.rateLimitRpm

/-- The assignments of `update_agent`. -/
def Agent.patch (a : Agent) (body : AgentUpdate) : Agent :=
  { a with
    access := body.access.getD a.access
    rateLimitRpm := body.rateLimitRpm.getD a.rateLimitRpm }

/-- A row is its settings and the rest. -/
theorem Agent.eq_of_unset {a b : Agent} (hrest : a.unset = b.unset)
    (hset : a.settings = b.settings) : a = b := by
  have hsplit : ∀ x : Agent,
      x = { x.unset with access := x.settings.access, rateLimitRpm := x.settings.rateLimitRpm } :=
    fun _ => rfl
  rw [hsplit a, hsplit b, hrest, hset]

/-- An unchanged object writes nothing. -/
theorem Agent.flush_same (l s : Agent) : Agent.flush l l s = s := by
  simp [Agent.flush]

theorem Agent.flush_unset (l c s : Agent) :
    Agent.flush l.unset c.unset s.unset = (Agent.flush l c s).unset := by
  simp [Agent.flush, Agent.unset]

/-- A session that left the settings alone commits nothing to them. -/
theorem Agent.flush_settings {l c : Agent} (h : c.settings = l.settings) (s : Agent) :
    (Agent.flush l c s).settings = s.settings := by
  obtain ⟨hacc, hrpm⟩ := AgentSettings.mk.inj h
  simp only [Agent.flush, Agent.settings, hacc, hrpm, column_same]

theorem Agent.flush_patch_unset (l s : Agent) (body : AgentUpdate) :
    (Agent.flush l (l.patch body) s).unset = s.unset := by
  simp [Agent.flush, Agent.patch, Agent.unset]

/-- As long as the row is there a commit does not raise, changed columns or not. -/
theorem commitRow_some (l c row : Agent) :
    commitRow l c (some row) = some (some (Agent.flush l c row)) := by
  unfold commitRow
  split_ifs with h
  · rw [h, Agent.flush_same]
  · rfl

/-- A commit that does not touch the settings does to the rest of the row what it does anyway. -/
theorem commitRow_unset (l c : Agent) (h : c.settings = l.settings) (stored : Option Agent) :
    commitRow l.unset c.unset (stored.map Agent.unset) =
      (commitRow l c stored).map (Option.map Agent.unset) := by
  have hiff : c.unset = l.unset ↔ c = l := by
    constructor
    · intro hrest
      exact Agent.eq_of_unset hrest h
    · intro heq
      rw [heq]
  cases stored with
  | none =>
    unfold commitRow
    rw [if_congr hiff rfl rfl]
    split_ifs <;> rfl
  | some row =>
    rw [commitRow_some, Option.map_some, commitRow_some, Agent.flush_unset]
    rfl

/-! ## Operations that do not see the settings -/

/-- The objects an operation holds, each without its settings. -/
def AgentOp.unset : AgentOp → AgentOp
  | .deploy u body pc =>
    .deploy u body
      (match pc with
      | .start => .start
      | .loaded a => .loaded a.unset
      | .admitted a => .admitted a.unset
      | .configured => .configured
      | .ready a => .ready a.unset
      | .starting a => .starting a.unset
      | .ran a out => .ran a.unset out
      | .done => .done)
  | .scale u direction count pc =>
    .scale u direction count
      (match pc with
      | .start => .start
      | .loaded a => .loaded a.unset
      | .admitted a => .admitted a.unset
      | .scaling a => .scaling a.unset
      | .ran a out live => .ran a.unset out live
      | .done => .done)
  | .delete u pc =>
    .delete u
      (match pc with
      | .start => .start
      | .loaded a => .loaded a.unset
      | .removed => .removed
      | .done => .done)
  | .autoScale pc =>
    .autoScale
      (match pc with
      | .start => .start
      | .loaded a => .loaded a.unset
      | .checked a health => .checked a.unset health
      | .observed a live => .observed a.unset live
      | .scaling a => .scaling a.unset
      | .done => .done)

/-- The life of the agent without its settings. -/
def Lifetime.unset (σ : Lifetime) : Lifetime where
  stored := σ.stored.map Agent.unset
  containers := σ.containers
  ops := σ.ops.map AgentOp.unset

/-- What a step leaves, without the settings. -/
def unsetOutcome (out : OpOutcome AgentOp) : OpOutcome AgentOp :=
  (out.1.unset, out.2.1.map Agent.unset, out.2.2)

section Operations

variable {d : Deps} {env : OpEnv} {stored : Option Agent} {cs : List Container}

/-- A row is found or not whatever its settings. -/
theorem filter_unset {p : Agent → Bool} (hp : ∀ a, p a.unset = p a) (stored : Option Agent) :
    (stored.map Agent.unset).filter p = (stored.filter p).map Agent.unset := by
  cases stored with
  | none => rfl
  | some a =>
    rw [Option.map_some, Option.filter_some, Option.filter_some, hp]
    split_ifs <;> rfl

theorem lastCommit_unset {π : Type} (l c : Agent) (h : c.settings = l.settings) (done : π) :
    lastCommit (stored.map Agent.unset) cs done l.unset c.unset =
      (done, ((lastCommit stored cs done l c).2.1).map Agent.unset, cs) := by
  unfold lastCommit
  rw [commitRow_unset l c h]
  cases commitRow l c stored <;> rfl

theorem deploy_unset (u : UserId) (body : Option DeployConfig) (pc : DeployingPc) :
    opStep d env (stored.map Agent.unset) cs (AgentOp.unset (.deploy u body pc)) =
      unsetOutcome (opStep d env stored cs (.deploy u body pc)) := by
  cases pc with
  | start =>
    simp only [opStep, deployingStep, AgentOp.unset]
    rw [filter_unset (fun _ => rfl)]
    cases stored.filter fun a => a.userId = u <;> rfl
  | loaded a =>
    simp only [opStep, deployingStep, AgentOp.unset]
    cases env.quota <;> rfl
  | admitted a =>
    cases body with
    | none => rfl
    | some c =>
      have hcommit : commitRow a.unset (applyDeployConfig d env.runtime.draws a.unset c)
            (stored.map Agent.unset) =
          (commitRow a (applyDeployConfig d env.runtime.draws a c) stored).map
            (Option.map Agent.unset) :=
        commitRow_unset a (applyDeployConfig d env.runtime.draws a c) rfl stored
      simp only [opStep, deployingStep, AgentOp.unset]
      rw [hcommit]
      cases commitRow a (applyDeployConfig d env.runtime.draws a c) stored <;> rfl
  | configured => cases stored <;> rfl
  | ready a =>
    have hbuild : needsBuild a.unset = needsBuild a := rfl
    have hcommit : commitRow a.unset { a.unset with status := .starting } (stored.map Agent.unset) =
        (commitRow a { a with status := .starting } stored).map (Option.map Agent.unset) :=
      commitRow_unset a { a with status := .starting } rfl stored
    simp only [opStep, deployingStep, AgentOp.unset]
    rw [hbuild, hcommit]
    split_ifs
    · rfl
    · cases commitRow a { a with status := .starting } stored <;> rfl
  | starting a => rfl
  | ran a out =>
    cases out with
    | error msg =>
      exact congrArg (fun out : OpOutcome DeployingPc => (AgentOp.deploy u body out.1, out.2))
        (lastCommit_unset a { a with status := .failed, error := some msg } rfl .done)
    | ok started =>
      exact congrArg (fun out : OpOutcome DeployingPc => (AgentOp.deploy u body out.1, out.2))
        (lastCommit_unset a
          { a with
            status := .running
            replicas := started.length
            error := none
            version := a.version + 1 } rfl .done)
  | done => rfl

theorem scale_unset (u : UserId) (direction : ScaleDirection) (count : Nat) (pc : ScalingPc) :
    opStep d env (stored.map Agent.unset) cs (AgentOp.unset (.scale u direction count pc)) =
      unsetOutcome (opStep d env stored cs (.scale u direction count pc)) := by
  cases pc with
  | start =>
    simp only [opStep, scalingStep, AgentOp.unset]
    rw [filter_unset (fun _ => rfl)]
    cases stored.filter fun a => a.userId = u <;> rfl
  | loaded a =>
    simp only [opStep, scalingStep, AgentOp.unset]
    cases (if direction = .up then env.quota else .ok ()) <;> rfl
  | admitted a =>
    have hcommit : commitRow a.unset { a.unset with status := .scaling } (stored.map Agent.unset) =
        (commitRow a { a with status := .scaling } stored).map (Option.map Agent.unset) :=
      commitRow_unset a { a with status := .scaling } rfl stored
    simp only [opStep, scalingStep, AgentOp.unset]
    rw [hcommit]
    cases commitRow a { a with status := .scaling } stored <;> rfl
  | scaling a =>
    simp only [opStep, AgentOp.unset, scalingStep_scaling]
    rfl
  | ran a out live =>
    cases out with
    | error e =>
      cases e with
      | other msg => rfl
      | scaling msg =>
        exact congrArg
          (fun out : OpOutcome ScalingPc => (AgentOp.scale u direction count out.1, out.2))
          (lastCommit_unset a
            { a with status := .failed, error := some (CoreError.scaling msg).str } rfl .done)
      | containerNotFound msg =>
        exact congrArg
          (fun out : OpOutcome ScalingPc => (AgentOp.scale u direction count out.1, out.2))
          (lastCommit_unset a
            { a with status := .failed, error := some (CoreError.containerNotFound msg).str }
            rfl .done)
    | ok _ =>
      exact congrArg
        (fun out : OpOutcome ScalingPc => (AgentOp.scale u direction count out.1, out.2))
        (lastCommit_unset a
          { a with replicas := liveOr live a.replicas, status := .running } rfl .done)
  | done => rfl

theorem delete_unset (u : UserId) (pc : DeletingPc) :
    opStep d env (stored.map Agent.unset) cs (AgentOp.unset (.delete u pc)) =
      unsetOutcome (opStep d env stored cs (.delete u pc)) := by
  cases pc with
  | start =>
    simp only [opStep, deletingStep, AgentOp.unset]
    rw [filter_unset (fun _ => rfl)]
    cases stored.filter fun a => a.userId = u <;> rfl
  | loaded a =>
    have hid : a.unset.id = a.id := rfl
    simp only [opStep, deletingStep, AgentOp.unset]
    rw [hid]
    cases env.runtime.remove a.id cs with
    | mk res left => cases res <;> rfl
  | removed => rfl
  | done => rfl

theorem autoScale_unset (pc : AutoScalingPc) :
    opStep d env (stored.map Agent.unset) cs (AgentOp.unset (.autoScale pc)) =
      unsetOutcome (opStep d env stored cs (.autoScale pc)) := by
  cases pc with
  | start =>
    simp only [opStep, autoScalingStep, AgentOp.unset]
    rw [filter_unset (fun _ => rfl)]
    cases stored.filter fun a => a.status ∈ tickStatuses <;> rfl
  | loaded a =>
    have hid : a.unset.id = a.id := rfl
    simp only [opStep, autoScalingStep, AgentOp.unset]
    rw [hid]
    cases env.runtime.healthCheck a.id cs <;> rfl
  | checked a health =>
    have hcommit : commitRow a.unset (observe a.unset health) (stored.map Agent.unset) =
        (commitRow a (observe a health) stored).map (Option.map Agent.unset) :=
      commitRow_unset a (observe a health) rfl stored
    simp only [opStep, autoScalingStep, AgentOp.unset]
    rw [hcommit]
    cases commitRow a (observe a health) stored <;> rfl
  | observed a live =>
    have hauto : a.unset.autoScale = a.autoScale := rfl
    have hstatus : a.unset.status = a.status := rfl
    simp only [opStep, autoScalingStep, AgentOp.unset]
    rw [hauto, hstatus]
    split_ifs
    · cases env.headroom with
      | error e => rfl
      | ok room => cases room <;> rfl
    · rfl
  | scaling a => rfl
  | done => rfl

/-- **No operation reads the settings**: without them a step does the same. -/
theorem opStep_unset (op : AgentOp) :
    opStep d env (stored.map Agent.unset) cs op.unset =
      unsetOutcome (opStep d env stored cs op) := by
  cases op with
  | deploy u body pc => exact deploy_unset u body pc
  | scale u direction count pc => exact scale_unset u direction count pc
  | delete u pc => exact delete_unset u pc
  | autoScale pc => exact autoScale_unset pc

theorem AgentOp.abort_unset (op : AgentOp) : op.abort.unset = op.unset.abort := by
  cases op <;> rfl

theorem OpCall.op_unset (call : OpCall) : call.op.unset = call.op := by
  cases call <;> rfl

theorem lifeStep_unset (d : Deps) (σ : Lifetime) (m : LifeMove) :
    (lifeStep d σ m).unset = lifeStep d σ.unset m := by
  cases m with
  | call call =>
    simp only [lifeStep, Lifetime.unset, List.map_append, List.map_cons, List.map_nil,
      OpCall.op_unset]
  | advance i env =>
    simp only [lifeStep, Lifetime.unset, List.getElem?_map]
    cases σ.ops[i]? with
    | none => rfl
    | some op =>
      simp only [Option.map_some, opStep_unset, List.map_set]
      rfl
  | abort i =>
    simp only [lifeStep, Lifetime.unset, List.getElem?_map]
    cases σ.ops[i]? with
    | none => rfl
    | some op => simp only [Option.map_some, List.map_set, AgentOp.abort_unset]

/-- What a step of an operation does to the row: nothing, the end of a delete, a commit of status,
error, version and replicas, or the commit of a deploy's config. -/
inductive RowEffect (d : Deps) (op : AgentOp) : Option Agent → Option Agent → Prop
  | kept (stored : Option Agent) : RowEffect d op stored stored
  | deleted (stored : Option Agent) : RowEffect d op stored none
  | progressed (l row : Agent) (status : AgentStatus) (error : Option String)
      (version replicas : Nat) :
      RowEffect d op (some row) (some (Agent.flush l
        { l with status := status, error := error, version := version, replicas := replicas } row))
  | configured (r : Draws) (a row : Agent) (u : UserId) (body : DeployConfig)
      (hop : op = .deploy u (some body) (.admitted a)) :
      RowEffect d op (some row) (some (Agent.flush a (applyDeployConfig d r a body) row))

theorem RowEffect.commit {op : AgentOp} {l : Agent} {status : AgentStatus} {error : Option String}
    {version replicas : Nat} {stored' : Option Agent}
    (h : commitRow l
      { l with status := status, error := error, version := version, replicas := replicas } stored =
        some stored') : RowEffect d op stored stored' := by
  cases stored with
  | none =>
    rw [(commitRow_eq_none h).mpr rfl]
    exact .kept none
  | some row =>
    rw [commitRow_some] at h
    cases h
    exact .progressed l row status error version replicas

theorem RowEffect.last {op : AgentOp} {π : Type} (done : π) (l : Agent) (status : AgentStatus)
    (error : Option String) (version replicas : Nat) :
    RowEffect d op stored (lastCommit stored cs done l { l with
      status := status, error := error, version := version, replicas := replicas }).2.1 := by
  unfold lastCommit
  generalize hcommit : commitRow l _ stored = out
  cases out with
  | none => exact .kept stored
  | some stored' => exact .commit hcommit

theorem deploy_row (u : UserId) (body : Option DeployConfig) (pc : DeployingPc) :
    RowEffect d (.deploy u body pc) stored (deployingStep d env stored cs u body pc).2.1 := by
  unfold deployingStep
  cases pc with
  | start => cases stored.filter fun a => a.userId = u <;> exact .kept stored
  | loaded a => cases env.quota <;> exact .kept stored
  | admitted a =>
    cases body with
    | none => exact .kept stored
    | some c =>
      cases stored with
      | none =>
        simp only
        split
        · exact .kept none
        · rename_i hcommit
          rw [(commitRow_eq_none hcommit).mpr rfl]
          exact .kept none
      | some row =>
        simp only [commitRow_some]
        exact .configured _ a row u c rfl
  | configured => cases stored <;> exact .kept _
  | ready a =>
    simp only
    split_ifs
    · exact .kept stored
    · split
      · exact .kept stored
      · rename_i hcommit
        exact .commit hcommit
  | starting a => exact .kept stored
  | ran a out => cases out <;> exact .last ..
  | done => exact .kept stored

theorem scale_row (u : UserId) (direction : ScaleDirection) (count : Nat) (pc : ScalingPc) :
    RowEffect d (.scale u direction count pc) stored
      (scalingStep env stored cs u direction count pc).2.1 := by
  cases pc with
  | start =>
    unfold scalingStep
    cases stored.filter fun a => a.userId = u <;> exact .kept stored
  | loaded a =>
    unfold scalingStep
    cases (if direction = .up then env.quota else .ok ()) <;> exact .kept stored
  | admitted a =>
    simp only [scalingStep]
    split
    · exact .kept stored
    · rename_i hcommit
      exact .commit hcommit
  | scaling a =>
    rw [scalingStep_scaling]
    exact .kept stored
  | ran a out live =>
    cases out with
    | ok _ => exact .last ..
    | error e =>
      cases e with
      | other msg => exact .kept stored
      | scaling msg => exact .last ..
      | containerNotFound msg => exact .last ..
  | done => exact .kept stored

theorem delete_row (u : UserId) (pc : DeletingPc) :
    RowEffect d (.delete u pc) stored (deletingStep env stored cs u pc).2.1 := by
  unfold deletingStep
  cases pc with
  | start => cases stored.filter fun a => a.userId = u <;> exact .kept stored
  | loaded a =>
    simp only
    cases env.runtime.remove a.id cs with
    | mk res left => cases res <;> exact .kept stored
  | removed => exact .deleted stored
  | done => exact .kept stored

theorem autoScale_row (pc : AutoScalingPc) :
    RowEffect d (.autoScale pc) stored (autoScalingStep env stored cs pc).2.1 := by
  unfold autoScalingStep
  cases pc with
  | start => cases stored.filter fun a => a.status ∈ tickStatuses <;> exact .kept stored
  | loaded a =>
    simp only
    cases env.runtime.healthCheck a.id cs <;> exact .kept stored
  | checked a health =>
    simp only
    split
    · exact .kept stored
    · rename_i hcommit
      exact .commit hcommit
  | observed a live =>
    simp only
    split_ifs
    · split <;> exact .kept stored
    · exact .kept stored
  | scaling a => exact .kept stored
  | done => exact .kept stored

/-- **Everything a step can do to the row.** -/
theorem opStep_row (op : AgentOp) :
    RowEffect d op stored (opStep d env stored cs op).2.1 := by
  cases op with
  | deploy u body pc => exact deploy_row u body pc
  | scale u direction count pc => exact scale_row u direction count pc
  | delete u pc => exact delete_row u pc
  | autoScale pc => exact autoScale_row pc

theorem RowEffect.settings {op : AgentOp} {stored' : Option Agent}
    (h : RowEffect d op stored stored') {row' : Agent} (hrow' : stored' = some row') :
    ∃ row, stored = some row ∧ row'.settings = row.settings := by
  cases h with
  | kept => exact ⟨row', hrow', rfl⟩
  | deleted => cases hrow'
  | progressed l row status error version replicas =>
    cases hrow'
    exact ⟨row, rfl, Agent.flush_settings rfl row⟩
  | configured r a row u body hop =>
    cases hrow'
    exact ⟨row, rfl, Agent.flush_settings rfl row⟩

/-- **No operation writes the settings.** -/
theorem lifeStep_settings (d : Deps) (σ : Lifetime) (m : LifeMove) {row' : Agent}
    (hrow' : (lifeStep d σ m).stored = some row') :
    ∃ row, σ.stored = some row ∧ row'.settings = row.settings := by
  cases m with
  | call call => exact ⟨row', hrow', rfl⟩
  | advance i env =>
    simp only [lifeStep] at hrow'
    cases hi : σ.ops[i]? with
    | none =>
      rw [hi] at hrow'
      exact ⟨row', hrow', rfl⟩
    | some op =>
      rw [hi] at hrow'
      exact (opStep_row op).settings hrow'
  | abort i =>
    simp only [lifeStep] at hrow'
    refine ⟨row', ?_, rfl⟩
    cases hi : σ.ops[i]? with
    | none =>
      rw [hi] at hrow'
      exact hrow'
    | some op =>
      rw [hi] at hrow'
      exact hrow'

end Operations

/-! ## Updates -/

/-- Where `update_agent` is, and the object it holds. -/
inductive UpdatingPc where
  | start
  | loaded (a : Agent)
  | done

/-- A `PATCH /v1/agents/{id}` in progress. -/
structure UpdateCall where
  userId : UserId
  body : AgentUpdate
  pc : UpdatingPc := .start

/-- The next step of `update_agent`, and the row it leaves. The final `refresh`, which only reads,
is left out. -/
def updatingStep (stored : Option Agent) (u : UserId) (body : AgentUpdate) :
    UpdatingPc → UpdatingPc × Option Agent
  | .start =>
    match stored.filter fun a => a.userId = u with
    | none => (.done, stored)
    | some a => (.loaded a, stored)
  | .loaded a => (.done, (commitRow a (a.patch body) stored).getD stored)
  | .done => (.done, stored)

/-- The life of an agent, and the updates in progress. -/
structure SharedRow where
  life : Lifetime
  updates : List UpdateCall := []

/-- What happens next: a move of the other operations, an update arrives, goes on or fails. -/
inductive RowMove where
  | life (m : LifeMove)
  | update (userId : UserId) (body : AgentUpdate)
  | advance (i : Nat)
  | abort (i : Nat)

/-- The move of an operation. -/
def RowMove.life? : RowMove → Option LifeMove
  | .life m => some m
  | _ => none

/-- One move. -/
def rowStep (d : Deps) (σ : SharedRow) : RowMove → SharedRow
  | .life m => { σ with life := lifeStep d σ.life m }
  | .update u body => { σ with updates := σ.updates ++ [{ userId := u, body := body }] }
  | .advance i =>
    match σ.updates[i]? with
    | none => σ
    | some c =>
      let out := updatingStep σ.life.stored c.userId c.body c.pc
      { life := { σ.life with stored := out.2 }
        updates := σ.updates.set i { c with pc := out.1 } }
  | .abort i =>
    match σ.updates[i]? with
    | none => σ
    | some c => { σ with updates := σ.updates.set i { c with pc := .done } }

/-- Undisturbed, an update stores what `update_agent` stores in the serial model. -/
theorem updating_alone {a : Agent} {u : UserId} (hu : a.userId = u) (body : AgentUpdate) :
    updatingStep (some a) u body .start = (.loaded a, some a) ∧
      updatingStep (some a) u body (.loaded a) = (.done, some (a.patch body)) := by
  constructor
  · simp [updatingStep, Option.filter_some, hu]
  · show (UpdatingPc.done, (commitRow a (a.patch body) (some a)).getD (some a)) = _
    rw [commitRow_some, Agent.flush_loaded]
    rfl

theorem updatingStep_unset (stored : Option Agent) (u : UserId) (body : AgentUpdate)
    (pc : UpdatingPc) :
    (updatingStep stored u body pc).2.map Agent.unset = stored.map Agent.unset := by
  cases pc with
  | start =>
    unfold updatingStep
    cases stored.filter fun a => a.userId = u <;> rfl
  | loaded a =>
    simp only [updatingStep]
    cases stored with
    | none =>
      unfold commitRow
      split_ifs <;> rfl
    | some row =>
      rw [commitRow_some]
      exact congrArg some (Agent.flush_patch_unset a row body)
  | done => rfl

theorem rowStep_unset (d : Deps) (σ : SharedRow) (m : RowMove) :
    (rowStep d σ m).life.unset = m.life?.elim σ.life.unset (lifeStep d σ.life.unset) := by
  cases m with
  | life m => exact lifeStep_unset d σ.life m
  | update u body => rfl
  | advance i =>
    simp only [rowStep, RowMove.life?, Option.elim_none]
    cases σ.updates[i]? with
    | none => rfl
    | some c =>
      simp only [Lifetime.unset]
      rw [updatingStep_unset]
  | abort i =>
    simp only [rowStep, RowMove.life?, Option.elim_none]
    cases σ.updates[i]? <;> rfl

/-- **The operations do not notice the updates.** After every interleaving of updates with deploys,
scalings, deletes and ticks, the row but for its settings, the containers, and how far each
operation has come with which object but for its settings, are what they are without the updates. -/
theorem updates_unseen (d : Deps) (σ : SharedRow) (moves : List RowMove) :
    (run (rowStep d) σ moves).life.unset =
      (run (lifeStep d) σ.life (moves.filterMap RowMove.life?)).unset := by
  have hops : ∀ (ms : List LifeMove) (τ : Lifetime),
      (run (lifeStep d) τ ms).unset = run (lifeStep d) τ.unset ms := by
    intro ms τ
    have h : (run (lifeStep d) τ ms).unset = run (lifeStep d) τ.unset (ms.filterMap some) :=
      run_filterMap Lifetime.unset (fun τ m => lifeStep_unset d τ m) ms τ
    rwa [List.filterMap_some] at h
  rw [hops]
  exact run_filterMap (fun σ : SharedRow => σ.life.unset) (rowStep_unset d) moves σ

/-! ## What the updates leave -/

/-- The body a move commits: the row is there and the update has loaded it. -/
def commitsOf (σ : SharedRow) : RowMove → List AgentUpdate
  | .advance i =>
    match σ.updates[i]?, σ.life.stored with
    | some { userId := _, body := body, pc := .loaded _ }, some _ => [body]
    | _, _ => []
  | _ => []

/-- Two bodies that set no column in common. -/
def AgentUpdate.Apart (b b' : AgentUpdate) : Prop :=
  (b.access = none ∨ b'.access = none) ∧ (b.rateLimitRpm = none ∨ b'.rateLimitRpm = none)

instance (b b' : AgentUpdate) : Decidable (b.Apart b') :=
  inferInstanceAs (Decidable (_ ∧ _))

/-- The update has loaded the row and not yet committed. -/
def UpdateCall.holds (c : UpdateCall) : Bool :=
  match c.pc with
  | .loaded _ => true
  | _ => false

/-- While an update commits, no other one that holds the row sets one of its columns. -/
def Unshared (σ : SharedRow) : RowMove → Prop
  | .advance i =>
    ∀ c ∈ σ.updates[i]?, c.holds = true →
      ∀ c' ∈ σ.updates.eraseIdx i, c'.holds = true → c.body.Apart c'.body
  | _ => True

instance (σ : SharedRow) : (m : RowMove) → Decidable (Unshared σ m)
  | .life _ => inferInstanceAs (Decidable True)
  | .update _ _ => inferInstanceAs (Decidable True)
  | .advance i =>
    inferInstanceAs (Decidable (∀ c ∈ σ.updates[i]?, c.holds = true →
      ∀ c' ∈ σ.updates.eraseIdx i, c'.holds = true → c.body.Apart c'.body))
  | .abort _ => inferInstanceAs (Decidable True)

/-- The update sees the settings it is going to replace as they are. -/
def UpdateCall.Sees (s : AgentSettings) (c : UpdateCall) : Prop :=
  ∀ a, c.pc = .loaded a →
    (c.body.access = none ∨ a.access = s.access) ∧
      (c.body.rateLimitRpm = none ∨ a.rateLimitRpm = s.rateLimitRpm)

/-- The row has the settings, and the updates see them. -/
structure SharedRow.Settled (s : AgentSettings) (σ : SharedRow) : Prop where
  stored : ∀ row, σ.life.stored = some row → row.settings = s
  sees : ∀ c ∈ σ.updates, c.Sees s

/-- The commit of an update that saw the settings settles them. -/
theorem flush_patch_settings {l row : Agent} {body : AgentUpdate}
    (hacc : body.access = none ∨ l.access = row.access)
    (hrpm : body.rateLimitRpm = none ∨ l.rateLimitRpm = row.rateLimitRpm) :
    (Agent.flush l (l.patch body) row).settings = body.settle row.settings := by
  have haccess : column l.access (body.access.getD l.access) row.access =
      body.access.getD row.access := by
    rcases hacc with hnone | heq
    · rw [hnone, Option.getD_none, Option.getD_none, column_same]
    · rw [heq, column_loaded]
  have hrate : column l.rateLimitRpm (body.rateLimitRpm.getD l.rateLimitRpm) row.rateLimitRpm =
      body.rateLimitRpm.getD row.rateLimitRpm := by
    rcases hrpm with hnone | heq
    · rw [hnone, Option.getD_none, Option.getD_none, column_same]
    · rw [heq, column_loaded]
  simp only [Agent.flush, Agent.patch, Agent.settings, AgentUpdate.settle, haccess, hrate]

/-- An update that sets other columns sees the same settings after a commit. -/
theorem UpdateCall.Sees.settle {s : AgentSettings} {c : UpdateCall} {body : AgentUpdate}
    (h : c.Sees s) (hapart : c.holds = true → body.Apart c.body) : c.Sees (body.settle s) := by
  intro a ha
  obtain ⟨hacc, hrpm⟩ := h a ha
  obtain ⟨hacc', hrpm'⟩ := hapart (by rw [UpdateCall.holds, ha])
  constructor
  · rcases hacc' with hnone | hnone
    · simpa [AgentUpdate.settle, hnone] using hacc
    · exact .inl hnone
  · rcases hrpm' with hnone | hnone
    · simpa [AgentUpdate.settle, hnone] using hrpm
    · exact .inl hnone

section Settled

variable {d : Deps} {σ : SharedRow} {s : AgentSettings}

/-- An update that holds nothing more, or the row as it is. -/
theorem SharedRow.Settled.set (h : σ.Settled s) {i : Nat} {c' : UpdateCall} (hc : c'.Sees s) :
    SharedRow.Settled s { σ with updates := σ.updates.set i c' } := by
  refine ⟨h.stored, fun c hmem => ?_⟩
  rcases Pool.mem_set_cases hmem with rfl | hmem
  · exact hc
  · exact h.sees c (List.mem_of_mem_eraseIdx hmem)

theorem SharedRow.Settled.commit (h : σ.Settled s) {i : Nat} {c : UpdateCall} {a row : Agent}
    (hi : σ.updates[i]? = some c) (hpc : c.pc = .loaded a) (hrow : σ.life.stored = some row)
    (hun : Unshared σ (.advance i)) :
    SharedRow.Settled (c.body.settle s)
      { life := { σ.life with stored := some (Agent.flush a (a.patch c.body) row) }
        updates := σ.updates.set i { c with pc := .done } } := by
  have hset := h.stored row hrow
  obtain ⟨hacc, hrpm⟩ := h.sees c (List.mem_of_getElem? hi) a hpc
  constructor
  · rintro _ ⟨rfl⟩
    rw [← hset] at hacc hrpm
    rw [flush_patch_settings hacc hrpm, hset]
  · intro c' hmem
    rcases Pool.mem_set_cases hmem with rfl | hmem
    · intro a' ha'
      cases ha'
    · exact (h.sees c' (List.mem_of_mem_eraseIdx hmem)).settle
        (hun c hi (by rw [UpdateCall.holds, hpc]) c' hmem)

/-- **What one move does to the settings**: what its commit does, if it commits an update. -/
theorem rowStep_settled (h : σ.Settled s) {m : RowMove} (hun : Unshared σ m) :
    (rowStep d σ m).Settled ((commitsOf σ m).foldl AgentUpdate.settle s) := by
  cases m with
  | life m =>
    refine ⟨fun row' hrow' => ?_, h.sees⟩
    obtain ⟨row, hrow, hsame⟩ := lifeStep_settings d σ.life m hrow'
    rw [hsame]
    exact h.stored row hrow
  | update u body =>
    refine ⟨h.stored, fun c hmem => ?_⟩
    rcases List.mem_append.mp hmem with hmem | hmem
    · exact h.sees c hmem
    · rw [List.mem_singleton.mp hmem]
      intro a ha
      cases ha
  | advance i =>
    cases hi : σ.updates[i]? with
    | none =>
      simp only [rowStep, commitsOf, hi]
      exact h
    | some c =>
      obtain ⟨u, body, pc⟩ := c
      cases pc with
      | start =>
        cases hfind : σ.life.stored.filter fun a => a.userId = u with
        | none =>
          simp only [rowStep, commitsOf, hi, updatingStep, hfind]
          exact h.set fun a ha => by cases ha
        | some row =>
          have hrow : σ.life.stored = some row := (Option.filter_eq_some_iff.mp hfind).1
          have hset := h.stored row hrow
          simp only [rowStep, commitsOf, hi, updatingStep, hfind]
          refine h.set fun a ha => ?_
          cases ha
          rw [← hset]
          exact ⟨.inr rfl, .inr rfl⟩
      | loaded a =>
        cases hrow : σ.life.stored with
        | none =>
          have hcommit : (commitRow a (a.patch body) none).getD none = none := by
            unfold commitRow
            split_ifs <;> rfl
          simp only [rowStep, commitsOf, hi, updatingStep, hrow, hcommit]
          have hnone : σ.life = { σ.life with stored := none } := by
            rw [← hrow]
          rw [← hnone]
          exact h.set fun a ha => by cases ha
        | some row =>
          simp only [rowStep, commitsOf, hi, updatingStep, hrow, commitRow_some]
          exact h.commit hi rfl hrow hun
      | done =>
        simp only [rowStep, commitsOf, hi, updatingStep]
        exact h.set fun a ha => by cases ha
  | abort i =>
    simp only [rowStep, commitsOf]
    cases σ.updates[i]? with
    | none => exact h
    | some c => exact h.set fun a ha => by cases ha

end Settled

/-- **The settings are what the updates made them.** In every interleaving of updates with deploys,
scalings, deletes and ticks in which no two updates of the same column overlap, the access and the
rate limit of the row, as long as it is there, are what the committed updates make of the first
ones, in the order of their commits. -/
theorem settings_of_updates (d : Deps) (life : Lifetime) (row : Agent) (moves : List RowMove)
    (hrow : life.stored = some row) (hun : Along (rowStep d) Unshared { life := life } moves) :
    ∀ row', (run (rowStep d) { life := life } moves).life.stored = some row' →
      row'.settings =
        (emitted (rowStep d) commitsOf { life := life } moves).foldl AgentUpdate.settle
          row.settings := by
  refine (run_emitted AgentUpdate.settle (P := SharedRow.Settled)
    (fun _ _ _ h hm => rowStep_settled h hm) moves ⟨?_, ?_⟩ hun).stored
  · intro row' hrow'
    rw [Option.some.inj (hrow.symm.trans hrow')]
  · intro c hc
    cases hc

/-- The body that changes only the access. -/
def AgentUpdate.ofAccess (access : AgentAccess) : AgentUpdate where
  access := some access
  inRange _ h := by simp at h

/-- The body that gives the platform's default rate limit back. -/
def AgentUpdate.defaultRate : AgentUpdate where
  rateLimitRpm := some none
  inRange _ h := by simp at h

/-- The agent `undeployed`, and nothing in progress. -/
def idleRow : SharedRow := { life := { stored := some undeployed, containers := [] } }

/-- An update makes the agent private while a deploy holds the row, and another one, which overlaps
the first and sets the other column, commits in between. The deploy has loaded a public row. -/
def updatesWhileDeploying : List RowMove :=
  [.update 1 (.ofAccess .priv), .update 1 .defaultRate, .advance 0] ++
    deployUpToCall.map .life ++ [.advance 1, .advance 1, .advance 0] ++ deployFromCall.map .life

theorem settings_of_updates_deploying :
    (run (rowStep .transparent) idleRow updatesWhileDeploying).life.stored.map
        (fun row => (row.status, row.replicas, row.settings)) = some (.running, 1, ⟨.priv, none⟩) ∧
      (emitted (rowStep .transparent) commitsOf idleRow updatesWhileDeploying).length = 2 ∧
      (run (rowStep .transparent) idleRow updatesWhileDeploying).life.stored.map Agent.settings =
        some ((emitted (rowStep .transparent) commitsOf idleRow updatesWhileDeploying).foldl
          AgentUpdate.settle undeployed.settings) := by
  obtain ⟨row, hrow⟩ : ∃ row,
      (run (rowStep .transparent) idleRow updatesWhileDeploying).life.stored = some row :=
    Option.isSome_iff_exists.mp (by decide +kernel)
  refine ⟨by decide +kernel, by decide +kernel, ?_⟩
  rw [hrow]
  exact congrArg some (settings_of_updates .transparent idleRow.life undeployed
    updatesWhileDeploying rfl (by decide +kernel) row hrow)

/-- **A lost update.** The agent is private. An update that makes it public overlaps one that makes
it private, and commits first: the other one has nothing to write, and both have returned. -/
theorem overlapping_update_lost :
    let σ := run (rowStep .transparent)
      { life := { stored := some { undeployed with access := .priv }, containers := [] } }
      [.update 1 (.ofAccess .pub), .update 1 (.ofAccess .priv), .advance 0, .advance 1, .advance 0,
        .advance 1]
    σ.life.stored.map Agent.settings = some ⟨.pub, none⟩ := by
  decide +kernel

end Gateway
