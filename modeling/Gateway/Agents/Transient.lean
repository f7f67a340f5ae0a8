import Gateway.Agents.System

/-!
# Statuses that only last as long as an operation

`deploy_agent` commits `starting` and `scale_agent` commits `scaling` before they call the runtime;
both replace it when the call is over. A deploy catches every exception of its `try` block. A scale
catches `CoreScalingError` and `CoreContainerNotFoundError` and lets anything else through, and then
the row stays at `scaling`: the next tick deliberately leaves that status to the operation it takes
to be in progress.

* `deployAgent_settles`, `scaleAgent_settles_iff`: what a finished deploy or scale leaves, and the
  one kind of answer that leaves a scale unsettled.
* `ScaleCaught`: the runtime answers the scale of a step, if the step gets that far, with success or
  one of the two caught errors.
* **`transient_ends_iff`**: a deploy settles; a scale settles exactly when its exception is caught;
  and the states of a serial run of calls and ticks are all free of `starting` and `scaling` exactly
  when its scales are all caught.
* **`scaling_outlives_operation`**: a Docker API error during a scale leaves the row at `scaling`.
-/

namespace Gateway

open Lib

/-- The statuses an operation commits for as long as it runs. -/
def transientStatuses : List AgentStatus := [.starting, .scaling]

/-- What a finished deploy or scale is to leave. -/
def Settled (a : Agent) : Prop := a.status = .running ∨ a.status = .failed

theorem Settled.not_transient {a : Agent} (h : Settled a) : a.status ∉ transientStatuses := by
  rcases h with h | h <;> rw [h] <;> decide

/-- No agent is at a transient status. -/
def NoTransient (w : World) : Prop := ∀ a ∈ w.db.agents.rows, a.status ∉ transientStatuses

instance decidableNoTransient (w : World) : Decidable (NoTransient w) :=
  inferInstanceAs (Decidable (∀ a ∈ w.db.agents.rows, a.status ∉ transientStatuses))

/-- `scale_agent` catches whatever the runtime answers: it is success or one of the two errors. -/
def AnswerCaught (rt : Runtime) (id : AgentId) (direction : ScaleDirection) (count : Nat)
    (cs : List Container) : Prop :=
  ∀ msg, (rt.scale id direction count cs).1 ≠ .error (.other msg)

/-- The condition on a step of a run: a scale that reaches the runtime is answered with something
`scale_agent` catches. -/
def ScaleCaught (d : Deps) (w : World) : ServiceStep → Prop
  | .call rt (.scale u id body) => ∀ old, w.db.ownedAgent? u id = some old →
      scaleQuota d w.db old body.direction body.count = .ok () →
      AnswerCaught rt id body.direction body.count (w.containers id)
  | _ => True

/-! ## The two operations -/

/-- A deploy that goes past the build check settles. -/
theorem DeployEffect.settled {d : Deps} {rt : Runtime} {old new : Agent}
    {deploy : Option DeployConfig} {cs left : List Container}
    (h : DeployEffect d rt old deploy cs new left)
    (hbuild : needsBuild (deployedRow d rt.draws old deploy) = false) : Settled new := by
  cases h with
  | buildRefused hrefused => exact absurd hrefused (by rw [hbuild]; exact Bool.false_ne_true)
  | failed _ _ => exact Or.inr rfl
  | running _ _ => exact Or.inl rfl

theorem ScaleEffect.settled_iff {rt : Runtime} {old new : Agent} {dir : ScaleDirection} {n : Nat}
    {cs left : List Container} (h : ScaleEffect rt old dir n cs new left) :
    Settled new ↔ AnswerCaught rt old.id dir n cs := by
  unfold AnswerCaught
  cases h with
  | @uncaught msg left hout =>
    constructor
    · intro hset
      exact absurd hset.not_transient (by simp [transientStatuses])
    · intro hcaught
      exact absurd (congrArg Prod.fst hout) (hcaught msg)
  | failed hne hout =>
    refine iff_of_true (Or.inr rfl) fun msg => ?_
    rw [hout]
    exact fun e => hne msg (Except.error.inj e)
  | done hout =>
    refine iff_of_true (Or.inl rfl) fun msg => ?_
    rw [hout]
    exact fun e => by cases e

section Operations

variable {d : Deps} {w : World} {u : UserId} {id : AgentId} {old : Agent}

/-- **A deploy that has committed `starting` ends at `running` or `failed`.** -/
theorem deployAgent_settles (rt : Runtime) {deploy : Option DeployConfig}
    (ho : w.db.ownedAgent? u id = some old) (hq : deployQuota d w.db old deploy = .ok ())
    (hbuild : needsBuild (deployedRow d rt.draws old deploy) = false) :
    ∃ new, (deployAgent d rt w u id deploy).2.db.agents.find? id = some new ∧ Settled new := by
  obtain ⟨-, hrw, -⟩ := deployAgent_local rt ho hq
  obtain ⟨-, -, rfl⟩ := Db.ownedAgent?_eq_some ho
  exact ⟨_, hrw.id ▸ hrw.stored, (deployLocal_effect d rt old deploy _).settled hbuild⟩

/-- **A scale that has committed `scaling` ends at `running` or `failed` exactly when it catches
what the runtime raises.** -/
theorem scaleAgent_settles_iff (rt : Runtime) {direction : ScaleDirection} {count : Nat}
    (ho : w.db.ownedAgent? u id = some old)
    (hq : scaleQuota d w.db old direction count = .ok ()) :
    (∃ new, (scaleAgent d rt w u id direction count).2.db.agents.find? id = some new ∧
        Settled new) ↔ AnswerCaught rt id direction count (w.containers id) := by
  obtain ⟨-, hrw, -⟩ := scaleAgent_local rt ho hq
  obtain ⟨-, -, rfl⟩ := Db.ownedAgent?_eq_some ho
  have hstored := hrw.id ▸ hrw.stored
  rw [← (scaleLocal_effect rt old direction count _).settled_iff]
  constructor
  · rintro ⟨new, hf, hset⟩
    obtain rfl := Option.some.inj (hf.symm.trans hstored)
    exact hset
  · intro hset
    exact ⟨_, hstored, hset⟩

end Operations

/-! ## Runs -/

namespace NoTransient

variable {w w' : World} {old new : Agent} {cs : List Container}

theorem found (h : NoTransient w) (hrw : Rewrites w w' old new cs) :
    old.status ∉ transientStatuses := h old (Table.mem_of_find? hrw.found)

/-- A rewrite to a transient status is seen in the state it leaves. -/
theorem of_rewrites (h : NoTransient w') (hrw : Rewrites w w' old new cs) :
    new.status ∉ transientStatuses := h new (Table.mem_of_find? hrw.stored)

end NoTransient

/-- A deploy leaves a settled row, or with its build refused the status it found. -/
theorem DeployEffect.not_transient {d : Deps} {rt : Runtime} {old new : Agent}
    {deploy : Option DeployConfig} {cs left : List Container}
    (h : DeployEffect d rt old deploy cs new left) (hold : old.status ∉ transientStatuses) :
    new.status ∉ transientStatuses := by
  by_cases hbuild : needsBuild (deployedRow d rt.draws old deploy) = false
  · exact (h.settled hbuild).not_transient
  · cases h with
    | buildRefused _ =>
      rw [deployedRow_status]
      exact hold
    | failed hb _ => exact absurd hb hbuild
    | running hb _ => exact absurd hb hbuild

/-- A health report moves no row to a transient status. -/
theorem newStatus_not_transient {status : AgentStatus} (h : status ∉ transientStatuses)
    (health : Health) : newStatus status health ∉ transientStatuses := by
  unfold newStatus
  split_ifs
  · decide
  · decide
  · decide
  · exact h

theorem TickEffect.not_transient {rt : Runtime} {old new : Agent} {cs left : List Container}
    (h : TickEffect rt old cs new left) (hold : old.status ∉ transientStatuses) :
    new.status ∉ transientStatuses := by
  cases h with
  | unseen _ => exact hold
  | seen _ => exact newStatus_not_transient hold _
  | autoScaled _ _ _ => exact newStatus_not_transient hold _

/-- A scale that is not settled shows it in the status it leaves. -/
theorem ScaleEffect.settled_of_not_transient {rt : Runtime} {old new : Agent}
    {dir : ScaleDirection} {n : Nat} {cs left : List Container}
    (h : ScaleEffect rt old dir n cs new left) (hnew : new.status ∉ transientStatuses) :
    Settled new := by
  cases h with
  | uncaught _ => exact absurd hnew (by simp [transientStatuses])
  | failed _ _ => exact Or.inr rfl
  | done _ => exact Or.inl rfl

theorem newAgent_not_transient (d : Deps) (r : Draws) (u : UserId) (body : AgentConfigIn)
    (newId : AgentId)
    (suffix : List Char) : (newAgent d r u body newId suffix).status ∉ transientStatuses := by
  rw [newAgent_status]
  decide

/-- A call whose scale is caught leaves no transient status. -/
theorem NoTransient.called {d : Deps} {rt : Runtime} {w w' : World} {c : Call}
    (h : NoTransient w) (hcaught : ScaleCaught d w (.call rt c))
    (heffect : CallEffect d rt w c w') :
    NoTransient w' := by
  cases heffect with
  | refused => exact h
  | updated ho hrw =>
    have hold := h.found hrw
    exact hrw.forall_rows h hold
  | deployed ho hq heff hrw => exact hrw.forall_rows h (heff.not_transient (h.found hrw))
  | scaled ho hq heff hrw =>
    obtain ⟨-, -, rfl⟩ := Db.ownedAgent?_eq_some ho
    exact hrw.forall_rows h (heff.settled_iff.mpr (hcaught _ ho hq)).not_transient
  | removeFailed ho hout hrw => exact hrw.forall_rows h (h.found hrw)
  | removed ho hout hrem => exact hrem.forall_rows h
  | created hq hins => exact hins.forall_rows h (newAgent_not_transient _ _ _ _ _ _)
  | @createdDeployed u body newId suffix w₁ w' new cs hdep hq hins hq₁ heff hrw =>
    have hnew := newAgent_not_transient d rt.draws u body newId suffix
    exact hrw.forall_rows (hins.forall_rows h hnew) (heff.not_transient hnew)

/-- A call that leaves no transient status had its scale caught. -/
theorem ScaleCaught.of_noTransient {d : Deps} {rt : Runtime} {w : World} (c : Call)
    (hafter : NoTransient (c.exec d rt w)) : ScaleCaught d w (.call rt c) := by
  cases c with
  | scale u id body =>
    intro old ho hq
    obtain ⟨-, hrw, -⟩ := scaleAgent_local rt ho hq
    have hnew := NoTransient.of_rewrites hafter hrw
    have heff := scaleLocal_effect rt old body.direction body.count (w.containers id)
    obtain ⟨-, -, rfl⟩ := Db.ownedAgent?_eq_some ho
    exact heff.settled_iff.mp (heff.settled_of_not_transient hnew)
  | create _ _ _ _ => trivial
  | update _ _ _ => trivial
  | deploy _ _ _ => trivial
  | delete _ _ => trivial

/-- **One step** keeps the rows free of transient statuses exactly when its scale is caught. -/
theorem noTransient_step_iff (d : Deps) (s : Settings) (w : World) (i : ServiceStep)
    (h : NoTransient w) : NoTransient (serviceStep d s w i) ↔ ScaleCaught d w i := by
  cases i with
  | call rt c =>
    constructor
    · exact ScaleCaught.of_noTransient c
    · exact fun hcaught => h.called hcaught (Call.exec_effect d rt w c)
  | tick rt elapsed now flushFails =>
    refine iff_of_true ?_ trivial
    refine tick_inv (P := NoTransient) (fun h => ?_) (fun w₁ w₂ old new cs _ h _ heff hrw => ?_) h
    · intro a ha
      rw [flushRequests_agents] at ha
      exact h a ha
    · exact hrw.forall_rows h (heff.not_transient (h.found hrw))

/-- **Transient statuses end with their operation exactly when `scale_agent` catches what the
runtime raises.** -/
theorem transient_ends_iff (d : Deps) (s : Settings) :
    (∀ rt w u id deploy old, w.db.ownedAgent? u id = some old →
      deployQuota d w.db old deploy = .ok () →
      needsBuild (deployedRow d rt.draws old deploy) = false →
      ∃ new, (deployAgent d rt w u id deploy).2.db.agents.find? id = some new ∧ Settled new) ∧
    (∀ rt w u id direction count old, w.db.ownedAgent? u id = some old →
      scaleQuota d w.db old direction count = .ok () →
      ((∃ new, (scaleAgent d rt w u id direction count).2.db.agents.find? id = some new ∧
        Settled new) ↔ AnswerCaught rt id direction count (w.containers id))) ∧
    (∀ w steps, NoTransient w →
      (Along (serviceStep d s) (fun w i => NoTransient (serviceStep d s w i)) w steps ↔
        Along (serviceStep d s) (ScaleCaught d) w steps)) := by
  refine ⟨fun rt w u id deploy old ho hq hbuild => deployAgent_settles rt ho hq hbuild,
    fun rt w u id direction count old ho hq => scaleAgent_settles_iff rt ho hq,
    fun w steps h => ?_⟩
  exact along_iff (noTransient_step_iff d s) steps h

/-- The runtime while the Docker daemon answers a scale with an API error. -/
def Runtime.scaleBroken : Runtime :=
  { Runtime.obliging with
    scale := fun _ _ _ cs => (.error (.other "500 Server Error: Internal Server Error"), cs) }

/-- Two replicas, one more refused by the runtime with a scaling error, and a tick. -/
theorem transient_ends_refusedScale :
    NoTransient (run (serviceStep .transparent {}) freeWorld
      [.call .obliging (createWith "a" "0000aaaa" 2 (by decide)),
        .call .scaleRefusing (scaleBy "a" .up), .tick .obliging none 0 false]) := by
  have hstart : NoTransient freeWorld := fun a ha => absurd ha List.not_mem_nil
  have hrun := ((transient_ends_iff .transparent {}).2.2 freeWorld
    [.call .obliging (createWith "a" "0000aaaa" 2 (by decide)),
      .call .scaleRefusing (scaleBy "a" .up), .tick .obliging none 0 false] hstart).mpr
    ⟨trivial, fun _ _ _ msg h => (by cases h), trivial, trivial⟩
  exact hrun.2.2.1

/-- **A scale that meets an API error leaves its agent at `scaling`**, and the ticks after it keep
it there. -/
theorem scaling_outlives_operation : ∃ steps : List ServiceStep, NoTransient freeWorld ∧
    ∃ a, (run (serviceStep .transparent {}) freeWorld steps).db.agents.find? "a" = some a ∧
      a.status = .scaling := by
  refine ⟨[.call .obliging (createWith "a" "0000aaaa" 1 (by decide)),
    .call .scaleBroken (scaleBy "a" .up), .tick .obliging none 0 false],
    fun a ha => absurd ha List.not_mem_nil, ?_⟩
  decide +kernel

end Gateway
