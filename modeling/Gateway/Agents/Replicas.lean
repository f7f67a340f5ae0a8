import Gateway.Agents.Environment
import Gateway.Agents.Display
import Gateway.Agents.Refusals

/-!
# How many replicas a deploy asks for

A deploy with a body asks for the `replicas` of the body, which the schema keeps at one or more. A
deploy without one asks for the `replicas` column, and that column is also the live count: it is `0`
for an agent created without a config, and a tick whose health check lists no containers writes `0`
to it. `deploy_agent` then asks the runtime for no containers and marks the agent `running`.

* `deployedBy`: the row a step deploys; `serviceStep_calls` says that the deploy calls of a step are
  those of that row.
* `AsksForReplica`: a deploy without a body that reaches the runtime finds `replicas` at one or
  more.
* **`deploy_asks_for_replica_iff`**: along a serial run every deploy call so far asked for a replica
  exactly when the steps all meet `AsksForReplica`, and then an agent a deploy marks `running` has a
  container.
* **`emptyDeploy_runs`**: an agent created without a config and deployed without a body is `running`
  with no containers.
-/

namespace Gateway

open Lib

/-- The row a deploy works on once its quota check has passed. -/
def deployTarget (d : Deps) (r : Draws) (w : World) (u : UserId) (id : AgentId)
    (deploy : Option DeployConfig) : Option Agent :=
  (w.db.ownedAgent? u id).bind fun old =>
    if deployQuota d w.db old deploy = .ok () then some (deployedRow d r old deploy) else none

/-- The row a creation deploys once its checks have passed and the row is in. -/
def createTarget (d : Deps) (r : Draws) (w : World) (u : UserId) (body : AgentConfigIn)
    (newId : AgentId) (suffix : List Char) : Option Agent :=
  if createQuota d w.db u body = .ok () ∧ body.deploy.isSome ∧
      (insertAgent? w (newAgent d r u body newId suffix)).isSome then
    some (newAgent d r u body newId suffix)
  else none

theorem deployTarget_eq_some_iff {d : Deps} {r : Draws} {w : World} {u : UserId} {id : AgentId}
    {deploy : Option DeployConfig} {a : Agent} :
    deployTarget d r w u id deploy = some a ↔ ∃ old, w.db.ownedAgent? u id = some old ∧
      deployQuota d w.db old deploy = .ok () ∧ deployedRow d r old deploy = a := by
  unfold deployTarget
  rw [Option.bind_eq_some_iff]
  simp

theorem createTarget_eq_some {d : Deps} {r : Draws} {w : World} {u : UserId} {body : AgentConfigIn}
    {newId : AgentId} {suffix : List Char} {a : Agent}
    (h : createTarget d r w u body newId suffix = some a) :
    body.deploy.isSome ∧ newAgent d r u body newId suffix = a := by
  unfold createTarget at h
  split at h
  · rename_i hgo
    exact ⟨hgo.2.1, Option.some.inj h⟩
  · cases h

/-- The row a step deploys. -/
def deployedBy (d : Deps) (w : World) : ServiceStep → Option Agent
  | .call rt (.deploy u id config) => deployTarget d rt.draws w u id (config.map Subtype.val)
  | .call rt (.create u body newId suffix) => createTarget d rt.draws w u body newId suffix
  | _ => none

/-- The deploys among the runtime calls made between `w` and `w'` are those of `row`. -/
def LogsDeploys (d : Deps) (w w' : World) (row : Option Agent) : Prop :=
  ∃ made, w'.calls = w.calls ++ made ∧
    ∀ args, .deploy args ∈ made ↔ ∃ a ∈ row, .deploy args ∈ deployCallsOf d a

section Calls

variable {d : Deps} {w w' : World}

theorem LogsDeploys.none_of {made : List RuntimeCall} (hcalls : w'.calls = w.calls ++ made)
    (hno : ∀ args, .deploy args ∉ made) : LogsDeploys d w w' none :=
  ⟨made, hcalls, fun args => iff_of_false (hno args) (by simp)⟩

theorem LogsDeploys.of_same (h : w'.calls = w.calls) : LogsDeploys d w w' none :=
  .none_of (h.trans (List.append_nil _).symm) fun _ => List.not_mem_nil

theorem deployAgent_logs (d : Deps) (rt : Runtime) (w : World) (u : UserId) (id : AgentId)
    (deploy : Option DeployConfig) :
    LogsDeploys d w (deployAgent d rt w u id deploy).2 (deployTarget d rt.draws w u id deploy) := by
  unfold deployTarget
  cases ho : w.db.ownedAgent? u id with
  | none =>
    rw [deployAgent_notFound ho]
    exact .of_same rfl
  | some old =>
    rw [Option.bind_some]
    split_ifs with hq
    · exact ⟨_, (deployAgent_local rt ho hq).2.2, fun args => by simp⟩
    · refine .of_same ?_
      rw [deployAgent_refused rt fun old' ho' => ?_]
      rw [← Option.some.inj (ho.symm.trans ho')]
      exact hq

theorem createAgent_logs (d : Deps) (rt : Runtime) (w : World) (u : UserId) (body : AgentConfigIn)
    (newId : AgentId) (suffix : List Char) :
    LogsDeploys d w (createAgent d rt w u body newId suffix).2
      (createTarget d rt.draws w u body newId suffix) := by
  unfold createTarget
  split_ifs with hgo
  · obtain ⟨hq, hdep, hsome⟩ := hgo
    obtain ⟨w₁, hi⟩ := Option.isSome_iff_exists.mp hsome
    obtain ⟨heq, hown, hq₁⟩ := createAgent_deploys rt hq hi hdep
    refine ⟨deployCallsOf d (newAgent d rt.draws u body newId suffix), ?_, fun args => by simp⟩
    rw [heq, (deployAgent_local rt hown hq₁).2.2, insertAgent?_calls hi]
    rfl
  · refine .of_same ?_
    unfold createAgent
    cases hq : createQuota d w.db u body with
    | error e => rfl
    | ok _ =>
      cases hi : insertAgent? w (newAgent d rt.draws u body newId suffix) with
      | none => simp only [hi]
      | some w₁ =>
        cases hdep : body.deploy with
        | none =>
          simp only [hi]
          exact insertAgent?_calls hi
        | some c => exact absurd ⟨hq, by simp [hdep], by simp [hi]⟩ hgo

/-- **The deploy calls of a step** are those of the row it deploys. -/
theorem serviceStep_calls (d : Deps) (s : Settings) (w : World) (i : ServiceStep) :
    LogsDeploys d w (serviceStep d s w i) (deployedBy d w i) := by
  cases i with
  | tick rt elapsed now flushFails =>
    obtain ⟨made, hmade, hno⟩ := tick_calls d s rt elapsed now flushFails w
    exact .none_of hmade hno
  | call rt c =>
    cases c with
    | create u body newId suffix => exact createAgent_logs d rt w u body newId suffix
    | deploy u id config => exact deployAgent_logs d rt w u id (config.map Subtype.val)
    | update u id body => exact .of_same (updateAgent_calls w u id body)
    | scale u id body =>
      obtain ⟨made, hmade, hno⟩ := scaleAgent_calls d rt w u id body.direction body.count
      exact .none_of hmade hno
    | delete u id =>
      obtain ⟨made, hmade, hno⟩ := deleteAgent_calls rt w u id
      exact .none_of hmade hno

end Calls

/-! ## Asking for a replica -/

/-- The deploy of a row gets as far as the runtime: there is nothing to build, and every secret
decrypts. -/
def ReachesRuntime (d : Deps) (a : Agent) : Prop :=
  needsBuild a = false ∧ ∃ env, envForContainer d a.env = .ok env

/-- The condition on a step of a run: a deploy without a body that reaches the runtime finds
`replicas` at one or more. -/
def AsksForReplica (d : Deps) (w : World) : ServiceStep → Prop
  | .call _ (.deploy u id none) => ∀ old, w.db.ownedAgent? u id = some old →
      deployQuota d w.db old none = .ok () → ReachesRuntime d old → 1 ≤ old.replicas
  | _ => True

/-- Every deploy in the log asked for a replica. -/
def AllAsked (w : World) : Prop := ∀ args, .deploy args ∈ w.calls → 1 ≤ args.replicas

/-- A row that reaches the runtime asks for its `replicas`. -/
theorem deployCallsOf_replicas_iff (d : Deps) (a : Agent) :
    (∀ args, .deploy args ∈ deployCallsOf d a → 1 ≤ args.replicas) ↔
      (ReachesRuntime d a → 1 ≤ a.replicas) := by
  unfold deployCallsOf deployCalls ReachesRuntime
  cases hb : needsBuild a with
  | true => simp
  | false =>
    cases henv : envForContainer d a.env with
    | error e => simp
    | ok env => simp [deployArgs]

/-- A config asks for at least one replica. -/
theorem deployedRow_replicas (d : Deps) (r : Draws) (a : Agent) (c : AcceptedConfig) :
    1 ≤ (deployedRow d r a (some c.1)).replicas := (DeployConfig.accepted_shape c.2).1.replicas.1

/-- The row a step deploys asks for a replica exactly when the step meets the condition. -/
theorem deployedBy_asks_iff (d : Deps) (w : World) (i : ServiceStep) :
    (∀ a ∈ deployedBy d w i, ReachesRuntime d a → 1 ≤ a.replicas) ↔ AsksForReplica d w i := by
  cases i with
  | tick _ _ _ _ => simp [deployedBy, AsksForReplica]
  | call rt c =>
    cases c with
    | update _ _ _ => simp [deployedBy, AsksForReplica]
    | scale _ _ _ => simp [deployedBy, AsksForReplica]
    | delete _ _ => simp [deployedBy, AsksForReplica]
    | create u body newId suffix =>
      refine iff_of_true (fun a ha _ => ?_) trivial
      obtain ⟨hdep, rfl⟩ := createTarget_eq_some ha
      exact newAgent_replicas d rt.draws u newId suffix hdep
    | deploy u id config =>
      cases config with
      | some c =>
        refine iff_of_true (fun a ha _ => ?_) trivial
        obtain ⟨old, -, -, rfl⟩ := deployTarget_eq_some_iff.mp ha
        exact deployedRow_replicas d rt.draws old c
      | none =>
        constructor
        · intro h old ho hq
          exact h old (deployTarget_eq_some_iff.mpr ⟨old, ho, hq, rfl⟩)
        · intro h a ha
          obtain ⟨old, ho, hq, rfl⟩ := deployTarget_eq_some_iff.mp ha
          exact h old ho hq

/-- **One step.** -/
theorem allAsked_step_iff (d : Deps) (s : Settings) (w : World) (i : ServiceStep)
    (h : AllAsked w) : AllAsked (serviceStep d s w i) ↔ AsksForReplica d w i := by
  obtain ⟨made, hmade, hdeploys⟩ := serviceStep_calls d s w i
  rw [← deployedBy_asks_iff]
  have hnew : AllAsked (serviceStep d s w i) ↔ ∀ args, .deploy args ∈ made → 1 ≤ args.replicas := by
    unfold AllAsked
    rw [hmade]
    constructor
    · exact fun hall args hargs => hall args (List.mem_append_right _ hargs)
    · intro hall args hargs
      rcases List.mem_append.mp hargs with hargs | hargs
      · exact h args hargs
      · exact hall args hargs
  rw [hnew]
  constructor
  · intro hall a ha
    refine (deployCallsOf_replicas_iff d a).mp fun args hargs => ?_
    exact hall args ((hdeploys args).mpr ⟨a, ha, hargs⟩)
  · intro hall args hargs
    obtain ⟨a, ha, hargs⟩ := (hdeploys args).mp hargs
    exact (deployCallsOf_replicas_iff d a).mpr (hall a ha) args hargs

/-! ## Containers -/

/-- The runtime starts as many containers as it is asked for, or raises. -/
def Runtime.StartsAll (rt : Runtime) : Prop :=
  ∀ args cs r, (rt.deploy args cs).1 = .ok r → (rt.deploy args cs).2.length = args.replicas

/-- A deploy that succeeds has reached the runtime and left as many containers as the row says. -/
theorem deployLocal_running {d : Deps} {rt : Runtime} {old new : Agent}
    {deploy : Option DeployConfig} {cs : List Container} (hrt : rt.StartsAll)
    (h : (deployLocal d rt old deploy cs).1 = .ok new) :
    ReachesRuntime d (deployedRow d rt.draws old deploy) ∧
      (deployLocal d rt old deploy cs).2.2.length =
        (deployedRow d rt.draws old deploy).replicas := by
  unfold deployLocal at h ⊢
  simp only at h ⊢
  split at h
  · cases h
  · rename_i hb
    rw [if_neg hb]
    cases henv : envForContainer d (deployedRow d rt.draws old deploy).env with
    | error msg => simp [startContainers, henv] at h
    | ok env =>
      refine ⟨⟨by simpa using hb, env, henv⟩, ?_⟩
      cases hout : rt.deploy (deployArgs (deployedRow d rt.draws old deploy) env) cs with
      | mk res left =>
        cases res with
        | error e => simp [startContainers, henv, hout] at h
        | ok started =>
          have hlen := hrt _ _ started (congrArg Prod.fst hout)
          rw [hout] at hlen
          simp only [startContainers, henv, hout]
          exact hlen

/-- An agent a step marks `running` by a deploy has a container. -/
def StartsContainer (d : Deps) (w : World) : ServiceStep → Prop
  | .call rt (.deploy u id config) =>
    ∀ new, (deployAgent d rt w u id (config.map Subtype.val)).1 = .ok new →
      1 ≤ ((deployAgent d rt w u id (config.map Subtype.val)).2.containers id).length
  | .call rt (.create u body newId suffix) => body.deploy.isSome →
      ∀ new, (createAgent d rt w u body newId suffix).1 = .ok new →
        1 ≤ ((createAgent d rt w u body newId suffix).2.containers newId).length
  | _ => True

theorem deployAgent_starts {d : Deps} {rt : Runtime} {w : World} {u : UserId} {id : AgentId}
    {deploy : Option DeployConfig} (hrt : rt.StartsAll)
    (hask : ∀ a ∈ deployTarget d rt.draws w u id deploy, ReachesRuntime d a → 1 ≤ a.replicas)
    {new : Agent}
    (hnew : (deployAgent d rt w u id deploy).1 = .ok new) :
    1 ≤ ((deployAgent d rt w u id deploy).2.containers id).length := by
  cases ho : w.db.ownedAgent? u id with
  | none =>
    rw [deployAgent_notFound ho] at hnew
    cases hnew
  | some old =>
    cases hq : deployQuota d w.db old deploy with
    | error e =>
      rw [deployAgent_overQuota ho hq] at hnew
      cases hnew
    | ok _ =>
      obtain ⟨hans, hrw, -⟩ := deployAgent_local rt ho hq
      obtain ⟨hreach, hlen⟩ := deployLocal_running hrt (hans ▸ hnew)
      have hid := (Db.ownedAgent?_eq_some ho).2.2
      rw [hrw.containers, if_pos hid.symm, hlen]
      exact hask _ (deployTarget_eq_some_iff.mpr ⟨old, ho, hq, rfl⟩) hreach

theorem startsContainer_of_asks {d : Deps} {w : World} {i : ServiceStep}
    (hrt : i.runtime.StartsAll) (hask : AsksForReplica d w i) : StartsContainer d w i := by
  have htarget := (deployedBy_asks_iff d w i).mpr hask
  cases i with
  | tick _ _ _ _ => trivial
  | call rt c =>
    cases c with
    | update _ _ _ => trivial
    | scale _ _ _ => trivial
    | delete _ _ => trivial
    | deploy u id config =>
      intro new hnew
      exact deployAgent_starts hrt htarget hnew
    | create u body newId suffix =>
      intro hdep new hnew
      cases hq : createQuota d w.db u body with
      | error e =>
        unfold createAgent at hnew
        rw [hq] at hnew
        cases hnew
      | ok _ =>
        cases hi : insertAgent? w (newAgent d rt.draws u body newId suffix) with
        | none =>
          unfold createAgent at hnew
          rw [hq] at hnew
          simp only [hi] at hnew
          cases hnew
        | some w₁ =>
          obtain ⟨heq, hown, hq₁⟩ := createAgent_deploys rt hq hi hdep
          rw [heq] at hnew ⊢
          refine deployAgent_starts hrt (fun a ha hreach => ?_) hnew
          obtain ⟨old, ho, -, rfl⟩ := deployTarget_eq_some_iff.mp ha
          obtain rfl := Option.some.inj (hown.symm.trans ho)
          exact newAgent_replicas d rt.draws u newId suffix hdep

/-- **A deploy asks for a replica exactly when no deploy without a body finds `replicas` at zero.**
In every state of a serial run each deploy call so far asked for one or more replicas, if and only
if the steps all meet `AsksForReplica`; and if the runtime starts what it is asked for, an agent
that such a step marks `running` has a container. -/
theorem deploy_asks_for_replica_iff (d : Deps) (s : Settings) (w : World) (hcalls : w.calls = [])
    (steps : List ServiceStep) :
    (Along (serviceStep d s) (fun w i => AllAsked (serviceStep d s w i)) w steps ↔
      Along (serviceStep d s) (AsksForReplica d) w steps) ∧
    ((∀ i ∈ steps, i.runtime.StartsAll) → Along (serviceStep d s) (AsksForReplica d) w steps →
      Along (serviceStep d s) (StartsContainer d) w steps) := by
  constructor
  · refine along_iff (allAsked_step_iff d s) steps fun args hargs => ?_
    rw [hcalls] at hargs
    exact absurd hargs List.not_mem_nil
  · intro hrt hask
    have hboth := (along_of_forall steps w hrt).and steps hask
    exact hboth.mono steps fun w i h => startsContainer_of_asks h.1 h.2

/-- The agent is created with two replicas, a tick sees them, and it is deployed again without a
body. -/
theorem deploy_asks_redeployed :
    AllAsked (run (serviceStep .transparent {}) freeWorld
      [.call .obliging (createWith "a" "0000aaaa" 2 (by decide)), .tick .obliging none 0 false,
        .call .obliging (.deploy freeUser.id "a" none)]) := by
  have hrow : ∀ old ∈ (run (serviceStep .transparent {}) freeWorld
      [.call .obliging (createWith "a" "0000aaaa" 2 (by decide)),
        .tick .obliging none 0 false]).db.ownedAgent? freeUser.id "a", 1 ≤ old.replicas := by
    decide +kernel
  have hrun := ((deploy_asks_for_replica_iff .transparent {} freeWorld rfl
    [.call .obliging (createWith "a" "0000aaaa" 2 (by decide)), .tick .obliging none 0 false,
      .call .obliging (.deploy freeUser.id "a" none)]).1).mpr
    ⟨trivial, trivial, fun old ho _ _ => hrow old ho, trivial⟩
  exact hrun.2.2.1

/-- **A deploy can ask for nothing.** The agent is created without a config and deployed without a
body: the runtime is asked for no replicas, and the agent is `running` without a container. -/
theorem emptyDeploy_runs : ∃ steps : List ServiceStep,
    ¬ AllAsked (run (serviceStep .transparent {}) freeWorld steps) ∧
    ∃ a, (run (serviceStep .transparent {}) freeWorld steps).db.agents.find? "a" = some a ∧
      a.status = .running ∧
      (run (serviceStep .transparent {}) freeWorld steps).containers "a" = [] := by
  refine ⟨[.call .obliging (.create freeUser.id { name := "a" } "a" "0000aaaa".toList),
    .call .obliging (.deploy freeUser.id "a" none)], fun h => ?_, ?_⟩
  · have hcall : ∃ args, RuntimeCall.deploy args ∈ (run (serviceStep .transparent {}) freeWorld
        [.call .obliging (.create freeUser.id { name := "a" } "a" "0000aaaa".toList),
          .call .obliging (.deploy freeUser.id "a" none)]).calls ∧ args.replicas = 0 := by
      refine ⟨⟨"a", "a", "gpt-4o", none, 0, [], none, 1, 512⟩, ?_, rfl⟩
      decide +kernel
    obtain ⟨args, hargs, hzero⟩ := hcall
    have := h args hargs
    omega
  · decide +kernel

end Gateway
