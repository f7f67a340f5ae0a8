import Gateway.Agents.System

/-!
# Stored agents and the response schema

`to_agent_response` validates the stored columns against the schema of a deploy request. All of
them come from a validated request except `replicas`, which is also the live count: a deploy
stores the number of containers it started, a scale the number it left, a tick the number the
health check lists. `StoredOk` says when a row passes, `toAgentResponse_ok` that it is enough.

A row can leave the schema in three ways, and `DisplaySafe` rules out exactly these: a live count
outside `1..100` is stored; a row that never had a config (`replicas` is `0`) leaves `pending`,
from when on the response has a deploy block; a config is stored whose `min_replicas` is above the
default `max_replicas`, which no validator compared.

* **`displayable_run`**: along every run of display-safe steps every stored agent can be shown.
* **`stoppedAgent_undisplayable`**: an agent whose containers are gone cannot be.
-/

namespace Gateway

open Lib

/-- Every stored agent has a response. -/
def Displayable (s : Settings) (w : World) : Prop :=
  ∀ a ∈ w.db.agents.rows, ∃ r, toAgentResponse s a = .ok r

theorem isOk_iff {s : Settings} {a : Agent} :
    (toAgentResponse s a).isOk = true ↔ ∃ r, toAgentResponse s a = .ok r := by
  cases toAgentResponse s a with
  | ok r => exact ⟨fun _ => ⟨r, rfl⟩, fun _ => rfl⟩
  | error es => exact ⟨fun h => absurd h Bool.false_ne_true, fun ⟨r, hr⟩ => absurd hr (by simp)⟩

instance (s : Settings) (w : World) : Decidable (Displayable s w) :=
  decidable_of_iff (∀ a ∈ w.db.agents.rows, (toAgentResponse s a).isOk = true)
    (forall₂_congr fun _ _ => isOk_iff)

/-- A replica count the schema accepts. -/
def ReplicasOk (n : Nat) : Prop := 1 ≤ n ∧ n ≤ 100

instance (n : Nat) : Decidable (ReplicasOk n) := by
  unfold ReplicasOk
  infer_instance

/-- The condition on a step. The containers a deploy starts and those a health report lists are
between `1` and `100`, those a scale leaves at most `100`; where the old `replicas` stays (a scale
that leaves none or raises, a deploy without a config that fails) it is not `0`. A sent config has
its replica bounds in order. -/
def DisplaySafe (d : Deps) (w : World) : ServiceStep → Prop
  | .call rt (.create u body newId suffix) => createQuota d w.db u body = .ok () →
      (insertAgent? w (newAgent d rt.draws u body newId suffix)).isSome → ∀ c ∈ body.deploy,
      c.1.minReplicas ≤ c.1.maxReplicas ∧
        (needsBuild (newAgent d rt.draws u body newId suffix) = false →
          ∀ started left, startContainers d rt (newAgent d rt.draws u body newId suffix)
            (w.containers newId) = (.ok started, left) → ReplicasOk started.length)
  | .call rt (.deploy u id config) => ∀ a ∈ w.db.ownedAgent? u id,
      deployQuota d w.db a (config.map Subtype.val) = .ok () →
      (∀ c ∈ config, c.1.minReplicas ≤ c.1.maxReplicas) ∧
        (needsBuild (deployedRow d rt.draws a (config.map Subtype.val)) = false →
          match (startContainers d rt (deployedRow d rt.draws a (config.map Subtype.val))
            (w.containers id)).1 with
          | .ok started => ReplicasOk started.length
          | .error _ => config = none → 1 ≤ a.replicas)
  | .call rt (.scale u id body) => ∀ a ∈ w.db.ownedAgent? u id,
      scaleQuota d w.db a body.direction body.count = .ok () →
      match rt.scale id body.direction body.count (w.containers id) with
      | (.ok _, left) => left.length ≤ 100 ∧ (left = [] → 1 ≤ a.replicas)
      | (.error _, _) => 1 ≤ a.replicas
  | .call _ _ => True
  | .tick rt _ _ _ => ∀ a ∈ loadedAgents w.db,
      ∀ health, rt.healthCheck a.id (w.containers a.id) = .ok health →
        ReplicasOk health.liveReplicas

/-! ## Rows that pass -/

/-- The columns of a row are in the ranges of the schema; `replicas` may be `0` as long as no
deploy block is shown. -/
structure StoredOk (a : Agent) : Prop where
  cpu : 1 / 10 ≤ a.cpu ∧ a.cpu ≤ 64
  memoryMb : 128 ≤ a.memoryMb ∧ a.memoryMb ≤ 65536
  gpu : a.gpu ≤ 8
  diskGb : 1 ≤ a.diskGb ∧ a.diskGb ≤ 1000
  ephemeralStorageGb : 1 ≤ a.ephemeralStorageGb ∧ a.ephemeralStorageGb ≤ 500
  env : ∀ e ∈ a.env, (maskedVar e).errors = []
  minReplicas : 1 ≤ a.minReplicas ∧ a.minReplicas ≤ 100
  maxReplicas : 1 ≤ a.maxReplicas ∧ a.maxReplicas ≤ 100
  ordered : a.minReplicas ≤ a.maxReplicas
  port : 1 ≤ a.port ∧ a.port ≤ 65535
  replicas : a.replicas ≤ 100
  deployed : hasDeployConfig a → 1 ≤ a.replicas

theorem checkRange_natCast {field lt ht : String} {lo hi n : Nat} (h : lo ≤ n ∧ n ≤ hi) :
    checkRange field (lo : Int) hi lt ht n = [] :=
  checkRange_eq_nil.mpr ⟨by exact_mod_cast h.1, by exact_mod_cast h.2⟩

/-- The stored entries can be shown exactly when each of them can. -/
theorem envFromStorageMasked_eq_ok_iff {env : List EnvEntry} {shown : List EnvVar} :
    envFromStorageMasked env = .ok shown ↔
      (∀ e ∈ env, (maskedVar e).errors = []) ∧ shown = env.map maskedVar := by
  unfold envFromStorageMasked
  induction env generalizing shown with
  | nil =>
    rw [List.mapM_nil]
    exact ⟨fun h => ⟨by simp, (Except.ok.inj h).symm⟩, fun h => congrArg Except.ok h.2.symm⟩
  | cons e env ih =>
    rw [List.mapM_cons]
    by_cases he : (maskedVar e).errors = []
    · have hval : (maskedVar e).validate = .ok (maskedVar e) := if_pos he
      rw [hval]
      cases hrest : env.mapM fun e => (maskedVar e).validate with
      | error es =>
        have hno : ¬ ∀ x ∈ env, (maskedVar x).errors = [] := fun h => by
          have := ih.mpr ⟨h, rfl⟩
          rw [hrest] at this
          cases this
        refine iff_of_false (fun h => by cases h) fun h => hno fun x hx => ?_
        exact h.1 x (List.mem_cons_of_mem e hx)
      | ok rest =>
        obtain ⟨hall, rfl⟩ := ih.mp hrest
        refine ⟨fun h => ⟨?_, (Except.ok.inj h).symm⟩, fun h => congrArg Except.ok h.2.symm⟩
        intro x hx
        rcases List.mem_cons.mp hx with rfl | hx
        · exact he
        · exact hall x hx
    · have hval : (maskedVar e).validate = .error (maskedVar e).errors := if_neg he
      rw [hval]
      exact iff_of_false (fun h => by cases h) fun h => he (h.1 e List.mem_cons_self)

/-- The columns that flatten `ResourceLimits`. -/
def Agent.resourceColumns (a : Agent) : ResourceLimits where
  cpu := a.cpu
  memoryMb := a.memoryMb
  gpu := a.gpu
  gpuType := a.gpuType
  diskGb := a.diskGb
  ephemeralStorageGb := a.ephemeralStorageGb

/-- The columns that flatten `DeployConfig`, as the response shows them. -/
def Agent.configColumns (a : Agent) : DeployConfig where
  replicas := a.replicas
  resources := a.resourceColumns
  env := a.env.map maskedVar
  image := a.image
  buildPath := a.buildPath
  command := a.command
  args := a.args
  healthCheckPath := a.healthCheckPath
  autoScale := a.autoScale
  minReplicas := a.minReplicas
  maxReplicas := a.maxReplicas
  port := a.port

/-- **What `_deploy_config_from_agent` answers**: the columns, if they pass the checks of the schema
with every field given. -/
theorem deployConfigFromAgent_eq_ok_iff {a : Agent} {c : DeployConfig} :
    deployConfigFromAgent a = .ok c ↔ (resourcesBody a).errors = [] ∧
      (∀ e ∈ a.env, (maskedVar e).errors = []) ∧ (deployBody a).errorsWith [] [] = [] ∧
      c = a.configColumns := by
  unfold deployConfigFromAgent ResourceLimitsBody.validate
  by_cases hres : (resourcesBody a).errors = []
  · rw [if_pos hres]
    cases henv : envFromStorageMasked a.env with
    | error es =>
      have hno : ¬ ∀ e ∈ a.env, (maskedVar e).errors = [] := fun h => by
        rw [envFromStorageMasked_eq_ok_iff.mpr ⟨h, rfl⟩] at henv
        cases henv
      exact iff_of_false (fun h => by cases h) fun h => hno h.2.1
    | ok shown =>
      obtain ⟨hall, rfl⟩ := envFromStorageMasked_eq_ok_iff.mp henv
      have hbuild : (deployBody a).build (resourcesBody a).build (a.env.map maskedVar) =
          a.configColumns := rfl
      by_cases hbody : (deployBody a).errorsWith [] [] = []
      · simp only [if_pos hbody, hbuild]
        refine ⟨fun h => ⟨hres, hall, hbody, (Except.ok.inj h).symm⟩, fun h => ?_⟩
        rw [h.2.2.2]
      · simp only [if_neg hbody]
        exact iff_of_false (fun h => by cases h) fun h => hbody h.2.2.1
  · rw [if_neg hres]
    exact iff_of_false (fun h => by cases h) fun h => hres h.1

theorem resourcesBody_errors {a : Agent} (h : a.resourceColumns.InRange) :
    (resourcesBody a).errors = [] := by
  have hcpu : checkCpu a.cpu = [] := checkRange_eq_nil.mpr h.cpu
  have hmem : checkMemoryMb a.memoryMb = [] := checkRange_natCast h.memoryMb
  have hgpu : checkGpu a.gpu = [] := checkRange_natCast ⟨Nat.zero_le _, h.gpu⟩
  have hdisk : checkDiskGb a.diskGb = [] := checkRange_natCast h.diskGb
  have heph : checkEphemeralStorageGb a.ephemeralStorageGb = [] :=
    checkRange_natCast h.ephemeralStorageGb
  simp [ResourceLimitsBody.errors, resourcesBody, hcpu, hmem, hgpu, hdisk, heph]

/-- With every field given and in range only the cross-field rule is left to fail. -/
theorem deployBody_errors_iff {a : Agent} (hrep : 1 ≤ a.replicas ∧ a.replicas ≤ 100)
    (hmin : 1 ≤ a.minReplicas ∧ a.minReplicas ≤ 100)
    (hmax : 1 ≤ a.maxReplicas ∧ a.maxReplicas ≤ 100) (hport : 1 ≤ a.port ∧ a.port ≤ 65535) :
    (deployBody a).errorsWith [] [] = [] ↔ a.minReplicas ≤ a.maxReplicas := by
  have hr : checkReplicas a.replicas = [] := checkRange_natCast hrep
  have hn : checkMinReplicas a.minReplicas = [] := checkRange_natCast hmin
  have hx : checkMaxReplicas a.maxReplicas = [] := checkRange_natCast hmax
  have hp : checkPort a.port = [] := checkRange_natCast hport
  simp [DeployBody.errorsWith, DeployBody.maxErrors, DeployBody.dataMin, deployBody, maxGeMin, hr,
    hn, hx, hp]

namespace StoredOk

variable {a : Agent}

theorem deployConfigFromAgent_ok (h : StoredOk a) (hrep : 1 ≤ a.replicas) :
    ∃ c, deployConfigFromAgent a = .ok c := by
  have hresources : a.resourceColumns.InRange :=
    ⟨h.cpu, h.memoryMb, h.gpu, h.diskGb, h.ephemeralStorageGb⟩
  have hbody := (deployBody_errors_iff ⟨hrep, h.replicas⟩ h.minReplicas h.maxReplicas h.port).mpr
    h.ordered
  exact ⟨_, deployConfigFromAgent_eq_ok_iff.mpr
    ⟨resourcesBody_errors hresources, h.env, hbody, rfl⟩⟩

/-- **A row in the ranges of the schema has a response.** -/
theorem toAgentResponse_ok (h : StoredOk a) (s : Settings) :
    ∃ r, toAgentResponse s a = .ok r := by
  unfold toAgentResponse
  simp only
  split
  · rename_i hdep
    obtain ⟨c, hc⟩ := h.deployConfigFromAgent_ok (h.deployed hdep)
    rw [hc]
    exact ⟨_, rfl⟩
  · exact ⟨_, rfl⟩

/-- A new live count. -/
theorem live (h : StoredOk a) {n : Nat} (hn : ReplicasOk n) (status : AgentStatus)
    (error : Option String) (version : Nat) :
    StoredOk { a with replicas := n, status := status, error := error, version := version } :=
  { h with replicas := hn.2, deployed := fun _ => hn.1 }

/-- A new status on a row with replicas. -/
theorem moved (h : StoredOk a) (hrep : 1 ≤ a.replicas) (status : AgentStatus)
    (error : Option String) : StoredOk { a with status := status, error := error } :=
  { h with deployed := fun _ => hrep }

end StoredOk

/-! ## Rows from a config -/

theorem maskedVar_errors {e : EnvEntry} (hkey : checkLength "key" 256 "256" e.key = [])
    (hvalue : e.secret = false → checkMaxLength "value" 4096 "4096" e.value = []) :
    (maskedVar e).errors = [] := by
  unfold EnvVar.errors maskedVar
  rw [hkey, List.nil_append]
  cases hs : e.secret with
  | false => exact hvalue hs
  | true =>
    show checkMaxLength "value" 4096 "4096" secretMask = []
    decide

/-- Stored entries of a validated environment can be shown. -/
theorem envToStorage_shown (d : Deps) (r : Draws) {env : List EnvVar}
    (h : ∀ e ∈ env, e.errors = []) : ∀ e ∈ envToStorage d r env, (maskedVar e).errors = [] := by
  intro e he
  obtain ⟨n, v, hv, rfl⟩ := mem_envToStorage he
  obtain ⟨hkey, hvalue⟩ := List.append_eq_nil_iff.mp (h v hv)
  refine maskedVar_errors hkey fun hs => ?_
  have hplain : v.secret = false := hs
  simpa [storedVar, hplain] using hvalue

/-- The name of a provider key is a valid variable name. -/
theorem withProviderKey_shown (d : Deps) (r : Draws) {env : List EnvEntry} (model apiKey : String)
    (h : ∀ e ∈ env, (maskedVar e).errors = []) :
    ∀ e ∈ withProviderKey d r env model apiKey, (maskedVar e).errors = [] := by
  intro e he
  rcases List.mem_append.mp he with he | he
  · exact h e (List.mem_of_mem_filter he)
  · obtain rfl := List.mem_singleton.mp he
    refine maskedVar_errors ?_ (by simp)
    show checkLength "key" 256 "256" (providerKeyEnv (d.forModel model)) = []
    cases d.forModel model <;> decide

theorem applyDeployConfig_shown (d : Deps) (r : Draws) {a : Agent} (c : AcceptedConfig)
    (h : ∀ e ∈ a.env, (maskedVar e).errors = []) :
    ∀ e ∈ (applyDeployConfig d r a c.1).env, (maskedVar e).errors = [] := by
  intro e he
  rcases List.mem_append.mp he with he | he
  · exact envToStorage_shown d r (DeployConfig.accepted_shape c.2).1.env e he
  · exact h e (List.mem_of_mem_filter he)

theorem StoredOk.applyDeployConfig (d : Deps) (r : Draws) {a : Agent} (c : AcceptedConfig)
    (henv : ∀ e ∈ a.env, (maskedVar e).errors = [])
    (hle : c.1.minReplicas ≤ c.1.maxReplicas) : StoredOk (applyDeployConfig d r a c.1) := by
  obtain ⟨hin, -⟩ := DeployConfig.accepted_shape c.2
  exact
    { cpu := hin.resources.cpu
      memoryMb := hin.resources.memoryMb
      gpu := hin.resources.gpu
      diskGb := hin.resources.diskGb
      ephemeralStorageGb := hin.resources.ephemeralStorageGb
      env := applyDeployConfig_shown d r c henv
      minReplicas := hin.minReplicas
      maxReplicas := hin.maxReplicas
      ordered := hle
      port := hin.port
      replicas := hin.replicas.2
      deployed := fun _ => hin.replicas.1 }

/-- A created row can be shown. -/
theorem storedOk_newAgent (d : Deps) (r : Draws) (u : UserId) (body : AgentConfigIn)
    (newId : AgentId) (suffix : List Char)
    (hle : ∀ c ∈ body.deploy, c.1.minReplicas ≤ c.1.maxReplicas) :
    StoredOk (newAgent d r u body newId suffix) := by
  unfold newAgent
  simp only
  generalize hbase : body.deploy.elim _ _ = base
  have hok : StoredOk base := by
    rw [← hbase]
    cases hdep : body.deploy with
    | none =>
      exact
        { cpu := by norm_num
          memoryMb := by simp
          gpu := by simp
          diskGb := by simp
          ephemeralStorageGb := by simp
          env := fun e he => absurd he List.not_mem_nil
          minReplicas := by simp
          maxReplicas := by simp
          ordered := by simp
          port := by simp
          replicas := by simp
          deployed := fun h => absurd h (by simp [hasDeployConfig]) }
    | some c =>
      exact StoredOk.applyDeployConfig d r c (fun e he => absurd he List.not_mem_nil) (hle c hdep)
  cases body.apiKey.filter (· ≠ "") with
  | none => exact hok
  | some apiKey => exact { hok with env := withProviderKey_shown d r _ _ hok.env }

/-- A created row with a config has replicas to show. -/
theorem newAgent_replicas (d : Deps) (r : Draws) (u : UserId) {body : AgentConfigIn}
    (newId : AgentId) (suffix : List Char) (hdep : body.deploy.isSome) :
    1 ≤ (newAgent d r u body newId suffix).replicas := by
  obtain ⟨c, hc⟩ := Option.isSome_iff_exists.mp hdep
  have hrep : (newAgent d r u body newId suffix).replicas = c.1.replicas := by
    unfold newAgent
    rw [hc]
    cases body.apiKey.filter (· ≠ "") <;> rfl
  rw [hrep]
  exact (DeployConfig.accepted_shape c.2).1.replicas.1

/-! ## Runs -/

/-- What holds between the steps of a run. -/
def DisplayInv (w : World) : Prop := ∀ a ∈ w.db.agents.rows, StoredOk a

namespace DisplayInv

variable {d : Deps} {rt : Runtime} {w w' : World} {old new : Agent} {cs left : List Container}

theorem found (hinv : DisplayInv w) (hf : w.db.agents.find? old.id = some old) : StoredOk old :=
  hinv old (Table.mem_of_find? hf)

end DisplayInv

/-- A deploy leaves a row that can be shown, from a committed row that can be. -/
theorem DeployEffect.storedOk {d : Deps} {rt : Runtime} {old new : Agent}
    {deploy : Option DeployConfig} {cs left : List Container}
    (heff : DeployEffect d rt old deploy cs new left)
    (hrow : StoredOk (deployedRow d rt.draws old deploy))
    (hout : needsBuild (deployedRow d rt.draws old deploy) = false →
      match (startContainers d rt (deployedRow d rt.draws old deploy) cs).1 with
      | .ok started => ReplicasOk started.length
      | .error _ => 1 ≤ (deployedRow d rt.draws old deploy).replicas) : StoredOk new := by
  cases heff with
  | buildRefused _ => exact hrow
  | failed hbuild h =>
    have hrep := hout hbuild
    rw [h] at hrep
    exact hrow.moved hrep _ _
  | running hbuild h =>
    have hlive := hout hbuild
    rw [h] at hlive
    exact hrow.live hlive _ _ _

theorem ScaleEffect.storedOk {rt : Runtime} {old new : Agent} {dir : ScaleDirection} {n : Nat}
    {cs left : List Container} (heff : ScaleEffect rt old dir n cs new left) (hrow : StoredOk old)
    (hout : match rt.scale old.id dir n cs with
      | (.ok _, left) => left.length ≤ 100 ∧ (left = [] → 1 ≤ old.replicas)
      | (.error _, _) => 1 ≤ old.replicas) : StoredOk new := by
  cases heff with
  | uncaught h =>
    rw [h] at hout
    exact hrow.moved hout _ _
  | failed _ h =>
    rw [h] at hout
    exact hrow.moved hout _ _
  | done h =>
    rw [h] at hout
    obtain ⟨hmax, hnone⟩ := hout
    refine hrow.live ?_ _ _ _
    unfold liveOr
    split_ifs with hlen
    · exact ⟨hnone (List.length_eq_zero_iff.mp hlen), hrow.replicas⟩
    · exact ⟨Nat.one_le_iff_ne_zero.mpr hlen, hmax⟩

theorem TickEffect.storedOk {rt : Runtime} {old new : Agent} {cs left : List Container}
    (heff : TickEffect rt old cs new left) (hrow : StoredOk old)
    (hout : ∀ health, rt.healthCheck old.id cs = .ok health → ReplicasOk health.liveReplicas) :
    StoredOk new := by
  cases heff with
  | unseen _ => exact hrow
  | seen h => exact hrow.live (hout _ h) _ _ _
  | autoScaled h _ _ => exact hrow.live (hout _ h) _ _ _

/-- **One step.** -/
theorem DisplayInv.step {d : Deps} {s : Settings} (w : World) (i : ServiceStep)
    (hinv : DisplayInv w) (hsafe : DisplaySafe d w i) : DisplayInv (serviceStep d s w i) := by
  cases i with
  | call rt c =>
    show DisplayInv (c.exec d rt w)
    have heffect := Call.exec_effect d rt w c
    generalize c.exec d rt w = w' at heffect
    cases heffect with
    | refused => exact hinv
    | updated ho h =>
      have hrow := hinv.found h.found
      exact h.forall_rows hinv { hrow with }
    | @deployed u id config old new cs w' ho hq heff h =>
      obtain ⟨hle, hout⟩ := hsafe old ho hq
      have hrow := hinv.found h.found
      refine h.forall_rows hinv (heff.storedOk ?_ fun hbuild => ?_)
      · cases config with
        | none => exact hrow
        | some c => exact StoredOk.applyDeployConfig d rt.draws c hrow.env (hle c rfl)
      · have hout := hout hbuild
        split at hout
        · exact hout
        · cases config with
          | none => exact hout rfl
          | some c => exact (DeployConfig.accepted_shape c.2).1.replicas.1
    | scaled ho hq heff h =>
      obtain ⟨-, -, rfl⟩ := Db.ownedAgent?_eq_some ho
      exact h.forall_rows hinv (heff.storedOk (hinv.found h.found) (hsafe _ ho hq))
    | removeFailed ho hout h => exact h.forall_rows hinv (hinv.found h.found)
    | removed ho hout h => exact h.forall_rows hinv
    | created hq hins =>
      exact hins.forall_rows hinv
        (storedOk_newAgent _ _ _ _ _ _ fun c hc => (hsafe hq hins.isSome c hc).1)
    | @createdDeployed u body newId suffix w₁ w' new cs hdep hq hins hq₁ heff h =>
      have hsafe := hsafe hq hins.isSome
      have hrow := storedOk_newAgent d rt.draws u body newId suffix fun c hc => (hsafe c hc).1
      refine h.forall_rows (hins.forall_rows hinv hrow) (heff.storedOk hrow fun hbuild => ?_)
      obtain ⟨c, hc⟩ := Option.isSome_iff_exists.mp hdep
      have hstart := (hsafe c hc).2 hbuild
      show match (startContainers d rt (newAgent d rt.draws u body newId suffix)
          (w.containers newId)).1 with
        | .ok started => ReplicasOk started.length
        | .error _ => 1 ≤ (newAgent d rt.draws u body newId suffix).replicas
      cases hres : startContainers d rt (newAgent d rt.draws u body newId suffix)
          (w.containers newId) with
      | mk res left =>
        cases res with
        | ok started => exact hstart started left hres
        | error msg => exact newAgent_replicas d rt.draws u newId suffix hdep
  | tick rt elapsed now flushFails =>
    show DisplayInv (tick d s rt elapsed now flushFails w).2
    refine tick_inv (fun h => ?_) (fun w₁ w₂ old new cs hold h hsame heff hrw => ?_) hinv
    · intro a ha
      rw [flushRequests_agents] at ha
      exact h a ha
    · refine hrw.forall_rows h (heff.storedOk (h.found hrw.found) ?_)
      rw [hsame]
      exact hsafe old hold

/-- **Every stored agent can be shown along a display-safe run.** -/
theorem displayable_run (d : Deps) (s : Settings) (w : World) (hrows : w.db.agents.rows = [])
    (steps : List ServiceStep) (hsafe : Along (serviceStep d s) (DisplaySafe d) w steps) :
    Displayable s (run (serviceStep d s) w steps) := by
  have hstart : DisplayInv w := fun a ha => absurd (hrows ▸ ha) List.not_mem_nil
  have hinv := run_inv (DisplayInv.step (d := d) (s := s)) steps hstart hsafe
  exact fun a ha => (hinv a ha).toAgentResponse_ok s

/-- Two replicas, one more, and a tick that sees the three. -/
theorem displayable_create_scale_tick :
    Displayable {} (run (serviceStep .transparent {}) freeWorld
      [.call .obliging (createWith "a" "0000aaaa" 2 (by decide)),
        .call .obliging (scaleBy "a" .up), .tick .obliging none 0 false]) := by
  refine displayable_run .transparent {} freeWorld rfl _ ⟨?_, ?_, ?_, trivial⟩
  · intro _ _ c hc
    obtain rfl := Option.some.inj hc
    refine ⟨by decide, fun _ started left h => ?_⟩
    obtain ⟨env, hout⟩ := startContainers_ok h
    have hlen := (Runtime.obliging_exact.deploy _ _ _ (congrArg Prod.fst hout)).1
    rw [hlen]
    show ReplicasOk 2
    decide
  · intro a ha _
    exact ⟨by decide +kernel, fun h => absurd h (by decide +kernel)⟩
  · intro a ha health hh
    obtain rfl : _ = health := Except.ok.inj hh
    revert a
    decide +kernel

/-- **An agent whose containers are gone cannot be shown.** It runs one replica; a tick whose
health check lists no containers stores `replicas = 0`, which the schema refuses. -/
theorem stoppedAgent_undisplayable :
    ∃ steps : List ServiceStep, freeWorld.db.agents.rows = [] ∧
      ¬ Displayable {} (run (serviceStep .transparent {}) freeWorld steps) := by
  refine ⟨[.call .obliging (createWith "a" "0000aaaa" 1 (by decide)),
    .tick { Runtime.obliging with healthCheck := fun _ _ => .ok { containers := some [] } }
      none 0 false], rfl, ?_⟩
  decide +kernel

end Gateway
