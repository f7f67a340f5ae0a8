import Gateway.Agents.Environment
import Gateway.Agents.Refusals

/-!
# The stored deploy config, read back and sent again

`_apply_deploy_config` flattens a validated config into the columns of a row and
`_deploy_config_from_agent` builds a config from the columns, validating it a second time. The
second validation has every field given, the first may have had `max_replicas` left out, and then
it did not compare the two replica bounds. The environment goes through a mask on the way out, so a
config that is shown and sent again carries `***` where the secrets were, and provider keys as
variables of its own.

* `ReadsBack`: the row a config was applied to shows the config, masked, with the kept provider keys
  behind it. `BoundsCompared`: the request gave `max_replicas`, or `min_replicas` is at most its
  default.
* **`storedConfig_reads_back_iff`**: a stored config reads back exactly when its bounds were
  compared. The stored provider keys must be ones the schema accepts, which those of a reachable row
  are.
* `SameEnvironment`: a redeploy with the shown config and one without a body give the containers the
  same dictionary. **`redeployShown_keeps_environment_iff`**: they do exactly when every stored
  secret decrypts and each one that counts reads `***`.
-/

namespace Gateway

open Lib

/-! ## Reading a stored config back -/

/-- The variables of a config as they are shown: a secret's value is masked. -/
def maskedEnv (env : List EnvVar) : List EnvVar :=
  env.map fun e => { e with value := if e.secret then secretMask else e.value }

theorem map_maskedVar_envToStorage (d : Deps) (r : Draws) (env : List EnvVar) :
    (envToStorage d r env).map maskedVar = maskedEnv env := by
  refine map_envToStorage d r (fun n v => ?_) env
  unfold maskedVar storedVar
  cases v.secret <;> rfl

/-- What a row shows once `c` has been applied to it. -/
def shownConfig (a : Agent) (c : DeployConfig) : DeployConfig :=
  { c with env := maskedEnv c.env ++ (keptEntries a.env c.env).map maskedVar }

theorem configColumns_applyDeployConfig (d : Deps) (r : Draws) (a : Agent) (c : DeployConfig) :
    (applyDeployConfig d r a c).configColumns = shownConfig a c := by
  unfold shownConfig
  rw [← map_maskedVar_envToStorage d r, ← List.map_append, ← applyDeployConfig_env]
  rfl

/-- A config reads back from the row it was applied to, and its replica bounds are in order. -/
def ReadsBack (d : Deps) (r : Draws) (a : Agent) (c : DeployConfig) : Prop :=
  c.minReplicas ≤ c.maxReplicas ∧
    deployConfigFromAgent (applyDeployConfig d r a c) = .ok (shownConfig a c)

/-- The request gave `max_replicas`, or a `min_replicas` the default of `max_replicas` covers. -/
def BoundsCompared (b : DeployBody) : Prop := b.maxReplicas.isSome ∨ b.minReplicas.getD 1 ≤ 10

/-- The replica bounds of an accepted config are in order exactly when they were compared. -/
theorem boundsCompared_iff {b : DeployBody} {c : DeployConfig} (hb : b.validate = .ok c) :
    c.minReplicas ≤ c.maxReplicas ↔ BoundsCompared b := by
  unfold DeployBody.validate at hb
  split at hb
  · rename_i herr
    obtain rfl := Except.ok.inj hb
    simp only [DeployBody.errors, DeployBody.errorsWith, List.append_eq_nil_iff] at herr
    obtain ⟨⟨⟨-, hmin⟩, hmax⟩, -⟩ := herr
    obtain ⟨-, hle⟩ := DeployBody.min_le_max hmin hmax
    show (b.minReplicas.getD 1).toNat ≤ (b.maxReplicas.getD 10).toNat ↔ _
    unfold BoundsCompared
    cases hgiven : b.maxReplicas with
    | some v =>
      refine iff_of_true ?_ (Or.inl rfl)
      rcases hle with hle | hnone
      · rw [hgiven] at hle
        exact Int.toNat_le_toNat hle
      · exact absurd (hgiven.symm.trans hnone) (by simp)
    | none => simp
  · cases hb

/-- A row whose config passed shows it exactly when the bounds are in order and the kept entries can
be shown. -/
theorem readsBack_iff (d : Deps) (r : Draws) (a : Agent) (c : AcceptedConfig) :
    ReadsBack d r a c.1 ↔ c.1.minReplicas ≤ c.1.maxReplicas ∧
      ∀ e ∈ keptEntries a.env c.1.env, (maskedVar e).errors = [] := by
  obtain ⟨hin, -⟩ := DeployConfig.accepted_shape c.2
  have hbody : (deployBody (applyDeployConfig d r a c.1)).errorsWith [] [] = [] ↔
      c.1.minReplicas ≤ c.1.maxReplicas :=
    deployBody_errors_iff (a := applyDeployConfig d r a c.1) hin.replicas hin.minReplicas
      hin.maxReplicas hin.port
  unfold ReadsBack
  rw [deployConfigFromAgent_eq_ok_iff, hbody, configColumns_applyDeployConfig,
    applyDeployConfig_env]
  constructor
  · rintro ⟨hle, -, henv, -, -⟩
    exact ⟨hle, fun e he => henv e (List.mem_append_right _ he)⟩
  · rintro ⟨hle, hkept⟩
    refine ⟨hle, resourcesBody_errors (a := applyDeployConfig d r a c.1) hin.resources, ?_, hle,
      rfl⟩
    intro e he
    rcases List.mem_append.mp he with he | he
    · exact envToStorage_shown d r hin.env e he
    · exact hkept e he

/-! ### Entries of reachable rows -/

/-- Every stored entry can be shown. -/
def EntriesShown (w : World) : Prop := ∀ a ∈ w.db.agents.rows, ∀ e ∈ a.env,
    (maskedVar e).errors = []

section Shown

variable {d : Deps} {w w' : World} {old new : Agent} {cs : List Container}

theorem EntriesShown.rewrites_same (h : EntriesShown w) (hrw : Rewrites w w' old new cs)
    (henv : new.env = old.env) : EntriesShown w' := by
  refine hrw.forall_rows h ?_
  rw [henv]
  exact h old (Table.mem_of_find? hrw.found)

theorem deployedRow_shown (d : Deps) (r : Draws) {a : Agent}
    (h : ∀ e ∈ a.env, (maskedVar e).errors = []) (config : Option AcceptedConfig) :
    ∀ e ∈ (deployedRow d r a (config.map Subtype.val)).env, (maskedVar e).errors = [] := by
  cases config with
  | none => exact h
  | some c => exact applyDeployConfig_shown d r c h

theorem newAgent_shown (d : Deps) (r : Draws) (u : UserId) (body : AgentConfigIn)
    (newId : AgentId) (suffix : List Char) :
    ∀ e ∈ (newAgent d r u body newId suffix).env, (maskedVar e).errors = [] := by
  unfold newAgent
  simp only
  generalize hbase : body.deploy.elim _ _ = base
  have hok : ∀ e ∈ base.env, (maskedVar e).errors = [] := by
    rw [← hbase]
    cases body.deploy with
    | none => exact fun e he => absurd he List.not_mem_nil
    | some c => exact deployedRow_shown d r (fun e he => absurd he List.not_mem_nil) (some c)
  cases body.apiKey.filter (· ≠ "") with
  | none => exact hok
  | some apiKey => exact withProviderKey_shown d r _ _ hok

/-- **One step.** -/
theorem EntriesShown.step (d : Deps) (s : Settings) (w : World) (i : ServiceStep)
    (h : EntriesShown w) : EntriesShown (serviceStep d s w i) := by
  cases i with
  | tick rt elapsed now flushFails =>
    refine tick_inv (P := EntriesShown) (fun h => ?_) (fun w₁ w₂ old new cs _ h _ heff hrw => ?_) h
    · intro a ha
      rw [flushRequests_agents] at ha
      exact h a ha
    · exact h.rewrites_same hrw heff.env
  | call rt c =>
    have heffect := Call.exec_effect d rt w c
    show EntriesShown (c.exec d rt w)
    generalize c.exec d rt w = w' at heffect
    cases heffect with
    | refused => exact h
    | updated ho hrw => exact h.rewrites_same hrw rfl
    | @deployed u id config old new cs w' ho hq heff hrw =>
      refine hrw.forall_rows h ?_
      rw [heff.env]
      exact deployedRow_shown d rt.draws (h old (Table.mem_of_find? hrw.found)) config
    | scaled ho hq heff hrw => exact h.rewrites_same hrw heff.env
    | removeFailed ho hout hrw => exact h.rewrites_same hrw rfl
    | removed ho hout hrem => exact hrem.forall_rows h
    | created hq hins => exact hins.forall_rows h (newAgent_shown _ _ _ _ _ _)
    | createdDeployed hdep hq hins hq₁ heff hrw =>
      have hmid : EntriesShown _ := hins.forall_rows h (newAgent_shown _ _ _ _ _ _)
      exact hmid.rewrites_same hrw heff.env

end Shown

/-- **A stored config reads back exactly when its replica bounds were compared.** Applied to any
agent, an accepted config reads back, masked and with the kept provider keys, if and only if the
request gave `max_replicas` or asked for a `min_replicas` of at most `10`, and the kept entries are
ones the schema accepts. Those of a row that a serial run has stored always are. -/
theorem storedConfig_reads_back_iff (d : Deps) (s : Settings) (b : DeployBody) (c : DeployConfig)
    (hb : b.validate = .ok c) :
    (∀ r a, ReadsBack d r a c ↔
      BoundsCompared b ∧ ∀ e ∈ keptEntries a.env c.env, (maskedVar e).errors = []) ∧
    ∀ w steps, w.db.agents.rows = [] → ∀ a ∈ (run (serviceStep d s) w steps).db.agents.rows,
      ∀ r, (ReadsBack d r a c ↔ BoundsCompared b) := by
  have hiff : ∀ r a, ReadsBack d r a c ↔
      BoundsCompared b ∧ ∀ e ∈ keptEntries a.env c.env, (maskedVar e).errors = [] := by
    intro r a
    rw [readsBack_iff d r a ⟨c, b, hb⟩, boundsCompared_iff hb]
  refine ⟨hiff, fun w steps hw a ha r => ?_⟩
  have hstart : EntriesShown w := fun a ha => absurd (hw ▸ ha) List.not_mem_nil
  have hshown := run_preserves (EntriesShown.step d s) steps hstart
  rw [hiff r a]
  refine and_iff_left fun e he => ?_
  exact hshown a ha e (List.mem_of_mem_filter he)

/-- The body `{"min_replicas": 20}`, to which `max_replicas` is given or not. -/
def minBody (maxReplicas : Option Int) : DeployBody where
  minReplicas := some 20
  maxReplicas := maxReplicas

/-- An agent that was never deployed. -/
def undeployedAgent : Agent where
  id := "a"
  userId := freeUser.id
  slug := "a-0000aaaa"
  name := "a"

/-- With both bounds given the config reads back. -/
theorem storedConfig_reads_back_given :
    ReadsBack .transparent {} undeployedAgent ((minBody (some 30)).build {} []) := by
  have hb : (minBody (some 30)).validate = .ok ((minBody (some 30)).build {} []) := by
    decide +kernel
  refine ((storedConfig_reads_back_iff .transparent {} _ _ hb).1 {} undeployedAgent).mpr
    ⟨Or.inl rfl, ?_⟩
  exact fun e he => absurd he List.not_mem_nil

/-- **A config without `max_replicas` is accepted and does not read back.** -/
theorem storedConfig_unreadable : ∃ (b : DeployBody) (c : DeployConfig), b.validate = .ok c ∧
    ¬ c.minReplicas ≤ c.maxReplicas ∧ deployConfigFromAgent
      (applyDeployConfig .transparent {} undeployedAgent c) ≠
        .ok (shownConfig undeployedAgent c) := by
  refine ⟨minBody none, (minBody none).build {} [], ?_, ?_, ?_⟩
  · decide +kernel
  · decide
  · decide +kernel

/-! ## Sending the shown config again -/

/-- The two redeploys, without a body and with the config `c`, each pass one deploy on to the
runtime, and the two dictionaries agree on every key. -/
def SameEnvironment (d : Deps) (rt : Runtime) (w : World) (u : UserId) (id : AgentId)
    (c : DeployConfig) : Prop :=
  ∃ args args', (deployAgent d rt w u id none).2.calls = w.calls ++ [.deploy args] ∧
    (deployAgent d rt w u id (some c)).2.calls = w.calls ++ [.deploy args'] ∧
    ∀ k, Dict.get? args.env k = Dict.get? args'.env k

/-- Every secret that counts, that is no later entry has its key, reads as the mask. -/
def SecretsAreMasks (d : Deps) (env : List EnvEntry) : Prop :=
  ∀ before e after, env = before ++ e :: after → (∀ x ∈ after, x.key ≠ e.key) → e.secret = true →
    d.fernet.decrypt e.value = some secretMask

/-- The config in a response is made of the agent's columns. -/
theorem toAgentResponse_deploy {s : Settings} {a : Agent} {r : AgentResponse} {c : DeployConfig}
    (hr : toAgentResponse s a = .ok r) (hc : r.deploy = some c) : c = a.configColumns := by
  unfold toAgentResponse at hr
  simp only at hr
  split at hr
  · split at hr
    · rename_i deploy hdeploy
      obtain rfl := Except.ok.inj hr
      obtain rfl := Option.some.inj hc
      exact (deployConfigFromAgent_eq_ok_iff.mp hdeploy).2.2.2
    · cases hr
  · obtain rfl := Except.ok.inj hr
    cases hc

/-- Every stored key is shown, so a shown config redefines them all. -/
theorem keptEntries_shown (env : List EnvEntry) : keptEntries env (env.map maskedVar) = [] := by
  unfold keptEntries
  rw [List.filter_eq_nil_iff]
  intro e he h
  rw [decide_eq_true_eq] at h
  refine h.2 (List.mem_map.mpr ⟨maskedVar e, List.mem_map_of_mem he, rfl⟩)

/-- The environment a shown config leaves, and what it reads as. -/
theorem env_configColumns (d : Deps) (r : Draws) (a : Agent) :
    (applyDeployConfig d r a a.configColumns).env = envToStorage d r (a.env.map maskedVar) := by
  rw [applyDeployConfig_env]
  show envToStorage d r (a.env.map maskedVar) ++ keptEntries a.env (a.env.map maskedVar) = _
  rw [keptEntries_shown, List.append_nil]

theorem storedValue_configColumns (d : Deps) (r : Draws) (a : Agent) (k : String) :
    storedValue d (applyDeployConfig d r a a.configColumns).env k =
      Dict.last EnvEntry.key (fun e => (maskedVar e).value) a.env k := by
  rw [env_configColumns, storedValue_envToStorage]
  unfold sentValue
  rw [Dict.last_map]
  rfl

/-- The stored values and the shown ones agree on every key exactly when the secrets that count are
masks already. -/
theorem storedValue_eq_shown_iff {d : Deps} {env : List EnvEntry} (hdec : SecretsDecrypt d env) :
    (∀ k, storedValue d env k = Dict.last EnvEntry.key (fun e => (maskedVar e).value) env k) ↔
      SecretsAreMasks d env := by
  unfold storedValue SecretsAreMasks
  rw [Dict.last_congr_iff]
  refine forall_congr' fun before => forall_congr' fun e => forall_congr' fun after =>
    forall_congr' fun hsplit => forall_congr' fun _ => ?_
  unfold plainValue maskedVar
  cases hs : e.secret with
  | false => simp
  | true =>
    obtain ⟨v, hv⟩ := hdec e (by rw [hsplit]; simp) hs
    simp [hv]

section Redeploy

variable {d : Deps} {w : World} {u : UserId} {id : AgentId} {a : Agent}

/-- A deploy past its checks passes one call on to the runtime if the secrets decrypt, and none
otherwise. -/
theorem deployAgent_calls_iff (rt : Runtime) {deploy : Option DeployConfig}
    (ho : w.db.ownedAgent? u id = some a) (hq : deployQuota d w.db a deploy = .ok ())
    (hbuild : needsBuild (deployedRow d rt.draws a deploy) = false) (args : DeployArgs) :
    (deployAgent d rt w u id deploy).2.calls = w.calls ++ [.deploy args] ↔
      ∃ env, envForContainer d (deployedRow d rt.draws a deploy).env = .ok env ∧
        args = deployArgs (deployedRow d rt.draws a deploy) env := by
  rw [(deployAgent_local rt ho hq).2.2, List.append_cancel_left_eq]
  unfold deployCallsOf deployCalls
  rw [hbuild]
  cases envForContainer d (deployedRow d rt.draws a deploy).env with
  | error msg => simp
  | ok env => simp [eq_comm]

/-- **Redeploying what was shown keeps the environment exactly when there is no secret to lose.**
For an agent whose response carries a config, and whose redeploy would reach the runtime, the config
sent back gives the containers the dictionary that a deploy without a body gives if and only if
every stored secret decrypts and each one that counts is the text `***`. -/
theorem redeployShown_keeps_environment_iff (s : Settings) (rt : Runtime)
    (ho : w.db.ownedAgent? u id = some a) (hq : deployQuota d w.db a none = .ok ())
    (hbuild : needsBuild a = false) {r : AgentResponse} {c : DeployConfig}
    (hr : toAgentResponse s a = .ok r) (hc : r.deploy = some c) :
    SameEnvironment d rt w u id c ↔ SecretsDecrypt d a.env ∧ SecretsAreMasks d a.env := by
  obtain rfl := toAgentResponse_deploy hr hc
  have hq' : deployQuota d w.db a (some a.configColumns) = .ok () := hq
  have hbuild' : needsBuild (deployedRow d rt.draws a (some a.configColumns)) = false := hbuild
  have henc : SecretsEncrypted d (deployedRow d rt.draws a (some a.configColumns)).env := by
    show SecretsEncrypted d (applyDeployConfig d rt.draws a a.configColumns).env
    rw [env_configColumns]
    exact secretsEncrypted_envToStorage d _ _
  obtain ⟨plain', hplain', hget'⟩ := envForContainer_get? henc.decrypts
  constructor
  · rintro ⟨args, args', hcalls, hcalls', hsame⟩
    obtain ⟨env, henv, rfl⟩ := (deployAgent_calls_iff rt ho hq hbuild args).mp hcalls
    obtain ⟨env', henv', rfl⟩ := (deployAgent_calls_iff rt ho hq' hbuild' args').mp hcalls'
    have hdec : SecretsDecrypt d a.env := .of_ok henv
    obtain ⟨plain, hplain, hget⟩ := envForContainer_get? hdec
    obtain rfl : plain = env := Except.ok.inj (hplain.symm.trans henv)
    obtain rfl : plain' = env' := Except.ok.inj (hplain'.symm.trans henv')
    refine ⟨hdec, (storedValue_eq_shown_iff hdec).mp fun k => ?_⟩
    calc storedValue d a.env k = Dict.get? plain k := (hget k).symm
      _ = Dict.get? plain' k := hsame k
      _ = storedValue d (applyDeployConfig d rt.draws a a.configColumns).env k := hget' k
      _ = _ := storedValue_configColumns d rt.draws a k
  · rintro ⟨hdec, hmasks⟩
    obtain ⟨plain, hplain, hget⟩ := envForContainer_get? hdec
    refine ⟨_, _, (deployAgent_calls_iff rt ho hq hbuild _).mpr ⟨plain, hplain, rfl⟩,
      (deployAgent_calls_iff rt ho hq' hbuild' _).mpr ⟨plain', hplain', rfl⟩, fun k => ?_⟩
    have hread := (storedValue_eq_shown_iff hdec).mpr hmasks k
    rw [← storedValue_configColumns d rt.draws] at hread
    exact (hget k).trans (hread.trans (hget' k).symm)

end Redeploy

/-- The gateway after an agent was created with a secret variable and an `api_key`. -/
def keyedWorld : World := serviceStep .transparent {} freeWorld (createKeyed "sk-1")

/-- A config with a plain variable and a secret one that reads `***` itself. -/
def maskedConfig : AcceptedConfig where
  val :=
    { image := some "nginx"
      env := [⟨"MODE", "fast", false⟩, ⟨"TOKEN", "***", true⟩] }
  property :=
    ⟨{ image := some "nginx"
       env := some [⟨"MODE", "fast", false⟩, ⟨"TOKEN", "***", true⟩] }, rfl⟩

/-- The gateway after an agent was created with it. -/
def unkeyedWorld : World := createdWorld maskedConfig

theorem exists_shown_config {s : Settings} {a : Agent}
    (h : ((toAgentResponse s a).toOption.bind AgentResponse.deploy).isSome) :
    ∃ r c, toAgentResponse s a = .ok r ∧ r.deploy = some c := by
  cases hr : toAgentResponse s a with
  | error es =>
    rw [hr] at h
    cases h
  | ok r =>
    rw [hr] at h
    obtain ⟨c, hc⟩ := Option.isSome_iff_exists.mp h
    exact ⟨r, c, rfl, hc⟩

/-- With no secret to lose the two variables stay what they are. -/
theorem redeployShown_without_secrets : ∃ a r c,
    unkeyedWorld.db.ownedAgent? freeUser.id "a" = some a ∧ a.env.length = 2 ∧
      toAgentResponse {} a = .ok r ∧ r.deploy = some c ∧
      SameEnvironment .transparent .obliging unkeyedWorld freeUser.id "a" c := by
  have hagent : ∃ a, unkeyedWorld.db.ownedAgent? freeUser.id "a" = some a ∧ a.env.length = 2 ∧
      ((toAgentResponse {} a).toOption.bind AgentResponse.deploy).isSome ∧
      deployQuota .transparent unkeyedWorld.db a none = .ok () ∧ needsBuild a = false ∧
      ∀ e ∈ a.env, e.secret = true →
        Deps.transparent.fernet.decrypt e.value = some secretMask := by
    refine ⟨(unkeyedWorld.db.ownedAgent? freeUser.id "a").get (by decide +kernel), ?_⟩
    decide +kernel
  obtain ⟨a, ho, hlen, hshown, hq, hbuild, hmasks⟩ := hagent
  obtain ⟨r, c, hr, hc⟩ := exists_shown_config hshown
  refine ⟨a, r, c, ho, hlen, hr, hc, ?_⟩
  refine (redeployShown_keeps_environment_iff {} .obliging ho hq hbuild hr hc).mpr ⟨?_, ?_⟩
  · exact fun e he hs => ⟨_, hmasks e he hs⟩
  · intro before e after hsplit _ hs
    exact hmasks e (by rw [hsplit]; simp) hs

/-- **Redeploying what was shown overwrites the secrets.** The variable `TOKEN` and the provider key
given at creation both become `***`. -/
theorem redeployShown_overwrites_secrets : ∃ a r c,
    keyedWorld.db.ownedAgent? freeUser.id "a" = some a ∧ toAgentResponse {} a = .ok r ∧
      r.deploy = some c ∧
      ¬ SameEnvironment .transparent .obliging keyedWorld freeUser.id "a" c := by
  have hagent : ∃ a, keyedWorld.db.ownedAgent? freeUser.id "a" = some a ∧
      ((toAgentResponse {} a).toOption.bind AgentResponse.deploy).isSome ∧
      (deployAgent .transparent .obliging keyedWorld freeUser.id "a" none).2.calls.getLast? =
        some (.deploy (deployArgs a [("TOKEN", "t-1"), ("OPENAI_API_KEY", "sk-1")])) ∧
      (deployAgent .transparent .obliging keyedWorld freeUser.id "a"
        (some a.configColumns)).2.calls.getLast? =
        some (.deploy (deployArgs a [("TOKEN", "***"), ("OPENAI_API_KEY", "***")])) := by
    refine ⟨(keyedWorld.db.ownedAgent? freeUser.id "a").get (by decide +kernel), ?_⟩
    decide +kernel
  obtain ⟨a, ho, hshown, hkept, hlost⟩ := hagent
  obtain ⟨r, c, hr, hc⟩ := exists_shown_config hshown
  obtain rfl := toAgentResponse_deploy hr hc
  refine ⟨a, r, _, ho, hr, hc, ?_⟩
  rintro ⟨args, args', hcalls, hcalls', hsame⟩
  rw [hcalls, List.getLast?_concat] at hkept
  rw [hcalls', List.getLast?_concat] at hlost
  obtain rfl : args = _ := RuntimeCall.deploy.inj (Option.some.inj hkept)
  obtain rfl : args' = _ := RuntimeCall.deploy.inj (Option.some.inj hlost)
  have hkey : Dict.get? [("TOKEN", "t-1"), ("OPENAI_API_KEY", "sk-1")] "OPENAI_API_KEY" =
      Dict.get? [("TOKEN", "***"), ("OPENAI_API_KEY", "***")] "OPENAI_API_KEY" :=
    hsame "OPENAI_API_KEY"
  exact absurd hkey (by decide)

end Gateway
