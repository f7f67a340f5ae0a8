import Gateway.Agents.Environment

/-!
# Masked rows

`masked` puts `***` for the value of a secret, as `_env_from_storage_masked` does. It is all of an
environment that `to_agent_response` reads (`toAgentResponse_masked`). Each writer of an
environment has a lemma that its masked result depends on masked arguments only, whatever the
cipher (`masked_applyDeployConfig`, `masked_newAgent`), and so has what a deploy or a scale does to
its agent (`masked_deployLocal`, `masked_scaleLocal`).
-/

namespace Gateway

open Lib

/-! ## Masking -/

/-- A stored entry with a secret's value masked. -/
def EnvEntry.masked (e : EnvEntry) : EnvEntry :=
  { e with value := if e.secret then secretMask else e.value }

/-- A variable with a secret's value masked. -/
def EnvVar.masked (v : EnvVar) : EnvVar :=
  { v with value := if v.secret then secretMask else v.value }

/-- A config with its secrets masked. -/
def DeployConfig.masked (c : DeployConfig) : DeployConfig :=
  { c with env := c.env.map EnvVar.masked }

/-- A row with its secrets masked. -/
def Agent.masked (a : Agent) : Agent := { a with env := a.env.map EnvEntry.masked }

/-- Rows that agree once masked differ in their environments only. -/
theorem Agent.eq_of_masked {a a' : Agent} (h : a.masked = a'.masked) :
    ∃ env, a' = { a with env := env } ∧ a.env.map EnvEntry.masked = env.map EnvEntry.masked :=
  ⟨a'.env, (congrArg (fun x : Agent => { x with env := a'.env }) h).symm, congrArg Agent.env h⟩

theorem DeployConfig.eq_of_masked {c c' : DeployConfig} (h : c.masked = c'.masked) :
    ∃ env, c' = { c with env := env } ∧ c.env.map EnvVar.masked = env.map EnvVar.masked :=
  ⟨c'.env, (congrArg (fun x : DeployConfig => { x with env := c'.env }) h).symm,
    congrArg DeployConfig.env h⟩

theorem envFromStorageMasked_masked (env : List EnvEntry) :
    envFromStorageMasked (env.map EnvEntry.masked) = envFromStorageMasked env := by
  have hvar : ∀ e : EnvEntry, maskedVar e.masked = maskedVar e := by
    intro e
    cases hs : e.secret <;> simp [maskedVar, EnvEntry.masked, hs]
  unfold envFromStorageMasked
  rw [List.mapM_map]
  simp only [Function.comp_def, hvar]

/-- **What a response shows is read off the masked row.** -/
theorem toAgentResponse_masked (s : Settings) (a : Agent) :
    toAgentResponse s a.masked = toAgentResponse s a := by
  have hconfig : deployConfigFromAgent a.masked = deployConfigFromAgent a := by
    have henv : envFromStorageMasked a.masked.env = envFromStorageMasked a.env :=
      envFromStorageMasked_masked a.env
    unfold deployConfigFromAgent
    rw [henv]
    rfl
  unfold toAgentResponse
  rw [hconfig]
  rfl

/-! ## The writers -/

section Writers

variable {a a' : Agent} {c c' : DeployConfig}

theorem masked_envToStorage (d : Deps) (r : Draws) (env : List EnvVar) :
    (envToStorage d r env).map EnvEntry.masked =
      (env.map EnvVar.masked).map fun v => ⟨v.key, v.value, v.secret⟩ := by
  rw [List.map_map]
  refine map_envToStorage d r (fun n v => ?_) env
  cases hs : v.secret <;> simp [storedVar, EnvEntry.masked, EnvVar.masked, hs]

theorem keys_envToStorage (d : Deps) (r : Draws) (env : List EnvVar) :
    (envToStorage d r env).map EnvEntry.key = (env.map EnvVar.masked).map EnvVar.key := by
  rw [List.map_map]
  exact map_envToStorage d r (fun _ _ => rfl) env

/-- Entries chosen by their keys are the masked entries chosen so. -/
theorem masked_filter (P : String → Bool) (env : List EnvEntry) :
    (env.filter fun e => P e.key).map EnvEntry.masked =
      (env.map EnvEntry.masked).filter fun e => P e.key := by
  rw [List.filter_map]
  rfl

theorem masked_applyDeployConfig (d d' : Deps) (r r' : Draws) (ha : a.masked = a'.masked)
    (hc : c.masked = c'.masked) :
    (applyDeployConfig d r a c).masked = (applyDeployConfig d' r' a' c').masked := by
  obtain ⟨env, rfl, henv⟩ := Agent.eq_of_masked ha
  obtain ⟨cenv, rfl, hcenv⟩ := DeployConfig.eq_of_masked hc
  have hkeys : (envToStorage d r c.env).map EnvEntry.key =
      (envToStorage d' r' cenv).map EnvEntry.key := by
    rw [keys_envToStorage, keys_envToStorage, hcenv]
  have hall : (applyDeployConfig d r a c).env.map EnvEntry.masked =
      (applyDeployConfig d' r' { a with env := env } { c with env := cenv }).env.map
        EnvEntry.masked := by
    show (envToStorage d r c.env ++ a.env.filter fun e =>
        e.key ∈ providerKeyNames ∧ e.key ∉ (envToStorage d r c.env).map EnvEntry.key).map _ =
      (envToStorage d' r' cenv ++ env.filter fun e =>
        e.key ∈ providerKeyNames ∧ e.key ∉ (envToStorage d' r' cenv).map EnvEntry.key).map _
    rw [List.map_append, List.map_append, masked_envToStorage, masked_envToStorage, hcenv, hkeys,
      masked_filter
        (fun k => k ∈ providerKeyNames ∧ k ∉ (envToStorage d' r' cenv).map EnvEntry.key),
      masked_filter
        (fun k => k ∈ providerKeyNames ∧ k ∉ (envToStorage d' r' cenv).map EnvEntry.key),
      henv]
  exact congrArg (fun l => { (applyDeployConfig d r a c) with env := l }) hall

theorem masked_withProviderKey (d : Deps) (f : Fernet) (r r' : Draws) {env env' : List EnvEntry}
    (henv : env.map EnvEntry.masked = env'.map EnvEntry.masked) (model k k' : String) :
    (withProviderKey d r env model k).map EnvEntry.masked =
      (withProviderKey { d with fernet := f } r' env' model k').map EnvEntry.masked := by
  unfold withProviderKey
  simp only [List.map_append]
  rw [masked_filter (fun x => x ≠ providerKeyEnv (d.forModel model)),
    masked_filter (fun x => x ≠ providerKeyEnv (d.forModel model)), henv]
  rfl

theorem masked_keyed (d : Deps) (f : Fernet) (r r' : Draws) (ha : a.masked = a'.masked)
    (model k k' : String) :
    { a with env := withProviderKey d r a.env model k }.masked =
      { a' with env := withProviderKey { d with fernet := f } r' a'.env model k' }.masked := by
  obtain ⟨env, rfl, henv⟩ := Agent.eq_of_masked ha
  exact congrArg (fun l => { a with env := l }) (masked_withProviderKey d f r r' henv model k k')

theorem masked_deployedRow (d d' : Deps) (r r' : Draws) (ha : a.masked = a'.masked)
    {config config' : Option DeployConfig}
    (hc : config.map DeployConfig.masked = config'.map DeployConfig.masked) :
    (deployedRow d r a config).masked = (deployedRow d' r' a' config').masked := by
  cases config with
  | none =>
    cases config' with
    | none => exact ha
    | some c' => cases hc
  | some c =>
    cases config' with
    | none => cases hc
    | some c' => exact masked_applyDeployConfig d d' r r' ha (Option.some.inj hc)

/-- Bodies that differ only in secret values and in non-empty `api_key`s. -/
structure AgentConfigIn.Alike (b b' : AgentConfigIn) : Prop where
  rest : b' = { b with apiKey := b'.apiKey, deploy := b'.deploy }
  deploy : (b.deploy.map fun c => c.1.masked) = b'.deploy.map fun c => c.1.masked
  apiKey : b.apiKey = b'.apiKey ∨
    ∃ k k', k ≠ "" ∧ k' ≠ "" ∧ b.apiKey = some k ∧ b'.apiKey = some k'

theorem masked_newAgent (d : Deps) (f : Fernet) {r r' : Draws} (hnow : r.now = r'.now) (u : UserId)
    {b b' : AgentConfigIn} (h : b.Alike b') (newId : AgentId) (suffix : List Char) :
    (newAgent d r u b newId suffix).masked =
      (newAgent { d with fernet := f } r' u b' newId suffix).masked := by
  obtain ⟨hrest, hdeploy, hkey⟩ := h
  generalize b'.apiKey = key' at hrest hkey
  generalize b'.deploy = deploy' at hrest hdeploy
  subst hrest
  have hblank : blankAgent d r u b newId suffix = blankAgent d r' u b newId suffix := by
    unfold blankAgent
    rw [hnow]
  have hconfig : (b.deploy.elim (blankAgent d r u b newId suffix) fun c =>
        applyDeployConfig d r (blankAgent d r u b newId suffix) c.1).masked =
      (deploy'.elim (blankAgent d r' u b newId suffix) fun c =>
        applyDeployConfig { d with fernet := f } r' (blankAgent d r' u b newId suffix)
          c.1).masked := by
    cases hb : b.deploy with
    | none =>
      cases deploy' with
      | none => exact congrArg Agent.masked hblank
      | some c' =>
        rw [hb] at hdeploy
        cases hdeploy
    | some c =>
      rw [hb] at hdeploy
      cases deploy' with
      | none => cases hdeploy
      | some c' =>
        exact masked_applyDeployConfig d _ r r' (congrArg Agent.masked hblank)
          (Option.some.inj hdeploy)
  have hkeyed : b.apiKey.filter (· ≠ "") = none ∧ key'.filter (· ≠ "") = none ∨
      ∃ k k', b.apiKey.filter (· ≠ "") = some k ∧ key'.filter (· ≠ "") = some k' := by
    rcases hkey with heq | ⟨k, k', hk, hk', hb, rfl⟩
    · rw [← heq]
      cases b.apiKey.filter (· ≠ "") with
      | none => exact Or.inl ⟨rfl, rfl⟩
      | some k => exact Or.inr ⟨k, k, rfl, rfl⟩
    · exact Or.inr ⟨k, k', by simp [hb, hk], by simp [hk']⟩
  unfold newAgent
  rcases hkeyed with ⟨hnone, hnone'⟩ | ⟨k, k', hsome, hsome'⟩
  · simp only [hnone, hnone']
    exact hconfig
  · simp only [hsome, hsome']
    exact masked_keyed d f r r' hconfig b.model k k'

end Writers

/-! ## One deploy, seen from its agent -/

/-- Runtimes with the same outcomes and error texts, whatever the environment they are given, and
the same clock; the nonces may differ. -/
structure Runtime.Alike (rt rt' : Runtime) : Prop where
  deploy : ∀ args args' cs, { args with env := [] } = { args' with env := [] } →
    rt.deploy args cs = rt'.deploy args' cs
  scale : rt.scale = rt'.scale
  now : rt.draws.now = rt'.draws.now

section Deploy

variable {d d' : Deps} {rt rt' : Runtime} {a a' : Agent} (cs : List Container)

theorem startContainers_masked (hrt : rt.Alike rt') (ha : a.masked = a'.masked)
    (henc : SecretsEncrypted d a.env) (henc' : SecretsEncrypted d' a'.env) :
    startContainers d rt a cs = startContainers d' rt' a' cs := by
  obtain ⟨env, rfl, -⟩ := Agent.eq_of_masked ha
  obtain ⟨plain, hplain, -⟩ := envForContainer_get? henc.decrypts
  obtain ⟨plain', hplain', -⟩ := envForContainer_get? henc'.decrypts
  have hsame : rt.deploy (deployArgs a plain) cs =
      rt'.deploy (deployArgs { a with env := env } plain') cs := hrt.deploy _ _ cs rfl
  unfold startContainers
  rw [hplain, hplain']
  simp only [hsame]

theorem masked_deployLocal (hrt : rt.Alike rt') (ha : a.masked = a'.masked)
    {config config' : Option DeployConfig}
    (hc : config.map DeployConfig.masked = config'.map DeployConfig.masked)
    (henc : SecretsEncrypted d (deployedRow d rt.draws a config).env)
    (henc' : SecretsEncrypted d' (deployedRow d' rt'.draws a' config').env) :
    (deployLocal d rt a config cs).1.map Agent.masked =
        (deployLocal d' rt' a' config' cs).1.map Agent.masked ∧
      (deployLocal d rt a config cs).2.1.masked = (deployLocal d' rt' a' config' cs).2.1.masked ∧
      (deployLocal d rt a config cs).2.2 = (deployLocal d' rt' a' config' cs).2.2 := by
  have hrow := masked_deployedRow d d' rt.draws rt'.draws ha hc
  have hstart := startContainers_masked cs hrt hrow henc henc'
  unfold deployLocal
  simp only
  generalize deployedRow d rt.draws a config = row at hrow hstart
  generalize deployedRow d' rt'.draws a' config' = row' at hrow hstart
  rw [hstart]
  obtain ⟨env, rfl, henv⟩ := Agent.eq_of_masked hrow
  have hbuild : needsBuild { row with env := env } = needsBuild row := rfl
  rw [hbuild]
  split
  · exact ⟨rfl, hrow, rfl⟩
  · cases startContainers d' rt' { row with env := env } cs with
    | mk res left =>
      cases res with
      | error msg =>
        refine ⟨rfl, ?_, rfl⟩
        exact congrArg (fun l : List EnvEntry =>
          { row with status := .failed, error := some msg, env := l }) henv
      | ok started =>
        have hnew := congrArg (fun l : List EnvEntry =>
          { row with
            status := .running
            replicas := started.length
            error := none
            version := row.version + 1
            env := l }) henv
        exact ⟨congrArg Except.ok hnew, hnew, rfl⟩

theorem masked_scaleLocal (hrt : rt.Alike rt') (ha : a.masked = a'.masked)
    (direction : ScaleDirection) (count : Nat) :
    ((scaleLocal rt a direction count cs).1.map fun out => (out.1.masked, out.2)) =
        ((scaleLocal rt' a' direction count cs).1.map fun out => (out.1.masked, out.2)) ∧
      (scaleLocal rt a direction count cs).2.1.masked =
        (scaleLocal rt' a' direction count cs).2.1.masked ∧
      (scaleLocal rt a direction count cs).2.2 = (scaleLocal rt' a' direction count cs).2.2 := by
  obtain ⟨env, rfl, henv⟩ := Agent.eq_of_masked ha
  unfold scaleLocal
  rw [hrt.scale]
  simp only
  cases rt'.scale a.id direction count cs with
  | mk res left =>
    cases res with
    | error e =>
      cases e with
      | other msg =>
        exact ⟨rfl,
          congrArg (fun l : List EnvEntry => { a with status := .scaling, env := l }) henv, rfl⟩
      | scaling msg =>
        refine ⟨rfl, ?_, rfl⟩
        exact congrArg (fun l : List EnvEntry =>
          { a with status := .failed, error := some msg, env := l }) henv
      | containerNotFound msg =>
        refine ⟨rfl, ?_, rfl⟩
        exact congrArg (fun l : List EnvEntry =>
          { a with status := .failed, error := some msg, env := l }) henv
    | ok _ =>
      have hnew := congrArg (fun l : List EnvEntry =>
        { a with replicas := liveOr left.length a.replicas, status := .running, env := l }) henv
      exact ⟨congrArg (fun x : Agent => Except.ok (x, a.replicas)) hnew, hnew, rfl⟩

end Deploy

end Gateway
