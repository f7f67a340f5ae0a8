import Gateway.Agents.System

/-!
# The environment of the containers over redeploys

The stored environment is a list in which the last entry of a key counts, some of its values
encrypted. A new config replaces it, but for the provider keys it does not define; the key given at
creation is put in by `_with_provider_key`. `storedValue` reads the list the way a container will,
and each of the three writers has its equation for it (`storedValue_envToStorage`,
`storedValue_applyDeployConfig`, `storedValue_withProviderKey`).

A run keeps, next to the world, the body each agent was created with and the configs applied to it
since, the newest first. `expectedValue` reads a value off that history.

* `EnvInv`: every stored list reads as its history says, and its secrets are ciphertexts.
* **`container_env`**: so does the dictionary every deploy passes to the runtime, whatever calls and
  ticks came before, and no stored secret fails to decrypt.
* **`emptyApiKey_absent`**: an empty `api_key` counts as none.
-/

namespace Gateway

open Lib

/-! ## Reading a stored environment -/

/-- The value of an entry as a container gets it. -/
def plainValue (d : Deps) (e : EnvEntry) : String :=
  if e.secret then (d.fernet.decrypt e.value).getD "" else e.value

/-- The value a stored environment gives a key. -/
def storedValue (d : Deps) (env : List EnvEntry) (k : String) : Option String :=
  Dict.last EnvEntry.key (plainValue d) env k

/-- The value of the last entry under a key in a config. -/
def sentValue (env : List EnvVar) (k : String) : Option String :=
  Dict.last EnvVar.key EnvVar.value env k

/-- Every entry flagged secret can be decrypted. -/
def SecretsDecrypt (d : Deps) (env : List EnvEntry) : Prop :=
  ∀ e ∈ env, e.secret = true → ∃ v, d.fernet.decrypt e.value = some v

/-- Every entry flagged secret holds an output of `encrypt_secret`. -/
def SecretsEncrypted (d : Deps) (env : List EnvEntry) : Prop :=
  ∀ e ∈ env, e.secret = true → ∃ n v, e.value = d.fernet.encrypt n v

section Stored

variable {d : Deps} {env : List EnvEntry}

theorem SecretsEncrypted.decrypts (h : SecretsEncrypted d env) : SecretsDecrypt d env := by
  intro e he hs
  obtain ⟨n, v, hv⟩ := h e he hs
  exact ⟨v, by rw [hv, d.fernet.decrypt_encrypt]⟩

theorem envForContainer_eq (h : SecretsDecrypt d env) :
    envForContainer d env =
      .ok (env.foldl (fun plain e => Dict.set plain e.key (plainValue d e)) []) := by
  unfold envForContainer
  generalize ([] : Dict String String) = plain
  induction env generalizing plain with
  | nil => rfl
  | cons e env ih =>
    have hrest : SecretsDecrypt d env := fun x hx => h x (List.mem_cons_of_mem e hx)
    rw [List.foldlM_cons, List.foldl_cons]
    have hstep : plainValue d e = if e.secret then (d.fernet.decrypt e.value).getD "" else
      e.value := rfl
    cases hs : e.secret with
    | true =>
      obtain ⟨v, hv⟩ := h e List.mem_cons_self hs
      rw [hs, hv] at hstep
      simp only [hv, if_true, hstep, Option.getD_some]
      exact ih hrest _
    | false =>
      rw [hs] at hstep
      simp only [Bool.false_eq_true, if_false, hstep]
      exact ih hrest _

/-- **What a container gets**: a dictionary that reads as the stored environment does. -/
theorem envForContainer_get? (h : SecretsDecrypt d env) :
    ∃ plain, envForContainer d env = .ok plain ∧ ∀ k, Dict.get? plain k = storedValue d env k := by
  refine ⟨_, envForContainer_eq h, fun k => ?_⟩
  rw [Dict.get?_foldl_set]
  exact Option.or_none

/-- A container gets an environment only if every secret decrypts. -/
theorem SecretsDecrypt.of_ok {plain : Dict String String}
    (h : envForContainer d env = .ok plain) : SecretsDecrypt d env := by
  unfold envForContainer at h
  generalize ([] : Dict String String) = start at h
  induction env generalizing start with
  | nil => exact fun e he => absurd he List.not_mem_nil
  | cons e env ih =>
    rw [List.foldlM_cons] at h
    intro x hx hs
    rcases List.mem_cons.mp hx with rfl | hx
    · cases hv : d.fernet.decrypt x.value with
      | some v => exact ⟨v, rfl⟩
      | none =>
        simp only [hs, hv, if_true] at h
        cases h
    · revert h
      split
      · split
        · exact fun h => ih _ h x hx hs
        · exact fun h => by cases h
      · exact fun h => ih _ h x hx hs

end Stored

/-! ## The three writers -/

section Writers

variable {d : Deps}

theorem secretsEncrypted_envToStorage (d : Deps) (r : Draws) (env : List EnvVar) :
    SecretsEncrypted d (envToStorage d r env) := by
  intro e he hs
  obtain ⟨n, v, -, rfl⟩ := mem_envToStorage he
  exact ⟨n, v.value, if_pos hs⟩

/-- A container gets a stored variable as it was sent. -/
theorem plainValue_storedVar (d : Deps) (n : Nonce) (v : EnvVar) :
    plainValue d (storedVar d n v) = v.value := by
  unfold plainValue storedVar
  cases v.secret with
  | false => rfl
  | true =>
    simp only [if_true, d.fernet.decrypt_encrypt]
    rfl

theorem storedValue_envToStorage (d : Deps) (r : Draws) (env : List EnvVar) (k : String) :
    storedValue d (envToStorage d r env) k = sentValue env k := by
  have hpairs : (envToStorage d r env).map (fun e => (e.key, plainValue d e)) =
      env.map fun v => (v.key, v.value) :=
    map_envToStorage d r (fun n v => by rw [plainValue_storedVar]; rfl) env
  calc storedValue d (envToStorage d r env) k
      = Dict.last Prod.fst Prod.snd ((envToStorage d r env).map fun e =>
          (e.key, plainValue d e)) k :=
      (Dict.last_map Prod.fst Prod.snd (fun e : EnvEntry => (e.key, plainValue d e)) _ k).symm
    _ = Dict.last Prod.fst Prod.snd (env.map fun v => (v.key, v.value)) k := by rw [hpairs]
    _ = sentValue env k := Dict.last_map Prod.fst Prod.snd (fun v => (v.key, v.value)) env k

theorem secretsEncrypted_applyDeployConfig {a : Agent} (h : SecretsEncrypted d a.env) (r : Draws)
    (c : DeployConfig) : SecretsEncrypted d (applyDeployConfig d r a c).env := by
  intro e he
  rcases List.mem_append.mp he with he | he
  · exact secretsEncrypted_envToStorage d r c.env e he
  · exact h e (List.mem_of_mem_filter he)

/-- A new config counts for every key but the provider keys it does not define. -/
theorem storedValue_applyDeployConfig (d : Deps) (r : Draws) (a : Agent) (c : DeployConfig)
    (k : String) : storedValue d (applyDeployConfig d r a c).env k =
      if k ∈ providerKeyNames then (sentValue c.env k).or (storedValue d a.env k)
      else sentValue c.env k := by
  show storedValue d (envToStorage d r c.env ++ a.env.filter fun e =>
    e.key ∈ providerKeyNames ∧ e.key ∉ (envToStorage d r c.env).map EnvEntry.key) k = _
  unfold storedValue
  rw [Dict.last_append, ← storedValue_envToStorage d r]
  unfold storedValue
  cases hnew : Dict.last EnvEntry.key (plainValue d) (envToStorage d r c.env) k with
  | some v =>
    -- Defined anew: nothing under this key is kept.
    have hredefined : k ∈ (envToStorage d r c.env).map EnvEntry.key := by
      by_contra hk
      refine absurd ((Dict.last_eq_none_iff EnvEntry.key (plainValue d)).mpr fun e he hek => hk ?_)
        (by rw [hnew]; simp)
      exact List.mem_map.mpr ⟨e, he, hek⟩
    have hkept : Dict.last EnvEntry.key (plainValue d) (a.env.filter fun e =>
        e.key ∈ providerKeyNames ∧ e.key ∉ (envToStorage d r c.env).map EnvEntry.key) k = none := by
      rw [Dict.last_eq_none_iff]
      intro e he hek
      have hnot := (List.mem_filter.mp he).2
      simp only [hek, decide_eq_true_eq] at hnot
      exact hnot.2 hredefined
    rw [hkept]
    simp
  | none =>
    have hfresh := (Dict.last_eq_none_iff EnvEntry.key (plainValue d)).mp hnew
    rw [Option.or_none, Option.none_or]
    split_ifs with hprov
    · refine Dict.last_filter _ _ fun e _ hek => ?_
      rw [decide_eq_true_eq, hek]
      refine ⟨hprov, fun hmem => ?_⟩
      obtain ⟨x, hx, hxk⟩ := List.mem_map.mp hmem
      exact hfresh x hx hxk
    · rw [Dict.last_eq_none_iff]
      intro e he hek
      have hnot := (List.mem_filter.mp he).2
      simp only [hek, decide_eq_true_eq] at hnot
      exact hprov hnot.1

theorem secretsEncrypted_deployedRow {a : Agent} (h : SecretsEncrypted d a.env) (r : Draws)
    (config : Option DeployConfig) : SecretsEncrypted d (deployedRow d r a config).env := by
  cases config with
  | none => exact h
  | some c => exact secretsEncrypted_applyDeployConfig h r c

theorem secretsEncrypted_withProviderKey {env : List EnvEntry} (h : SecretsEncrypted d env)
    (r : Draws) (model apiKey : String) :
    SecretsEncrypted d (withProviderKey d r env model apiKey) := by
  intro e he
  rcases List.mem_append.mp he with he | he
  · exact h e (List.mem_of_mem_filter he)
  · obtain rfl := List.mem_singleton.mp he
    exact fun _ => ⟨r.nonce env.length, apiKey, rfl⟩

/-- The key given at creation counts for its provider's name. -/
theorem storedValue_withProviderKey (d : Deps) (r : Draws) (env : List EnvEntry)
    (model apiKey k : String) : storedValue d (withProviderKey d r env model apiKey) k =
      if k = providerKeyEnv (d.forModel model) then some apiKey else storedValue d env k := by
  unfold storedValue withProviderKey
  rw [Dict.last_append]
  simp only [Dict.last, Option.none_or, plainValue, if_true, d.fernet.decrypt_encrypt,
    Option.getD_some]
  by_cases hk : k = providerKeyEnv (d.forModel model)
  · simp [hk]
  · rw [if_neg (fun e => hk e.symm), Option.none_or, if_neg hk]
    refine Dict.last_filter _ _ fun e _ hek => ?_
    simpa [hek] using hk

end Writers

/-! ## The history of an agent's environment -/

/-- The body an agent was created with and the configs applied to it since, the newest first. -/
structure EnvHistory where
  created : AgentConfigIn
  applied : List DeployConfig := []

/-- The `api_key` of the creation that `create_agent` acts on: `if body.api_key`. -/
def EnvHistory.apiKey (h : EnvHistory) : Option String := h.created.apiKey.filter (· ≠ "")

/-- What the creation config gave a key. -/
def EnvHistory.atCreation (h : EnvHistory) (k : String) : Option String :=
  h.created.deploy.bind fun c => sentValue c.1.env k

/-- The value a key has after the history, the creation key being `apiKey`: for a provider key that
of the newest config to define it, else the creation key under its own name, else that of the
creation config; for any other key that of the newest config. -/
def expectedValue (d : Deps) (apiKey : Option String) (h : EnvHistory) (k : String) :
    Option String :=
  if k ∈ providerKeyNames then
    match h.applied.findSome? fun c => sentValue c.env k with
    | some v => some v
    | none =>
      if k = providerKeyEnv (d.forModel h.created.model) then apiKey.or (h.atCreation k)
      else h.atCreation k
  else
    match h.applied with
    | [] => h.atCreation k
    | c :: _ => sentValue c.env k

theorem expectedValue_cons (d : Deps) (apiKey : Option String) (h : EnvHistory) (c : DeployConfig)
    (k : String) :
    expectedValue d apiKey { h with applied := c :: h.applied } k =
      if k ∈ providerKeyNames then (sentValue c.env k).or (expectedValue d apiKey h k)
      else sentValue c.env k := by
  unfold expectedValue
  by_cases hk : k ∈ providerKeyNames
  · simp only [if_pos hk, List.findSome?_cons]
    cases sentValue c.env k <;> rfl
  · simp only [if_neg hk]

theorem providerKeyEnv_mem (p : LLMProvider) : providerKeyEnv p ∈ providerKeyNames := by
  cases p <;> simp [providerKeyNames]

section New

variable (d : Deps) (r : Draws) (u : UserId) (body : AgentConfigIn) (newId : AgentId)
  (suffix : List Char)

/-- The row `create_agent` starts from. -/
def blankAgent : Agent where
  id := newId
  slug := newSlug d body.name suffix
  userId := u
  name := body.name
  runtime := body.runtime
  framework := body.framework
  model := body.model
  systemPrompt := body.systemPrompt
  tags := body.tags
  agentMetadata := body.metadata
  access := body.access
  createdAt := r.now

/-- The environment `create_agent` stores before it looks at `api_key`. -/
theorem newAgent_env : ∃ env, SecretsEncrypted d env ∧
    (∀ k, storedValue d env k = EnvHistory.atCreation ⟨body, []⟩ k) ∧
    (newAgent d r u body newId suffix).env =
      (body.apiKey.filter (· ≠ "")).elim env (withProviderKey d r env body.model) := by
  unfold newAgent EnvHistory.atCreation
  simp only
  cases hdep : body.deploy with
  | none =>
    refine ⟨[], fun _ he => absurd he List.not_mem_nil, fun _ => rfl, ?_⟩
    cases body.apiKey.filter (· ≠ "") <;> rfl
  | some c =>
    have hnone : SecretsEncrypted d [] := fun _ he => absurd he List.not_mem_nil
    refine ⟨(applyDeployConfig d r (blankAgent d r u body newId suffix) c.1).env,
      secretsEncrypted_applyDeployConfig (by exact hnone) r c.1, fun k => ?_, by
        cases body.apiKey.filter (· ≠ "") <;> rfl⟩
    rw [storedValue_applyDeployConfig]
    show (if k ∈ providerKeyNames then (sentValue c.1.env k).or none else sentValue c.1.env k) =
      sentValue c.1.env k
    rw [Option.or_none, ite_self]

theorem secretsEncrypted_newAgent : SecretsEncrypted d (newAgent d r u body newId suffix).env := by
  obtain ⟨env, henc, -, heq⟩ := newAgent_env d r u body newId suffix
  rw [heq]
  cases body.apiKey.filter (· ≠ "") with
  | none => exact henc
  | some key => exact secretsEncrypted_withProviderKey henc r _ _

/-- A new agent's environment is what its creation says. -/
theorem storedValue_newAgent (k : String) :
    storedValue d (newAgent d r u body newId suffix).env k =
      expectedValue d (EnvHistory.apiKey ⟨body, []⟩) ⟨body, []⟩ k := by
  obtain ⟨env, -, hvalue, heq⟩ := newAgent_env d r u body newId suffix
  rw [heq]
  unfold expectedValue EnvHistory.apiKey
  simp only [List.findSome?_nil]
  cases body.apiKey.filter (· ≠ "") with
  | none =>
    simp only [Option.elim_none, Option.none_or, ite_self]
    exact hvalue k
  | some key =>
    simp only [Option.elim_some, Option.some_or]
    rw [storedValue_withProviderKey]
    by_cases hk : k = providerKeyEnv (d.forModel body.model)
    · rw [if_pos hk, if_pos (hk ▸ providerKeyEnv_mem _), if_pos hk]
    · rw [if_neg hk, if_neg hk, ite_self]
      exact hvalue k

end New

/-! ## Runs with their history -/

/-- The gateway and the history of each agent. -/
structure EnvState where
  world : World
  history : AgentId → Option EnvHistory := fun _ => none

/-- The history of agent `i` after a call: a created agent starts one, and a config is applied once
its deploy has got past the quota check. -/
def noteCall (d : Deps) (r : Draws) (w : World) (history : AgentId → Option EnvHistory) (c : Call)
    (i : AgentId) : Option EnvHistory :=
  match c with
  | .create u body newId suffix =>
    match createQuota d w.db u body, insertAgent? w (newAgent d r u body newId suffix) with
    | .ok (), some _ => if i = newId then some { created := body } else history i
    | _, _ => history i
  | .deploy u id (some c) =>
    match (w.db.ownedAgent? u id).map fun a => deployQuota d w.db a (some c.1) with
    | some (.ok ()) =>
      if i = id then (history i).map fun h => { h with applied := c.1 :: h.applied }
      else history i
    | _ => history i
  | _ => history i

/-- One step, with its history. -/
def envStep (d : Deps) (s : Settings) (σ : EnvState) (i : ServiceStep) : EnvState where
  world := serviceStep d s σ.world i
  history :=
    match i with
    | .call rt c => noteCall d rt.draws σ.world σ.history c
    | .tick _ _ _ _ => σ.history

/-- The calls a step makes to the runtime. -/
def callsMade (d : Deps) (s : Settings) (w : World) (i : ServiceStep) : List RuntimeCall :=
  (serviceStep d s w i).calls.drop w.calls.length

/-- A row whose environment is what its history says. -/
def EnvOk (d : Deps) (history : AgentId → Option EnvHistory) (a : Agent) : Prop :=
  SecretsEncrypted d a.env ∧
    ∃ h, history a.id = some h ∧ ∀ k, storedValue d a.env k = expectedValue d h.apiKey h k

/-- Every row's environment is what its history says. -/
def EnvInv (d : Deps) (w : World) (history : AgentId → Option EnvHistory) : Prop :=
  ∀ a ∈ w.db.agents.rows, EnvOk d history a

section Inv

variable {d : Deps} {w w' : World} {history history' : AgentId → Option EnvHistory}
  {old new : Agent} {cs : List Container}

theorem EnvOk.of_env (h : EnvOk d history old) (hid : new.id = old.id) (henv : new.env = old.env) :
    EnvOk d history new := by
  unfold EnvOk
  rw [hid, henv]
  exact h

theorem EnvInv.rewrites (h : EnvInv d w history) (hrw : Rewrites w w' old new cs)
    (hother : ∀ i, i ≠ old.id → history' i = history i) (hnew : EnvOk d history' new) :
    EnvInv d w' history' := by
  intro a ha
  rcases hrw.mem_rows ha with rfl | ⟨ha, hne⟩
  · exact hnew
  · obtain ⟨henc, hh, hhist, hval⟩ := h a ha
    exact ⟨henc, hh, (hother a.id hne).trans hhist, hval⟩

/-- A rewrite that leaves the environment alone. -/
theorem EnvInv.rewrites_same (h : EnvInv d w history) (hrw : Rewrites w w' old new cs)
    (henv : new.env = old.env) : EnvInv d w' history :=
  h.rewrites hrw (fun _ _ => rfl)
    ((h old (Table.mem_of_find? hrw.found)).of_env hrw.id henv)

theorem EnvInv.removed {left : List Container} (h : EnvInv d w history)
    (hrm : Removes w w' old left) : EnvInv d w' history := hrm.forall_rows h

theorem EnvInv.inserted (h : EnvInv d w history) (hins : Inserts w w' new)
    (hother : ∀ i, i ≠ new.id → history' i = history i) (hnew : EnvOk d history' new) :
    EnvInv d w' history' := by
  intro a ha
  rcases hins.mem_rows ha with rfl | ⟨ha, hne⟩
  · exact hnew
  · obtain ⟨henc, hh, hhist, hval⟩ := h a ha
    exact ⟨henc, hh, (hother a.id hne).trans hhist, hval⟩

/-- The row a deploy works on is what the history, with the sent config, says. -/
theorem EnvOk.deployed {r : Draws} (h : EnvOk d history old) {config : Option DeployConfig}
    (hsame : config = none → history' old.id = history old.id)
    (hnote : ∀ c, config = some c →
      history' old.id = (history old.id).map fun x => { x with applied := c :: x.applied }) :
    EnvOk d history' (deployedRow d r old config) := by
  obtain ⟨henc, hh, hhist, hval⟩ := h
  cases config with
  | none => exact ⟨henc, hh, (hsame rfl).trans hhist, hval⟩
  | some c =>
    refine ⟨secretsEncrypted_applyDeployConfig henc r c,
      { hh with applied := c :: hh.applied }, ?_, fun k => ?_⟩
    · rw [deployedRow_id, hnote c rfl, hhist]
      rfl
    · show storedValue d (applyDeployConfig d r old c).env k =
        expectedValue d hh.apiKey { hh with applied := c :: hh.applied } k
      rw [storedValue_applyDeployConfig, expectedValue_cons, hval]

/-- A deploy changes the environment only by applying the config. -/
theorem DeployEffect.env {rt : Runtime} {config : Option DeployConfig} {cs cs' : List Container}
    (h : DeployEffect d rt old config cs new cs') :
    new.env = (deployedRow d rt.draws old config).env := by
  cases h <;> rfl

theorem ScaleEffect.env {rt : Runtime} {direction : ScaleDirection} {count : Nat}
    {cs cs' : List Container} (h : ScaleEffect rt old direction count cs new cs') :
    new.env = old.env := by
  cases h <;> rfl

theorem TickEffect.env {rt : Runtime} {cs cs' : List Container}
    (h : TickEffect rt old cs new cs') : new.env = old.env := by
  cases h <;> rfl

/-- The environment a deploy call carries is what the agent's history says. -/
def CallOk (d : Deps) (history : AgentId → Option EnvHistory) (args : DeployArgs) : Prop :=
  ∃ h, history args.agentId = some h ∧
    ∀ k, Dict.get? args.env k = expectedValue d h.apiKey h k

theorem EnvOk.callOk {row : Agent} (h : EnvOk d history row) {args : DeployArgs}
    (hcall : .deploy args ∈ deployCallsOf d row) : CallOk d history args := by
  obtain ⟨henc, hh, hhist, hval⟩ := h
  obtain ⟨plain, hplain, hget⟩ := envForContainer_get? henc.decrypts
  unfold deployCallsOf deployCalls at hcall
  split at hcall
  · exact absurd hcall List.not_mem_nil
  · rw [hplain] at hcall
    obtain rfl : args = deployArgs row plain := by simpa using hcall
    exact ⟨hh, hhist, fun k => (hget k).trans (hval k)⟩

/-- What a step has to keep: the environments, and the ones it passes on. -/
structure StepOk (d : Deps) (w w' : World) (history' : AgentId → Option EnvHistory) : Prop where
  inv : EnvInv d w' history'
  calls : ∃ made, w'.calls = w.calls ++ made ∧
    ∀ args, .deploy args ∈ made → CallOk d history' args

/-- A step that makes no deploy call. -/
theorem StepOk.of_inv {made : List RuntimeCall} (h : EnvInv d w' history')
    (hcalls : w'.calls = w.calls ++ made) (hno : ∀ args, .deploy args ∉ made) :
    StepOk d w w' history' :=
  ⟨h, made, hcalls, fun args hargs => absurd hargs (hno args)⟩

theorem StepOk.refl (h : EnvInv d w history) : StepOk d w w history :=
  .of_inv h (List.append_nil _).symm fun _ => List.not_mem_nil

theorem EnvInv.deploy (h : EnvInv d w history) (rt : Runtime) (u : UserId) (id : AgentId)
    (config : Option AcceptedConfig) :
    StepOk d w (deployAgent d rt w u id (config.map Subtype.val)).2
      (noteCall d rt.draws w history (.deploy u id config)) := by
  by_cases hgo : ∃ old, w.db.ownedAgent? u id = some old ∧
      deployQuota d w.db old (config.map Subtype.val) = .ok ()
  · obtain ⟨old, ho, hq⟩ := hgo
    obtain ⟨hf, -, rfl⟩ := Db.ownedAgent?_eq_some ho
    obtain ⟨-, hrw, hcalls⟩ := deployAgent_local rt ho hq
    have heff := deployLocal_effect d rt old (config.map Subtype.val) (w.containers old.id)
    have hrow : EnvOk d (noteCall d rt.draws w history (.deploy u old.id config))
        (deployedRow d rt.draws old (config.map Subtype.val)) := by
      refine (h old (Table.mem_of_find? hf)).deployed (fun hc => ?_) fun c hc => ?_
      · rw [Option.map_eq_none_iff] at hc
        subst hc
        rfl
      · obtain ⟨c', rfl, rfl⟩ := Option.map_eq_some_iff.mp hc
        have hok : ((w.db.ownedAgent? u old.id).map fun a =>
            deployQuota d w.db a (some c'.1)) = some (.ok ()) := by
          rw [ho]
          exact congrArg some hq
        simp only [noteCall, hok, if_true]
    have hother : ∀ i, i ≠ old.id →
        noteCall d rt.draws w history (.deploy u old.id config) i = history i := by
      intro i hi
      cases config with
      | none => rfl
      | some c =>
        unfold noteCall
        simp only
        split
        · exact if_neg hi
        · rfl
    refine ⟨h.rewrites hrw hother (hrow.of_env ?_ heff.env), _, hcalls, fun args hargs =>
      hrow.callOk hargs⟩
    rw [hrw.id, deployedRow_id]
  · have hnote : noteCall d rt.draws w history (.deploy u id config) = history := by
      cases config with
      | none => rfl
      | some c =>
        funext i
        unfold noteCall
        simp only
        split
        · rename_i hok
          obtain ⟨old, ho, hq⟩ := Option.map_eq_some_iff.mp hok
          exact absurd ⟨old, ho, hq⟩ hgo
        · rfl
    rw [deployAgent_refused rt fun old ho hq => hgo ⟨old, ho, hq⟩, hnote]
    exact .refl h

theorem insertAgent?_calls {a : Agent} (h : insertAgent? w a = some w') : w'.calls = w.calls := by
  unfold insertAgent? at h
  split at h
  · exact absurd h (by simp)
  · obtain ⟨t, -, rfl⟩ := Option.map_eq_some_iff.mp h
    rfl

theorem EnvInv.create (h : EnvInv d w history) (rt : Runtime) (u : UserId) (body : AgentConfigIn)
    (newId : AgentId) (suffix : List Char) :
    StepOk d w (createAgent d rt w u body newId suffix).2
      (noteCall d rt.draws w history (.create u body newId suffix)) := by
  unfold createAgent
  cases hq : createQuota d w.db u body with
  | error e =>
    have hnote : noteCall d rt.draws w history (.create u body newId suffix) = history := by
      funext i
      simp only [noteCall, hq]
    rw [hnote]
    exact .refl h
  | ok _ =>
    cases hi : insertAgent? w (newAgent d rt.draws u body newId suffix) with
    | none =>
      have hnote : noteCall d rt.draws w history (.create u body newId suffix) = history := by
        funext i
        simp only [noteCall, hq, hi]
      rw [hnote]
      simp only [hi]
      exact .refl h
    | some w₁ =>
      have hnote : noteCall d rt.draws w history (.create u body newId suffix) =
          fun i => if i = newId then some { created := body } else history i := by
        funext i
        simp only [noteCall, hq, hi]
      rw [hnote]
      simp only [hi]
      have hins := insertAgent?_inserts hi
      have hnew : EnvOk d (fun i => if i = newId then some { created := body } else history i)
          (newAgent d rt.draws u body newId suffix) := by
        refine ⟨secretsEncrypted_newAgent d rt.draws u body newId suffix, { created := body }, ?_,
          storedValue_newAgent d rt.draws u body newId suffix⟩
        rw [newAgent_id]
        exact if_pos rfl
      have hinv := h.inserted hins
        (fun i hi => if_neg (by rw [newAgent_id] at hi; exact hi)) hnew
      cases body.deploy with
      | none =>
        exact StepOk.of_inv hinv (by rw [insertAgent?_calls hi, List.append_nil])
          fun _ => List.not_mem_nil
      | some c =>
        have hdeploy := hinv.deploy rt u (newAgent d rt.draws u body newId suffix).id none
        obtain ⟨made, hmade, hok⟩ := hdeploy.calls
        exact ⟨hdeploy.inv, made, hmade.trans (by rw [insertAgent?_calls hi]), hok⟩

/-- A scale makes no deploy call. -/
theorem scaleAgent_calls (d : Deps) (rt : Runtime) (w : World) (u : UserId) (id : AgentId)
    (direction : ScaleDirection) (count : Nat) :
    ∃ made, (scaleAgent d rt w u id direction count).2.calls = w.calls ++ made ∧
      ∀ args, .deploy args ∉ made := by
  by_cases hgo : ∃ old, w.db.ownedAgent? u id = some old ∧
      scaleQuota d w.db old direction count = .ok ()
  · obtain ⟨old, ho, hq⟩ := hgo
    exact ⟨_, (scaleAgent_local rt ho hq).2.2, by simp⟩
  · rw [scaleAgent_refused rt fun old ho hq => hgo ⟨old, ho, hq⟩]
    exact ⟨[], (List.append_nil _).symm, fun _ => List.not_mem_nil⟩

theorem EnvInv.scale (h : EnvInv d w history) (rt : Runtime) (u : UserId) (id : AgentId)
    (direction : ScaleDirection) (count : Nat) :
    StepOk d w (scaleAgent d rt w u id direction count).2 history := by
  obtain ⟨made, hmade, hno⟩ := scaleAgent_calls d rt w u id direction count
  refine .of_inv ?_ hmade hno
  rcases scaleAgent_cases d rt w u id direction count with hw | ⟨old, new, cs, -, -, heff, hrw⟩
  · rw [hw]
    exact h
  · exact h.rewrites_same hrw heff.env

theorem updateAgent_calls (w : World) (u : UserId) (id : AgentId) (body : AgentUpdate) :
    (updateAgent w u id body).2.calls = w.calls := by
  unfold updateAgent
  cases w.db.ownedAgent? u id <;> rfl

theorem EnvInv.update (h : EnvInv d w history) (u : UserId) (id : AgentId) (body : AgentUpdate) :
    StepOk d w (updateAgent w u id body).2 history := by
  refine .of_inv ?_ (by rw [updateAgent_calls, List.append_nil]) fun _ => List.not_mem_nil
  rcases updateAgent_cases w u id body with hw | ⟨old, access, rpm, -, hrw⟩
  · rw [hw]
    exact h
  · exact h.rewrites_same hrw rfl

/-- A deletion makes no deploy call. -/
theorem deleteAgent_calls (rt : Runtime) (w : World) (u : UserId) (id : AgentId) :
    ∃ made, (deleteAgent rt w u id).2.calls = w.calls ++ made ∧
      ∀ args, .deploy args ∉ made := by
  unfold deleteAgent
  cases w.db.ownedAgent? u id with
  | none => exact ⟨[], (List.append_nil _).symm, fun _ => List.not_mem_nil⟩
  | some old =>
    refine ⟨[.remove old.id], ?_, by simp⟩
    simp only
    cases (rt.remove old.id (w.containers old.id)).1 <;> rfl

theorem EnvInv.delete (h : EnvInv d w history) (rt : Runtime) (u : UserId) (id : AgentId) :
    StepOk d w (deleteAgent rt w u id).2 history := by
  obtain ⟨made, hmade, hno⟩ := deleteAgent_calls rt w u id
  refine .of_inv ?_ hmade hno
  rcases deleteAgent_cases rt w u id with ⟨e, he⟩ | ⟨old, left, -, ⟨e, -, -, hrw⟩ | ⟨-, -, hrm⟩⟩
  · rw [he]
    exact h
  · exact h.rewrites_same hrw rfl
  · exact h.removed hrm

/-! ## Ticks make no deploy call -/

theorem tickAgent_calls (d : Deps) (rt : Runtime) (seconds : ℚ) (now : Instant) (w : World)
    (a : Agent) : ∃ made, (tickAgent d rt seconds now w a).2.calls = w.calls ++ made ∧
      ∀ args, .deploy args ∉ made := by
  have hmeter : ∀ (x : World) (seen : Agent) (live : Nat),
      (meter x seen live seconds now).calls = x.calls := by
    intro x seen live
    unfold meter
    split <;> rfl
  unfold tickAgent
  simp only
  cases rt.healthCheck a.id ((w.logCall (.healthCheck a.id)).containers a.id) with
  | error e => exact ⟨[.healthCheck a.id], rfl, by simp⟩
  | ok health =>
    have hseen : (if observe a health = a then w.logCall (.healthCheck a.id)
        else (w.logCall (.healthCheck a.id)).saveAgent (observe a health)).calls =
        w.calls ++ [.healthCheck a.id] := by
      split <;> rfl
    simp only
    generalize (if observe a health = a then w.logCall (.healthCheck a.id)
      else (w.logCall (.healthCheck a.id)).saveAgent (observe a health)) = w₁ at hseen
    have hmetered := (hmeter w₁ (observe a health) health.liveReplicas).trans hseen
    generalize meter w₁ (observe a health) health.liveReplicas seconds now = w₂ at hmetered
    split
    · cases hasHeadroomForReplica d w₂.db (observe a health) with
      | error e => exact ⟨_, hmetered, by simp⟩
      | ok room =>
        cases room with
        | false => exact ⟨_, hmetered, by simp⟩
        | true =>
          refine ⟨[.healthCheck a.id, .autoScale (observe a health).id], ?_, by simp⟩
          show w₂.calls ++ [.autoScale (observe a health).id] = _
          rw [hmetered, List.append_assoc]
          rfl
    · exact ⟨_, hmetered, by simp⟩

theorem tickAgents_calls (d : Deps) (rt : Runtime) (seconds : ℚ) (now : Instant) :
    ∀ (rest : List Agent) (w : World),
      ∃ made, (tickAgents d rt seconds now rest w).2.calls = w.calls ++ made ∧
        ∀ args, .deploy args ∉ made := by
  intro rest
  induction rest with
  | nil =>
    intro w
    exact ⟨[], (List.append_nil _).symm, fun _ => List.not_mem_nil⟩
  | cons a rest ih =>
    intro w
    obtain ⟨made, hmade, hno⟩ := tickAgent_calls d rt seconds now w a
    unfold tickAgents
    generalize tickAgent d rt seconds now w a = out at hmade
    obtain ⟨res, w₁⟩ := out
    cases res with
    | error e => exact ⟨made, hmade, hno⟩
    | ok _ =>
      obtain ⟨more, hmore, hno'⟩ := ih w₁
      refine ⟨made ++ more, by rw [hmore, hmade, List.append_assoc], fun args hargs => ?_⟩
      rcases List.mem_append.mp hargs with hargs | hargs
      · exact hno args hargs
      · exact hno' args hargs

theorem tick_calls (d : Deps) (s : Settings) (rt : Runtime) (elapsed : Option ℚ) (now : Instant)
    (flushFails : Bool) (w : World) :
    ∃ made, (tick d s rt elapsed now flushFails w).2.calls = w.calls ++ made ∧
      ∀ args, .deploy args ∉ made := by
  have hflush : (flushRequests w flushFails).calls = w.calls := by
    unfold flushRequests
    split_ifs <;> rfl
  obtain ⟨made, hmade, hno⟩ := tickAgents_calls d rt (elapsed.getD s.schedulerIntervalSeconds) now
    (loadedAgents (flushRequests w flushFails).db) (flushRequests w flushFails)
  exact ⟨made, hmade.trans (by rw [hflush]), hno⟩

theorem EnvInv.tick (h : EnvInv d w history) (s : Settings) (rt : Runtime) (elapsed : Option ℚ)
    (now : Instant) (flushFails : Bool) :
    StepOk d w (Gateway.tick d s rt elapsed now flushFails w).2 history := by
  obtain ⟨made, hmade, hno⟩ := tick_calls d s rt elapsed now flushFails w
  refine .of_inv ?_ hmade hno
  refine tick_inv (P := fun x => EnvInv d x history) (fun hw => ?_)
    (fun w₁ w₂ old new cs _ hw₁ _ heff hrw => hw₁.rewrites_same hrw heff.env) h
  unfold EnvInv
  rw [flushRequests_agents]
  exact hw

/-- **One step.** -/
theorem envStep_ok (s : Settings) (h : EnvInv d w history) (i : ServiceStep) :
    StepOk d w (envStep d s ⟨w, history⟩ i).world (envStep d s ⟨w, history⟩ i).history := by
  cases i with
  | tick rt elapsed now flushFails => exact h.tick s rt elapsed now flushFails
  | call rt c =>
    cases c with
    | create u body newId suffix => exact h.create rt u body newId suffix
    | update u id body => exact h.update u id body
    | deploy u id config => exact h.deploy rt u id config
    | scale u id body => exact h.scale rt u id body.direction body.count
    | delete u id => exact h.delete rt u id

end Inv

/-- **The environment given to containers.** In every state a run of calls and ticks reaches from a
gateway without agents, every stored secret decrypts, and whatever the next step is, each deploy
call it makes carries exactly the environment that the agent's creation and the configs applied
since then give. -/
theorem container_env (d : Deps) (s : Settings) (w : World) (hw : w.db.agents.rows = [])
    (steps : List ServiceStep) :
    (∀ a ∈ (run (envStep d s) ⟨w, fun _ => none⟩ steps).world.db.agents.rows, ∀ e ∈ a.env,
      e.secret = true → ∃ v, d.fernet.decrypt e.value = some v) ∧
    ∀ (i : ServiceStep) (args : DeployArgs),
      .deploy args ∈ callsMade d s (run (envStep d s) ⟨w, fun _ => none⟩ steps).world i →
      ∃ h, (run (envStep d s) ⟨w, fun _ => none⟩ (steps ++ [i])).history args.agentId = some h ∧
        ∀ k, Dict.get? args.env k = expectedValue d h.apiKey h k := by
  have hinv : EnvInv d (run (envStep d s) ⟨w, fun _ => none⟩ steps).world
      (run (envStep d s) ⟨w, fun _ => none⟩ steps).history :=
    run_preserves (P := fun σ : EnvState => EnvInv d σ.world σ.history)
      (fun σ i hσ => (envStep_ok s hσ i).inv) steps fun a ha => by
        rw [hw] at ha
        exact absurd ha List.not_mem_nil
  refine ⟨fun a ha e he hs => (hinv a ha).1.decrypts e he hs, fun i args hargs => ?_⟩
  obtain ⟨made, hmade, hok⟩ := (envStep_ok s hinv i).calls
  rw [run_append]
  refine hok args ?_
  unfold callsMade at hargs
  have hmade' : (serviceStep d s (run (envStep d s) ⟨w, fun _ => none⟩ steps).world i).calls =
      (run (envStep d s) ⟨w, fun _ => none⟩ steps).world.calls ++ made := hmade
  rwa [hmade', List.drop_left] at hargs

/-- A config with an image and one secret variable, as the schema accepts it. -/
def secretConfig : AcceptedConfig where
  val := { image := some "nginx", env := [{ key := "TOKEN", value := "t-1", secret := true }] }
  property := ⟨{ image := some "nginx", env := some [⟨"TOKEN", "t-1", true⟩] }, rfl⟩

/-- Create an agent with that config and an `api_key`. -/
def createKeyed (apiKey : String) : ServiceStep :=
  .call .obliging (.create freeUser.id
    { name := "a", apiKey := some apiKey, deploy := some secretConfig } "a" "x1y2z3".toList)

/-- Redeploy it with a config that defines no variables. -/
def redeploy : ServiceStep :=
  .call .obliging (.deploy freeUser.id "a" (some oneReplica))

/-- The redeploy passes the creation key on, and the variable of the config it replaces not. -/
theorem container_env_redeployed : ∃ args,
    .deploy args ∈ callsMade Deps.transparent {}
      (run (envStep Deps.transparent {}) ⟨freeWorld, fun _ => none⟩ [createKeyed "sk-1"]).world
      redeploy ∧
    Dict.get? args.env "OPENAI_API_KEY" = some "sk-1" ∧ Dict.get? args.env "TOKEN" = none := by
  have hcall : ∃ args ∈ (callsMade Deps.transparent {}
      (run (envStep Deps.transparent {}) ⟨freeWorld, fun _ => none⟩ [createKeyed "sk-1"]).world
      redeploy).filterMap (fun c => match c with | .deploy args => some args | _ => none),
      args.agentId = "a" := by decide +kernel
  obtain ⟨args, hargs, hid⟩ := hcall
  have hmem : .deploy args ∈ callsMade Deps.transparent {}
      (run (envStep Deps.transparent {}) ⟨freeWorld, fun _ => none⟩ [createKeyed "sk-1"]).world
      redeploy := by
    obtain ⟨c, hc, hsome⟩ := List.mem_filterMap.mp hargs
    cases c with
    | deploy x => exact Option.some.inj hsome ▸ hc
    | _ => exact absurd hsome (by simp)
  obtain ⟨h, hhist, hval⟩ := (container_env Deps.transparent {} freeWorld rfl
    [createKeyed "sk-1"]).2 redeploy args hmem
  have hexpected : ∀ h ∈ (run (envStep Deps.transparent {}) ⟨freeWorld, fun _ => none⟩
      ([createKeyed "sk-1"] ++ [redeploy])).history "a",
      expectedValue Deps.transparent h.apiKey h "OPENAI_API_KEY" = some "sk-1" ∧
        expectedValue Deps.transparent h.apiKey h "TOKEN" = none := by decide +kernel
  rw [hid] at hhist
  refine ⟨args, hmem, ?_, ?_⟩
  · exact (hval _).trans (hexpected h hhist).1
  · exact (hval _).trans (hexpected h hhist).2

/-- An `api_key` of no characters is not passed on: `create_agent` tests `if body.api_key`. -/
theorem emptyApiKey_absent : ∃ args,
    .deploy args ∈ callsMade Deps.transparent {} freeWorld (createKeyed "") ∧
    Dict.get? args.env "OPENAI_API_KEY" = none ∧
    ∃ h ∈ (run (envStep Deps.transparent {}) ⟨freeWorld, fun _ => none⟩ [createKeyed ""]).history
      args.agentId,
      expectedValue Deps.transparent h.created.apiKey h "OPENAI_API_KEY" = some "" :=
  ⟨{ agentId := "a"
     name := "a"
     model := "gpt-4o"
     systemPrompt := none
     replicas := 1
     env := [("TOKEN", "t-1")]
     image := some "nginx"
     cpu := 1
     memoryMb := 512 },
    by decide +kernel, by decide +kernel, by decide +kernel⟩

end Gateway
