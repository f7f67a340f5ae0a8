import Gateway.Agents.UpdateRace

/-!
# Configs deployed at the same time (`deploy_agent`)

A deploy with a config loads the row, waits for the quota check, assigns every column of the config
and commits. The commit writes the columns that differ from those it loaded, so of two deploys that
overlap here each writes only part of its config.

* `opStep_pending`: the object a deploy is going to commit its config from is the row it loaded.
* **`config_of_deploys`**: when no deploy commits a config while another one is between its load and
  its commit, the config of the row is what the committed ones make of the first, in their order,
  whatever scalings, deletes and ticks do meanwhile.
* `torn_config`: otherwise the row may have a config nobody asked for and no quota check has seen.
-/

namespace Gateway

open Lib

/-! ## The columns of a config -/

/-- What `_apply_deploy_config` assigns, but for `replicas`, which other operations write too. -/
structure DeployedConfig where
  cpu : ℚ
  memoryMb : Nat
  gpu : Nat
  gpuType : Option String
  diskGb : Nat
  ephemeralStorageGb : Nat
  env : List EnvEntry
  image : Option String
  buildPath : Option String
  command : Option String
  args : List String
  healthCheckPath : Option String
  autoScale : Bool
  minReplicas : Nat
  maxReplicas : Nat
  port : Nat
  deriving DecidableEq, Repr

/-- The config of a row. -/
def Agent.deployed (a : Agent) : DeployedConfig where
  cpu := a.cpu
  memoryMb := a.memoryMb
  gpu := a.gpu
  gpuType := a.gpuType
  diskGb := a.diskGb
  ephemeralStorageGb := a.ephemeralStorageGb
  env := a.env
  image := a.image
  buildPath := a.buildPath
  command := a.command
  args := a.args
  healthCheckPath := a.healthCheckPath
  autoScale := a.autoScale
  minReplicas := a.minReplicas
  maxReplicas := a.maxReplicas
  port := a.port

/-- What a config makes of a stored one, with the draws of the call that sent it: provider keys it
does not redefine stay. -/
def DeployedConfig.apply (d : Deps) (old : DeployedConfig) (sent : Draws × DeployConfig) :
    DeployedConfig where
  cpu := sent.2.resources.cpu
  memoryMb := sent.2.resources.memoryMb
  gpu := sent.2.resources.gpu
  gpuType := sent.2.resources.gpuType
  diskGb := sent.2.resources.diskGb
  ephemeralStorageGb := sent.2.resources.ephemeralStorageGb
  env := envToStorage d sent.1 sent.2.env ++ old.env.filter fun e =>
    e.key ∈ providerKeyNames ∧ e.key ∉ (envToStorage d sent.1 sent.2.env).map EnvEntry.key
  image := sent.2.image
  buildPath := sent.2.buildPath
  command := sent.2.command
  args := sent.2.args
  healthCheckPath := sent.2.healthCheckPath
  autoScale := sent.2.autoScale
  minReplicas := sent.2.minReplicas
  maxReplicas := sent.2.maxReplicas
  port := sent.2.port

theorem applyDeployConfig_deployed (d : Deps) (r : Draws) (a : Agent) (c : DeployConfig) :
    (applyDeployConfig d r a c).deployed = a.deployed.apply d (r, c) := rfl

/-- A session that left the config alone commits nothing to it. -/
theorem Agent.flush_deployed {l c : Agent} (h : c.deployed = l.deployed) (s : Agent) :
    (Agent.flush l c s).deployed = s.deployed := by
  simp only [Agent.deployed, DeployedConfig.mk.injEq] at h
  simp only [Agent.flush, Agent.deployed, h, column_same]

/-- A session that saw the stored config commits all of its own. -/
theorem Agent.flush_deployed_of_seen {l s : Agent} (h : l.deployed = s.deployed) (c : Agent) :
    (Agent.flush l c s).deployed = c.deployed := by
  simp only [Agent.deployed, DeployedConfig.mk.injEq] at h
  simp only [Agent.flush, Agent.deployed, h, column_loaded]

/-! ## Deploys that have a config to commit -/

/-- The object a deploy is going to commit its config from. -/
def AgentOp.pending : AgentOp → Option Agent
  | .deploy _ (some _) (.loaded a) => some a
  | .deploy _ (some _) (.admitted a) => some a
  | _ => none

/-- The config the next step of the operation commits. -/
def AgentOp.committing : AgentOp → Option (Agent × DeployConfig)
  | .deploy _ (some body) (.admitted a) => some (a, body)
  | _ => none

section Ops

variable {d : Deps} {env : OpEnv} {stored : Option Agent} {cs : List Container} {op : AgentOp}
  {a : Agent}

theorem AgentOp.pending_of_committing {body : DeployConfig} (h : op.committing = some (a, body)) :
    op.pending = some a := by
  unfold AgentOp.committing at h
  split at h
  · cases h
    rfl
  · cases h

/-- **The object a step leaves a deploy with** is the row, just loaded, or the one it had. -/
theorem opStep_pending (h : (opStep d env stored cs op).1.pending = some a) :
    stored = some a ∨ op.pending = some a := by
  cases op with
  | deploy u body pc =>
    cases body with
    | none =>
      simp only [opStep, AgentOp.pending] at h
      cases h
    | some c =>
      unfold opStep deployingStep at h
      cases pc with
      | start =>
        simp only at h
        split at h
        · cases h
        · rename_i row hrow
          cases h
          exact Or.inl (Option.filter_eq_some_iff.mp hrow).1
      | loaded b =>
        simp only at h
        split at h
        · cases h
        · cases h
          exact Or.inr rfl
      | admitted b =>
        simp only at h
        split at h
        · cases h
        · cases h
      | configured => cases stored <;> cases h
      | ready b =>
        simp only at h
        split_ifs at h
        · cases h
        · split at h
          · cases h
          · cases h
      | starting b => cases h
      | ran b out => cases out <;> cases h
      | done => cases h
  | scale u direction count pc => cases h
  | delete u pc => cases h
  | autoScale pc => cases h

/-- What a step that commits no config leaves of the stored one. -/
theorem opStep_deployed (hno : op.committing = none) {row' : Agent}
    (hrow' : (opStep d env stored cs op).2.1 = some row') :
    ∃ row, stored = some row ∧ row'.deployed = row.deployed := by
  have heffect : RowEffect d op stored (opStep d env stored cs op).2.1 := opStep_row op
  rw [hrow'] at heffect
  generalize hout : some row' = out at heffect
  cases heffect with
  | kept => exact ⟨row', hout.symm, rfl⟩
  | deleted => cases hout
  | progressed l row status error version replicas =>
    cases hout
    exact ⟨row, rfl, Agent.flush_deployed rfl row⟩
  | configured r b row u body hop =>
    rw [hop] at hno
    cases hno

/-- The step that commits a config. -/
theorem opStep_committing {body : DeployConfig} (h : op.committing = some (a, body)) :
    (opStep d env stored cs op).2.1 =
      stored.map (fun row => Agent.flush a (applyDeployConfig d env.runtime.draws a body) row) ∧
      (opStep d env stored cs op).1.pending = none := by
  unfold AgentOp.committing at h
  split at h
  · cases h
    unfold opStep deployingStep
    cases stored with
    | none =>
      simp only [Option.map_none]
      split
      · exact ⟨rfl, rfl⟩
      · rename_i hcommit
        exact ⟨(commitRow_eq_none hcommit).mpr rfl, rfl⟩
    | some row =>
      simp only [commitRow_some]
      exact ⟨rfl, rfl⟩
  · cases h

end Ops

/-! ## Runs -/

/-- The config a move commits, with its draws: the row is there and the quota check has passed. -/
def configsOf (σ : Lifetime) : LifeMove → List (Draws × DeployConfig)
  | .advance i env =>
    match (σ.ops[i]?).bind AgentOp.committing, σ.stored with
    | some (_, body), some _ => [(env.runtime.draws, body)]
    | _, _ => []
  | _ => []

/-- While a deploy commits its config, no other one has loaded the row and not yet committed. -/
def ConfigsApart (σ : Lifetime) : LifeMove → Prop
  | .advance i _ =>
    ∀ op ∈ σ.ops[i]?, op.committing.isSome = true →
      ∀ op' ∈ σ.ops.eraseIdx i, op'.pending.isNone = true
  | _ => True

instance (σ : Lifetime) : (m : LifeMove) → Decidable (ConfigsApart σ m)
  | .call _ => inferInstanceAs (Decidable True)
  | .advance i _ =>
    inferInstanceAs (Decidable (∀ op ∈ σ.ops[i]?, op.committing.isSome = true →
      ∀ op' ∈ σ.ops.eraseIdx i, op'.pending.isNone = true))
  | .abort _ => inferInstanceAs (Decidable True)

/-- The row has the config, and the deploys that are going to replace it saw it. -/
structure Lifetime.HasConfig (c : DeployedConfig) (σ : Lifetime) : Prop where
  stored : ∀ row, σ.stored = some row → row.deployed = c
  pending : ∀ op ∈ σ.ops, ∀ a, op.pending = some a → a.deployed = c

section Runs

variable {d : Deps} {σ : Lifetime} {c : DeployedConfig}

/-- A step that commits no config. -/
theorem Lifetime.HasConfig.other (h : σ.HasConfig c) {i : Nat} {env : OpEnv} {op : AgentOp}
    (hi : σ.ops[i]? = some op) (hno : op.committing = none) :
    (lifeStep d σ (.advance i env)).HasConfig c := by
  simp only [lifeStep, hi]
  constructor
  · intro row' hrow'
    obtain ⟨row, hrow, hsame⟩ := opStep_deployed hno hrow'
    rw [hsame]
    exact h.stored row hrow
  · intro op' hop' a ha
    rcases List.mem_or_eq_of_mem_set hop' with hop' | rfl
    · exact h.pending op' hop' a ha
    · rcases opStep_pending ha with hrow | hheld
      · exact h.stored a hrow
      · exact h.pending op (List.mem_of_getElem? hi) a hheld

/-- The commit of a config, with no other pending. -/
theorem Lifetime.HasConfig.commit (h : σ.HasConfig c) {i : Nat} {env : OpEnv} {op : AgentOp}
    {a : Agent} {body : DeployConfig} (hi : σ.ops[i]? = some op)
    (hop : op.committing = some (a, body)) (hapart : ConfigsApart σ (.advance i env)) :
    (lifeStep d σ (.advance i env)).HasConfig
      ((configsOf σ (.advance i env)).foldl (DeployedConfig.apply d) c) := by
  obtain ⟨hout, hdone⟩ : (opStep d env σ.stored σ.containers op).2.1 =
      σ.stored.map (fun row => Agent.flush a (applyDeployConfig d env.runtime.draws a body) row) ∧
      (opStep d env σ.stored σ.containers op).1.pending = none := opStep_committing hop
  have hseen : a.deployed = c :=
    h.pending op (List.mem_of_getElem? hi) a (AgentOp.pending_of_committing hop)
  simp only [lifeStep, hi, hout]
  constructor
  · intro row' hrow'
    obtain ⟨row, hrow, rfl⟩ := Option.map_eq_some_iff.mp hrow'
    have hlast : configsOf σ (.advance i env) = [(env.runtime.draws, body)] := by
      simp only [configsOf, hi, Option.bind_some, hop, hrow]
    rw [hlast, Agent.flush_deployed_of_seen (hseen.trans (h.stored row hrow).symm),
      applyDeployConfig_deployed, hseen]
    rfl
  · intro op' hop' b hb
    rcases Pool.mem_set_cases hop' with rfl | hop'
    · rw [hdone] at hb
      cases hb
    · have hnone := hapart op hi (by rw [hop]; rfl) op' hop'
      rw [hb] at hnone
      cases hnone

/-- **What one move does to the config**: what its commit does, if it commits one. -/
theorem lifeStep_config (h : σ.HasConfig c) {m : LifeMove} (hapart : ConfigsApart σ m) :
    (lifeStep d σ m).HasConfig ((configsOf σ m).foldl (DeployedConfig.apply d) c) := by
  cases m with
  | call call =>
    refine ⟨h.stored, fun op hop a ha => ?_⟩
    rcases List.mem_append.mp hop with hop | hop
    · exact h.pending op hop a ha
    · rw [List.mem_singleton.mp hop] at ha
      cases call with
      | deploy u body => cases body <;> cases ha
      | scale u direction count => cases ha
      | delete u => cases ha
      | autoScale => cases ha
  | advance i env =>
    cases hi : σ.ops[i]? with
    | none =>
      simp only [lifeStep, configsOf, hi]
      exact h
    | some op =>
      cases hop : op.committing with
      | none =>
        have hnil : configsOf σ (.advance i env) = [] := by
          simp only [configsOf, hi, Option.bind_some, hop]
        rw [hnil]
        exact h.other hi hop
      | some held => exact h.commit hi hop hapart
  | abort i =>
    simp only [lifeStep, configsOf]
    cases hi : σ.ops[i]? with
    | none => exact h
    | some op =>
      refine ⟨h.stored, fun op' hop' a ha => ?_⟩
      rcases List.mem_or_eq_of_mem_set hop' with hop' | rfl
      · exact h.pending op' hop' a ha
      · cases op with
        | deploy u body pc => cases body <;> cases ha
        | scale u direction count pc => cases ha
        | delete u pc => cases ha
        | autoScale pc => cases ha

end Runs

/-- **The config is what the deploys made it.** In every interleaving of deploys, scalings, deletes
and ticks in which no deploy commits its config while another one is between its load and its
commit, the config of the row, as long as it is there, is what the committed configs make of the
first one, in the order of their commits. -/
theorem config_of_deploys (d : Deps) (life : Lifetime) (row : Agent) (moves : List LifeMove)
    (hrow : life.stored = some row) (hidle : ∀ op ∈ life.ops, op.pending = none)
    (hapart : Along (lifeStep d) ConfigsApart life moves) :
    ∀ row', (run (lifeStep d) life moves).stored = some row' →
      row'.deployed =
        (emitted (lifeStep d) configsOf life moves).foldl (DeployedConfig.apply d)
          row.deployed := by
  refine (run_emitted (DeployedConfig.apply d) (P := Lifetime.HasConfig)
    (fun _ _ _ h hm => lifeStep_config h hm) moves ⟨?_, ?_⟩ hapart).stored
  · intro row' hrow'
    rw [Option.some.inj (hrow.symm.trans hrow')]
  · intro op hop a ha
    rw [hidle op hop] at ha
    cases ha

/-- One deploy asks for more of the processor, the other for more memory. -/
def moreCpu : DeployConfig := { image := some "agent", resources := { cpu := 2 } }

def moreMemory : DeployConfig := { image := some "agent", resources := { memoryMb := 1024 } }

/-- Two deploys of `undeployed`, and a delete that has not begun. -/
def twoDeploys : List LifeMove :=
  [.call (.deploy 1 (some moreCpu)), .call (.deploy 1 (some moreMemory)), .call (.delete 1)]

/-- The `n` next steps of the operation `i`. -/
def nextSteps (i n : Nat) : List LifeMove := List.replicate n (.advance i { runtime := .obliging })

/-- The second deploy loads the row when the first has committed: its config is the one stored. -/
theorem config_of_deploys_inTurn :
    (run (lifeStep .transparent) { stored := some undeployed, containers := [] }
        (twoDeploys ++ nextSteps 0 3 ++ nextSteps 1 6 ++ nextSteps 0 4)).stored.map Agent.deployed =
      some ((undeployed.deployed.apply .transparent ({}, moreCpu)).apply .transparent
        ({}, moreMemory)) := by
  obtain ⟨row, hrow⟩ : ∃ row,
      (run (lifeStep .transparent) { stored := some undeployed, containers := [] }
        (twoDeploys ++ nextSteps 0 3 ++ nextSteps 1 6 ++ nextSteps 0 4)).stored = some row :=
    Option.isSome_iff_exists.mp (by decide +kernel)
  rw [hrow]
  refine congrArg some ((config_of_deploys .transparent
    { stored := some undeployed, containers := [] } undeployed _ rfl (by simp) (by decide +kernel)
    row hrow).trans ?_)
  decide +kernel

/-- **A torn config.** Both deploys load the row before either commits: the row ends with the
processor of the one and the memory of the other. -/
theorem torn_config :
    (run (lifeStep .transparent) { stored := some undeployed, containers := [] }
        (twoDeploys ++ nextSteps 0 2 ++ nextSteps 1 3 ++ nextSteps 0 5 ++ nextSteps 1 4)).stored.map
        (fun row => (row.status, row.cpu, row.memoryMb)) = some (.running, 2, 1024) ∧
      (moreCpu.resources.cpu, moreCpu.resources.memoryMb) = (2, 512) ∧
      (moreMemory.resources.cpu, moreMemory.resources.memoryMb) = (1, 1024) := by
  decide +kernel

end Gateway
