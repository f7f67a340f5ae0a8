import Mathlib.Data.Rat.Defs
import Mathlib.Algebra.Order.Ring.Rat
import Mathlib.Tactic.NormNum

/-!
# Request and response schemas (`schemas/agents.py`)

The pydantic models of `/v1/agents`. A `…Body` is what the JSON object says, field by field, with
`none` for an omitted field; `validate` is pydantic's check, which answers the validated model or
the errors it collects, in field order, with their locations and texts. Two rules of pydantic v2
matter here and are modelled as they are:

* the field constraints (`ge`, `le`, `min_length`, `max_length`) are checked on every given value;
* a `field_validator` does not run on an omitted field's default, and sees the earlier fields that
  passed in `info.data`.

So `_max_ge_min` (`maxGeMin`) does not run when `max_replicas` is left out, and a `DeployConfig`
with `min_replicas` above the default `max_replicas` is accepted. `DeployConfig.Accepted` is what
a request can carry; `accepted_shape` says what that guarantees.
-/

namespace Gateway

/-- `AgentStatus`. -/
inductive AgentStatus where
  | pending
  | building
  | starting
  | running
  | scaling
  | stopping
  | stopped
  | failed
  | crashed
  deriving DecidableEq, Repr

/-- `AgentRuntimeKind`. -/
inductive AgentRuntimeKind where
  | python312
  | python311
  | python310
  | node20
  | node22
  | custom
  deriving DecidableEq, Repr

/-- `ScaleDirection`. -/
inductive ScaleDirection where
  | up
  | down
  deriving DecidableEq, Repr

/-- `AgentAccess`: who may call the agent's public URL. -/
inductive AgentAccess where
  | pub
  | priv
  deriving DecidableEq, Repr

/-- One entry of a pydantic `ValidationError`: where and what. -/
structure FieldError where
  loc : List String
  msg : String
  deriving DecidableEq, Repr

/-- The error as seen from the enclosing model. -/
def FieldError.under (field : String) (e : FieldError) : FieldError :=
  { e with loc := field :: e.loc }

/-- `Field(ge=lo, le=hi)`; the bounds are also given as the message prints them. -/
def checkRange {α : Type} [LT α] [DecidableLT α] (field : String) (lo hi : α)
    (loText hiText : String) (v : α) : List FieldError :=
  if v < lo then [⟨[field], "Input should be greater than or equal to " ++ loText⟩]
  else if hi < v then [⟨[field], "Input should be less than or equal to " ++ hiText⟩]
  else []

/-- `Field(max_length=hi)`. -/
def checkMaxLength (field : String) (hi : Nat) (hiText : String) (v : String) : List FieldError :=
  if hi < v.length then
    [⟨[field], "String should have at most " ++ hiText ++ " characters"⟩]
  else []

/-- `Field(min_length=1, max_length=hi)`. -/
def checkLength (field : String) (hi : Nat) (hiText : String) (v : String) : List FieldError :=
  if v.length < 1 then [⟨[field], "String should have at least 1 character"⟩]
  else checkMaxLength field hi hiText v

/-! ## `ResourceLimits` -/

/-- A validated `ResourceLimits`. -/
structure ResourceLimits where
  cpu : ℚ := 1
  memoryMb : Nat := 512
  gpu : Nat := 0
  gpuType : Option String := none
  diskGb : Nat := 10
  ephemeralStorageGb : Nat := 5
  deriving DecidableEq, Repr

/-- `ResourceLimits` as sent. -/
structure ResourceLimitsBody where
  cpu : Option ℚ := none
  memoryMb : Option Int := none
  gpu : Option Int := none
  gpuType : Option String := none
  diskGb : Option Int := none
  ephemeralStorageGb : Option Int := none
  deriving DecidableEq, Repr

def checkCpu : ℚ → List FieldError := checkRange "cpu" (1 / 10) 64 "0.1" "64"

def checkMemoryMb : Int → List FieldError := checkRange "memory_mb" 128 65536 "128" "65536"

def checkGpu : Int → List FieldError := checkRange "gpu" 0 8 "0" "8"

def checkDiskGb : Int → List FieldError := checkRange "disk_gb" 1 1000 "1" "1000"

def checkEphemeralStorageGb : Int → List FieldError :=
  checkRange "ephemeral_storage_gb" 1 500 "1" "500"

/-- The errors of a `ResourceLimits` body. -/
def ResourceLimitsBody.errors (b : ResourceLimitsBody) : List FieldError :=
  b.cpu.elim [] checkCpu ++ b.memoryMb.elim [] checkMemoryMb ++ b.gpu.elim [] checkGpu ++
    b.diskGb.elim [] checkDiskGb ++ b.ephemeralStorageGb.elim [] checkEphemeralStorageGb

/-- The model of a body without errors: given values, defaults for the others. -/
def ResourceLimitsBody.build (b : ResourceLimitsBody) : ResourceLimits where
  cpu := b.cpu.getD 1
  memoryMb := (b.memoryMb.getD 512).toNat
  gpu := (b.gpu.getD 0).toNat
  gpuType := b.gpuType
  diskGb := (b.diskGb.getD 10).toNat
  ephemeralStorageGb := (b.ephemeralStorageGb.getD 5).toNat

/-- `ResourceLimits(...)`. -/
def ResourceLimitsBody.validate (b : ResourceLimitsBody) :
    Except (List FieldError) ResourceLimits :=
  if b.errors = [] then .ok b.build else .error b.errors

/-! ## `EnvVar` -/

/-- A validated `EnvVar`. -/
structure EnvVar where
  key : String
  value : String := ""
  secret : Bool := false
  deriving DecidableEq, Repr

/-- The errors of an `EnvVar`. -/
def EnvVar.errors (e : EnvVar) : List FieldError :=
  checkLength "key" 256 "256" e.key ++ checkMaxLength "value" 4096 "4096" e.value

/-- `EnvVar(...)`. -/
def EnvVar.validate (e : EnvVar) : Except (List FieldError) EnvVar :=
  if e.errors = [] then .ok e else .error e.errors

/-! ## `DeployConfig` -/

/-- A validated `DeployConfig`. -/
structure DeployConfig where
  replicas : Nat := 1
  resources : ResourceLimits := {}
  env : List EnvVar := []
  image : Option String := none
  buildPath : Option String := none
  command : Option String := none
  args : List String := []
  healthCheckPath : Option String := none
  autoScale : Bool := false
  minReplicas : Nat := 1
  maxReplicas : Nat := 10
  port : Nat := 8080
  deriving DecidableEq, Repr

/-- `DeployConfig` as sent. -/
structure DeployBody where
  replicas : Option Int := none
  resources : Option ResourceLimitsBody := none
  env : Option (List EnvVar) := none
  image : Option String := none
  buildPath : Option String := none
  command : Option String := none
  args : Option (List String) := none
  healthCheckPath : Option String := none
  autoScale : Option Bool := none
  minReplicas : Option Int := none
  maxReplicas : Option Int := none
  port : Option Int := none
  deriving DecidableEq, Repr

def checkReplicas : Int → List FieldError := checkRange "replicas" 1 100 "1" "100"

def checkMinReplicas : Int → List FieldError := checkRange "min_replicas" 1 100 "1" "100"

def checkMaxReplicas : Int → List FieldError := checkRange "max_replicas" 1 100 "1" "100"

def checkPort : Int → List FieldError := checkRange "port" 1 65535 "1" "65535"

/-- `_max_ge_min`; `dataMin` is `info.data.get("min_replicas", 1)`. -/
def maxGeMin (dataMin v : Int) : List FieldError :=
  if v < dataMin then
    [⟨["max_replicas"], "Value error, max_replicas must be >= min_replicas"⟩]
  else []

/-- `info.data.get("min_replicas", 1)` once `min_replicas` has been looked at: its value if it
passed, the default if it was omitted, `1` if it failed. -/
def DeployBody.dataMin (b : DeployBody) : Int :=
  match b.minReplicas with
  | some v => if checkMinReplicas v = [] then v else 1
  | none => 1

/-- The errors at `max_replicas`: the range, and `_max_ge_min` on a given value in range. -/
def DeployBody.maxErrors (b : DeployBody) : List FieldError :=
  match b.maxReplicas with
  | some v => if checkMaxReplicas v = [] then maxGeMin b.dataMin v else checkMaxReplicas v
  | none => []

/-- The errors of a `DeployConfig` in field order, those of the nested models given. -/
def DeployBody.errorsWith (b : DeployBody) (resources env : List FieldError) : List FieldError :=
  b.replicas.elim [] checkReplicas ++ resources ++ env ++ b.minReplicas.elim [] checkMinReplicas ++
    b.maxErrors ++ b.port.elim [] checkPort

/-- The errors of a `DeployConfig` body with its nested bodies. -/
def DeployBody.errors (b : DeployBody) : List FieldError :=
  b.errorsWith ((b.resources.elim [] ResourceLimitsBody.errors).map (FieldError.under "resources"))
    (((b.env.getD []).zipIdx.flatMap fun e => e.1.errors.map (FieldError.under (toString e.2))).map
      (FieldError.under "env"))

/-- The model of a body without errors, its nested models given. -/
def DeployBody.build (b : DeployBody) (resources : ResourceLimits) (env : List EnvVar) :
    DeployConfig where
  replicas := (b.replicas.getD 1).toNat
  resources := resources
  env := env
  image := b.image
  buildPath := b.buildPath
  command := b.command
  args := b.args.getD []
  healthCheckPath := b.healthCheckPath
  autoScale := b.autoScale.getD false
  minReplicas := (b.minReplicas.getD 1).toNat
  maxReplicas := (b.maxReplicas.getD 10).toNat
  port := (b.port.getD 8080).toNat

/-- Validation of a `DeployConfig` request body. -/
def DeployBody.validate (b : DeployBody) : Except (List FieldError) DeployConfig :=
  if b.errors = [] then
    .ok (b.build (b.resources.elim {} ResourceLimitsBody.build) (b.env.getD []))
  else .error b.errors

/-- A `DeployConfig` some request body validates to. -/
def DeployConfig.Accepted (d : DeployConfig) : Prop := ∃ b : DeployBody, b.validate = .ok d

/-- A `DeployConfig` as a request carries it. -/
abbrev AcceptedConfig := { d : DeployConfig // d.Accepted }

/-! ## What acceptance guarantees -/

/-- The ranges of `ResourceLimits`. -/
structure ResourceLimits.InRange (r : ResourceLimits) : Prop where
  cpu : 1 / 10 ≤ r.cpu ∧ r.cpu ≤ 64
  memoryMb : 128 ≤ r.memoryMb ∧ r.memoryMb ≤ 65536
  gpu : r.gpu ≤ 8
  diskGb : 1 ≤ r.diskGb ∧ r.diskGb ≤ 1000
  ephemeralStorageGb : 1 ≤ r.ephemeralStorageGb ∧ r.ephemeralStorageGb ≤ 500

/-- The ranges of `DeployConfig`, its cross-field rule left out. -/
structure DeployConfig.InRange (d : DeployConfig) : Prop where
  replicas : 1 ≤ d.replicas ∧ d.replicas ≤ 100
  resources : d.resources.InRange
  env : ∀ e ∈ d.env, e.errors = []
  minReplicas : 1 ≤ d.minReplicas ∧ d.minReplicas ≤ 100
  maxReplicas : 1 ≤ d.maxReplicas ∧ d.maxReplicas ≤ 100
  port : 1 ≤ d.port ∧ d.port ≤ 65535

section Check

variable {α : Type} [LinearOrder α]

theorem checkRange_eq_nil {field lt ht : String} {lo hi v : α} :
    checkRange field lo hi lt ht v = [] ↔ lo ≤ v ∧ v ≤ hi := by
  unfold checkRange
  split_ifs with h1 h2
  · simpa using fun h => absurd h (not_le.mpr h1)
  · simpa using fun _ => h2
  · exact ⟨fun _ => ⟨not_lt.mp h1, not_lt.mp h2⟩, fun _ => rfl⟩

/-- A checked optional field is in range, whatever stands for an omitted one being so. -/
theorem getD_of_elim_checkRange {field lt ht : String} {lo hi dflt : α} {v : Option α}
    (h : v.elim [] (checkRange field lo hi lt ht) = []) (hd : lo ≤ dflt ∧ dflt ≤ hi) :
    lo ≤ v.getD dflt ∧ v.getD dflt ≤ hi := by
  cases v with
  | none => exact hd
  | some x => exact checkRange_eq_nil.mp h

end Check

theorem toNat_range {v : Int} {lo hi : Nat} (h : (lo : Int) ≤ v ∧ v ≤ hi) :
    lo ≤ v.toNat ∧ v.toNat ≤ hi := by omega

theorem ResourceLimitsBody.inRange_build {b : ResourceLimitsBody} (h : b.errors = []) :
    b.build.InRange := by
  simp only [ResourceLimitsBody.errors, List.append_eq_nil_iff] at h
  obtain ⟨⟨⟨⟨hcpu, hmem⟩, hgpu⟩, hdisk⟩, heph⟩ := h
  have hgpuR : 0 ≤ (b.gpu.getD 0).toNat ∧ (b.gpu.getD 0).toNat ≤ 8 :=
    toNat_range (getD_of_elim_checkRange hgpu (by norm_num))
  exact
    { cpu := getD_of_elim_checkRange hcpu (by norm_num)
      memoryMb := toNat_range (getD_of_elim_checkRange hmem (by norm_num))
      gpu := hgpuR.2
      diskGb := toNat_range (getD_of_elim_checkRange hdisk (by norm_num))
      ephemeralStorageGb := toNat_range (getD_of_elim_checkRange heph (by norm_num)) }

/-- The default `ResourceLimits` pass their own checks. -/
theorem ResourceLimits.inRange_default : ({} : ResourceLimits).InRange :=
  ResourceLimitsBody.inRange_build (b := {}) rfl

/-- Both replica bounds of an accepted body, and the only way they can be the wrong way round. -/
theorem DeployBody.min_le_max {b : DeployBody} (hmin : b.minReplicas.elim [] checkMinReplicas = [])
    (hmax : b.maxErrors = []) :
    (1 ≤ b.maxReplicas.getD 10 ∧ b.maxReplicas.getD 10 ≤ 100) ∧
      (b.minReplicas.getD 1 ≤ b.maxReplicas.getD 10 ∨ b.maxReplicas = none) := by
  have hdata : b.dataMin = b.minReplicas.getD 1 := by
    unfold DeployBody.dataMin
    cases hm : b.minReplicas with
    | none => rfl
    | some v => rw [hm] at hmin; exact if_pos hmin
  unfold DeployBody.maxErrors at hmax
  cases hv : b.maxReplicas with
  | none => exact ⟨by norm_num, Or.inr rfl⟩
  | some v =>
    rw [hv] at hmax
    simp only at hmax
    split at hmax
    · rename_i hr
      refine ⟨checkRange_eq_nil.mp hr, Or.inl ?_⟩
      unfold maxGeMin at hmax
      rw [hdata] at hmax
      split at hmax
      · exact absurd hmax (by simp)
      · rename_i hle
        exact not_lt.mp hle
    · rename_i hr
      exact absurd hmax hr

theorem EnvVar.errors_of_zipIdx {env : List EnvVar}
    (h : (env.zipIdx.flatMap fun e => e.1.errors.map (FieldError.under (toString e.2))) = []) :
    ∀ e ∈ env, e.errors = [] := by
  intro e he
  obtain ⟨i, hi⟩ := List.mem_iff_getElem?.mp he
  have hmem : (e, i) ∈ env.zipIdx := List.mem_zipIdx_iff_getElem?.mpr (by simpa using hi)
  exact List.map_eq_nil_iff.mp (List.flatMap_eq_nil_iff.mp h (e, i) hmem)

/-- **What an accepted `DeployConfig` guarantees**: every range, and `min_replicas ≤ max_replicas`
unless `max_replicas` is the default `10` (it may have been left out, and then nothing compared
the two). -/
theorem DeployConfig.accepted_shape {d : DeployConfig} (h : d.Accepted) :
    d.InRange ∧ (d.minReplicas ≤ d.maxReplicas ∨ d.maxReplicas = 10) := by
  obtain ⟨b, hb⟩ := h
  unfold DeployBody.validate at hb
  split at hb
  · rename_i herr
    obtain rfl := Except.ok.inj hb
    simp only [DeployBody.errors, DeployBody.errorsWith, List.append_eq_nil_iff,
      List.map_eq_nil_iff] at herr
    obtain ⟨⟨⟨⟨⟨hrep, hres⟩, henv⟩, hmin⟩, hmax⟩, hport⟩ := herr
    obtain ⟨hmaxR, hle⟩ := DeployBody.min_le_max hmin hmax
    have hminR : 1 ≤ b.minReplicas.getD 1 ∧ b.minReplicas.getD 1 ≤ 100 :=
      getD_of_elim_checkRange hmin (by norm_num)
    refine ⟨⟨?_, ?_, EnvVar.errors_of_zipIdx henv, toNat_range hminR, toNat_range hmaxR, ?_⟩, ?_⟩
    · exact toNat_range (getD_of_elim_checkRange hrep (by norm_num))
    · show (b.resources.elim {} ResourceLimitsBody.build).InRange
      cases hr : b.resources with
      | none => exact ResourceLimits.inRange_default
      | some r => rw [hr] at hres; exact ResourceLimitsBody.inRange_build hres
    · exact toNat_range (getD_of_elim_checkRange hport (by norm_num))
    · rcases hle with hle | hnone
      · exact Or.inl (Int.toNat_le_toNat hle)
      · right
        show (b.maxReplicas.getD 10).toNat = 10
        rw [hnone]
        rfl
  · exact absurd hb (by simp)

/-- The cross-field rule really is skipped when `max_replicas` is left out. -/
example : (({ minReplicas := some 50 } : DeployBody).validate.toOption.map
    fun d => (d.minReplicas, d.maxReplicas)) = some (50, 10) := by decide +kernel

/-! ## The other requests -/

/-- A validated `AgentConfigIn`, the body of `POST /v1/agents`. -/
structure AgentConfigIn where
  name : String
  runtime : AgentRuntimeKind := .python312
  framework : String := "custom"
  model : String := "gpt-4o"
  apiKey : Option String := none
  systemPrompt : Option String := none
  deploy : Option AcceptedConfig := none
  access : AgentAccess := .priv
  tags : List String := []
  metadata : List (String × String) := []

/-- A validated `AgentUpdate`: an omitted `rate_limit_rpm` is `none`, an explicit null is
`some none`. -/
structure AgentUpdate where
  access : Option AgentAccess := none
  rateLimitRpm : Option (Option Nat) := none
  inRange : ∀ n, rateLimitRpm = some (some n) → 1 ≤ n ∧ n ≤ 100000

/-- A validated `ScaleRequest`. -/
structure ScaleRequest where
  direction : ScaleDirection
  count : Nat := 1
  inRange : 1 ≤ count ∧ count ≤ 50

/-- `AgentResponse`, the timestamps left out. -/
structure AgentResponse where
  id : String
  name : String
  runtime : AgentRuntimeKind
  framework : String
  model : String
  status : AgentStatus
  url : Option String
  deploy : Option DeployConfig
  tags : List String
  metadata : List (String × String)
  error : Option String
  version : Nat
  replicas : Nat
  access : AgentAccess
  rateLimitRpm : Option Nat
  accessKey : Option String := none
  deriving DecidableEq, Repr

end Gateway
