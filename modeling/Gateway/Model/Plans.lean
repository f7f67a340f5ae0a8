import Gateway.Lib.Rounding

/-!
# Accounts, roles, plans (`models/user.py`, `plans.py`, `roles.py`)

* `Role` is `agntspark_core.auth.Role`, with the three members `roles.py` names; what a role can do
  is not in the repository and is one of the imported functions (`Deps.can`).
* `PlanLimits`, `PLANS` and `limits_for` as in `plans.py`; an unknown plan name falls back to
  `free`. CPU is a `float` in the source and a rational here.
* `User` has the columns the modelled services read or write. `users.role` is stored as an
  integer and always read through `role_enum`, so it is the role itself here.
-/

namespace Gateway

/-- The primary key of `users`, a UUID. -/
abbrev UserId := BitVec 128

/-- `agntspark_core.auth.Role`. -/
inductive Role where
  | viewer
  | operator
  | admin
  deriving DecidableEq, Repr

/-- `PlanLimits`. -/
structure PlanLimits where
  maxAgents : Nat
  maxReplicas : Nat
  maxVcpu : ℚ
  maxMemoryMb : Nat
  maxReplicaCpu : ℚ
  maxReplicaMemoryMb : Nat
  maxAgentRpm : Nat
  deriving DecidableEq, Repr

/-- `PLANS["free"]`. -/
def freePlan : PlanLimits where
  maxAgents := 3
  maxReplicas := 3
  maxVcpu := 3
  maxMemoryMb := 1536
  maxReplicaCpu := 1
  maxReplicaMemoryMb := 1024
  maxAgentRpm := 300

/-- `PLANS["pro"]`. -/
def proPlan : PlanLimits where
  maxAgents := 20
  maxReplicas := 20
  maxVcpu := 16
  maxMemoryMb := 8192
  maxReplicaCpu := 2
  maxReplicaMemoryMb := 4096
  maxAgentRpm := 3000

/-- `DEFAULT_PLAN`. -/
def defaultPlan : String := "free"

/-- `PAID_PLAN` (`services/billing_service.py`). -/
def paidPlan : String := "pro"

/-- `limits_for`: `PLANS.get(plan, PLANS[DEFAULT_PLAN])`. -/
def limitsFor (plan : String) : PlanLimits :=
  if plan = paidPlan then proPlan else freePlan

/-- A row of `users`. -/
structure User where
  id : UserId
  email : String
  name : String
  role : Role := .operator
  plan : String := defaultPlan
  stripeCustomerId : Option String := none
  stripeSubscriptionId : Option String := none
  subscriptionStatus : Option String := none
  isActive : Bool := true
  deriving DecidableEq, Repr

end Gateway
