import Gateway.Agents.Api
import Gateway.Metering.Model

/-!
# The whole API (`routers/*.py`)

Every endpoint under `/v1` that authenticates its caller: the agents of `Agents/Api.lean`, API keys,
the admin's invites and users, the account's usage, billing, and `me`. `siteRequest` is one request
with its `Authorization` header; the guard each endpoint names is `SiteRequest.guard`. Signing up,
logging in and the Stripe webhook take no principal and are not among them.

As in `Agents/Api.lean` the creation times, which are only displayed and sorted by, are the order of
the rows. What Stripe answers is part of the request's surroundings.
-/

namespace Gateway

open Lib

/-! ## Imported functions and settings -/

/-- The imported functions of all routers, with `round(x, 4)`. -/
structure SiteDeps extends AuthDeps, ApiDeps where
  round4 : Rounding (1 / 10000)

/-- The settings of all routers. -/
structure SiteSettings where
  gateway : Settings := {}
  auth : AuthSettings := {}
  billing : BillingSettings := {}
  stripeSecretKey : Option String := none
  deriving DecidableEq, Repr

/-- What Stripe answers during one request. -/
structure StripeAnswers where
  createCustomer : User → Except BillingError String
  createSession : SessionParams → Except BillingError String
  createPortal : (customer returnUrl : String) → Except BillingError String

/-! ## API keys (`routers/api_keys.py`) -/

/-- `ApiKeyCreateRequest`. -/
structure ApiKeyCreateRequest where
  label : String
  scopes : List String := []
  labelled : 1 ≤ label.length ∧ label.length ≤ 128

/-- `ApiKeyOut`. -/
structure ApiKeyOut where
  id : ApiKeyId
  label : String
  keyPreview : String
  scopes : List String
  deriving DecidableEq, Repr

/-- `_key_out`. -/
def keyOut (key : ApiKey) : ApiKeyOut where
  id := key.id
  label := key.label
  keyPreview := key.keyPrefix ++ "..."
  scopes := key.scopes

/-! ## Admin (`routers/admin.py`) -/

/-- `InviteCreateRequest`. -/
structure InviteCreateRequest where
  note : String := ""
  maxUses : Nat := 1
  expiresInDays : Option Nat := some 14
  noteShort : note.length ≤ 255
  usesInRange : 1 ≤ maxUses ∧ maxUses ≤ 1000
  daysInRange : ∀ days ∈ expiresInDays, 1 ≤ days ∧ days ≤ 365

/-- `InviteOut`. -/
structure InviteOut where
  id : InviteId
  codePrefix : String
  note : String
  maxUses : Nat
  useCount : Nat
  status : InviteStatus
  expiresAt : Option Instant
  deriving DecidableEq, Repr

/-- `_invite_out`. -/
def inviteOut (invite : Invite) (now : Instant) : InviteOut where
  id := invite.id
  codePrefix := invite.codePrefix
  note := invite.note
  maxUses := invite.maxUses
  useCount := invite.useCount
  status := invite.status now
  expiresAt := invite.expiresAt

/-- `role_to_str`. -/
def roleToStr : Role → String
  | .viewer => "viewer"
  | .operator => "developer"
  | .admin => "admin"

/-- `AdminUserOut`. -/
structure AdminUserOut where
  id : UserId
  email : String
  name : String
  role : String
  plan : String
  isActive : Bool
  agents : Nat
  deriving DecidableEq, Repr

/-- `_agent_count`. -/
def agentCount (db : Db) (userId : UserId) : Nat :=
  (db.agents.rows.filter fun a => a.userId = userId).length

/-- `_user_out` of the admin's pages. -/
def adminUserOut (db : Db) (user : User) : AdminUserOut where
  id := user.id
  email := user.email
  name := user.name
  role := roleToStr user.role
  plan := user.plan
  isActive := user.isActive
  agents := agentCount db user.id

/-! ## The account's usage (`routers/account.py`) -/

/-- The day of the month of a day since the epoch, counted from 0: in years that start in March the
lengths of the months repeat every five, and in eras of 400 years so do the leap days. -/
def dayOfMonth (day : Int) : Int :=
  let dayOfEra := (day + 719468) % 146097
  let yearOfEra :=
    (dayOfEra - dayOfEra / 1460 + dayOfEra / 36524 - dayOfEra / 146096) / 365
  let dayOfYear := dayOfEra - (365 * yearOfEra + yearOfEra / 4 - yearOfEra / 100)
  dayOfYear - (153 * ((5 * dayOfYear + 2) / 153) + 2) / 5

/-- `month_start`. -/
def monthStart (now : Instant) : Instant :=
  (now / dayMicros - dayOfMonth (now / dayMicros)) * dayMicros

-- 2024-02-29 12:00 UTC belongs to the month that started on 2024-02-01.
example : monthStart (19782 * dayMicros + dayMicros / 2) = 19754 * dayMicros := by decide

/-- `PeriodTotals`. -/
structure PeriodTotals where
  start : Instant
  replicaHours : ℚ
  vcpuHours : ℚ
  memoryGbHours : ℚ
  requests : Nat
  deriving DecidableEq, Repr

/-- `period_totals` without an end. -/
def periodTotals (d : SiteDeps) (db : Db) (userId : UserId) (start : Instant) : PeriodTotals :=
  let rows := db.usageHours.rows.filter fun r => r.userId = userId ∧ start ≤ r.hourStart
  { start := start
    replicaHours := d.round4.round ((rows.map UsageHour.replicaSeconds).sum / 3600)
    vcpuHours := d.round4.round ((rows.map UsageHour.vcpuSeconds).sum / 3600)
    memoryGbHours := d.round4.round ((rows.map UsageHour.memoryMbSeconds).sum / 1024 / 3600)
    requests := (rows.map UsageHour.requests).sum }

/-- `AccountUsage`. -/
structure AccountUsage where
  plan : String
  exempt : Bool
  limits : PlanLimits
  usage : Usage
  period : PeriodTotals

/-- `usage`. -/
def accountUsage (d : SiteDeps) (db : Db) (userId : UserId) (now : Instant) :
    Except ApiError AccountUsage :=
  match db.users.find? userId with
  | none => .error (.service invalidToken)
  | some user =>
    .ok
      { plan := user.plan
        exempt := isExempt d.toDeps user
        limits := limitsFor user.plan
        usage := currentUsage d.toDeps db userId none
        period := periodTotals d db userId (monthStart now) }

/-! ## Billing (`routers/billing.py`) -/

/-- `billing_enabled`. -/
def billingEnabled (cfg : SiteSettings) : Bool :=
  (truthy cfg.stripeSecretKey).isSome && (truthy cfg.billing.stripePricePro).isSome

/-- `BillingStatus`. -/
structure BillingStatus where
  enabled : Bool
  plan : String
  subscriptionStatus : Option String
  hasBillingAccount : Bool
  deriving DecidableEq, Repr

/-- `checkout_url` on a loaded row: the URL, and the `users` it leaves. -/
def checkoutUrl (b : BillingSettings) (stripe : StripeAnswers) (users : Table User User.id)
    (user : User) : Except BillingError String × Table User User.id :=
  match checkoutGuard user with
  | .error e => (.error e, users)
  | .ok () =>
    match ensureCustomer users user (stripe.createCustomer user) with
    | .error e => (.error e, users)
    | .ok (customer, users) => (stripe.createSession (sessionParams b user customer), users)

/-- `portal_url` on a loaded row. -/
def portalUrl (b : BillingSettings) (stripe : StripeAnswers) (user : User) :
    Except BillingError String :=
  match truthy user.stripeCustomerId with
  | none =>
    .error (.conflict "There's no billing account yet — upgrade first." "NO_BILLING_ACCOUNT")
  | some customer => stripe.createPortal customer (consoleUrl b "/settings?billing=portal")

/-! ## `me` (`routers/auth.py`) -/

/-- `UserOut`; `avatarUrl` is always null. -/
structure UserOut where
  id : UserId
  name : String
  email : String
  role : String
  plan : String
  deriving DecidableEq, Repr

/-- `_user_out` of the auth router. -/
def userOut (user : User) : UserOut where
  id := user.id
  name := user.name
  email := user.email
  role := roleToStr user.role
  plan := user.plan

/-! ## Requests -/

/-- A request to an endpoint that authenticates its caller, with what it draws. -/
inductive SiteRequest where
  | agents (request : AgentsRequest)
  | createKey (body : ApiKeyCreateRequest) (keyId : ApiKeyId) (rawKey : String)
  | listKeys
  | deleteKey (keyId : ApiKeyId)
  | createInvite (body : InviteCreateRequest) (newId : InviteId) (token : String)
  | listInvites
  | revokeInvite (inviteId : InviteId)
  | listUsers
  | updateUser (userId : UserId) (body : AdminUserUpdate)
  | usage
  | billingStatus
  | checkout
  | portal
  | me

/-- `_require_admin`. -/
def requireAdmin : Guard := .role .admin false

/-- `_require_developer_session` and `_require_billing_session`. -/
def requireDeveloperSession : Guard := .role .operator true

/-- The dependency each endpoint names. -/
def SiteRequest.guard : SiteRequest → Guard
  | .agents request => request.guard
  | .createKey _ _ _ => requireDeveloperSession
  | .listKeys => .currentPrincipal
  | .deleteKey _ => .currentPrincipal
  | .createInvite _ _ _ => requireAdmin
  | .listInvites => requireAdmin
  | .revokeInvite _ => requireAdmin
  | .listUsers => requireAdmin
  | .updateUser _ _ => requireAdmin
  | .usage => .currentPrincipal
  | .billingStatus => .currentPrincipal
  | .checkout => requireDeveloperSession
  | .portal => requireDeveloperSession
  | .me => .currentPrincipal

/-- What an endpoint returns. -/
inductive SiteAnswer where
  | agents (answer : AgentsAnswer)
  | apiKey (key : ApiKeyOut) (rawKey : String)
  | apiKeys (keys : List ApiKeyOut)
  | invite (invite : InviteOut) (rawCode : String)
  | invites (invites : List InviteOut)
  | users (users : List AdminUserOut)
  | user (user : AdminUserOut)
  | usage (usage : AccountUsage)
  | billing (status : BillingStatus)
  | redirect (url : String)
  | me (user : UserOut)
  | noContent

/-- What a request meets: what one to `/v1/agents` does, and Stripe. -/
structure SiteSurroundings extends Surroundings where
  stripe : StripeAnswers

/-! ## The handlers -/

/-- `_user`: the row of the caller. -/
def callerRow (site : Site) (p : Principal) : Except ApiError User :=
  match site.world.db.users.find? p.userId with
  | none => .error (.authentication "Invalid or expired token.")
  | some user => .ok user

/-- `checkout` and `portal` ask for a Stripe client before anything else. -/
def withStripe {α : Type} (cfg : SiteSettings) (site : Site)
    (handler : Except ApiError α × Site) : Except ApiError α × Site :=
  if billingEnabled cfg then handler else (.error .billingNotConfigured, site)

/-- `checkout`. -/
def checkout (cfg : SiteSettings) (stripe : StripeAnswers) (site : Site) (p : Principal) :
    Except ApiError SiteAnswer × Site :=
  match callerRow site p with
  | .error e => (.error e, site)
  | .ok user =>
    let out := checkoutUrl cfg.billing stripe site.world.db.users user
    ((out.1.mapError .billing).map .redirect,
      { site with world := { site.world with db := { site.world.db with users := out.2 } } })

/-- The handler of a request, for the caller the guard let in. -/
def siteHandler (d : SiteDeps) (cfg : SiteSettings) (m : SiteSurroundings) (site : Site)
    (p : Principal) : SiteRequest → Except ApiError SiteAnswer × Site
  | .agents request =>
    let out := agentsHandler d.toApiDeps cfg.gateway m.toSurroundings site.world p.userId request
    ((out.1.mapError .service).map .agents, { site with world := out.2 })
  | .createKey body keyId rawKey =>
    match callerRow site p with
    | .error e => (.error e, site)
    | .ok user =>
      let out := createApiKey d.toAuthDeps site user.id body.label body.scopes keyId rawKey
      (out.1.map fun key => .apiKey (keyOut key.1) key.2, out.2)
  | .listKeys => (.ok (.apiKeys ((listApiKeys site p.userId).map keyOut)), site)
  | .deleteKey keyId =>
    let out := revokeApiKey site m.now p.userId keyId
    (out.1.map fun _ => .noContent, out.2)
  | .createInvite body newId token =>
    let out := createInvite d.toAuthDeps site m.now p.userId (d.strip body.note) body.maxUses
      body.expiresInDays newId token
    (out.1.map fun invite => .invite (inviteOut invite.1 m.now) invite.2, out.2)
  | .listInvites =>
    (.ok (.invites (site.invites.rows.reverse.map fun i => inviteOut i m.now)), site)
  | .revokeInvite inviteId =>
    let out := revokeInvite site m.now inviteId
    (out.1.map fun _ => .noContent, out.2)
  | .listUsers =>
    (.ok (.users (site.world.db.users.rows.reverse.map (adminUserOut site.world.db))), site)
  | .updateUser userId body =>
    let out := updateUser site p.userId userId body
    (out.1.map fun user => .user (adminUserOut out.2.world.db user), out.2)
  | .usage => ((accountUsage d site.world.db p.userId m.now).map .usage, site)
  | .billingStatus =>
    ((callerRow site p).map fun user =>
      .billing
        { enabled := billingEnabled cfg
          plan := user.plan
          subscriptionStatus := user.subscriptionStatus
          hasBillingAccount := user.stripeCustomerId.isSome }, site)
  | .checkout => withStripe cfg site (checkout cfg m.stripe site p)
  | .portal =>
    withStripe cfg site
      ((callerRow site p).bind fun user =>
        ((portalUrl cfg.billing m.stripe user).mapError .billing).map .redirect, site)
  | .me => ((callerRow site p).map fun user => .me (userOut user), site)

/-- One request with its bearer token. -/
def siteRequest (d : SiteDeps) (cfg : SiteSettings) (m : SiteSurroundings) (site : Site)
    (creds : Option String) (req : SiteRequest) : Except ApiError SiteAnswer × Site :=
  match req.guard.enforce d.toAuthDeps cfg.auth site m.now creds with
  | .error e => (.error e, site)
  | .ok p => siteHandler d cfg m site p req

end Gateway
