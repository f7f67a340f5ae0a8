import Mathlib.Logic.Relation
import Gateway.Accounts.LastAdmin
import Gateway.Ingress.Private

/-!
# The whole gateway

One step is a complete request of any kind: to an endpoint that authenticates its caller
(`Accounts/Api.lean`), a registration, a login, a delivery to the Stripe webhook, a visit to an
agent through the ingress, a tick of the scheduler, or a run of `scripts/set_user_role.py` by an
operator. The requests carry whatever their senders choose; the runtime, Stripe, the clock and the
random draws are part of the step.

* `webhook` is the endpoint: the secret must be configured, `stripe.Webhook.construct_event` must
  accept the payload, and only then is the event read and applied.
* `AgentsWrite`, `agentsHandler_writes`: a request to `/v1/agents` is a chain of calls of the agent
  service and of writes of access keys.
* **`gatewayStep_users`**: everything a step can do to the `users` table (`UsersEffect`), with
  whoever asked for it.

Out of scope: steps are serial. Requests and ticks that overlap or are cancelled, and commits that
fail, are the subject of the modules on races (`Agents/UpdateRace.lean`, `Agents/TickRace.lean` and
the others); a failed flush of a tick has written nothing.
-/

namespace Gateway

open Lib

/-! ## The webhook (`routers/billing.py`) -/

/-- The imported functions of the whole gateway: those of the routers, whether
`stripe.Webhook.construct_event` returns, and `json.loads` on a payload. -/
structure GatewayDeps extends SiteDeps where
  constructEvent : (payload signature secret : String) → Bool
  loads : String → Option StripeEvent

/-- A choice to run the model with, that accepts no payload. -/
def GatewayDeps.transparent : GatewayDeps where
  toSiteDeps := .transparent
  constructEvent _ _ _ := false
  loads _ := none

/-- The settings of the whole gateway. -/
structure GatewaySettings extends SiteSettings where
  stripeWebhookSecret : Option String := none
  deriving DecidableEq, Repr

/-- What the webhook raises; `unreadable` is an error outside the handlers, answered 500. -/
inductive WebhookError where
  | billingNotConfigured
  | invalidWebhook
  | unreadable
  | billing (error : BillingError)
  deriving DecidableEq, Repr

/-- The site with another `users` table. -/
def Site.withUsers (site : Site) (users : Table User User.id) : Site :=
  { site with world := { site.world with db := { site.world.db with users := users } } }

/-- The client `handle_event` is given. -/
def webhookClient (cfg : GatewaySettings) (retrieve : StripeClient) : Option StripeClient :=
  if billingEnabled cfg.toSiteSettings then some retrieve else none

/-- `webhook`. -/
def webhook (d : GatewayDeps) (cfg : GatewaySettings) (retrieve : StripeClient) (site : Site)
    (payload signature : String) : Except WebhookError Unit × Site :=
  match truthy cfg.stripeWebhookSecret with
  | none => (.error .billingNotConfigured, site)
  | some secret =>
    if d.constructEvent payload signature secret then
      match d.loads payload with
      | none => (.error .unreadable, site)
      | some event =>
        match handleEvent site.world.db.users event (webhookClient cfg retrieve) with
        | .error e => (.error (.billing e), site)
        | .ok users => (.ok (), site.withUsers users)
    else (.error .invalidWebhook, site)

/-! ## The operator's script (`scripts/set_user_role.py`) -/

/-- `set_role`: `none` when there is no such account. -/
def setRole (site : Site) (email : String) (role : Role) : Option Unit × Site :=
  match site.world.db.users.rows.find? fun u => u.email = email with
  | none => (none, site)
  | some user => (some (), site.withUsers (site.world.db.users.put { user with role := role }))

/-! ## Steps -/

/-- What a registration sends and draws. -/
structure SignUp where
  now : Instant
  email : String
  password : String
  name : String
  inviteCode : Option String
  newId : UserId
  salt : String

/-- A step of the gateway. -/
inductive GatewayStep where
  | request (m : SiteSurroundings) (creds : Option String) (req : SiteRequest)
  | register (r : SignUp)
  | login (email password : String)
  | webhook (retrieve : StripeClient) (payload signature : String)
  | visit (env : RouteEnv) (req : RouteRequest)
  | tick (rt : Runtime) (elapsed : Option ℚ) (now : Instant) (flushFails : Bool)
  | setRole (email : String) (role : Role)

/-- `POST /v1/auth/register`. -/
def siteRegister (d : AuthDeps) (a : AuthSettings) (site : Site) (r : SignUp) :
    Except ApiError User × Site :=
  registerUser d a site r.now r.email r.password r.name r.inviteCode r.newId r.salt

/-- One step. -/
def gatewayStep (d : GatewayDeps) (cfg : GatewaySettings) (site : Site) : GatewayStep → Site
  | .request m creds req => (siteRequest d.toSiteDeps cfg.toSiteSettings m site creds req).2
  | .register r => (siteRegister d.toAuthDeps cfg.auth site r).2
  | .login email password => (siteLogin d.toAuthDeps site email password).2
  | .webhook retrieve payload signature => (webhook d cfg retrieve site payload signature).2
  | .visit env req =>
    { site with world := (route d.toDeps cfg.gateway env site.world req).2 }
  | .tick rt elapsed now flushFails =>
    { site with world := (tick d.toDeps cfg.gateway rt elapsed now flushFails site.world).2 }
  | .setRole email role => (setRole site email role).2

/-! ## What a request to the agents can do -/

/-- The user a call is made for. -/
def Call.userId : Call → UserId
  | .create u _ _ _ => u
  | .update u _ _ => u
  | .deploy u _ _ => u
  | .scale u _ _ => u
  | .delete u _ => u

/-- One write of a request of `u`: a call of the service, or of an access key. -/
inductive AgentsWrite (d : Deps) (u : UserId) (w : World) : World → Prop
  | call (rt : Runtime) (c : Call) (hu : c.userId = u) : AgentsWrite d u w (c.exec d rt w)
  | mints {key : AgentAccessKey} {w' : World} (h : insertAccessKey? w key = some w') :
      AgentsWrite d u w w'
  | drops (keyId : KeyId) :
      AgentsWrite d u w { w with db := { w.db with accessKeys := w.db.accessKeys.erase keyId } }

section Writes

variable {d : Deps} {u : UserId} {w : World}

/-- Making a key is at most one write. -/
theorem createAccessKey_writes (d : Deps) (u : UserId) (w : World) (agentId : AgentId)
    (label : String) (keyId : KeyId) (token : String) :
    Relation.ReflTransGen (AgentsWrite d u) w
      (createAccessKey d w agentId label keyId token).2 := by
  unfold createAccessKey
  simp only
  cases hins : insertAccessKey? w (newAccessKey d agentId label keyId token).1 with
  | none => exact .refl
  | some w' => exact .single (.mints hins)

theorem deleteAccessKey_writes (d : Deps) (u : UserId) (w : World) (agentId : AgentId)
    (keyId : KeyId) :
    Relation.ReflTransGen (AgentsWrite d u) w (deleteAccessKey w agentId keyId).2 := by
  unfold deleteAccessKey
  cases w.db.accessKeys.find? keyId with
  | none => exact .refl
  | some key =>
    simp only
    split_ifs
    · exact .refl
    · exact .single (.drops keyId)

/-- Creating through the router: the call, then at most the first key. -/
theorem routerCreateAgent_writes (d : Deps) (s : Settings) (rt : Runtime) (u : UserId) (w : World)
    (body : AgentConfigIn) (newId : AgentId) (suffix : List Char) (keyId : KeyId)
    (token : String) :
    Relation.ReflTransGen (AgentsWrite d u) w
      (Router.createAgent d s rt w u body newId suffix keyId token).2 := by
  have hcall : AgentsWrite d u w (Gateway.createAgent d rt w u body newId suffix).2 :=
    .call rt (.create u body newId suffix) rfl
  cases hout : Gateway.createAgent d rt w u body newId suffix with
  | mk res w₁ =>
    rw [hout] at hcall
    cases res with
    | error e =>
      rw [Router.createAgent_of_error hout]
      exact .single hcall
    | ok agent =>
      rw [Router.createAgent_of_ok hout]
      cases toAgentResponse s agent with
      | error es => exact .single hcall
      | ok response =>
        simp only
        split_ifs
        · exact .head hcall (createAccessKey_writes d u w₁ agent.id "default" keyId token)
        · exact .single hcall

/-- **A request to `/v1/agents` is a chain of writes of its caller.** -/
theorem agentsHandler_writes (d : ApiDeps) (s : Settings) (m : Surroundings) (w : World)
    (u : UserId) (req : AgentsRequest) :
    Relation.ReflTransGen (AgentsWrite d.toDeps u) w (agentsHandler d s m w u req).2 := by
  cases req with
  | create body draws =>
    exact routerCreateAgent_writes d.toDeps s m.runtime u w body draws.newId draws.suffix
      draws.keyId draws.token
  | update id body => exact .single (.call m.runtime (.update u id body) rfl)
  | createAccessKey id label keyId token =>
    show Relation.ReflTransGen _ w (Router.createAccessKey d.toDeps w u id label keyId token).2
    unfold Router.createAccessKey
    cases w.db.ownedAgent? u id with
    | none => exact .refl
    | some agent => exact createAccessKey_writes d.toDeps u w agent.id _ keyId token
  | deleteAccessKey id keyId =>
    show Relation.ReflTransGen _ w (Router.deleteAccessKey w u id keyId).2
    unfold Router.deleteAccessKey
    cases w.db.ownedAgent? u id with
    | none => exact .refl
    | some agent => exact deleteAccessKey_writes d.toDeps u w agent.id keyId
  | delete id => exact .single (.call m.runtime (.delete u id) rfl)
  | deploy id body => exact .single (.call m.runtime (.deploy u id body) rfl)
  | scale id body => exact .single (.call m.runtime (.scale u id body) rfl)
  | _ => exact .refl

/-- **The rule for requests to the agents**: what every write preserves, the request does. -/
theorem agentsHandler_inv {P : World → Prop} (d : ApiDeps) (s : Settings) (m : Surroundings)
    (u : UserId) (req : AgentsRequest)
    (hwrite : ∀ w w', AgentsWrite d.toDeps u w w' → P w → P w') {w : World} (h : P w) :
    P (agentsHandler d s m w u req).2 := by
  have hchain := agentsHandler_writes d s m w u req
  generalize (agentsHandler d s m w u req).2 = w' at hchain
  induction hchain with
  | refl => exact h
  | tail _ hstep ih => exact hwrite _ _ hstep ih

/-- What the agent service leaves alone: the accounts, the requests not yet flushed, the limiters.
-/
structure KeepsRest (w w' : World) : Prop where
  users : w'.db.users = w.db.users
  pending : w'.pending = w.pending
  perClient : w'.perClient = w.perClient
  perAgent : w'.perAgent = w.perAgent

theorem KeepsRest.refl (w : World) : KeepsRest w w := ⟨rfl, rfl, rfl, rfl⟩

theorem KeepsRest.trans {w₁ w₂ w₃ : World} (h : KeepsRest w₁ w₂) (h' : KeepsRest w₂ w₃) :
    KeepsRest w₁ w₃ :=
  ⟨h'.users.trans h.users, h'.pending.trans h.pending, h'.perClient.trans h.perClient,
    h'.perAgent.trans h.perAgent⟩

theorem Rewrites.keepsRest {w w' : World} {old new : Agent} {cs : List Container}
    (h : Rewrites w w' old new cs) : KeepsRest w w' :=
  ⟨h.users, h.pending, h.perClient, h.perAgent⟩

theorem Inserts.keepsRest {w w' : World} {new : Agent} (h : Inserts w w' new) : KeepsRest w w' :=
  ⟨h.users, h.pending, h.perClient, h.perAgent⟩

theorem AgentsWrite.keepsRest {w' : World} (h : AgentsWrite d u w w') : KeepsRest w w' := by
  cases h with
  | call rt c hu =>
    have heffect := c.exec_effect d rt w
    generalize c.exec d rt w = w' at heffect
    cases heffect with
    | refused => exact .refl w
    | updated _ hrw => exact hrw.keepsRest
    | deployed _ _ _ hrw => exact hrw.keepsRest
    | scaled _ _ _ hrw => exact hrw.keepsRest
    | removeFailed _ _ hrw => exact hrw.keepsRest
    | removed _ _ hrm => exact ⟨hrm.users, hrm.pending, hrm.perClient, hrm.perAgent⟩
    | created _ hins => exact hins.keepsRest
    | createdDeployed _ _ hins _ _ hrw => exact hins.keepsRest.trans hrw.keepsRest
  | mints hins =>
    unfold insertAccessKey? at hins
    split at hins
    · cases hins
    · obtain ⟨t, -, rfl⟩ := Option.map_eq_some_iff.mp hins
      exact ⟨rfl, rfl, rfl, rfl⟩
  | drops keyId => exact ⟨rfl, rfl, rfl, rfl⟩

/-- A request to the agents leaves the rest. -/
theorem agentsHandler_keepsRest (d : ApiDeps) (s : Settings) (m : Surroundings) (w : World)
    (u : UserId) (req : AgentsRequest) : KeepsRest w (agentsHandler d s m w u req).2 :=
  agentsHandler_inv (P := KeepsRest w) d s m u req (fun _ _ hwrite h => h.trans hwrite.keepsRest)
    (.refl w)

end Writes

theorem tick_users (d : Deps) (s : Settings) (rt : Runtime) (elapsed : Option ℚ) (now : Instant)
    (flushFails : Bool) (w : World) :
    (tick d s rt elapsed now flushFails w).2.db.users = w.db.users :=
  tick_inv (P := fun w' => w'.db.users = w.db.users) (fun h => (flushRequests_users _ _).trans h)
    (fun _ _ _ _ _ _ h _ _ hrw => hrw.users.trans h) rfl

/-! ## What a step can do to the accounts -/

/-- What a step of the gateway can do to the `users` table, with whoever asked for it. -/
inductive UsersEffect (d : GatewayDeps) (cfg : GatewaySettings) (site : Site) :
    GatewayStep → Table User User.id → Prop
  | kept {i : GatewayStep} : UsersEffect d cfg site i site.world.db.users
  | registered {r : SignUp} {users' : Table User User.id}
      (hemail : r.email ∉ site.world.db.users.rows.map User.email)
      (h : site.world.db.users.insert? (newUser r.email r.name r.newId) = some users') :
      UsersEffect d cfg site (.register r) users'
  | patched {m : SiteSurroundings} {creds : Option String} {userId : UserId}
      {body : AdminUserUpdate} {p : Principal} {caller user : User}
      (hguard : requireAdmin.enforce d.toAuthDeps cfg.auth site m.now creds = .ok p)
      (hcaller : site.world.db.users.find? p.userId = some caller)
      (hadmin : caller.isActiveAdmin) (huser : site.world.db.users.find? userId = some user) :
      UsersEffect d cfg site (.request m creds (.updateUser userId body))
        (site.world.db.users.put (updatedUser user body))
  | customer {m : SiteSurroundings} {creds : Option String} {user : User} {customerId : String}
      {users' : Table User User.id} (huser : site.world.db.users.find? user.id = some user)
      (h : saveUser site.world.db.users { user with stripeCustomerId := some customerId } =
        .ok users') :
      UsersEffect d cfg site (.request m creds .checkout) users'
  | billed {retrieve : StripeClient} {payload signature secret : String} {event : StripeEvent}
      {obj : StripeObject} {users' : Table User User.id}
      (hsecret : truthy cfg.stripeWebhookSecret = some secret)
      (hverified : d.constructEvent payload signature secret = true)
      (hloads : d.loads payload = some event)
      (hresolve : resolveObject (webhookClient cfg retrieve) event = .ok obj)
      (h : applyEvent site.world.db.users event.type obj = .ok users') :
      UsersEffect d cfg site (.webhook retrieve payload signature) users'
  | scripted {email : String} {role : Role} {user : User}
      (huser : user ∈ site.world.db.users.rows) (hemail : user.email = email) :
      UsersEffect d cfg site (.setRole email role)
        (site.world.db.users.put { user with role := role })

section Accounts

variable {d : GatewayDeps} {cfg : GatewaySettings} {site : Site}

theorem callerRow_ok {p : Principal} {user : User} (h : callerRow site p = .ok user) :
    site.world.db.users.find? user.id = some user := by
  unfold callerRow at h
  split at h
  · cases h
  · rename_i found hfound
    obtain rfl := Except.ok.inj h
    rw [Table.key_of_find? hfound]
    exact hfound

theorem createApiKey_users (d : AuthDeps) (site : Site) (u : UserId) (label : String)
    (scopes : List String) (keyId : ApiKeyId) (rawKey : String) :
    (createApiKey d site u label scopes keyId rawKey).2.world = site.world := by
  unfold createApiKey
  simp only
  cases hins : insertApiKey? site (newApiKey d u label scopes keyId rawKey) with
  | none => rfl
  | some site' =>
    unfold insertApiKey? at hins
    split at hins
    · cases hins
    · obtain ⟨t, -, rfl⟩ := Option.map_eq_some_iff.mp hins
      rfl

theorem createInvite_users (d : AuthDeps) (site : Site) (now : Instant) (u : UserId)
    (note : String) (maxUses : Nat) (days : Option Nat) (newId : InviteId) (token : String) :
    (createInvite d site now u note maxUses days newId token).2.world = site.world := by
  unfold createInvite
  simp only
  cases hins : insertInvite? site (newInvite d now u note maxUses days newId token).1 with
  | none => rfl
  | some site' =>
    unfold insertInvite? at hins
    split at hins
    · cases hins
    · obtain ⟨t, -, rfl⟩ := Option.map_eq_some_iff.mp hins
      rfl

/-- Starting a checkout writes the customer of the caller's row at most. -/
theorem checkout_users (stripe : StripeAnswers) (p : Principal) (m : SiteSurroundings)
    (creds : Option String) :
    UsersEffect d cfg site (.request m creds .checkout)
      (withStripe cfg.toSiteSettings site
        (checkout cfg.toSiteSettings stripe site p)).2.world.db.users := by
  unfold withStripe
  split_ifs
  · unfold checkout
    cases hcaller : callerRow site p with
    | error e => exact .kept
    | ok user =>
      have hrow := callerRow_ok hcaller
      simp only
      unfold checkoutUrl
      cases checkoutGuard user with
      | error e => exact .kept
      | ok _ =>
        simp only
        cases hensure : ensureCustomer site.world.db.users user (stripe.createCustomer user) with
        | error e => exact .kept
        | ok out =>
          obtain ⟨customer, users'⟩ := out
          unfold ensureCustomer at hensure
          rw [hrow] at hensure
          simp only [Option.getD_some] at hensure
          split at hensure
          · obtain ⟨-, rfl⟩ := Prod.mk.inj (Except.ok.inj hensure)
            exact .kept
          · split at hensure
            · cases hensure
            · split at hensure
              · cases hensure
              · rename_i hsave
                obtain ⟨-, rfl⟩ := Prod.mk.inj (Except.ok.inj hensure)
                exact .customer hrow hsave
  · exact .kept

/-- The update of an account, for whoever the guard let in. -/
theorem updateUser_users {m : SiteSurroundings} {creds : Option String} {p : Principal}
    (hguard : requireAdmin.enforce d.toAuthDeps cfg.auth site m.now creds = .ok p)
    (userId : UserId) (body : AdminUserUpdate) :
    UsersEffect d cfg site (.request m creds (.updateUser userId body))
      (updateUser site p.userId userId body).2.world.db.users := by
  obtain ⟨caller, hcaller, hadmin⟩ := Guard.enforce_admin hguard
  unfold updateUser
  cases huser : site.world.db.users.find? userId with
  | none => exact .kept
  | some user =>
    simp only
    split_ifs
    · exact .kept
    · exact .patched hguard hcaller hadmin huser

theorem siteRequest_users (m : SiteSurroundings) (creds : Option String) (req : SiteRequest) :
    UsersEffect d cfg site (.request m creds req)
      (siteRequest d.toSiteDeps cfg.toSiteSettings m site creds req).2.world.db.users := by
  unfold siteRequest
  cases hguard : req.guard.enforce d.toAuthDeps cfg.auth site m.now creds with
  | error e => exact .kept
  | ok p =>
    show UsersEffect d cfg site _
      (siteHandler d.toSiteDeps cfg.toSiteSettings m site p req).2.world.db.users
    cases req with
    | agents request =>
      have hsame := (agentsHandler_keepsRest d.toApiDeps cfg.gateway m.toSurroundings site.world
        p.userId request).users
      show UsersEffect d cfg site _ (agentsHandler d.toApiDeps cfg.gateway m.toSurroundings
        site.world p.userId request).2.db.users
      rw [hsame]
      exact .kept
    | createKey body keyId rawKey =>
      simp only [siteHandler]
      cases callerRow site p with
      | error e => exact .kept
      | ok user =>
        simp only
        rw [createApiKey_users]
        exact .kept
    | deleteKey keyId =>
      simp only [siteHandler]
      unfold revokeApiKey
      split
      · exact .kept
      · split_ifs
        · exact .kept
        · exact .kept
    | createInvite body newId token =>
      simp only [siteHandler]
      rw [createInvite_users]
      exact .kept
    | revokeInvite inviteId =>
      simp only [siteHandler]
      unfold revokeInvite
      split
      · exact .kept
      · split_ifs
        · exact .kept
        · exact .kept
    | updateUser userId body => exact updateUser_users hguard userId body
    | checkout => exact checkout_users m.stripe p m creds
    | portal =>
      simp only [siteHandler, withStripe]
      split_ifs
      · exact .kept
      · exact .kept
    | _ => exact .kept

theorem siteRegister_users (r : SignUp) :
    UsersEffect d cfg site (.register r)
      (siteRegister d.toAuthDeps cfg.auth site r).2.world.db.users := by
  unfold siteRegister registerUser
  split_ifs with hclosed hemail
  · exact .kept
  · exact .kept
  · cases registrationInvites d.toAuthDeps cfg.auth site r.now r.inviteCode with
    | error e => exact .kept
    | ok invites =>
      simp only
      cases hins : insertUser? site (newUser r.email r.name r.newId)
          (d.hashPassword r.salt r.password) with
      | none => exact .kept
      | some site' =>
        unfold insertUser? at hins
        split at hins
        · cases hins
        · obtain ⟨t, ht, rfl⟩ := Option.map_eq_some_iff.mp hins
          exact .registered hemail ht

theorem webhook_users (retrieve : StripeClient) (payload signature : String) :
    UsersEffect d cfg site (.webhook retrieve payload signature)
      (webhook d cfg retrieve site payload signature).2.world.db.users := by
  unfold webhook
  cases hsecret : truthy cfg.stripeWebhookSecret with
  | none => exact .kept
  | some secret =>
    simp only
    split_ifs with hverified
    · cases hloads : d.loads payload with
      | none => exact .kept
      | some event =>
        simp only
        cases hevent : handleEvent site.world.db.users event (webhookClient cfg retrieve) with
        | error e => exact .kept
        | ok users' =>
          unfold handleEvent at hevent
          split at hevent
          · cases hevent
          · rename_i obj hresolve
            exact .billed hsecret hverified hloads hresolve hevent
    · exact .kept

/-- **Everything a step can do to the accounts.** -/
theorem gatewayStep_users (d : GatewayDeps) (cfg : GatewaySettings) (site : Site)
    (i : GatewayStep) : UsersEffect d cfg site i (gatewayStep d cfg site i).world.db.users := by
  cases i with
  | request m creds req => exact siteRequest_users m creds req
  | register r => exact siteRegister_users r
  | login email password => exact .kept
  | webhook retrieve payload signature => exact webhook_users retrieve payload signature
  | visit env req =>
    have hdb := (route_frame d.toDeps cfg.gateway env site.world req).1
    show UsersEffect d cfg site _ (route d.toDeps cfg.gateway env site.world req).2.db.users
    rw [hdb]
    exact .kept
  | tick rt elapsed now flushFails =>
    have hsame := tick_users d.toDeps cfg.gateway rt elapsed now flushFails site.world
    show UsersEffect d cfg site _
      (tick d.toDeps cfg.gateway rt elapsed now flushFails site.world).2.db.users
    rw [hsame]
    exact .kept
  | setRole email role =>
    show UsersEffect d cfg site _ (setRole site email role).2.world.db.users
    unfold setRole
    cases hfound : site.world.db.users.rows.find? fun u => u.email = email with
    | none => exact .kept
    | some user =>
      exact .scripted (List.mem_of_find?_eq_some hfound) (by simpa using List.find?_some hfound)

/-! ## The steps that leave the agents -/

/-- The steps that read or write agents: requests to `/v1/agents`, visits and ticks. -/
def GatewayStep.touchesAgents : GatewayStep → Bool
  | .request _ _ (.agents _) => true
  | .visit _ _ => true
  | .tick _ _ _ _ => true
  | _ => false

/-- Any other request changes the accounts at most, of what is in the world. -/
theorem siteHandler_world (m : SiteSurroundings) (p : Principal) {req : SiteRequest}
    (hreq : ∀ r, req ≠ .agents r) {site' : Site}
    (h : (siteHandler d.toSiteDeps cfg.toSiteSettings m site p req).2 = site') :
    site'.world = (site.withUsers site'.world.db.users).world := by
  subst h
  cases req with
  | agents request => exact absurd rfl (hreq request)
  | createKey body keyId rawKey =>
    simp only [siteHandler]
    cases callerRow site p with
    | error e => rfl
    | ok user =>
      simp only
      rw [createApiKey_users]
      rfl
  | deleteKey keyId =>
    simp only [siteHandler]
    unfold revokeApiKey
    split
    · rfl
    · split_ifs <;> rfl
  | createInvite body newId token =>
    simp only [siteHandler]
    rw [createInvite_users]
    rfl
  | revokeInvite inviteId =>
    simp only [siteHandler]
    unfold revokeInvite
    split
    · rfl
    · split_ifs <;> rfl
  | updateUser userId body =>
    simp only [siteHandler]
    unfold updateUser
    split
    · rfl
    · split_ifs <;> rfl
  | checkout =>
    simp only [siteHandler, withStripe, checkout]
    split_ifs
    · split <;> rfl
    · rfl
  | portal =>
    simp only [siteHandler, withStripe]
    split_ifs <;> rfl
  | _ => rfl

/-- **A step that does not touch agents** changes the accounts at most, of what is in the world. -/
theorem gatewayStep_world {i : GatewayStep} (hi : i.touchesAgents = false) :
    (gatewayStep d cfg site i).world =
      (site.withUsers (gatewayStep d cfg site i).world.db.users).world := by
  cases i with
  | request m creds req =>
    have hreq : ∀ r, req ≠ .agents r := by
      rintro r rfl
      cases hi
    simp only [gatewayStep]
    unfold siteRequest
    cases req.guard.enforce d.toAuthDeps cfg.auth site m.now creds with
    | error e => rfl
    | ok p => exact siteHandler_world m p hreq rfl
  | register r =>
    simp only [gatewayStep]
    unfold siteRegister registerUser
    split_ifs
    · rfl
    · rfl
    · cases registrationInvites d.toAuthDeps cfg.auth site r.now r.inviteCode with
      | error e => rfl
      | ok invites =>
        simp only
        cases hins : insertUser? site (newUser r.email r.name r.newId)
            (d.hashPassword r.salt r.password) with
        | none => rfl
        | some site' =>
          unfold insertUser? at hins
          split at hins
          · cases hins
          · obtain ⟨t, -, rfl⟩ := Option.map_eq_some_iff.mp hins
            rfl
  | login email password => rfl
  | webhook retrieve payload signature =>
    simp only [gatewayStep]
    unfold webhook
    split
    · rfl
    · split_ifs
      · split
        · rfl
        · split <;> rfl
      · rfl
  | visit env req => cases hi
  | tick rt elapsed now flushFails => cases hi
  | setRole email role =>
    simp only [gatewayStep]
    unfold setRole
    split <;> rfl

end Accounts

/-! ## What an event can do to a row -/

/-- The user `handle_event` applies an event to. -/
def eventUser (users : Table User User.id) (type : EventType) (obj : StripeObject) : Option User :=
  match type with
  | .other => none
  | .checkoutSessionCompleted => findUser users obj.clientReferenceId obj.customer
  | _ => findUser users obj.userId obj.customer

/-- The event says that its subscription is paid for. -/
def EventPays (type : EventType) (obj : StripeObject) : Prop :=
  match type with
  | .other => False
  | .checkoutSessionCompleted => obj.mode = some "subscription" ∧
      (obj.paymentStatus = some "paid" ∨ obj.paymentStatus = some "no_payment_required")
  | type => isPaid (eventStatus type obj) = true

/-- The row an event leaves: the billing columns may change, and the plan becomes the paid one only
if the event says that it is paid for. -/
structure BilledRow (type : EventType) (obj : StripeObject) (user user' : User) : Prop where
  access : KeepsAccess user user'
  email : user'.email = user.email
  known : user'.plan = user.plan ∨ user'.plan = defaultPlan ∨ user'.plan = paidPlan
  pays : user'.plan = paidPlan → user.plan = paidPlan ∨ EventPays type obj

theorem checkedOut_billed {user : User} {obj : StripeObject}
    (hmode : obj.mode = some "subscription") :
    BilledRow .checkoutSessionCompleted obj user (checkedOut user obj) := by
  have haccess := checkedOut_keepsAccess user obj
  unfold checkedOut at haccess ⊢
  simp only at haccess ⊢
  split_ifs at haccess ⊢ with hpaid
  · exact ⟨haccess, rfl, Or.inr (Or.inr rfl), fun _ => Or.inr ⟨hmode, hpaid⟩⟩
  · exact ⟨haccess, rfl, Or.inl rfl, fun h => Or.inl h⟩

theorem synced_billed {type : EventType} (htype : type.ofSubscription = true) (user : User)
    (obj : StripeObject) : BilledRow type obj user (synced user obj (eventStatus type obj)) := by
  refine ⟨synced_keepsAccess user obj _, rfl, Or.inr ?_, fun hplan => Or.inr ?_⟩
  · show planForStatus (eventStatus type obj) = _ ∨ planForStatus (eventStatus type obj) = _
    unfold planForStatus
    split_ifs
    · exact Or.inr rfl
    · exact Or.inl rfl
  · have hpaid : isPaid (eventStatus type obj) = true :=
      (planForStatus_eq_paidPlan_iff _).mp hplan
    cases type with
    | checkoutSessionCompleted => cases htype
    | other => cases htype
    | subscriptionCreated => exact hpaid
    | subscriptionUpdated => exact hpaid
    | subscriptionDeleted => exact hpaid

/-- **Everything applying an event can do**: nothing, or the commit of the row of its user. -/
theorem applyEvent_billed {users users' : Table User User.id} {type : EventType}
    {obj : StripeObject} (h : applyEvent users type obj = .ok users') :
    users' = users ∨ ∃ user user', eventUser users type obj = some user ∧
      user ∈ users.rows ∧ BilledRow type obj user user' ∧ saveUser users user' = .ok users' := by
  -- The three subscription events share their branch.
  have hsub : type.ofSubscription = true →
      (match findUser users obj.userId obj.customer with
        | none => .ok users
        | some user =>
          if ignored user obj.id (eventStatus type obj) then .ok users
          else saveUser users (synced user obj (eventStatus type obj))) = Except.ok users' →
      users' = users ∨ ∃ user user', findUser users obj.userId obj.customer = some user ∧
        user ∈ users.rows ∧ BilledRow type obj user user' ∧ saveUser users user' = .ok users' := by
    intro htype hbranch
    cases hfound : findUser users obj.userId obj.customer with
    | none =>
      rw [hfound] at hbranch
      exact Or.inl (Except.ok.inj hbranch).symm
    | some user =>
      rw [hfound] at hbranch
      simp only at hbranch
      split at hbranch
      · exact Or.inl (Except.ok.inj hbranch).symm
      · exact Or.inr ⟨user, _, rfl, findUser_mem hfound, synced_billed htype user obj, hbranch⟩
  cases type with
  | other => exact Or.inl (Except.ok.inj h).symm
  | checkoutSessionCompleted =>
    unfold applyEvent at h
    simp only at h
    cases hfound : findUser users obj.clientReferenceId obj.customer with
    | none =>
      rw [hfound] at h
      exact Or.inl (Except.ok.inj h).symm
    | some user =>
      rw [hfound] at h
      simp only at h
      split at h
      · rename_i hmode
        exact Or.inr ⟨user, _, hfound, findUser_mem hfound, checkedOut_billed hmode, h⟩
      · exact Or.inl (Except.ok.inj h).symm
  | subscriptionCreated => exact hsub rfl h
  | subscriptionUpdated => exact hsub rfl h
  | subscriptionDeleted => exact hsub rfl h

/-- A developer with an API key, the owner of an agent. -/
def ownerWithAgent : Site := { viewerSite with world := World.withAgent freeAgent }

end Gateway
