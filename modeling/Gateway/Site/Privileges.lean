import Gateway.Site.Steps

/-!
# Where privileges come from

An account can do more than the free allowance of its own in two ways: as an admin, and on the paid
plan. Over every run of the whole gateway, whatever the requests, tokens and payloads:

* **`admin_granted`**: an account becomes an admin by the request of an account that is an active
  admin at that moment, or by the operator's script; so there is a first admin only by the script.
* **`paidPlan_granted`**: an account gets the paid plan by the request of an active admin, or by a
  payload that `construct_event` accepts under the configured secret, which is about that account
  and says that its subscription is paid for.

Both are the crossing rule `Lib.exists_crossing` and one lemma about a step, by cases on
`UsersEffect`.

Out of scope: requests that overlap (the account may lose its role between the guard and the write).
-/

namespace Gateway

open Lib

section Grants

variable (d : GatewayDeps) (cfg : GatewaySettings) (site : Site) (u : UserId)

/-- The account has the role admin. -/
def IsAdmin : Prop := site.world.db.users.Has u fun user => user.role = .admin

/-- The account is on the paid plan. -/
def OnPaidPlan : Prop := site.world.db.users.Has u fun user => user.plan = paidPlan

/-- The request is let in as one of an active admin. -/
def FromActiveAdmin (m : SiteSurroundings) (creds : Option String) : Prop :=
  ∃ p caller, requireAdmin.enforce d.toAuthDeps cfg.auth site m.now creds = .ok p ∧
    site.world.db.users.find? p.userId = some caller ∧ caller.isActiveAdmin

/-- The steps that make `u` an admin. -/
inductive GrantsAdmin : GatewayStep → Prop
  | patch {m : SiteSurroundings} {creds : Option String} {body : AdminUserUpdate}
      (hcaller : FromActiveAdmin d cfg site m creds) (hrole : body.role = some .admin) :
      GrantsAdmin (.request m creds (.updateUser u body))
  | script {user : User} (huser : site.world.db.users.find? u = some user) :
      GrantsAdmin (.setRole user.email .admin)

/-- The payload is one Stripe signed, about `u`, and says that the subscription is paid for. -/
structure PaymentFor (retrieve : StripeClient) (payload signature : String) : Prop where
  verified : ∃ secret, truthy cfg.stripeWebhookSecret = some secret ∧
    d.constructEvent payload signature secret = true
  event : ∃ event obj user, d.loads payload = some event ∧
    resolveObject (webhookClient cfg retrieve) event = .ok obj ∧
    eventUser site.world.db.users event.type obj = some user ∧ user.id = u ∧
    EventPays event.type obj

/-- The steps that put `u` on the paid plan. -/
inductive GrantsPaidPlan : GatewayStep → Prop
  | patch {m : SiteSurroundings} {creds : Option String} {body : AdminUserUpdate}
      (hcaller : FromActiveAdmin d cfg site m creds) (hplan : body.plan = some paidPlan) :
      GrantsPaidPlan (.request m creds (.updateUser u body))
  | webhook {retrieve : StripeClient} {payload signature : String}
      (h : PaymentFor d cfg site u retrieve payload signature) :
      GrantsPaidPlan (.webhook retrieve payload signature)

end Grants

/-! ## One step -/

section Step

variable {d : GatewayDeps} {cfg : GatewaySettings} {site : Site} {u : UserId}

/-- An update writes the column it names. -/
theorem getD_eq_of_ne {α : Type} {new : Option α} {old value : α} (h : new.getD old = value)
    (hne : old ≠ value) : new = some value := by
  cases new with
  | none => exact absurd h hne
  | some x => exact congrArg some h

/-- **One step**: what makes an account an admin. -/
theorem grantsAdmin_of_step {i : GatewayStep} (hbefore : ¬ IsAdmin site u)
    (hafter : IsAdmin (gatewayStep d cfg site i) u) : GrantsAdmin d cfg site u i := by
  have heffect := gatewayStep_users d cfg site i
  unfold IsAdmin at hafter
  generalize (gatewayStep d cfg site i).world.db.users = users' at heffect hafter
  cases heffect with
  | kept => exact absurd hafter hbefore
  | registered hemail hins =>
    have hrole := (Table.has_of_insert? hafter hbefore hins).2
    cases hrole
  | @patched m creds userId body p caller user hguard hcaller hadmin huser =>
    obtain rfl := Table.key_of_find? huser
    obtain ⟨rfl, hrole, hnot⟩ := Table.has_of_put hafter hbefore huser
    exact .patch ⟨p, caller, hguard, hcaller, hadmin⟩ (getD_eq_of_ne hrole hnot)
  | customer huser hsave =>
    obtain rfl := saveUser_ok hsave
    obtain ⟨-, hrole, hnot⟩ := Table.has_of_put hafter hbefore huser
    exact absurd hrole hnot
  | billed hsecret hverified hloads hresolve happly =>
    rcases applyEvent_billed happly with rfl | ⟨user, user', -, hmem, hbilled, hsave⟩
    · exact absurd hafter hbefore
    · obtain rfl := saveUser_ok hsave
      have huser := hbilled.access.id.symm ▸ Table.find?_of_mem hmem
      obtain ⟨-, hrole, hnot⟩ := Table.has_of_put hafter hbefore huser
      exact absurd (hbilled.access.role.symm.trans hrole) hnot
  | @scripted email role user huser hemail =>
    have hrow := Table.find?_of_mem huser
    obtain ⟨rfl, hrole, -⟩ := Table.has_of_put hafter hbefore hrow
    obtain rfl : role = .admin := hrole
    exact hemail ▸ .script hrow

/-- **One step**: what puts an account on the paid plan. -/
theorem grantsPaidPlan_of_step {i : GatewayStep} (hbefore : ¬ OnPaidPlan site u)
    (hafter : OnPaidPlan (gatewayStep d cfg site i) u) : GrantsPaidPlan d cfg site u i := by
  have heffect := gatewayStep_users d cfg site i
  unfold OnPaidPlan at hafter
  generalize (gatewayStep d cfg site i).world.db.users = users' at heffect hafter
  cases heffect with
  | kept => exact absurd hafter hbefore
  | registered hemail hins =>
    have hplan := (Table.has_of_insert? hafter hbefore hins).2
    exact absurd hplan (by simp [newUser, defaultPlan, paidPlan])
  | @patched m creds userId body p caller user hguard hcaller hadmin huser =>
    obtain rfl := Table.key_of_find? huser
    obtain ⟨rfl, hplan, hnot⟩ := Table.has_of_put hafter hbefore huser
    exact .patch ⟨p, caller, hguard, hcaller, hadmin⟩ (getD_eq_of_ne hplan hnot)
  | customer huser hsave =>
    obtain rfl := saveUser_ok hsave
    obtain ⟨-, hplan, hnot⟩ := Table.has_of_put hafter hbefore huser
    exact absurd hplan hnot
  | billed hsecret hverified hloads hresolve happly =>
    rcases applyEvent_billed happly with rfl | ⟨user, user', hevent, hmem, hbilled, hsave⟩
    · exact absurd hafter hbefore
    · obtain rfl := saveUser_ok hsave
      have huser := hbilled.access.id.symm ▸ Table.find?_of_mem hmem
      obtain ⟨hid, hplan, hnot⟩ := Table.has_of_put hafter hbefore huser
      have hpays := (hbilled.pays hplan).resolve_left hnot
      exact .webhook ⟨⟨_, hsecret, hverified⟩, _, _, user, hloads, hresolve, hevent,
        hbilled.access.id.symm.trans hid, hpays⟩
  | scripted huser hemail =>
    have hrow := Table.find?_of_mem huser
    obtain ⟨-, hplan, hnot⟩ := Table.has_of_put hafter hbefore hrow
    exact absurd hplan hnot

end Step

/-! ## Runs -/

/-- **Admins come from admins.** In every run, an account that was no admin at the start and is one
at the end was made one by a step of the run: a request that was let in as one of an account that
was an active admin then, or the operator's script. -/
theorem admin_granted (d : GatewayDeps) (cfg : GatewaySettings) (site : Site)
    (steps : List GatewayStep) (u : UserId) (hstart : ¬ IsAdmin site u)
    (hend : IsAdmin (run (gatewayStep d cfg) site steps) u) :
    ∃ before i after, steps = before ++ i :: after ∧
      GrantsAdmin d cfg (run (gatewayStep d cfg) site before) u i := by
  obtain ⟨before, i, after, hsplit, hbefore, hafter⟩ := exists_crossing
    (P := fun site => IsAdmin site u) hstart hend
  exact ⟨before, i, after, hsplit, grantsAdmin_of_step hbefore hafter⟩

/-- The admin makes the viewer an admin. -/
def promoteViewer : GatewayStep :=
  .request quietSurroundings (some "agnt_a")
    (.updateUser 2 { role := some .admin, known := known_of_no_plan })

/-- An admin and a viewer. -/
def adminAndViewer : Site :=
  twoAdmins.withUsers
    { rows :=
        [{ freeUser with role := .admin },
          { id := 2, email := "viewer@example.com", name := "Viewer", role := .viewer }]
      nodup := by decide }

/-- The promotion is the step. -/
theorem admin_granted_viewer : ∃ before i after, [promoteViewer] = before ++ i :: after ∧
    GrantsAdmin .transparent {} (run (gatewayStep .transparent {}) adminAndViewer before) 2 i := by
  refine admin_granted .transparent {} adminAndViewer [promoteViewer] 2 ?_ ?_
  · rintro ⟨user, huser, hrole⟩
    obtain rfl := Option.some.inj huser
    cases hrole
  · have hrow :
        (run (gatewayStep .transparent {}) adminAndViewer [promoteViewer]).world.db.users.find? 2 =
          some { id := 2, email := "viewer@example.com", name := "Viewer", role := .admin } := by
      decide +kernel
    exact ⟨_, hrow, rfl⟩

/-- **The first admin comes from the script**: without an admin at the start and without a run of
the script that makes one, there is none after any run. -/
theorem no_admin_without_script (d : GatewayDeps) (cfg : GatewaySettings) (site : Site)
    (steps : List GatewayStep) (hstart : ∀ u, ¬ IsAdmin site u)
    (hscript : ∀ email, GatewayStep.setRole email .admin ∉ steps) :
    ∀ u, ¬ IsAdmin (run (gatewayStep d cfg) site steps) u := by
  have hok : Along (gatewayStep d cfg) (fun _ i => ∀ email, i ≠ .setRole email .admin) site steps :=
    along_of_forall steps site fun i hi email he => hscript email (he ▸ hi)
  refine run_inv (P := fun site => ∀ u, ¬ IsAdmin site u) (fun site i hnone hi u hafter => ?_)
    steps hstart hok
  cases grantsAdmin_of_step (hnone u) hafter with
  | patch hcaller hrole =>
    obtain ⟨p, caller, -, hrow, hadmin⟩ := hcaller
    exact hnone p.userId ⟨caller, hrow, hadmin.2⟩
  | script huser => exact hi _ rfl

/-- A developer tries to become an admin. -/
theorem no_admin_without_script_developer : ¬ IsAdmin (run (gatewayStep .transparent {})
    { viewerSite with world := freeWorld }
    [.request quietSurroundings (some "agnt_k")
      (.updateUser 1 { role := some .admin, known := known_of_no_plan })]) 1 := by
  refine no_admin_without_script .transparent {} _ _ (fun u hadmin => ?_) (by simp) 1
  obtain ⟨user, huser, hrole⟩ := hadmin
  obtain rfl := List.mem_singleton.mp (Table.mem_of_find? huser)
  cases hrole

/-- **The paid plan is paid for or given.** In every run, an account that was not on the paid plan
at the start and is at the end was put on it by a step of the run: a request that was let in as one
of an active admin, or a payload that passed `construct_event` under the configured secret, found
that account and said that its subscription is paid for. -/
theorem paidPlan_granted (d : GatewayDeps) (cfg : GatewaySettings) (site : Site)
    (steps : List GatewayStep) (u : UserId) (hstart : ¬ OnPaidPlan site u)
    (hend : OnPaidPlan (run (gatewayStep d cfg) site steps) u) :
    ∃ before i after, steps = before ++ i :: after ∧
      GrantsPaidPlan d cfg (run (gatewayStep d cfg) site before) u i := by
  obtain ⟨before, i, after, hsplit, hbefore, hafter⟩ := exists_crossing
    (P := fun site => OnPaidPlan site u) hstart hend
  exact ⟨before, i, after, hsplit, grantsPaidPlan_of_step hbefore hafter⟩

/-- The text of a completed checkout of the account. -/
def paidPayload : String :=
  "\x7b\"type\": \"checkout.session.completed\", \"data\": \x7b\"object\": \x7b" ++
    "\"client_reference_id\": \"00000000-0000-0000-0000-000000000001\", " ++
    "\"mode\": \"subscription\", \"payment_status\": \"paid\"\x7d\x7d\x7d"

/-- The event it reads as. -/
def paidEvent : StripeEvent where
  type := .checkoutSessionCompleted
  object :=
    { clientReferenceId := some (Uuid.format 1)
      mode := some "subscription"
      paymentStatus := some "paid" }

/-- The signature is accepted for this payload, and the payload read. -/
def paidDeps : GatewayDeps where
  toSiteDeps := .transparent
  constructEvent payload signature secret :=
    payload = paidPayload && signature = "t=1,v1=5f" && secret = "whsec_1"
  loads payload := if payload = paidPayload then some paidEvent else none

/-- The account pays. -/
theorem paidPlan_granted_checkout :
    ∃ before i after, [GatewayStep.webhook (fun _ => .error (.stripe "")) paidPayload "t=1,v1=5f"] =
        before ++ i :: after ∧
      GrantsPaidPlan paidDeps { stripeWebhookSecret := some "whsec_1" }
        (run (gatewayStep paidDeps { stripeWebhookSecret := some "whsec_1" })
          { world := freeWorld } before) 1 i := by
  refine paidPlan_granted paidDeps { stripeWebhookSecret := some "whsec_1" } { world := freeWorld }
    _ 1 ?_ ?_
  · rintro ⟨user, huser, hplan⟩
    obtain rfl := List.mem_singleton.mp (Table.mem_of_find? huser)
    exact absurd hplan (by decide)
  · have hrow : (run (gatewayStep paidDeps { stripeWebhookSecret := some "whsec_1" })
        { world := freeWorld } [.webhook (fun _ => .error (.stripe "")) paidPayload
          "t=1,v1=5f"]).world.db.users.find? 1 =
        some { freeUser with plan := paidPlan, subscriptionStatus := some "active" } := by
      decide +kernel
    exact ⟨_, hrow, rfl⟩

end Gateway
