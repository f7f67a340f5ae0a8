import Gateway.Ingress.Host
import Gateway.Lib.Uuid

/-!
# Billing (`services/billing_service.py`)

`handle_event` applies a verified Stripe event to the `users` table. A subscription event first
resolves its object (`resolveObject`, the Stripe call) and then finds the user and writes the row
(`applyEvent`); the two are separate because Stripe moves on while the answer is on its way. The
parts of `checkout_url` are separate for the same reason: `checkoutGuard`, `ensureCustomer` and the
session that `sessionParams` asks for.

Objects are the JSON objects of the events as far as the code reads them, a missing key being
`none`; Python's truth of a string is `truthy`. What Stripe answers is an argument.
-/

namespace Gateway

open Lib

/-! ## Statuses -/

/-- `PAID_STATUSES`. -/
def paidStatuses : List String := ["active", "trialing", "past_due"]

/-- `status in PAID_STATUSES`. -/
def isPaid (status : Option String) : Bool := status.any (· ∈ paidStatuses)

/-- `plan_for_status`. -/
def planForStatus (status : Option String) : String :=
  if isPaid status then paidPlan else defaultPlan

@[simp] theorem planForStatus_eq_paidPlan_iff (status : Option String) :
    planForStatus status = paidPlan ↔ isPaid status := by
  unfold planForStatus
  cases isPaid status <;> simp [paidPlan, defaultPlan]

/-- The string, if it is there and not empty. -/
def truthy (s : Option String) : Option String := s.filter (· ≠ "")

theorem truthy_some {s : String} (h : s ≠ "") : truthy (some s) = some s := by
  simp [truthy, h]

/-! ## Events -/

/-- The object of an event or of a `retrieve`. `userId` is `(obj.get("metadata") or {})["user_id"]`
as `get` reads it. -/
structure StripeObject where
  id : Option String := none
  customer : Option String := none
  status : Option String := none
  userId : Option String := none
  clientReferenceId : Option String := none
  mode : Option String := none
  subscription : Option String := none
  paymentStatus : Option String := none
  deriving DecidableEq, Repr

/-- The id of a Stripe object. -/
abbrev StripeId := { id : String // id ≠ "" }

/-- The event types `handle_event` tells apart. -/
inductive EventType where
  | checkoutSessionCompleted
  | subscriptionCreated
  | subscriptionUpdated
  | subscriptionDeleted
  | other
  deriving DecidableEq, Repr

structure StripeEvent where
  type : EventType
  object : StripeObject
  deriving DecidableEq, Repr

/-- What ends a billing call: the two conflicts, an error of the Stripe client, or a commit refused
by the unique `users.stripe_customer_id`. -/
inductive BillingError where
  | conflict (message code : String)
  | stripe (message : String)
  | integrity
  deriving DecidableEq, Repr

/-- `client.v1.subscriptions.retrieve`. -/
abbrev StripeClient := String → Except BillingError StripeObject

/-- `_find_user`. -/
def findUser (users : Table User User.id) (userId customerId : Option String) : Option User :=
  match (truthy userId).bind fun text => (Uuid.parse text).bind users.find? with
  | some user => some user
  | none =>
    (truthy customerId).bind fun customer =>
      users.rows.find? fun u => u.stripeCustomerId = some customer

/-- `_current_subscription`. -/
def currentSubscription (client : Option StripeClient) (obj : StripeObject) :
    Except BillingError StripeObject :=
  match client, truthy obj.id with
  | some retrieve, some id => retrieve id
  | _, _ => .ok obj

/-- Commit the row of a loaded user. -/
def saveUser (users : Table User User.id) (user : User) :
    Except BillingError (Table User User.id) :=
  if user.stripeCustomerId.isSome ∧
      ∃ v ∈ users.rows, v.id ≠ user.id ∧ v.stripeCustomerId = user.stripeCustomerId then
    .error .integrity
  else .ok (users.put user)

/-- The row a completed checkout session leaves. -/
def checkedOut (user : User) (obj : StripeObject) : User :=
  let user :=
    { user with
      stripeCustomerId := (truthy obj.customer).or user.stripeCustomerId
      stripeSubscriptionId := (truthy obj.subscription).or user.stripeSubscriptionId }
  if obj.paymentStatus = some "paid" ∨ obj.paymentStatus = some "no_payment_required" then
    { user with subscriptionStatus := some "active", plan := paidPlan }
  else user

/-- The status a subscription event applies. -/
def eventStatus (type : EventType) (obj : StripeObject) : Option String :=
  if type = .subscriptionDeleted then some "canceled" else obj.status

/-- An old subscription ending or lapsing does not affect the current one. -/
def ignored (user : User) (subscriptionId status : Option String) : Bool :=
  (truthy user.stripeSubscriptionId).isSome && subscriptionId ≠ user.stripeSubscriptionId &&
    !isPaid status

/-- The row a subscription event leaves. -/
def synced (user : User) (obj : StripeObject) (status : Option String) : User :=
  { user with
    stripeCustomerId := (truthy obj.customer).or user.stripeCustomerId
    stripeSubscriptionId := obj.id
    subscriptionStatus := status
    plan := planForStatus status }

@[simp] theorem synced_id (user : User) (obj : StripeObject) (status : Option String) :
    (synced user obj status).id = user.id := rfl

/-- The object an event is applied with: a subscription that was not deleted is fetched. -/
def resolveObject (client : Option StripeClient) (event : StripeEvent) :
    Except BillingError StripeObject :=
  match event.type with
  | .subscriptionCreated => currentSubscription client event.object
  | .subscriptionUpdated => currentSubscription client event.object
  | _ => .ok event.object

/-- `handle_event` once it has its object. -/
def applyEvent (users : Table User User.id) (type : EventType) (obj : StripeObject) :
    Except BillingError (Table User User.id) :=
  match type with
  | .other => .ok users
  | .checkoutSessionCompleted =>
    match findUser users obj.clientReferenceId obj.customer with
    | none => .ok users
    | some user =>
      if obj.mode = some "subscription" then saveUser users (checkedOut user obj) else .ok users
  | type =>
    match findUser users obj.userId obj.customer with
    | none => .ok users
    | some user =>
      if ignored user obj.id (eventStatus type obj) then .ok users
      else saveUser users (synced user obj (eventStatus type obj))

/-- `handle_event`: the table it leaves, or what it raises. -/
def handleEvent (users : Table User User.id) (event : StripeEvent)
    (client : Option StripeClient) : Except BillingError (Table User User.id) :=
  match resolveObject client event with
  | .error e => .error e
  | .ok obj => applyEvent users event.type obj

/-- An event with the Stripe client it is handled with. -/
structure Delivery where
  event : StripeEvent
  client : Option StripeClient := none

/-- The table after a delivery; one that raises leaves it. -/
def delivered (users : Table User User.id) (d : Delivery) : Table User User.id :=
  match handleEvent users d.event d.client with
  | .ok users' => users'
  | .error _ => users

/-! ## Starting a checkout -/

/-- The settings `checkout_url` reads. -/
structure BillingSettings where
  stripePricePro : Option String := none
  publicBaseUrl : String := "http://localhost:5173"
  deriving DecidableEq, Repr

/-- `_console_url`. -/
def consoleUrl (b : BillingSettings) (path : String) : String :=
  String.ofList (rstrip '/' b.publicBaseUrl.toList) ++ path

/-- The parameters of `client.v1.checkout.sessions.create`; `userId` goes into the metadata of the
subscription the session will start. -/
structure SessionParams where
  mode : String
  customer : String
  clientReferenceId : String
  price : Option String
  quantity : Nat
  userId : String
  allowPromotionCodes : Bool
  successUrl : String
  cancelUrl : String
  deriving DecidableEq, Repr

/-- What `checkout_url` asks Stripe for. -/
def sessionParams (b : BillingSettings) (user : User) (customerId : String) : SessionParams where
  mode := "subscription"
  customer := customerId
  clientReferenceId := Uuid.format user.id
  price := b.stripePricePro
  quantity := 1
  userId := Uuid.format user.id
  allowPromotionCodes := true
  successUrl := consoleUrl b "/settings?billing=success"
  cancelUrl := consoleUrl b "/settings?billing=cancelled"

/-- The `ALREADY_SUBSCRIBED` guard of `checkout_url`. -/
def checkoutGuard (user : User) : Except BillingError Unit :=
  if isPaid user.subscriptionStatus then
    .error (.conflict "You already have an active subscription; manage it from the billing portal."
      "ALREADY_SUBSCRIBED")
  else .ok ()

/-- `_ensure_customer` on the row loaded as `user`; `answer` is what creating a customer returns.
The commit writes the one column. -/
def ensureCustomer (users : Table User User.id) (user : User)
    (answer : Except BillingError String) : Except BillingError (String × Table User User.id) :=
  match truthy user.stripeCustomerId with
  | some id => .ok (id, users)
  | none =>
    match answer with
    | .error e => .error e
    | .ok id =>
      match saveUser users
          { (users.find? user.id).getD user with stripeCustomerId := some id } with
      | .error e => .error e
      | .ok users' => .ok (id, users')

/-! ## What applying an event can do -/

section Apply

variable {users users' : Table User User.id} {user : User} {u : UserId} {obj : StripeObject}

/-- The text names the user. -/
def Names (u : UserId) (text : Option String) : Prop :=
  ((truthy text).bind Uuid.parse) = some u

theorem names_format (u : UserId) : Names u (some (Uuid.format u)) := by
  unfold Names
  rw [truthy_some (Uuid.format_ne_empty u), Option.bind_some, Uuid.parse_format]

/-- A user that is named is found, whatever the customer. -/
theorem findUser_of_names {text customer : Option String} (hn : Names u text)
    (hf : users.find? u = some user) : findUser users text customer = some user := by
  unfold findUser
  have hb : ((truthy text).bind fun t => (Uuid.parse t).bind users.find?) = some user := by
    rw [← Option.bind_assoc, hn, Option.bind_some, hf]
  rw [hb]

theorem saveUser_ok (h : saveUser users user = .ok users') : users' = users.put user := by
  unfold saveUser at h
  split at h
  · cases h
  · exact (Except.ok.inj h).symm

/-- The subscription events. -/
def EventType.ofSubscription : EventType → Bool
  | .subscriptionCreated => true
  | .subscriptionUpdated => true
  | .subscriptionDeleted => true
  | _ => false

/-- **What a subscription event does** to the table in which its user is found. -/
theorem applyEvent_subscription {type : EventType} (ht : type.ofSubscription)
    (hn : Names u obj.userId) (hf : users.find? u = some user) :
    applyEvent users type obj =
      if ignored user obj.id (eventStatus type obj) then .ok users
      else saveUser users (synced user obj (eventStatus type obj)) := by
  have hfind : findUser users obj.userId obj.customer = some user := findUser_of_names hn hf
  cases type with
  | checkoutSessionCompleted => cases ht
  | other => cases ht
  | subscriptionCreated => simp only [applyEvent, hfind]
  | subscriptionUpdated => simp only [applyEvent, hfind]
  | subscriptionDeleted => simp only [applyEvent, hfind]

/-- A written row is the one found. -/
theorem find?_put_user {row : User} (hf : users.find? u = some user) (hrow : row.id = user.id) :
    (users.put row).find? u = some row := by
  obtain rfl : row.id = u := hrow.trans (Table.key_of_find? hf)
  exact Table.find?_put_self hf

end Apply

end Gateway
