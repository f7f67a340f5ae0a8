import Gateway.Billing.Model
import Gateway.Lib.Trace

/-!
# A late `checkout.session.completed`

A session's completion is applied like a subscription event with status `active` that is never
ignored: it records the subscription, and from then on every event of the subscription is applied.
After any deliveries that contain the completion the row therefore shows what the last delivery
applied (`run_shows`), whatever came before it. The completion applies `active` whatever has become
of the subscription meanwhile.

* **`same_outcome_iff`**: deliveries that contain the completion leave what they leave with the
  completion before all of them, exactly when they end with a subscription event or the last one
  applied `active`.
* **`late_completion_revives`**: delivered after the deletion, the completion puts the user back on
  `pro`.
-/

namespace Gateway

open Lib

/-! ## Deliveries -/

/-- The status a delivery applies. -/
def Delivery.applied (d : Delivery) : Option String :=
  if d.event.type = .checkoutSessionCompleted then some "active"
  else ((resolveObject d.client d.event).toOption.bind (eventStatus d.event.type))

/-- A subscription event. -/
def Delivery.ofSubscription (d : Delivery) : Bool := d.event.type.ofSubscription

/-- The completion of the paid session in which the user bought the subscription. -/
structure OfSession (u : UserId) (customer sub : StripeId) (d : Delivery) : Prop where
  type : d.event.type = .checkoutSessionCompleted
  names : Names u d.event.object.clientReferenceId
  customer : d.event.object.customer = some customer.1
  mode : d.event.object.mode = some "subscription"
  subscription : d.event.object.subscription = some sub.1
  paid : d.event.object.paymentStatus = some "paid"

/-- An event of the subscription, handled with whatever object it resolves to. -/
structure OfSubscription (u : UserId) (customer sub : StripeId) (d : Delivery) : Prop where
  type : d.ofSubscription
  resolved : ∃ obj, resolveObject d.client d.event = .ok obj ∧ obj.id = some sub.1 ∧
    obj.customer = some customer.1 ∧ Names u obj.userId

/-- What a user's billing comes to: the plan, the status and the recorded subscription. -/
def outcome (users : Table User User.id) (u : UserId) :
    Option (String × Option String × Option String) :=
  (users.find? u).map fun user => (user.plan, user.subscriptionStatus, user.stripeSubscriptionId)

/-! ## What a delivery leaves -/

/-- The user is there and nobody else has the customer. -/
structure Billed (u : UserId) (customer : StripeId) (users : Table User User.id) : Prop where
  found : ∃ user, users.find? u = some user
  unique : ∀ v ∈ users.rows, v.stripeCustomerId = some customer.1 → v.id = u

section Deliveries

variable {u : UserId} {customer sub : StripeId} {users : Table User User.id} {d : Delivery}

/-- A row with the customer is written. -/
theorem Billed.save (h : Billed u customer users) {user row : User} (hf : users.find? u = some user)
    (hid : row.id = user.id) (hc : row.stripeCustomerId = some customer.1) :
    saveUser users row = .ok (users.put row) := by
  have hu : user.id = u := Table.key_of_find? hf
  unfold saveUser
  rw [if_neg]
  rintro ⟨-, v, hv, hne, hsame⟩
  exact hne ((h.unique v hv (hsame.trans hc)).trans (hid.trans hu).symm)

theorem Billed.put (h : Billed u customer users) {user row : User} (hf : users.find? u = some user)
    (hid : row.id = user.id) : Billed u customer (users.put row) where
  found := ⟨row, find?_put_user hf hid⟩
  unique v hv hc := by
    rcases Table.mem_put hv with rfl | ⟨hv, -⟩
    · exact hid.trans (Table.key_of_find? hf)
    · exact h.unique v hv hc

/-- The row shows the subscription with a status. -/
def Shows (u : UserId) (sub : StripeId) (status : Option String) (users : Table User User.id) :
    Prop :=
  outcome users u = some (planForStatus status, status, some sub.1)

/-- The completion writes the row, wherever it comes. -/
theorem delivered_session (h : Billed u customer users) (hd : OfSession u customer sub d) :
    Billed u customer (delivered users d) ∧ Shows u sub d.applied (delivered users d) := by
  obtain ⟨user, hf⟩ := h.found
  have hfind : findUser users d.event.object.clientReferenceId d.event.object.customer =
      some user := findUser_of_names hd.names hf
  have hcustomer : (checkedOut user d.event.object).stripeCustomerId = some customer.1 := by
    simp [checkedOut, hd.paid, hd.customer, truthy_some customer.2]
  have hid : (checkedOut user d.event.object).id = user.id := by
    simp [checkedOut, hd.paid]
  have hput : delivered users d = users.put (checkedOut user d.event.object) := by
    simp only [delivered, handleEvent, resolveObject, hd.type, applyEvent, hfind, hd.mode, if_true,
      h.save hf hid hcustomer]
  rw [hput]
  refine ⟨h.put hf hid, ?_⟩
  unfold Shows outcome Delivery.applied
  rw [find?_put_user hf hid, if_pos hd.type]
  simp [checkedOut, hd.paid, hd.subscription, truthy_some sub.2, planForStatus, isPaid,
    paidStatuses]

theorem OfSubscription.applied_eq (hd : OfSubscription u customer sub d) {obj : StripeObject}
    (hr : resolveObject d.client d.event = .ok obj) :
    d.applied = eventStatus d.event.type obj := by
  have hne : d.event.type ≠ .checkoutSessionCompleted := by
    intro he
    have ht := hd.type
    simp [Delivery.ofSubscription, he, EventType.ofSubscription] at ht
  simp [Delivery.applied, hne, hr, Except.toOption]

/-- An event of the subscription writes the row if that is the recorded one. -/
theorem delivered_subscription (h : Billed u customer users)
    (hd : OfSubscription u customer sub d) :
    Billed u customer (delivered users d) ∧
      ∀ status, Shows u sub status users → Shows u sub d.applied (delivered users d) := by
  obtain ⟨user, hf⟩ := h.found
  obtain ⟨obj, hr, hoid, hocustomer, honames⟩ := hd.resolved
  have happlied := hd.applied_eq hr
  have hcustomer : (synced user obj d.applied).stripeCustomerId = some customer.1 := by
    simp [synced, hocustomer, truthy_some customer.2]
  have happly : delivered users d =
      if ignored user obj.id d.applied then users else users.put (synced user obj d.applied) := by
    unfold delivered handleEvent
    rw [hr]
    simp only [applyEvent_subscription hd.type honames hf, ← happlied,
      h.save hf (synced_id ..) hcustomer]
    split_ifs <;> rfl
  rw [happly]
  refine ⟨?_, fun status hs => ?_⟩
  · split_ifs
    · exact h
    · exact h.put hf (synced_id ..)
  · have hrec : user.stripeSubscriptionId = some sub.1 := by
      unfold Shows outcome at hs
      rw [hf] at hs
      simp only [Option.map_some, Option.some.injEq, Prod.mk.injEq] at hs
      exact hs.2.2
    rw [if_neg (by simp [ignored, hoid, hrec])]
    unfold Shows outcome
    rw [find?_put_user hf (synced_id ..)]
    simp [synced, hoid]

/-! ## Every order of deliveries -/

/-- A delivery for the subscription. -/
def ForSub (u : UserId) (customer sub : StripeId) (d : Delivery) : Prop :=
  OfSession u customer sub d ∨ OfSubscription u customer sub d

/-- The status the last delivery applied. -/
def lastApplied (status : Option String) (ds : List Delivery) : Option String :=
  ds.foldl (fun _ d => d.applied) status

theorem lastApplied_append (status : Option String) (ds : List Delivery) (d : Delivery) :
    lastApplied status (ds ++ [d]) = d.applied := by
  simp [lastApplied]

/-- The status is the one it started with, or the last delivery applied it. -/
theorem lastApplied_eq_iff (status : Option String) (ds : List Delivery) :
    lastApplied status ds = status ↔ ∀ d, ds.getLast? = some d → d.applied = status := by
  rcases List.eq_nil_or_concat' ds with rfl | ⟨before, d, rfl⟩
  · simp [lastApplied]
  · rw [lastApplied_append]
    simp

theorem run_billed : ∀ (ds : List Delivery) {users : Table User User.id},
    Billed u customer users → (∀ d ∈ ds, ForSub u customer sub d) →
      Billed u customer (run delivered users ds) := by
  intro ds
  induction ds with
  | nil =>
    intro _ h _
    exact h
  | cons d ds ih =>
    intro _ h hds
    refine ih ?_ fun d' hd' => hds d' (List.mem_cons_of_mem d hd')
    rcases hds d List.mem_cons_self with hd | hd
    · exact (delivered_session h hd).1
    · exact (delivered_subscription h hd).1

/-- Once the subscription is recorded, the row shows what the last delivery applied. -/
theorem run_shows : ∀ (ds : List Delivery) {users : Table User User.id} {status : Option String},
    Billed u customer users → Shows u sub status users → (∀ d ∈ ds, ForSub u customer sub d) →
      Shows u sub (lastApplied status ds) (run delivered users ds) := by
  intro ds
  induction ds with
  | nil =>
    intro _ _ _ hs _
    exact hs
  | cons d ds ih =>
    intro _ _ h hs hds
    have hrest : ∀ d' ∈ ds, ForSub u customer sub d' :=
      fun d' hd' => hds d' (List.mem_cons_of_mem d hd')
    rcases hds d List.mem_cons_self with hd | hd
    · obtain ⟨hb, hshow⟩ := delivered_session h hd
      exact ih hb hshow hrest
    · obtain ⟨hb, hshow⟩ := delivered_subscription h hd
      exact ih hb (hshow _ hs) hrest

/-- Deliveries that contain the completion leave what the last of them applied. -/
theorem run_shows_of_mem (h : Billed u customer users) {ds : List Delivery}
    (hds : ∀ d ∈ ds, ForSub u customer sub d) {k : Delivery} (hk : k ∈ ds)
    (hsession : OfSession u customer sub k) (status : Option String) :
    Shows u sub (lastApplied status ds) (run delivered users ds) := by
  obtain ⟨before, after, rfl⟩ := List.append_of_mem hk
  have hb := run_billed before h fun d hd => hds d (List.mem_append_left _ hd)
  obtain ⟨hbk, hshow⟩ := delivered_session hb hsession
  have hafter := run_shows after hbk hshow fun d hd => hds d (by simp [hd])
  rw [run_append, run_cons]
  simpa [lastApplied] using hafter

/-- Two rows that show the subscription come to the same when their statuses are. -/
theorem Shows.outcome_eq_iff {users' : Table User User.id} {status status' : Option String}
    (h : Shows u sub status users) (h' : Shows u sub status' users') :
    outcome users u = outcome users' u ↔ status = status' := by
  rw [h, h']
  constructor
  · intro he
    simp only [Option.some.injEq, Prod.mk.injEq] at he
    exact he.2.1
  · rintro rfl
    rfl

/-- **When the completion may be late.** Deliveries of a subscription's events and of its session's
completion, in any order and number, leave the user with the plan, status and subscription that the
completion before all the events leaves, if and only if they end with an event of the subscription
or the last such event, if any, applied `active`. -/
theorem same_outcome_iff (h : Billed u customer users) {ds : List Delivery}
    (hds : ∀ d ∈ ds, ForSub u customer sub d) {k : Delivery} (hk : k ∈ ds)
    (hsession : OfSession u customer sub k) :
    outcome (run delivered users ds) u =
        outcome (run delivered users (k :: ds.filter Delivery.ofSubscription)) u ↔
      (∃ d, ds.getLast? = some d ∧ d.ofSubscription) ∨
        ∀ d, (ds.filter Delivery.ofSubscription).getLast? = some d →
          d.applied = some "active" := by
  have hactive : k.applied = some "active" := if_pos hsession.type
  have hev : ∀ d ∈ k :: ds.filter Delivery.ofSubscription, ForSub u customer sub d := by
    intro d hd
    rcases List.mem_cons.mp hd with rfl | hd
    · exact Or.inl hsession
    · exact hds d (List.mem_of_mem_filter hd)
  have hlate := run_shows_of_mem h hds hk hsession none
  have hfirst := run_shows_of_mem h hev List.mem_cons_self hsession none
  rw [hlate.outcome_eq_iff hfirst]
  -- what the deliveries without the completions end with
  have hevents : lastApplied none (k :: ds.filter Delivery.ofSubscription) =
      lastApplied (some "active") (ds.filter Delivery.ofSubscription) := by
    simp [lastApplied, hactive]
  rw [hevents]
  rcases List.eq_nil_or_concat' ds with rfl | ⟨before, d, rfl⟩
  · exact absurd hk List.not_mem_nil
  rw [lastApplied_append, List.filter_append]
  cases hd : d.ofSubscription with
  | true =>
    rw [List.filter_cons_of_pos hd, List.filter_nil, lastApplied_append]
    exact iff_of_true rfl (Or.inl ⟨d, by simp, hd⟩)
  | false =>
    have happlied : d.applied = some "active" := by
      rcases hds d (by simp) with hs | hs
      · exact if_pos hs.type
      · exact absurd hs.type (by simp [hd])
    rw [List.filter_cons_of_neg (by simp [hd]), List.filter_nil, List.append_nil, happlied,
      eq_comm, lastApplied_eq_iff]
    refine (or_iff_right ?_).symm
    rintro ⟨d', hlast, hd'⟩
    obtain rfl : d = d' := by simpa using hlast
    simp [hd] at hd'

end Deliveries

/-! ## A completion after the deletion -/

/-- The subscription of the free account as a deletion reports it. -/
def canceledSub : StripeObject where
  id := some "sub_1"
  customer := some "cus_1"
  status := some "canceled"
  userId := some (Uuid.format freeUser.id)

/-- Its deletion. -/
def deletion : Delivery where
  event := ⟨.subscriptionDeleted, canceledSub⟩
  client := some fun _ => .ok canceledSub

/-- The completion of the session in which it was bought. -/
def completion : Delivery where
  event :=
    { type := .checkoutSessionCompleted
      object :=
        { customer := some "cus_1"
          clientReferenceId := some (Uuid.format freeUser.id)
          mode := some "subscription"
          subscription := some "sub_1"
          paymentStatus := some "paid" } }
  client := some fun _ => .ok canceledSub

theorem completion_ofSession :
    OfSession freeUser.id ⟨"cus_1", by decide⟩ ⟨"sub_1", by decide⟩ completion where
  type := rfl
  names := names_format _
  customer := rfl
  mode := rfl
  subscription := rfl
  paid := rfl

theorem deletion_ofSubscription :
    OfSubscription freeUser.id ⟨"cus_1", by decide⟩ ⟨"sub_1", by decide⟩ deletion where
  type := rfl
  resolved := ⟨canceledSub, rfl, rfl, rfl, names_format _⟩

theorem freeUser_billed : Billed freeUser.id ⟨"cus_1", by decide⟩ freeWorld.db.users where
  found := ⟨freeUser, rfl⟩
  unique := by decide

/-- Before the deletion, the completion may come any number of times. -/
theorem repeated_completion_same :
    outcome (run delivered freeWorld.db.users [completion, completion, deletion]) freeUser.id =
      outcome (run delivered freeWorld.db.users [completion, deletion]) freeUser.id := by
  have hds : ∀ d ∈ [completion, completion, deletion],
      ForSub freeUser.id ⟨"cus_1", by decide⟩ ⟨"sub_1", by decide⟩ d := by
    intro d hd
    simp only [List.mem_cons, List.not_mem_nil, or_false, or_self_left] at hd
    rcases hd with rfl | rfl
    · exact Or.inl completion_ofSession
    · exact Or.inr deletion_ofSubscription
  exact (same_outcome_iff freeUser_billed hds List.mem_cons_self completion_ofSession).mpr
    (Or.inl ⟨deletion, rfl, rfl⟩)

/-- **A completion after the deletion** puts the user back on `pro` with a canceled subscription. -/
theorem late_completion_revives :
    OfSession freeUser.id ⟨"cus_1", by decide⟩ ⟨"sub_1", by decide⟩ completion ∧
    OfSubscription freeUser.id ⟨"cus_1", by decide⟩ ⟨"sub_1", by decide⟩ deletion ∧
    outcome (run delivered freeWorld.db.users [deletion, completion]) freeUser.id =
      some (paidPlan, some "active", some "sub_1") ∧
    outcome (run delivered freeWorld.db.users [completion, deletion]) freeUser.id =
      some (defaultPlan, some "canceled", some "sub_1") :=
  ⟨completion_ofSession, deletion_ofSubscription, by decide +kernel, by decide +kernel⟩

end Gateway
