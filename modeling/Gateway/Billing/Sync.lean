import Gateway.Billing.Model
import Gateway.Lib.Trace
import Mathlib.Logic.Function.Basic

/-!
# The plan follows Stripe

Stripe changes the subscriptions of one user and emits an event for every change; each event is
delivered at any later time, any number of times and in any order, and handled one at a time. The
handling is in two steps, `deliver` (the event's object is resolved) and `finish` (the row is
written), and Stripe may change anything in between.

A subscription is settled when the event of its last change has been handled. What makes deliveries
commute is that a fetched object is newer than its event: once the event of the last change is
handled, the row has seen the last state, and a later delivery of an older event fetches it again.

* `SyncInv` holds in every reached state: the recorded subscription, if settled, decides the plan,
  and a paid subscription, if settled, is the recorded one.
* **`plan_converges`**: once every event has been handled, the plan is `pro` exactly when a
  subscription is paid, and that subscription is the recorded one.
-/

namespace Gateway

open Lib

/-! ## Stripe and the webhook -/

/-- How a subscription changes. -/
inductive ChangeKind where
  | created
  | updated
  | deleted
  deriving DecidableEq, Repr

/-- The event type of a change. -/
def ChangeKind.type : ChangeKind → EventType
  | .created => .subscriptionCreated
  | .updated => .subscriptionUpdated
  | .deleted => .subscriptionDeleted

/-- The event of the `version`-th change of a subscription, with its snapshot. -/
structure Emitted where
  sub : StripeId
  version : Nat
  kind : ChangeKind
  object : StripeObject
  deriving DecidableEq, Repr

/-- The event as the webhook receives it. -/
def Emitted.event (e : Emitted) : StripeEvent := ⟨e.kind.type, e.object⟩

/-- The status an event applies with the object `obj`. -/
def Emitted.statusOf (e : Emitted) (obj : StripeObject) : Option String :=
  eventStatus e.kind.type obj

/-- The `users` table, Stripe's subscriptions and events, and the event being handled. -/
structure Sync where
  users : Table User User.id
  status : StripeId → Option String := fun _ => none
  version : StripeId → Nat := fun _ => 0
  events : List Emitted := []
  handled : List (StripeId × Nat) := []
  inFlight : Option (Emitted × StripeObject) := none

/-- What happens next. -/
inductive SyncStep where
  | change (kind : ChangeKind) (sub : StripeId) (object : StripeObject)
  | deliver (e : Emitted) (answer : Except BillingError StripeObject)
  | finish

/-- The event `e` has been handled and left `users`. -/
def Sync.handle (s : Sync) (e : Emitted) (users : Table User User.id) : Sync :=
  { s with users := users, handled := (e.sub, e.version) :: s.handled, inFlight := none }

/-- One step. A delivery whose `retrieve` or commit raises is not handled. -/
def syncStep (s : Sync) : SyncStep → Sync
  | .change kind sub object =>
    { s with
      status := Function.update s.status sub (eventStatus kind.type object)
      version := Function.update s.version sub (s.version sub + 1)
      events := s.events ++ [⟨sub, s.version sub + 1, kind, object⟩] }
  | .deliver e answer =>
    match s.inFlight with
    | some _ => s
    | none =>
      match resolveObject (some fun _ => answer) e.event with
      | .error _ => s
      | .ok obj => { s with inFlight := some (e, obj) }
  | .finish =>
    match s.inFlight with
    | none => s
    | some (e, obj) =>
      match applyEvent s.users e.event.type obj with
      | .error _ => { s with inFlight := none }
      | .ok users => s.handle e users

/-- Without a change in between, the two steps of a delivery are a call of `handle_event`. -/
theorem deliver_finish {s : Sync} (hi : s.inFlight = none) (e : Emitted)
    (answer : Except BillingError StripeObject) :
    (∀ users, handleEvent s.users e.event (some fun _ => answer) = .ok users →
        run syncStep s [.deliver e answer, .finish] = s.handle e users) ∧
      ∀ err, handleEvent s.users e.event (some fun _ => answer) = .error err →
        run syncStep s [.deliver e answer, .finish] = s := by
  have hs : { s with inFlight := none } = s := by rw [← hi]
  unfold handleEvent
  simp only [run_cons, run_nil]
  cases hr : resolveObject (some fun _ => answer) e.event with
  | error err => simp [syncStep, hi, hr]
  | ok obj =>
    cases ha : applyEvent s.users e.event.type obj with
    | error err => simp [syncStep, hi, hr, ha, hs]
    | ok users => simp [syncStep, hi, hr, ha, Sync.handle]

/-- What is assumed of Stripe: deletion is terminal, a subscription's objects carry its id and name
the user, at most one subscription is paid, a delivered event was emitted, and `retrieve` returns
the status at the time of the call. -/
def Assumed (u : UserId) (s : Sync) : SyncStep → Prop
  | .change kind sub object =>
    (∀ e ∈ s.events, e.sub = sub → e.kind ≠ .deleted) ∧
      object.id = some sub.1 ∧ Names u object.userId ∧
      ∀ other, other ≠ sub → isPaid (s.status other) → ¬ isPaid (eventStatus kind.type object)
  | .deliver e answer =>
    e ∈ s.events ∧ ∀ obj, answer = .ok obj →
      obj.id = some e.sub.1 ∧ Names u obj.userId ∧ obj.status = s.status e.sub
  | .finish => True

/-! ## The invariant -/

/-- The event of the last change has been handled. -/
def Sync.Settled (s : Sync) (sub : StripeId) : Prop := (sub, s.version sub) ∈ s.handled

/-- The row agrees with what has been settled. -/
structure Agrees (s : Sync) (user : User) : Prop where
  free : user.stripeSubscriptionId = none → user.plan = defaultPlan
  recorded : ∀ id, user.stripeSubscriptionId = some id → ∃ sub : StripeId, sub.1 = id ∧
    s.version sub ≠ 0 ∧ (s.Settled sub → user.plan = planForStatus (s.status sub))
  current : ∀ sub, isPaid (s.status sub) → s.Settled sub → user.stripeSubscriptionId = some sub.1

/-- An emitted event is about a version there was, and a deletion is final. -/
structure EventOk (u : UserId) (s : Sync) (e : Emitted) : Prop where
  id : e.object.id = some e.sub.1
  names : Names u e.object.userId
  positive : e.version ≠ 0
  version : e.version ≤ s.version e.sub
  deleted : e.kind = .deleted → s.status e.sub = some "canceled"

/-- The object in hand is the last state if its event is that of the last change, or no event has
come up since. -/
structure InFlightOk (u : UserId) (s : Sync) (e : Emitted) (obj : StripeObject) : Prop where
  mem : e ∈ s.events
  id : obj.id = some e.sub.1
  names : Names u obj.userId
  fresh : e.version = s.version e.sub ∨ s.Settled e.sub → e.statusOf obj = s.status e.sub
  paid : ∀ sub, isPaid (s.status sub) → s.Settled sub → isPaid (e.statusOf obj) → e.sub = sub

structure SyncInv (u : UserId) (s : Sync) : Prop where
  user : ∃ user, s.users.find? u = some user ∧ Agrees s user
  single : ∀ sub other, isPaid (s.status sub) → isPaid (s.status other) → sub = other
  created : ∀ sub, s.version sub = 0 → s.status sub = none
  latest : ∀ sub, s.version sub ≠ 0 → ∃ e ∈ s.events, e.sub = sub ∧ e.version = s.version sub
  events : ∀ e ∈ s.events, EventOk u s e
  handled : ∀ sub v, (sub, v) ∈ s.handled → v ≤ s.version sub
  inFlight : ∀ e obj, s.inFlight = some (e, obj) → InFlightOk u s e obj

section Change

variable {u : UserId} {s : Sync} {kind : ChangeKind} {sub other : StripeId} {object : StripeObject}

@[simp] theorem change_status (other : StripeId) :
    (syncStep s (.change kind sub object)).status other =
      if other = sub then eventStatus kind.type object else s.status other := by
  simp [syncStep, Function.update_apply]

@[simp] theorem change_version (other : StripeId) :
    (syncStep s (.change kind sub object)).version other =
      if other = sub then s.version sub + 1 else s.version other := by
  simp [syncStep, Function.update_apply]

/-- A change unsettles its subscription and no other. -/
theorem settled_of_change (h : SyncInv u s)
    (hs : (syncStep s (.change kind sub object)).Settled other) :
    other ≠ sub ∧ s.Settled other := by
  unfold Sync.Settled at hs
  rw [change_version] at hs
  by_cases he : other = sub
  · rw [if_pos he, he] at hs
    have hle := h.handled _ _ hs
    omega
  · rw [if_neg he] at hs
    exact ⟨he, hs⟩

theorem Agrees.change {user : User} (h : SyncInv u s) (ha : Agrees s user) :
    Agrees (syncStep s (.change kind sub object)) user where
  free := ha.free
  recorded id hid := by
    obtain ⟨x, hx, hv, hplan⟩ := ha.recorded id hid
    refine ⟨x, hx, ?_, fun hs => ?_⟩
    · rw [change_version]
      split_ifs
      · omega
      · exact hv
    · obtain ⟨hne, hs⟩ := settled_of_change h hs
      rw [change_status, if_neg hne]
      exact hplan hs
  current x hp hs := by
    obtain ⟨hne, hs⟩ := settled_of_change h hs
    rw [change_status, if_neg hne] at hp
    exact ha.current x hp hs

theorem InFlightOk.change (h : SyncInv u s) {e : Emitted} {obj : StripeObject}
    (hi : InFlightOk u s e obj) :
    InFlightOk u (syncStep s (.change kind sub object)) e obj where
  mem := List.mem_append_left _ hi.mem
  id := hi.id
  names := hi.names
  fresh hf := by
    have hle := (h.events e hi.mem).version
    have hne : e.sub ≠ sub ∧ (e.version = s.version e.sub ∨ s.Settled e.sub) := by
      rcases hf with hf | hf
      · rw [change_version] at hf
        by_cases he : e.sub = sub
        · rw [if_pos he] at hf
          rw [he] at hle
          omega
        · rw [if_neg he] at hf
          exact ⟨he, Or.inl hf⟩
      · obtain ⟨hne, hs⟩ := settled_of_change h hf
        exact ⟨hne, Or.inr hs⟩
    rw [change_status, if_neg hne.1]
    exact hi.fresh hne.2
  paid x hp hs := by
    obtain ⟨hne, hs⟩ := settled_of_change h hs
    rw [change_status, if_neg hne] at hp
    exact hi.paid x hp hs

/-- Older events stay what they were, and a subscription that was deleted does not change. -/
theorem EventOk.change {e : Emitted} (ho : EventOk u s e)
    (hterminal : e.sub = sub → e.kind ≠ .deleted) :
    EventOk u (syncStep s (.change kind sub object)) e := by
  refine { ho with version := ?_, deleted := fun hk => ?_ }
  · have hv := ho.version
    rw [change_version]
    split_ifs with hes
    · rw [hes] at hv
      omega
    · exact hv
  · rw [change_status, if_neg fun hes => hterminal hes hk]
    exact ho.deleted hk

/-- The event of the change. -/
theorem eventOk_emitted (hid : object.id = some sub.1) (hnames : Names u object.userId) :
    EventOk u (syncStep s (.change kind sub object)) ⟨sub, s.version sub + 1, kind, object⟩ where
  id := hid
  names := hnames
  positive := Nat.succ_ne_zero _
  version := by simp
  deleted hk := by
    simp only at hk
    simp [hk, ChangeKind.type, eventStatus]

/-- Only one subscription is paid, before a change and after it. -/
theorem SyncInv.single_change (h : SyncInv u s)
    (hsingle : ∀ other, other ≠ sub → isPaid (s.status other) →
      ¬ isPaid (eventStatus kind.type object)) {x y : StripeId}
    (hx : isPaid ((syncStep s (.change kind sub object)).status x))
    (hy : isPaid ((syncStep s (.change kind sub object)).status y)) : x = y := by
  rw [change_status] at hx hy
  by_cases hxs : x = sub <;> by_cases hys : y = sub
  · rw [hxs, hys]
  · rw [if_pos hxs] at hx
    rw [if_neg hys] at hy
    exact absurd hx (hsingle y hys hy)
  · rw [if_neg hxs] at hx
    rw [if_pos hys] at hy
    exact absurd hy (hsingle x hxs hx)
  · rw [if_neg hxs] at hx
    rw [if_neg hys] at hy
    exact h.single x y hx hy

theorem SyncInv.change (h : SyncInv u s) (hG : Assumed u s (.change kind sub object)) :
    SyncInv u (syncStep s (.change kind sub object)) := by
  obtain ⟨hterminal, hid, hnames, hsingle⟩ := hG
  refine
    { user := ?_
      single := fun x y hx hy => h.single_change hsingle hx hy
      created := fun x hx => ?_
      latest := fun x hx => ?_
      events := fun e he => ?_
      handled := fun x v hv => ?_
      inFlight := fun e obj he => (h.inFlight e obj he).change h }
  · obtain ⟨user, hf, ha⟩ := h.user
    exact ⟨user, hf, ha.change h⟩
  · rw [change_version] at hx
    by_cases hxs : x = sub
    · rw [if_pos hxs] at hx
      omega
    · rw [if_neg hxs] at hx
      rw [change_status, if_neg hxs]
      exact h.created x hx
  · rw [change_version] at hx ⊢
    by_cases hxs : x = sub
    · rw [if_pos hxs]
      exact ⟨⟨sub, s.version sub + 1, kind, object⟩, List.mem_append_right _ (by simp), hxs.symm,
        rfl⟩
    · rw [if_neg hxs] at hx ⊢
      obtain ⟨e, he, hes⟩ := h.latest x hx
      exact ⟨e, List.mem_append_left _ he, hes⟩
  · rcases List.mem_append.mp he with he | he
    · exact (h.events e he).change (hterminal e he)
    · rw [List.mem_singleton.mp he]
      exact eventOk_emitted hid hnames
  · have hle := h.handled x v hv
    rw [change_version]
    split_ifs with hxs
    · rw [hxs] at hle
      omega
    · exact hle

end Change

section Handle

variable {u : UserId} {s : Sync}

/-- What a delivery resolves: the snapshot of a deletion, else the answer. -/
theorem resolve_eq {e : Emitted} (hid : e.object.id = some e.sub.1)
    (answer : Except BillingError StripeObject) :
    resolveObject (some fun _ => answer) e.event =
      if e.kind = .deleted then .ok e.object else answer := by
  have hfetch : currentSubscription (some fun _ => answer) e.object = answer := by
    simp only [currentSubscription, hid, truthy_some e.sub.2]
  cases hk : e.kind <;> simp [resolveObject, Emitted.event, hk, ChangeKind.type, hfetch]

/-- What is resolved when an event is delivered is the state of its subscription at that moment. -/
theorem SyncInv.resolved (h : SyncInv u s) {e : Emitted}
    {answer : Except BillingError StripeObject} (hG : Assumed u s (.deliver e answer))
    {obj : StripeObject} (hr : resolveObject (some fun _ => answer) e.event = .ok obj) :
    InFlightOk u s e obj := by
  obtain ⟨hmem, hanswer⟩ := hG
  have ho := h.events e hmem
  have hobj : obj.id = some e.sub.1 ∧ Names u obj.userId ∧ e.statusOf obj = s.status e.sub := by
    rw [resolve_eq ho.id] at hr
    unfold Emitted.statusOf eventStatus
    split_ifs at hr with hk
    · obtain rfl := Except.ok.inj hr
      refine ⟨ho.id, ho.names, ?_⟩
      rw [ho.deleted hk, hk]
      rfl
    · obtain ⟨hoid, honames, hostatus⟩ := hanswer obj hr
      refine ⟨hoid, honames, ?_⟩
      cases hkind : e.kind with
      | created => exact hostatus
      | updated => exact hostatus
      | deleted => exact absurd hkind hk
  exact
    { mem := hmem
      id := hobj.1
      names := hobj.2.1
      fresh := fun _ => hobj.2.2
      paid := fun sub hp _ hpaid => h.single _ _ (hobj.2.2 ▸ hpaid) hp }

theorem SyncInv.deliver (h : SyncInv u s) {e : Emitted} {answer : Except BillingError StripeObject}
    (hG : Assumed u s (.deliver e answer)) : SyncInv u (syncStep s (.deliver e answer)) := by
  cases hi : s.inFlight with
  | some p =>
    simp only [syncStep, hi]
    exact h
  | none =>
    cases hr : resolveObject (some fun _ => answer) e.event with
    | error err =>
      simp only [syncStep, hi, hr]
      exact h
    | ok obj =>
      have hok := h.resolved hG hr
      simp only [syncStep, hi, hr]
      obtain ⟨user, hf, ha⟩ := h.user
      refine
        { h with
          user := ⟨user, hf, { ha with }⟩
          events := fun e he => { h.events e he with }
          inFlight := fun e' obj' heq => ?_ }
      obtain ⟨rfl, rfl⟩ := Prod.mk.inj (Option.some.inj heq)
      exact { hok with }

variable {e : Emitted} {obj : StripeObject} {user : User} {users : Table User User.id}

/-- Handling an event settles its subscription if it is the event of the last change. -/
theorem settled_of_handle {sub : StripeId} (hs : (s.handle e users).Settled sub) :
    s.Settled sub ∨ (sub = e.sub ∧ e.version = s.version e.sub) := by
  rcases List.mem_cons.mp hs with heq | hs
  · obtain ⟨rfl, hv⟩ := Prod.mk.inj heq
    exact Or.inr ⟨rfl, hv.symm⟩
  · exact Or.inl hs

/-- The object is the last state of a subscription that is settled once its event is handled. -/
theorem InFlightOk.fresh_of_handle (hi : InFlightOk u s e obj)
    (hs : (s.handle e users).Settled e.sub) : e.statusOf obj = s.status e.sub := by
  rcases settled_of_handle hs with hs | ⟨-, hv⟩
  · exact hi.fresh (Or.inr hs)
  · exact hi.fresh (Or.inl hv)

/-- An ignored event leaves the row: another subscription is recorded, and the event's is not
paid. -/
theorem Agrees.afterIgnored (hi : InFlightOk u s e obj) (ha : Agrees s user)
    (hign : ignored user obj.id (e.statusOf obj) = true) : Agrees (s.handle e users) user := by
  obtain ⟨⟨-, hne⟩, hunpaid⟩ : ((truthy user.stripeSubscriptionId).isSome = true ∧
      obj.id ≠ user.stripeSubscriptionId) ∧ isPaid (e.statusOf obj) = false := by
    simpa [ignored] using hign
  refine
    { free := ha.free
      recorded := fun id hid => ?_
      current := fun sub hp hs => ?_ }
  · obtain ⟨sub, hsub, hv, hplan⟩ := ha.recorded id hid
    refine ⟨sub, hsub, hv, fun hs => ?_⟩
    rcases settled_of_handle hs with hs | ⟨rfl, -⟩
    · exact hplan hs
    · exact absurd (hi.id.trans (by rw [hid, hsub])) hne
  · rcases settled_of_handle hs with hs' | ⟨rfl, -⟩
    · exact ha.current sub hp hs'
    · rw [hi.fresh_of_handle hs] at hunpaid
      rw [show isPaid (s.status e.sub) = true from hp] at hunpaid
      cases hunpaid

/-- An event that writes records its subscription, and a settled paid one can only be that. -/
theorem Agrees.afterSynced (hok : EventOk u s e) (hi : InFlightOk u s e obj) (ha : Agrees s user)
    (hign : ignored user obj.id (e.statusOf obj) = false) :
    Agrees (s.handle e users) (synced user obj (e.statusOf obj)) := by
  have hid : (synced user obj (e.statusOf obj)).stripeSubscriptionId = some e.sub.1 := hi.id
  refine
    { free := fun hnone => absurd (hid.symm.trans hnone) (by simp)
      recorded := fun id hsome => ?_
      current := fun sub hp hs => ?_ }
  · have hversion : s.version e.sub ≠ 0 := by
      have := hok.positive
      have := hok.version
      omega
    refine ⟨e.sub, Option.some.inj (hid.symm.trans hsome), hversion, fun hs => ?_⟩
    show planForStatus (e.statusOf obj) = planForStatus (s.status e.sub)
    rw [hi.fresh_of_handle hs]
  · rw [hid]
    rcases settled_of_handle hs with hs | ⟨rfl, -⟩
    · have hcur := ha.current sub hp hs
      by_cases hpaid : isPaid (e.statusOf obj)
      · rw [hi.paid sub hp hs hpaid]
      · -- not paid and not ignored: the event is about the recorded subscription
        have hsame : some e.sub.1 = user.stripeSubscriptionId := by
          simpa [ignored, hcur, truthy_some sub.2, hpaid, hi.id] using hign
        rw [hsame, hcur]
    · rfl

theorem SyncInv.finish (h : SyncInv u s) : SyncInv u (syncStep s .finish) := by
  obtain ⟨user, hf, ha⟩ := h.user
  cases hin : s.inFlight with
  | none =>
    simp only [syncStep, hin]
    exact h
  | some p =>
    obtain ⟨e, obj⟩ := p
    have hi := h.inFlight e obj hin
    have hok := h.events e hi.mem
    have htype : e.event.type.ofSubscription := by
      unfold Emitted.event
      cases e.kind <;> rfl
    have happly : applyEvent s.users e.event.type obj =
        if ignored user obj.id (e.statusOf obj) then .ok s.users
        else saveUser s.users (synced user obj (e.statusOf obj)) :=
      applyEvent_subscription htype hi.names hf
    -- whatever is left in the table, the rest of the invariant does not look at it
    have hrest : ∀ users row, users.find? u = some row → Agrees (s.handle e users) row →
        SyncInv u (s.handle e users) := by
      intro users row hrow hagrees
      exact
        { h with
          user := ⟨row, hrow, hagrees⟩
          events := fun e' he' => { h.events e' he' with }
          handled := fun sub v hv => by
            rcases List.mem_cons.mp hv with heq | hv
            · obtain ⟨rfl, rfl⟩ := Prod.mk.inj heq
              exact hok.version
            · exact h.handled sub v hv
          inFlight := fun _ _ hnone => absurd hnone (by simp [Sync.handle]) }
    have hfailed : SyncInv u { s with inFlight := none } :=
      { h with
        user := ⟨user, hf, { ha with }⟩
        events := fun e' he' => { h.events e' he' with }
        inFlight := fun _ _ hnone => absurd hnone (by simp) }
    simp only [syncStep, hin, happly]
    by_cases hign : ignored user obj.id (e.statusOf obj) = true
    · rw [if_pos hign]
      exact hrest s.users user hf (ha.afterIgnored hi hign)
    · rw [if_neg hign]
      cases hsave : saveUser s.users (synced user obj (e.statusOf obj)) with
      | error err => exact hfailed
      | ok users =>
        rw [saveUser_ok hsave]
        exact hrest _ _ (find?_put_user hf (synced_id ..))
          (ha.afterSynced hok hi (by simpa using hign))

end Handle

/-! ## Every run -/

section Runs

variable {u : UserId}

theorem SyncInv.step {s : Sync} (h : SyncInv u s) (i : SyncStep) (hG : Assumed u s i) :
    SyncInv u (syncStep s i) := by
  cases i with
  | change kind sub object => exact h.change hG
  | deliver e answer => exact h.deliver hG
  | finish => exact h.finish

/-- Before the first change. -/
theorem SyncInv.start {users : Table User User.id} {user : User} (hf : users.find? u = some user)
    (hplan : user.plan = defaultPlan) (hsub : user.stripeSubscriptionId = none) :
    SyncInv u { users := users } where
  user :=
    ⟨user, hf,
      { free := fun _ => hplan
        recorded := fun _ hid => absurd (hsub.symm.trans hid) (by simp)
        current := fun _ hp _ => absurd hp (by simp [isPaid]) }⟩
  single _ _ hp _ := absurd hp (by simp [isPaid])
  created _ _ := rfl
  latest _ hv := absurd rfl hv
  events _ he := absurd he List.not_mem_nil
  handled _ _ hv := absurd hv List.not_mem_nil
  inFlight _ _ hi := by cases hi

/-- **The plan converges to Stripe.** In every run of changes and deliveries from a user on `free`
without a subscription, once every emitted event has been handled, the plan is `pro` if and only if
one of the subscriptions is paid, and then that subscription is the recorded one. -/
theorem plan_converges {users : Table User User.id} {user : User}
    (hf : users.find? u = some user) (hplan : user.plan = defaultPlan)
    (hsub : user.stripeSubscriptionId = none) (is : List SyncStep)
    (hrun : Along syncStep (Assumed u) { users := users } is)
    (hall : ∀ e ∈ (run syncStep { users := users } is).events,
      (e.sub, e.version) ∈ (run syncStep { users := users } is).handled) :
    ∃ after, (run syncStep { users := users } is).users.find? u = some after ∧
      (after.plan = paidPlan ↔
        ∃ sub, isPaid ((run syncStep { users := users } is).status sub)) ∧
      ∀ sub, isPaid ((run syncStep { users := users } is).status sub) →
        after.stripeSubscriptionId = some sub.1 := by
  have h := run_inv (P := SyncInv u) (fun s i hs hG => hs.step i hG) is
    (SyncInv.start hf hplan hsub) hrun
  generalize run syncStep { users := users } is = s at h hall
  obtain ⟨after, hfind, ha⟩ := h.user
  have hsettled : ∀ sub, s.version sub ≠ 0 → s.Settled sub := by
    intro sub hv
    obtain ⟨e, he, rfl, hver⟩ := h.latest sub hv
    have hhandled := hall e he
    rwa [hver] at hhandled
  have hcurrent : ∀ sub, isPaid (s.status sub) → after.stripeSubscriptionId = some sub.1 := by
    intro sub hp
    refine ha.current sub hp (hsettled sub fun hv => ?_)
    rw [h.created sub hv] at hp
    exact absurd hp (by simp [isPaid])
  refine ⟨after, hfind, ?_, hcurrent⟩
  constructor
  · intro hpro
    cases hrec : after.stripeSubscriptionId with
    | none => exact absurd (hpro.symm.trans (ha.free hrec)) (by decide)
    | some id =>
      obtain ⟨sub, -, hv, hdecides⟩ := ha.recorded id hrec
      have hdecided := (hdecides (hsettled sub hv)).symm.trans hpro
      exact ⟨sub, (planForStatus_eq_paidPlan_iff _).mp hdecided⟩
  · rintro ⟨sub, hp⟩
    obtain ⟨x, hx, hv, hdecides⟩ := ha.recorded _ (hcurrent sub hp)
    obtain rfl : x = sub := Subtype.ext hx
    rw [hdecides (hsettled x hv)]
    exact (planForStatus_eq_paidPlan_iff _).mpr hp

end Runs

/-- A subscription of the free account, as Stripe reports it with a status. -/
def reported (status : String) : StripeObject where
  id := some "sub_1"
  customer := some "cus_1"
  status := some status
  userId := some (Uuid.format freeUser.id)

/-- Its payment goes through, and the event of its creation arrives last. -/
def lateCreation : List SyncStep :=
  let sub : StripeId := ⟨"sub_1", by decide⟩
  [.change .created sub (reported "incomplete"), .change .updated sub (reported "active"),
    .deliver ⟨sub, 2, .updated, reported "active"⟩ (.ok (reported "active")), .finish,
    .deliver ⟨sub, 1, .created, reported "incomplete"⟩ (.ok (reported "active")), .finish]

theorem lateCreation_converges :
    ∃ after, (run syncStep { users := freeWorld.db.users } lateCreation).users.find? freeUser.id =
        some after ∧
      (after.plan = paidPlan ↔
        ∃ sub, isPaid ((run syncStep { users := freeWorld.db.users } lateCreation).status sub)) ∧
      ∀ sub, isPaid ((run syncStep { users := freeWorld.db.users } lateCreation).status sub) →
        after.stripeSubscriptionId = some sub.1 := by
  refine plan_converges rfl rfl rfl lateCreation ?_ (by decide +kernel)
  refine ⟨⟨by simp, rfl, names_format _, fun _ _ hp => absurd hp (by simp [isPaid])⟩,
    ⟨by decide, rfl, names_format _, fun other hne hp => absurd hp (by simp [hne, isPaid])⟩,
    ⟨by decide, ?_⟩, trivial, ⟨by decide, ?_⟩, trivial, trivial⟩
  · rintro obj hobj
    obtain rfl := Except.ok.inj hobj
    exact ⟨rfl, names_format _, rfl⟩
  · rintro obj hobj
    obtain rfl := Except.ok.inj hobj
    exact ⟨rfl, names_format _, rfl⟩

end Gateway
