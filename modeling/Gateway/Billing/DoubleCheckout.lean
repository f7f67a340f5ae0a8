import Gateway.Billing.Model
import Gateway.Lib.Pool
import Gateway.Lib.Trace
import Mathlib.Data.Fintype.EquivFin
import Mathlib.Data.List.Infix

/-!
# Two subscriptions for one user

The `ALREADY_SUBSCRIBED` guard of `checkout_url` reads the recorded status when a call starts. The
session, its completion and the webhook that records it all come later, so what the guard has to
keep apart is spread over three places: calls that passed it, sessions still open at Stripe, and
paid subscriptions. `load` counts all three, and only a call that passes the guard adds to it.

* `load_le_of_other`: completions, cancellations, webhooks and the further steps of a call do not
  add to the load, and `exists_completion`: they can always turn all of it into paid subscriptions.
* **`never_twice_iff`**: the calls of a run were all started alone (`StartedAlone`) if and only if
  at no point of it could the customer, starting no other call, come to two paid subscriptions.
* **`two_sessions_paid_twice`**: two calls before the first session is completed.
-/

namespace Gateway

open Lib

/-! ## Checkout, step by step -/

/-- Where a call of `checkout_url` is. -/
inductive CheckoutPc where
  | guarded (user : User)
  | creating (user : User) (customerId : String)
  | returned (url : String)
  | raised (e : BillingError)
  deriving DecidableEq, Repr

/-- A Checkout session at Stripe. -/
structure CheckoutSession where
  params : SessionParams
  isOpen : Bool
  deriving DecidableEq, Repr

/-- A subscription at Stripe. -/
structure Subscription where
  id : String
  status : Option String
  deriving DecidableEq, Repr

/-- The `users` table, the calls of one user, and the user's sessions and subscriptions at
Stripe. -/
structure Purchases where
  users : Table User User.id
  calls : List CheckoutPc := []
  sessions : List CheckoutSession := []
  subscriptions : List Subscription := []

/-- What happens next. -/
inductive PurchaseStep where
  | call
  | ensure (i : Nat) (answer : Except BillingError String)
  | create (i : Nat) (answer : Except BillingError String)
  | complete (j : Nat) (id : String)
  | cancel (k : Nat)
  | webhook (d : Delivery)

/-- The call starts: the row is loaded and the guard is checked. -/
def startCheckout (u : UserId) (s : Purchases) : Purchases :=
  match s.users.find? u with
  | none => s
  | some user =>
    match checkoutGuard user with
    | .error e => { s with calls := s.calls ++ [.raised e] }
    | .ok () => { s with calls := s.calls ++ [.guarded user] }

/-- One step of the purchases of the user `u`. -/
def purchaseStep (b : BillingSettings) (u : UserId) (s : Purchases) : PurchaseStep → Purchases
  | .call => startCheckout u s
  | .ensure i answer =>
    match s.calls[i]? with
    | some (.guarded user) =>
      match ensureCustomer s.users user answer with
      | .error e => { s with calls := s.calls.set i (.raised e) }
      | .ok (customerId, users) =>
        { s with users := users, calls := s.calls.set i (.creating user customerId) }
    | _ => s
  | .create i answer =>
    match s.calls[i]? with
    | some (.creating user customerId) =>
      match answer with
      | .error e => { s with calls := s.calls.set i (.raised e) }
      | .ok url =>
        { s with
          calls := s.calls.set i (.returned url)
          sessions := s.sessions ++ [⟨sessionParams b user customerId, true⟩] }
    | _ => s
  | .complete j id =>
    match s.sessions[j]? with
    | some session =>
      if session.isOpen then
        { s with
          sessions := s.sessions.set j { session with isOpen := false }
          subscriptions := s.subscriptions ++ [⟨id, some "active"⟩] }
      else s
    | none => s
  | .cancel k =>
    match s.subscriptions[k]? with
    | some sub =>
      { s with subscriptions := s.subscriptions.set k { sub with status := some "canceled" } }
    | none => s
  | .webhook d => { s with users := delivered s.users d }

/-! ## The load -/

/-- The call has passed the guard and its session is still to come. -/
def CheckoutPc.pending : CheckoutPc → Nat
  | .guarded _ => 1
  | .creating _ _ => 1
  | .returned _ => 0
  | .raised _ => 0

def CheckoutSession.pending (x : CheckoutSession) : Nat := if x.isOpen then 1 else 0

def Subscription.paid (x : Subscription) : Nat := if isPaid x.status then 1 else 0

/-- How many subscriptions are in `PAID_STATUSES`. -/
def paidSubscriptions (s : Purchases) : Nat := Pool.weight Subscription.paid s.subscriptions

/-- What is or may still become a paid subscription. -/
def load (s : Purchases) : Nat :=
  Pool.weight CheckoutPc.pending s.calls + Pool.weight CheckoutSession.pending s.sessions +
    paidSubscriptions s

/-- The next call would pass the guard. -/
def PassesGuard (u : UserId) (s : Purchases) : Prop :=
  ∃ user, s.users.find? u = some user ∧ isPaid user.subscriptionStatus = false

/-- A call that passes the guard starts alone: no other call is in progress, no session is open,
and a paid subscription, if there is one, is recorded as such. -/
def StartedAlone (u : UserId) (s : Purchases) : PurchaseStep → Prop
  | .call =>
    PassesGuard u s →
      (∀ c ∈ s.calls, c.pending = 0) ∧ (∀ x ∈ s.sessions, x.isOpen = false) ∧
        ∀ user, s.users.find? u = some user →
          (∃ x ∈ s.subscriptions, isPaid x.status) → isPaid user.subscriptionStatus
  | _ => True

def PurchaseStep.isCall : PurchaseStep → Bool
  | .call => true
  | _ => false

section Load

variable {b : BillingSettings} {u : UserId} {s : Purchases}

/-- A call adds to the load exactly when it passes the guard. -/
theorem load_call (h : PassesGuard u s) : load (purchaseStep b u s .call) = load s + 1 := by
  obtain ⟨user, hf, hunpaid⟩ := h
  have hcall : purchaseStep b u s .call = { s with calls := s.calls ++ [.guarded user] } := by
    simp [purchaseStep, startCheckout, hf, checkoutGuard, hunpaid]
  rw [hcall]
  simp only [load, paidSubscriptions, Pool.weight_append, CheckoutPc.pending]
  omega

theorem load_call_of_refused (h : ¬ PassesGuard u s) :
    load (purchaseStep b u s .call) = load s := by
  simp only [purchaseStep, startCheckout]
  cases hf : s.users.find? u with
  | none => rfl
  | some user =>
    have hpaid : isPaid user.subscriptionStatus = true := by
      by_contra hne
      exact h ⟨user, hf, by simpa using hne⟩
    simp only [checkoutGuard, hpaid, if_true, load, paidSubscriptions, Pool.weight_append,
      CheckoutPc.pending, Nat.add_zero]

/-- A call that moves on moves the load by the difference. -/
theorem load_set_call {i : Nat} {c : CheckoutPc} (c' : CheckoutPc) (hc : s.calls[i]? = some c)
    (users : Table User User.id) :
    load { s with users := users, calls := s.calls.set i c' } + c.pending =
      load s + c'.pending := by
  have hw := Pool.weight_set CheckoutPc.pending c' hc
  simp only [load, paidSubscriptions]
  omega

/-- A call that raises is taken off. -/
theorem load_raised {i : Nat} {c : CheckoutPc} (hc : s.calls[i]? = some c) (e : BillingError) :
    load { s with calls := s.calls.set i (.raised e) } ≤ load s := by
  have hl := load_set_call (.raised e) hc s.users
  simp only [CheckoutPc.pending] at hl
  omega

/-! The load of a purchase stays while it goes from the call to the session and from there to the
subscription. -/

theorem load_ensure {i : Nat} {user : User} {answer : Except BillingError String}
    {customerId : String} {users : Table User User.id} (hc : s.calls[i]? = some (.guarded user))
    (hok : ensureCustomer s.users user answer = .ok (customerId, users)) :
    load (purchaseStep b u s (.ensure i answer)) = load s := by
  have hl := load_set_call (.creating user customerId) hc users
  simp only [CheckoutPc.pending] at hl
  simp only [purchaseStep, hc, hok]
  omega

theorem load_create {i : Nat} {user : User} {customerId : String}
    (hc : s.calls[i]? = some (.creating user customerId)) (url : String) :
    load (purchaseStep b u s (.create i (.ok url))) = load s := by
  have hw := Pool.weight_set CheckoutPc.pending (.returned url) hc
  simp only [CheckoutPc.pending] at hw
  simp only [purchaseStep, hc, load, paidSubscriptions, Pool.weight_append,
    CheckoutSession.pending, if_true]
  omega

theorem load_complete {j : Nat} {x : CheckoutSession} (hx : s.sessions[j]? = some x)
    (ho : x.isOpen = true) (id : String) :
    load (purchaseStep b u s (.complete j id)) = load s := by
  have hw := Pool.weight_set CheckoutSession.pending { x with isOpen := false } hx
  have hopen : x.pending = 1 := if_pos ho
  have hclosed : CheckoutSession.pending { x with isOpen := false } = 0 := rfl
  have hp : Subscription.paid ⟨id, some "active"⟩ = 1 := rfl
  simp only [purchaseStep, hx, ho, if_true, load, paidSubscriptions, Pool.weight_append]
  omega

theorem load_cancel {k : Nat} {x : Subscription} (hx : s.subscriptions[k]? = some x) :
    load { s with subscriptions := s.subscriptions.set k { x with status := some "canceled" } } ≤
      load s := by
  have hw := Pool.weight_set Subscription.paid { x with status := some "canceled" } hx
  have hp : Subscription.paid { x with status := some "canceled" } = 0 := rfl
  simp only [load, paidSubscriptions]
  omega

/-- Everything but a new call takes from the load or leaves it. -/
theorem load_le_of_other {i : PurchaseStep} (hi : i.isCall = false) :
    load (purchaseStep b u s i) ≤ load s := by
  cases i with
  | call => cases hi
  | ensure i answer =>
    simp only [purchaseStep]
    split
    · rename_i user hc
      cases hok : ensureCustomer s.users user answer with
      | error e => exact load_raised hc e
      | ok p =>
        have hl := load_ensure (b := b) (u := u) hc hok
        simp only [purchaseStep, hc, hok] at hl
        exact hl.le
    · exact Nat.le_refl _
  | create i answer =>
    simp only [purchaseStep]
    split
    · rename_i user customerId hc
      cases answer with
      | error e => exact load_raised hc e
      | ok url =>
        have hl := load_create (b := b) (u := u) hc url
        simp only [purchaseStep, hc] at hl
        exact hl.le
    · exact Nat.le_refl _
  | complete j id =>
    simp only [purchaseStep]
    split
    · rename_i session hx
      split_ifs with ho
      · have hl := load_complete (b := b) (u := u) hx ho id
        simp only [purchaseStep, hx, ho, if_true] at hl
        exact hl.le
      · exact Nat.le_refl _
    · exact Nat.le_refl _
  | cancel k =>
    simp only [purchaseStep]
    split
    · rename_i sub hx
      exact load_cancel hx
    · exact Nat.le_refl _
  | webhook d => exact Nat.le_refl _

end Load

/-! ## Turning the load into subscriptions -/

/-- The steps a call has left before its session is completed. -/
def CheckoutPc.work : CheckoutPc → Nat
  | .guarded _ => 3
  | .creating _ _ => 2
  | .returned _ => 0
  | .raised _ => 0

/-- The steps left before all of the load is paid. -/
def work (s : Purchases) : Nat :=
  Pool.weight CheckoutPc.work s.calls + Pool.weight CheckoutSession.pending s.sessions

section Completion

variable {b : BillingSettings} {u : UserId} {s : Purchases}

/-- Stripe has a customer id that nobody holds. -/
theorem ensureCustomer_fresh (users : Table User User.id) (user : User) :
    ∃ answer customerId users', ensureCustomer users user answer = .ok (customerId, users') := by
  unfold ensureCustomer
  cases truthy user.stripeCustomerId with
  | some id => exact ⟨.ok id, id, users, rfl⟩
  | none =>
    obtain ⟨id, hid⟩ :=
      Infinite.exists_notMem_finset (users.rows.filterMap User.stripeCustomerId).toFinset
    refine ⟨.ok id, id,
      users.put { (users.find? user.id).getD user with stripeCustomerId := some id }, ?_⟩
    have hsave : saveUser users
        { (users.find? user.id).getD user with stripeCustomerId := some id } =
          .ok (users.put { (users.find? user.id).getD user with stripeCustomerId := some id }) := by
      unfold saveUser
      rw [if_neg]
      rintro ⟨-, v, hv, -, hsame⟩
      exact hid (List.mem_toFinset.mpr (List.mem_filterMap.mpr ⟨v, hv, hsame⟩))
    simp only [hsave]

theorem load_eq_paid_of_work (h : work s = 0) : load s = paidSubscriptions s := by
  unfold work at h
  have hcalls : Pool.weight CheckoutPc.pending s.calls = 0 := by
    refine (Pool.weight_eq_zero_iff _).mpr fun c hc => ?_
    have hw := (Pool.weight_eq_zero_iff CheckoutPc.work).mp (by omega) c hc
    cases c <;> simp_all [CheckoutPc.work, CheckoutPc.pending]
  unfold load
  omega

/-- A session that is open is completed next. -/
theorem exists_progress_session (h : Pool.weight CheckoutSession.pending s.sessions ≠ 0) :
    ∃ i, PurchaseStep.isCall i = false ∧ work (purchaseStep b u s i) < work s ∧
      load (purchaseStep b u s i) = load s := by
  obtain ⟨x, hx, hopen⟩ : ∃ x ∈ s.sessions, x.pending ≠ 0 := by
    by_contra hnone
    exact h ((Pool.weight_eq_zero_iff _).mpr (by simpa using hnone))
  obtain ⟨j, hj⟩ := List.getElem?_of_mem hx
  have ho : x.isOpen = true := by
    by_contra hne
    exact hopen (if_neg hne)
  have hw := Pool.weight_set CheckoutSession.pending { x with isOpen := false } hj
  have hone : x.pending = 1 := if_pos ho
  have hzero : CheckoutSession.pending { x with isOpen := false } = 0 := rfl
  refine ⟨.complete j "sub", rfl, ?_, load_complete hj ho "sub"⟩
  simp only [purchaseStep, hj, ho, if_true, work]
  omega

/-- A call that is waiting goes on next. -/
theorem exists_progress_call (h : Pool.weight CheckoutPc.work s.calls ≠ 0) :
    ∃ i, PurchaseStep.isCall i = false ∧ work (purchaseStep b u s i) < work s ∧
      load (purchaseStep b u s i) = load s := by
  obtain ⟨c, hc, hne⟩ : ∃ c ∈ s.calls, c.work ≠ 0 := by
    by_contra hnone
    exact h ((Pool.weight_eq_zero_iff _).mpr (by simpa using hnone))
  obtain ⟨i, hi⟩ := List.getElem?_of_mem hc
  cases c with
  | guarded user =>
    obtain ⟨answer, customerId, users, hok⟩ := ensureCustomer_fresh s.users user
    have hw := Pool.weight_set CheckoutPc.work (.creating user customerId) hi
    simp only [CheckoutPc.work] at hw
    refine ⟨.ensure i answer, rfl, ?_, load_ensure hi hok⟩
    simp only [purchaseStep, hi, hok, work]
    omega
  | creating user customerId =>
    have hw := Pool.weight_set CheckoutPc.work (.returned "url") hi
    simp only [CheckoutPc.work] at hw
    refine ⟨.create i (.ok "url"), rfl, ?_, load_create hi "url"⟩
    simp only [purchaseStep, hi, work, Pool.weight_append, CheckoutSession.pending, if_true]
    omega
  | returned url => exact absurd rfl hne
  | raised e => exact absurd rfl hne

/-- While something of the load is not paid, a step brings it closer. -/
theorem exists_progress (h : work s ≠ 0) :
    ∃ i, PurchaseStep.isCall i = false ∧ work (purchaseStep b u s i) < work s ∧
      load (purchaseStep b u s i) = load s := by
  by_cases hcalls : Pool.weight CheckoutPc.work s.calls = 0
  · refine exists_progress_session fun hsessions => h ?_
    unfold work
    omega
  · exact exists_progress_call hcalls

/-- All of the load can become paid without another call. -/
theorem exists_completion : ∀ (n : Nat) {s : Purchases}, work s ≤ n →
    ∃ q, (∀ i ∈ q, PurchaseStep.isCall i = false) ∧
      load s ≤ paidSubscriptions (run (purchaseStep b u) s q) := by
  intro n
  induction n with
  | zero =>
    intro s h
    exact ⟨[], by simp, (load_eq_paid_of_work (Nat.le_zero.mp h)).le⟩
  | succ n ih =>
    intro s h
    by_cases hw : work s = 0
    · exact ⟨[], by simp, (load_eq_paid_of_work hw).le⟩
    · obtain ⟨i, hi, hless, hload⟩ := exists_progress (b := b) (u := u) hw
      obtain ⟨q, hq, hpaid⟩ := ih (s := purchaseStep b u s i) (by omega)
      refine ⟨i :: q, ?_, ?_⟩
      · intro i' hi'
        rcases List.mem_cons.mp hi' with rfl | hi'
        · exact hi
        · exact hq i' hi'
      · rw [run_cons, ← hload]
        exact hpaid

end Completion

/-! ## Every run -/

section Runs

variable {b : BillingSettings} {u : UserId}

theorem subscription_paid_eq_zero_iff (x : Subscription) :
    x.paid = 0 ↔ isPaid x.status = false := by
  unfold Subscription.paid
  split_ifs with h <;> simp [h]

theorem session_pending_eq_zero_iff (x : CheckoutSession) : x.pending = 0 ↔ x.isOpen = false := by
  unfold CheckoutSession.pending
  split_ifs with h <;> simp [h]

theorem load_eq_zero_iff (s : Purchases) :
    load s = 0 ↔ (∀ c ∈ s.calls, c.pending = 0) ∧ (∀ x ∈ s.sessions, x.isOpen = false) ∧
      ∀ x ∈ s.subscriptions, isPaid x.status = false := by
  unfold load paidSubscriptions
  rw [Nat.add_eq_zero_iff, Nat.add_eq_zero_iff, Pool.weight_eq_zero_iff, Pool.weight_eq_zero_iff,
    Pool.weight_eq_zero_iff, and_assoc]
  simp only [session_pending_eq_zero_iff, subscription_paid_eq_zero_iff]

/-- A call that passes the guard starts alone exactly when there is no load. -/
theorem startedAlone_call_iff {s : Purchases} (hp : PassesGuard u s) :
    StartedAlone u s .call ↔ load s = 0 := by
  rw [load_eq_zero_iff]
  obtain ⟨user, hf, hunpaid⟩ := hp
  constructor
  · intro h
    obtain ⟨hcalls, hsessions, hrecorded⟩ := h ⟨user, hf, hunpaid⟩
    refine ⟨hcalls, hsessions, fun x hx => ?_⟩
    by_contra hpaid
    have hrec := hrecorded user hf ⟨x, hx, by simpa using hpaid⟩
    rw [hunpaid] at hrec
    cases hrec
  · rintro ⟨hcalls, hsessions, hnone⟩ -
    refine ⟨hcalls, hsessions, ?_⟩
    rintro _ - ⟨x, hx, hpaid⟩
    rw [hnone x hx] at hpaid
    cases hpaid

/-- Starting alone keeps the load at one, and nothing else does. -/
theorem startedAlone_iff {s : Purchases} (hs : load s ≤ 1) (i : PurchaseStep) :
    StartedAlone u s i ↔ load (purchaseStep b u s i) ≤ 1 := by
  cases hi : i.isCall with
  | false =>
    have hle := load_le_of_other (b := b) (u := u) (s := s) hi
    refine iff_of_true ?_ (hle.trans hs)
    cases i with
    | call => cases hi
    | _ => trivial
  | true =>
    obtain rfl : i = .call := by cases i <;> first | rfl | cases hi
    by_cases hp : PassesGuard u s
    · rw [startedAlone_call_iff hp, load_call hp]
      omega
    · rw [load_call_of_refused hp]
      exact iff_of_true (fun h => absurd h hp) hs

/-- The calls of a run start alone exactly when the load never passes one. -/
theorem along_iff_load : ∀ (is : List PurchaseStep) {s : Purchases}, load s ≤ 1 →
    (Along (purchaseStep b u) (StartedAlone u) s is ↔
      ∀ p, p <+: is → load (run (purchaseStep b u) s p) ≤ 1) := by
  intro is
  induction is with
  | nil =>
    intro s hs
    refine iff_of_true trivial fun p hp => ?_
    rw [List.prefix_nil.mp hp]
    exact hs
  | cons i is ih =>
    intro s hs
    constructor
    · rintro ⟨halone, hrest⟩ p hp
      have hi := (startedAlone_iff (b := b) hs i).mp halone
      rcases List.prefix_cons_iff.mp hp with rfl | ⟨p', rfl, hp'⟩
      · exact hs
      · exact (ih hi).mp hrest p' hp'
    · intro h
      have hi : load (purchaseStep b u s i) ≤ 1 := h [i] (by simp)
      refine ⟨(startedAlone_iff hs i).mpr hi, (ih hi).mpr fun p hp => ?_⟩
      exact h (i :: p) (List.cons_prefix_cons.mpr ⟨rfl, hp⟩)

theorem run_load_le : ∀ (q : List PurchaseStep) {s : Purchases},
    (∀ i ∈ q, PurchaseStep.isCall i = false) → load (run (purchaseStep b u) s q) ≤ load s := by
  intro q
  induction q with
  | nil =>
    intro _ _
    exact Nat.le_refl _
  | cons i q ih =>
    intro s hq
    have hrest := ih (s := purchaseStep b u s i)
      fun j hj => hq j (List.mem_cons_of_mem i hj)
    exact hrest.trans (load_le_of_other (hq i List.mem_cons_self))

/-- A load of at most one is what keeps the customer from two paid subscriptions. -/
theorem load_le_one_iff (s : Purchases) :
    load s ≤ 1 ↔ ∀ q, (∀ i ∈ q, PurchaseStep.isCall i = false) →
      paidSubscriptions (run (purchaseStep b u) s q) ≤ 1 := by
  constructor
  · intro hs q hq
    have hle := run_load_le (b := b) (u := u) q (s := s) hq
    have hpaid : paidSubscriptions (run (purchaseStep b u) s q) ≤
        load (run (purchaseStep b u) s q) := Nat.le_add_left _ _
    omega
  · intro h
    obtain ⟨q, hq, hpaid⟩ := exists_completion (b := b) (u := u) (work s) (s := s) (Nat.le_refl _)
    exact hpaid.trans (h q hq)

/-- **Nobody is subscribed twice if every checkout is started alone.** The calls of a run that pass
the guard are each started with no other call in progress, no session open and every paid
subscription recorded, if and only if at every point of the run, whatever is completed, cancelled or
delivered from there without another call, the user has at most one paid subscription. -/
theorem never_twice_iff (b : BillingSettings) (u : UserId) (users : Table User User.id)
    (is : List PurchaseStep) :
    Along (purchaseStep b u) (StartedAlone u) { users := users } is ↔
      ∀ p, p <+: is → ∀ q, (∀ i ∈ q, PurchaseStep.isCall i = false) →
        paidSubscriptions (run (purchaseStep b u) { users := users } (p ++ q)) ≤ 1 := by
  have hstart : load { users := users } ≤ 1 := Nat.zero_le 1
  rw [along_iff_load is hstart]
  refine forall_congr' fun p => imp_congr_right fun _ => ?_
  rw [load_le_one_iff (b := b) (u := u)]
  simp only [run_append]

end Runs

/-- The user asks for Checkout twice and pays in both windows. -/
def twoWindows : List PurchaseStep :=
  [.call, .ensure 0 (.ok "cus_1"), .create 0 (.ok "https://checkout/1"),
    .call, .ensure 1 (.ok "cus_1"), .create 1 (.ok "https://checkout/2"),
    .complete 0 "sub_1", .complete 1 "sub_2"]

/-- **Two sessions, two paid subscriptions.** The second call passes the guard because nothing has
been paid yet, and both sessions can be completed. -/
theorem two_sessions_paid_twice :
    paidSubscriptions (run (purchaseStep {} freeUser.id) { users := freeWorld.db.users }
      twoWindows) = 2 := by
  decide +kernel

end Gateway
