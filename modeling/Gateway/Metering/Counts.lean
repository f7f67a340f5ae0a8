import Gateway.Ingress.Route
import Gateway.Lib.Pool
import Gateway.Lib.Trace

/-!
# Request counts between the edge and the database

Any number of `route` and `flush_requests` calls in progress at once, each cut at its awaits. An
event starts a call, lets an await of one return or lets it raise; between two events nothing else
runs, as in an event loop. What the awaits return is read from the world at that moment, and
`environment` may put any agents, users, keys and containers there in between, so the answer of a
query is arbitrary. The scheduler's `record` writes to the same rows.

Out of scope: deleting an account that has rows in `usage_hours`, which deletes them with it.

A counted request is always in exactly one of four places: the `requests` column of its bucket,
the pending counter, the batch of a flush in progress, or the counts a committed flush left out
because their user was gone.

* `MeterState` holds the calls in progress and, as history, the answers `route` has given and the
  counts dropped.
* **`requests_conserved`**: at every point of every interleaving, for every agent and hour, the
  204s given are the sum of the four.
* `undisturbed_route` and `undisturbed_flush`: a call that is never interrupted is the serial
  `route`, respectively `flushRequests`.
-/

namespace Gateway

open Lib

/-! ## Calls in progress -/

/-- Where a `route` call waits. -/
inductive RouteCall where
  | lookup (req : RouteRequest)
  | keyCheck (req : RouteRequest) (agent : Agent) (owner : User)
  | done

/-- Where a `flush_requests` call waits; `rest` are the entries whose insert has not returned. -/
inductive FlushCall where
  | selecting (batch : Counter RequestKey)
  | inserting (batch : Counter RequestKey) (existing : List UserId) (rest : Counter RequestKey)
  | committing (batch : Counter RequestKey) (existing : List UserId)
  | rollingBack (batch : Counter RequestKey)
  | done

/-- The local `batch` of a flush in progress. -/
def FlushCall.held : FlushCall → Counter RequestKey
  | .selecting batch => batch
  | .inserting batch _ _ => batch
  | .committing batch _ => batch
  | .rollingBack batch => batch
  | .done => []

/-- An answer of `route`: for which agent, once one was found, and when. -/
structure Answer where
  response : Response
  agent : Option AgentId
  time : Instant

/-- The process: the world, the calls in progress, and the history. -/
structure MeterState where
  world : World := {}
  routes : List RouteCall := []
  flushes : List FlushCall := []
  answers : List Answer := []
  dropped : Counter RequestKey := []

/-- What happens next. -/
inductive MeterEvent where
  | environment (db : Db) (containers : AgentId → List Container)
  | record (agent : Agent) (replicas : Nat) (seconds : ℚ) (now : Instant)
  | arrive (req : RouteRequest) (now : Instant)
  | resume (i : Nat) (env : RouteEnv)
  | abandon (i : Nat)
  | flush
  | advance (i : Nat)
  | raise (i : Nat)

/-! ## `route`, from one await to the next -/

/-- The call `i` answers. -/
def MeterState.answer (σ : MeterState) (i : Nat) (response : Response) (agent : Option AgentId)
    (now : Instant) : MeterState :=
  { σ with routes := σ.routes.set i .done, answers := ⟨response, agent, now⟩ :: σ.answers }

/-- The call `i` runs from the accepted key to its answer. -/
def MeterState.finish (d : Deps) (σ : MeterState) (i : Nat) (env : RouteEnv) (agent : Agent)
    (owner : User) : MeterState :=
  let out := dispatch d env σ.world agent owner
  { σ with world := out.2 }.answer i out.1 (some agent.id) env.countedAt

/-- A new call: the token is checked before the first await. -/
def MeterState.arrive (s : Settings) (σ : MeterState) (req : RouteRequest) (now : Instant) :
    MeterState :=
  match checkToken s req with
  | some r => { σ with answers := ⟨r, none, now⟩ :: σ.answers }
  | none => { σ with routes := σ.routes ++ [.lookup req] }

/-- The lookup of call `i` returns. A token without the form of a key is refused without a query. -/
def MeterState.lookedUp (d : Deps) (s : Settings) (σ : MeterState) (i : Nat) (env : RouteEnv)
    (req : RouteRequest) : MeterState :=
  match agentAndOwner d s σ.world.db req.host with
  | none => σ.answer i noAgent none env.countedAt
  | some (agent, owner) =>
    match hitClient s env.clientAt σ.world req agent with
    | (some retryAfter, w) =>
      { σ with world := w }.answer i (tooManyRequests retryAfter) (some agent.id) env.countedAt
    | (none, w) =>
      if agent.access = .priv then
        if accessKeyStart.toList.isPrefixOf (bearerToken d req.authorization).toList then
          { σ with world := w, routes := σ.routes.set i (.keyCheck req agent owner) }
        else { σ with world := w }.answer i privateAgent (some agent.id) env.countedAt
      else MeterState.finish d { σ with world := w } i env agent owner

/-- The key query of call `i` returns. -/
def MeterState.keyChecked (d : Deps) (σ : MeterState) (i : Nat) (env : RouteEnv)
    (req : RouteRequest) (agent : Agent) (owner : User) : MeterState :=
  if isValidAccessKey d σ.world.db agent.id (bearerToken d req.authorization) then
    σ.finish d i env agent owner
  else σ.answer i privateAgent (some agent.id) env.countedAt

/-- The await of call `i` returns. -/
def MeterState.resume (d : Deps) (s : Settings) (σ : MeterState) (i : Nat) (env : RouteEnv) :
    RouteCall → MeterState
  | .lookup req => σ.lookedUp d s i env req
  | .keyCheck req agent owner => σ.keyChecked d i env req agent owner
  | .done => σ

/-! ## `flush_requests`, from one await to the next -/

/-- The next statement of the loop, or the commit after it. -/
def nextInsert (batch : Counter RequestKey) (existing : List UserId) :
    Counter RequestKey → FlushCall
  | [] => .committing batch existing
  | e :: rest => .inserting batch existing (e :: rest)

/-- A new call: no await between copying and clearing; an empty batch returns at once. -/
def MeterState.flush (σ : MeterState) : MeterState :=
  if σ.world.pending = [] then σ
  else
    { σ with
      world := { σ.world with pending := [] }
      flushes := σ.flushes ++ [.selecting σ.world.pending] }

/-- The await of flush `i` returns. The inserts take effect when the transaction commits. -/
def MeterState.advance (σ : MeterState) (i : Nat) : FlushCall → MeterState
  | .selecting batch =>
    let existing := existingUsers σ.world.db.users batch
    { σ with flushes := σ.flushes.set i (nextInsert batch existing (kept existing batch)) }
  | .inserting batch existing rest =>
    { σ with flushes := σ.flushes.set i (nextInsert batch existing rest.tail) }
  | .committing batch existing =>
    { σ with
      world := { σ.world with db := { σ.world.db with
        usageHours := commitRequests σ.world.db.usageHours (kept existing batch) } }
      flushes := σ.flushes.set i .done
      dropped := σ.dropped ++ Gateway.dropped existing batch }
  | .rollingBack batch =>
    { σ with
      world := { σ.world with pending := Counter.update σ.world.pending batch }
      flushes := σ.flushes.set i .done }
  | .done => σ

/-- What an await of a flush can raise; `asyncio.CancelledError` is not an `Exception`. -/
inductive Raised where
  | exception
  | cancelled
  deriving DecidableEq, Repr

/-- The handler is `except Exception`: it rolls back, and rolling back succeeds. A cancelled flush
ends where it is, and its batch with it. -/
def FlushCall.raised : Raised → FlushCall → FlushCall
  | _, .done => .done
  | .cancelled, _ => .done
  | .exception, .selecting batch => .rollingBack batch
  | .exception, .inserting batch _ _ => .rollingBack batch
  | .exception, .committing batch _ => .rollingBack batch
  | .exception, .rollingBack batch => .rollingBack batch

/-- The await of flush `i` raises; its transaction has no effect. -/
def MeterState.raise (exc : Raised) (σ : MeterState) (i : Nat) (f : FlushCall) : MeterState :=
  { σ with flushes := σ.flushes.set i (f.raised exc) }

/-- The accounts of the usage rows are there. Deleting one of them would delete its rows too. -/
def AccountsOf (usageHours : UsageHours) (db : Db) : Prop :=
  ∀ r ∈ usageHours.rows, (db.users.find? r.userId).isSome

instance (usageHours : UsageHours) (db : Db) : Decidable (AccountsOf usageHours db) :=
  inferInstanceAs (Decidable (∀ r ∈ usageHours.rows, _))

/-- One event. Deleting an account that has usage rows is not among them. -/
def meterStep (d : Deps) (s : Settings) (σ : MeterState) : MeterEvent → MeterState
  | .environment db containers =>
    if AccountsOf σ.world.db.usageHours db then
      { σ with world := { σ.world with
        db := { db with usageHours := σ.world.db.usageHours }
        containers := containers } }
    else σ
  | .record agent replicas seconds now =>
    { σ with world := { σ.world with db := { σ.world.db with
      usageHours := record σ.world.db.usageHours agent replicas seconds now } } }
  | .arrive req now => σ.arrive s req now
  | .resume i env => (σ.routes[i]?).elim σ (σ.resume d s i env)
  | .abandon i => { σ with routes := σ.routes.set i .done }
  | .flush => σ.flush
  | .advance i => (σ.flushes[i]?).elim σ (σ.advance i)
  | .raise i => (σ.flushes[i]?).elim σ (σ.raise .exception i)

section Events

variable {d : Deps} {s : Settings} {σ : MeterState} {i : Nat}

theorem meterStep_resume {c : RouteCall} (h : σ.routes[i]? = some c) (env : RouteEnv) :
    meterStep d s σ (.resume i env) = σ.resume d s i env c := by
  simp only [meterStep, h, Option.elim_some]

theorem meterStep_advance {f : FlushCall} (h : σ.flushes[i]? = some f) :
    meterStep d s σ (.advance i) = σ.advance i f := by
  simp only [meterStep, h, Option.elim_some]

theorem meterStep_raise {f : FlushCall} (h : σ.flushes[i]? = some f) :
    meterStep d s σ (.raise i) = σ.raise .exception i f := by
  simp only [meterStep, h, Option.elim_some]

/-! An event of a call finds none at that position, or the call that waits there. -/

theorem resume_inv {P : MeterState → Prop} (env : RouteEnv) (h : P σ)
    (hc : ∀ c, σ.routes[i]? = some c → P (σ.resume d s i env c)) :
    P (meterStep d s σ (.resume i env)) := by
  cases hr : σ.routes[i]? with
  | none => simpa only [meterStep, hr, Option.elim_none] using h
  | some c =>
    rw [meterStep_resume hr]
    exact hc c hr

theorem advance_inv {P : MeterState → Prop} (h : P σ)
    (hf : ∀ f, σ.flushes[i]? = some f → P (σ.advance i f)) :
    P (meterStep d s σ (.advance i)) := by
  cases hr : σ.flushes[i]? with
  | none => simpa only [meterStep, hr, Option.elim_none] using h
  | some f =>
    rw [meterStep_advance hr]
    exact hf f hr

theorem raise_inv {P : MeterState → Prop} (h : P σ)
    (hf : ∀ f, σ.flushes[i]? = some f → P (σ.raise .exception i f)) :
    P (meterStep d s σ (.raise i)) := by
  cases hr : σ.flushes[i]? with
  | none => simpa only [meterStep, hr, Option.elim_none] using h
  | some f =>
    rw [meterStep_raise hr]
    exact hf f hr

end Events

/-! ## The four places of a request -/

/-- The 204s given for an agent in an hour. -/
def given204 (agentId : AgentId) (hour : Instant) (answers : List Answer) : Nat :=
  answers.countP fun x =>
    x.response.status = 204 ∧ x.agent = some agentId ∧ hourStart x.time = hour

/-- The counts of a bucket in the batches of flushes in progress. -/
def heldIn (agentId : AgentId) (hour : Instant) (flushes : List FlushCall) : Nat :=
  Pool.weight (fun f => Counter.total (inBucket agentId hour) f.held) flushes

/-- Every 204 is in the column, pending, held or dropped. -/
def Conserved (σ : MeterState) : Prop :=
  ∀ a h, given204 a h σ.answers =
    requestsIn σ.world.db.usageHours a h + Counter.total (inBucket a h) σ.world.pending +
      heldIn a h σ.flushes + Counter.total (inBucket a h) σ.dropped

theorem given204_cons (a : AgentId) (h : Instant) (x : Answer) (xs : List Answer) :
    given204 a h (x :: xs) = given204 a h xs +
      if x.response.status = 204 ∧ x.agent = some a ∧ hourStart x.time = h then 1 else 0 := by
  unfold given204
  rw [List.countP_cons]
  simp

/-- An answer other than 204 contributes nothing. -/
theorem given204_of_ne {x : Answer} (hx : x.response.status ≠ 204) (a : AgentId) (h : Instant)
    (xs : List Answer) : given204 a h (x :: xs) = given204 a h xs := by
  rw [given204_cons, if_neg fun e => hx e.1, Nat.add_zero]

/-- Counting a request raises the pending count of its bucket by one. -/
theorem total_countRequest (pending : Counter RequestKey) (agent : Agent) (t : Instant)
    (a : AgentId) (h : Instant) :
    Counter.total (inBucket a h) (countRequest pending agent t) =
      Counter.total (inBucket a h) pending + if agent.id = a ∧ hourStart t = h then 1 else 0 := by
  unfold countRequest
  rw [Counter.total_add]
  by_cases hb : agent.id = a ∧ hourStart t = h
  · simp [inBucket, requestKey, hb]
  · simp [inBucket, requestKey, hb]

@[simp] theorem held_nextInsert (batch : Counter RequestKey) (existing : List UserId)
    (rest : Counter RequestKey) : (nextInsert batch existing rest).held = batch := by
  cases rest <;> rfl

@[simp] theorem held_raised (f : FlushCall) : (f.raised .exception).held = f.held := by
  cases f <;> rfl

/-- Advancing one flush moves what is held by what its batch loses. -/
theorem heldIn_set {flushes : List FlushCall} {i : Nat} {f : FlushCall} (f' : FlushCall)
    (hf : flushes[i]? = some f) (a : AgentId) (h : Instant) :
    heldIn a h (flushes.set i f') + Counter.total (inBucket a h) f.held =
      heldIn a h flushes + Counter.total (inBucket a h) f'.held :=
  Pool.weight_set (fun f : FlushCall => Counter.total (inBucket a h) f.held) f' hf

/-- A new flush adds its batch to what is held. -/
theorem heldIn_append (flushes : List FlushCall) (f : FlushCall) (a : AgentId) (h : Instant) :
    heldIn a h (flushes ++ [f]) = heldIn a h flushes + Counter.total (inBucket a h) f.held :=
  Pool.weight_append (fun f : FlushCall => Counter.total (inBucket a h) f.held) flushes f

/-! ## One event -/

namespace Conserved

variable {d : Deps} {s : Settings} {σ : MeterState}

/-- A call that answers something else leaves every count alone. -/
theorem refused (hσ : Conserved σ) (i : Nat) (response : Response) (agent : Option AgentId)
    (now : Instant) (hr : response.status ≠ 204) : Conserved (σ.answer i response agent now) := by
  intro a h
  show given204 a h (⟨response, agent, now⟩ :: σ.answers) = _
  rw [given204_of_ne hr]
  exact hσ a h

/-- Only the pending counter and the usage rows of the world are counted. -/
theorem of_world (hσ : Conserved σ) {w : World} (hpending : w.pending = σ.world.pending)
    (husage : w.db.usageHours = σ.world.db.usageHours) : Conserved { σ with world := w } := by
  intro a h
  simp only [hpending, husage]
  exact hσ a h

/-- A call that gets to the end is counted exactly when it answers 204. -/
theorem finish (hσ : Conserved σ) (i : Nat) (env : RouteEnv) (agent : Agent) (owner : User) :
    Conserved (σ.finish d i env agent owner) := by
  have husage : (dispatch d env σ.world agent owner).2.db.usageHours = σ.world.db.usageHours := by
    rw [(dispatch_frame d env σ.world agent owner).1]
  by_cases hopen : (hitAgent d env.agentAt σ.world agent owner).1 = none ∧
      upstreams (σ.world.containers agent.id) ≠ []
  · obtain ⟨target, -, hres, hpending⟩ := dispatch_routed hopen.1 hopen.2
    intro a h
    show given204 a h (⟨(dispatch d env σ.world agent owner).1, some agent.id, env.countedAt⟩ ::
        σ.answers) =
      requestsIn (dispatch d env σ.world agent owner).2.db.usageHours a h +
        Counter.total (inBucket a h) (dispatch d env σ.world agent owner).2.pending +
        heldIn a h σ.flushes + Counter.total (inBucket a h) σ.dropped
    rw [given204_cons, hσ a h, husage, hpending, total_countRequest, hres]
    simp only [routed, true_and, Option.some.injEq]
    omega
  · obtain ⟨hne, hpending⟩ := dispatch_refused hopen
    exact (hσ.of_world hpending husage).refused i _ (some agent.id) env.countedAt hne

theorem keyChecked (hσ : Conserved σ) (i : Nat) (env : RouteEnv) (req : RouteRequest)
    (agent : Agent) (owner : User) : Conserved (σ.keyChecked d i env req agent owner) := by
  unfold MeterState.keyChecked
  split_ifs
  · exact hσ.finish i env agent owner
  · exact hσ.refused i _ _ _ (by simp [privateAgent])

theorem lookedUp (hσ : Conserved σ) (i : Nat) (env : RouteEnv) (req : RouteRequest) :
    Conserved (σ.lookedUp d s i env req) := by
  unfold MeterState.lookedUp
  cases agentAndOwner d s σ.world.db req.host with
  | none => exact hσ.refused i noAgent _ _ (by simp [noAgent])
  | some found =>
    obtain ⟨agent, owner⟩ := found
    have hw : Conserved { σ with world := (hitClient s env.clientAt σ.world req agent).2 } :=
      hσ.of_world rfl rfl
    simp only
    generalize hitClient s env.clientAt σ.world req agent = out at hw
    obtain ⟨res, w⟩ := out
    cases res with
    | some retryAfter =>
      exact hw.refused i (tooManyRequests retryAfter) _ _ (by simp [tooManyRequests])
    | none =>
      simp only
      split_ifs
      · exact hw
      · exact hw.refused i _ _ _ (by simp [privateAgent])
      · exact hw.finish i env agent owner

theorem resume (hσ : Conserved σ) (i : Nat) (env : RouteEnv) (c : RouteCall) :
    Conserved (σ.resume d s i env c) := by
  cases c with
  | lookup req => exact hσ.lookedUp i env req
  | keyCheck req agent owner => exact hσ.keyChecked i env req agent owner
  | done => exact hσ

theorem arrive (hσ : Conserved σ) (req : RouteRequest) (now : Instant) :
    Conserved (σ.arrive s req now) := by
  unfold MeterState.arrive
  cases hc : checkToken s req with
  | none => exact hσ
  | some r =>
    intro a h
    simp only
    rw [given204_of_ne (checkToken_status hc)]
    exact hσ a h

/-- A new flush takes the pending counts into its batch. -/
theorem flush (hσ : Conserved σ) : Conserved σ.flush := by
  unfold MeterState.flush
  split_ifs
  · exact hσ
  · intro a h
    simp only
    rw [hσ a h, heldIn_append]
    simp only [FlushCall.held, Counter.total_nil]
    omega

/-- A flush writes, drops or puts back exactly its batch. -/
theorem advance (hσ : Conserved σ) {i : Nat} {f : FlushCall} (hf : σ.flushes[i]? = some f) :
    Conserved (σ.advance i f) := by
  cases f with
  | done => exact hσ
  | selecting batch =>
    intro a h
    have hset := heldIn_set (nextInsert batch (existingUsers σ.world.db.users batch)
      (kept (existingUsers σ.world.db.users batch) batch)) hf a h
    rw [held_nextInsert] at hset
    have := hσ a h
    simp only [FlushCall.held, MeterState.advance] at *
    omega
  | inserting batch existing rest =>
    intro a h
    have hset := heldIn_set (nextInsert batch existing rest.tail) hf a h
    rw [held_nextInsert] at hset
    have := hσ a h
    simp only [FlushCall.held, MeterState.advance] at *
    omega
  | committing batch existing =>
    intro a h
    have hset := heldIn_set .done hf a h
    have hsplit := total_kept_add_dropped (inBucket a h) existing batch
    have := hσ a h
    simp only [FlushCall.held, MeterState.advance, requestsIn_commitRequests,
      Counter.total_append, Counter.total_nil] at *
    omega
  | rollingBack batch =>
    intro a h
    have hset := heldIn_set .done hf a h
    have := hσ a h
    simp only [FlushCall.held, MeterState.advance, Counter.total_update, Counter.total_nil] at *
    omega

/-- A statement that raises an `Exception` leaves the batch with its flush. -/
theorem raise (hσ : Conserved σ) {i : Nat} {f : FlushCall} (hf : σ.flushes[i]? = some f) :
    Conserved (σ.raise .exception i f) := by
  intro a h
  have hset := heldIn_set (f.raised .exception) hf a h
  rw [held_raised] at hset
  have := hσ a h
  simp only [MeterState.raise]
  omega

/-- **One event.** -/
theorem step (σ : MeterState) (e : MeterEvent) (hσ : Conserved σ) :
    Conserved (meterStep d s σ e) := by
  cases e with
  | environment db containers =>
    simp only [meterStep]
    split_ifs
    · exact hσ.of_world rfl rfl
    · exact hσ
  | record agent replicas seconds now =>
    intro a h
    show given204 a h σ.answers =
      requestsIn (Gateway.record σ.world.db.usageHours agent replicas seconds now) a h + _ + _ + _
    rw [requestsIn_record]
    exact hσ a h
  | arrive req now => exact hσ.arrive req now
  | resume i env => exact resume_inv env hσ fun c _ => hσ.resume i env c
  | abandon i => exact hσ
  | flush => exact hσ.flush
  | advance i => exact advance_inv hσ fun f hf => hσ.advance hf
  | raise i => exact raise_inv hσ fun f hf => hσ.raise hf

end Conserved

/-- **No request is lost or counted twice.** Started with nothing counted, at every point of every
interleaving of `route` and `flush_requests` calls, the 204s given for an agent in an hour are the
`requests` of its bucket, its pending count, its counts in the batches of flushes in progress and
its counts dropped by committed flushes, together. -/
theorem requests_conserved (d : Deps) (s : Settings) (w : World) (hpending : w.pending = [])
    (husage : w.db.usageHours.rows = []) (events : List MeterEvent) (a : AgentId) (h : Instant) :
    given204 a h (run (meterStep d s) { world := w } events).answers =
      requestsIn (run (meterStep d s) { world := w } events).world.db.usageHours a h +
        Counter.total (inBucket a h) (run (meterStep d s) { world := w } events).world.pending +
        heldIn a h (run (meterStep d s) { world := w } events).flushes +
        Counter.total (inBucket a h) (run (meterStep d s) { world := w } events).dropped := by
  have hstart : Conserved { world := w } := by
    intro a h
    simp [given204, requestsIn, Table.find?, husage, hpending, heldIn]
  exact run_preserves (P := Conserved) Conserved.step events hstart a h

/-- A public agent of the free account, and a table with nothing else. -/
def publicAgent : Agent where
  id := "a"
  userId := freeUser.id
  slug := "a-x1y2z3"
  name := "a"

def publicDb : Db where
  users := freeWorld.db.users
  agents := ⟨[publicAgent], List.nodup_singleton _⟩

def publicVisit : RouteRequest where
  host := "a-x1y2z3.run.example.com"
  internalToken := "edge-secret"

/-- Two visits around a flush whose first statement raises: one request is pending again, the
other is held by the next flush. -/
def visitsAroundFlush : List MeterEvent :=
  [.environment publicDb fun _ => containersFrom 0 1, .arrive publicVisit 0, .resume 0 {}, .flush,
    .raise 0, .arrive publicVisit 0, .advance 0, .flush, .resume 1 {}]

theorem visits_conserved :
    given204 "a" 0 (run (meterStep .transparent edgeSettings) {} visitsAroundFlush).answers = 2 ∧
      requestsIn (run (meterStep .transparent edgeSettings) {}
          visitsAroundFlush).world.db.usageHours "a" 0 +
        Counter.total (inBucket "a" 0)
          (run (meterStep .transparent edgeSettings) {} visitsAroundFlush).world.pending +
        heldIn "a" 0 (run (meterStep .transparent edgeSettings) {} visitsAroundFlush).flushes +
        Counter.total (inBucket "a" 0)
          (run (meterStep .transparent edgeSettings) {} visitsAroundFlush).dropped = 2 := by
  have hgiven : given204 "a" 0
      (run (meterStep .transparent edgeSettings) {} visitsAroundFlush).answers = 2 := by
    decide +kernel
  refine ⟨hgiven, ?_⟩
  rw [← hgiven]
  exact (requests_conserved .transparent edgeSettings {} rfl rfl visitsAroundFlush "a" 0).symm

/-! ## A call left alone is the serial one -/

section Alone

variable (d : Deps) (s : Settings)

/-- A call that has answered takes no part in what follows. -/
theorem resume_answered (σ : MeterState) {i : Nat} (hi : i < σ.routes.length) (r : Response)
    (agent : Option AgentId) (now : Instant) (env : RouteEnv) :
    meterStep d s (σ.answer i r agent now) (.resume i env) = σ.answer i r agent now := by
  have hdone : (σ.answer i r agent now).routes[i]? = some .done := List.getElem?_set_self hi
  rw [meterStep_resume hdone]
  rfl

/-- From the lookup on, a call left alone does what `serve` does. -/
theorem lookedUp_alone (σ : MeterState) {i : Nat} (hi : i < σ.routes.length) (req : RouteRequest)
    (env : RouteEnv) {agent : Agent} {owner : User}
    (hfound : agentAndOwner d s σ.world.db req.host = some (agent, owner)) :
    (meterStep d s (σ.lookedUp d s i env req) (.resume i env)).answers =
        ⟨(serve d s env σ.world req agent owner).1, some agent.id, env.countedAt⟩ :: σ.answers ∧
      (meterStep d s (σ.lookedUp d s i env req) (.resume i env)).world =
        (serve d s env σ.world req agent owner).2 := by
  unfold MeterState.lookedUp serve
  rw [hfound]
  simp only
  generalize hitClient s env.clientAt σ.world req agent = out
  obtain ⟨res, w⟩ := out
  cases res with
  | some retryAfter =>
    simp only
    rw [resume_answered d s { σ with world := w } hi]
    exact ⟨rfl, rfl⟩
  | none =>
    simp only
    by_cases hpriv : agent.access = .priv
    · rw [if_pos hpriv]
      by_cases hform : accessKeyStart.toList.isPrefixOf
          (bearerToken d req.authorization).toList = true
      · -- The call waits for the key query and is resumed from there.
        have hwaits : meterStep d s
            { σ with world := w, routes := σ.routes.set i (.keyCheck req agent owner) }
            (.resume i env) = MeterState.keyChecked d
              { σ with world := w, routes := σ.routes.set i (.keyCheck req agent owner) } i env req
              agent owner := by
          rw [meterStep_resume (List.getElem?_set_self hi)]
          rfl
        rw [if_pos hform, hwaits]
        unfold MeterState.keyChecked
        by_cases hkey : isValidAccessKey d w.db agent.id (bearerToken d req.authorization) = true
        · rw [if_pos hkey, if_neg fun h => h.2 hkey]
          exact ⟨rfl, rfl⟩
        · rw [if_neg hkey, if_pos ⟨hpriv, hkey⟩]
          exact ⟨rfl, rfl⟩
      · have hkey : ¬ isValidAccessKey d w.db agent.id (bearerToken d req.authorization) = true :=
          fun h => hform (isValidAccessKey_iff.mp h).1
        rw [if_neg hform, if_pos ⟨hpriv, hkey⟩, resume_answered d s { σ with world := w } hi]
        exact ⟨rfl, rfl⟩
    · have hfinished : MeterState.finish d { σ with world := w } i env agent owner =
          MeterState.answer { σ with world := (dispatch d env w agent owner).2 } i
            (dispatch d env w agent owner).1 (some agent.id) env.countedAt := rfl
      rw [if_neg hpriv, if_neg fun h => hpriv h.1, hfinished,
        resume_answered d s { σ with world := (dispatch d env w agent owner).2 } hi]
      exact ⟨rfl, rfl⟩

/-- **An undisturbed call is `route`.** With no other event in between, a call gives the answer
and leaves the world of the serial handler. -/
theorem undisturbed_route (σ : MeterState) (req : RouteRequest) (env : RouteEnv)
    (htoken : checkToken s req = none) :
    ∃ agent, (run (meterStep d s) σ [.arrive req env.countedAt, .resume σ.routes.length env,
        .resume σ.routes.length env]).answers =
        ⟨(route d s env σ.world req).1, agent, env.countedAt⟩ :: σ.answers ∧
      (run (meterStep d s) σ [.arrive req env.countedAt, .resume σ.routes.length env,
        .resume σ.routes.length env]).world = (route d s env σ.world req).2 := by
  have harrive : meterStep d s σ (.arrive req env.countedAt) =
      { σ with routes := σ.routes ++ [.lookup req] } := by
    show σ.arrive s req env.countedAt = _
    unfold MeterState.arrive
    rw [htoken]
  have hlast : (σ.routes ++ [RouteCall.lookup req])[σ.routes.length]? = some (.lookup req) := by
    rw [List.getElem?_append_right (le_refl _), Nat.sub_self]
    rfl
  have hlookup : meterStep d s { σ with routes := σ.routes ++ [.lookup req] }
      (.resume σ.routes.length env) =
      MeterState.lookedUp d s { σ with routes := σ.routes ++ [.lookup req] } σ.routes.length env
        req := by
    rw [meterStep_resume hlast]
    rfl
  have hlt : σ.routes.length < (σ.routes ++ [RouteCall.lookup req]).length := by simp
  rw [run_cons, run_cons, run_cons, run_nil, harrive, hlookup]
  unfold route
  rw [htoken]
  cases hfound : agentAndOwner d s σ.world.db req.host with
  | none =>
    unfold MeterState.lookedUp
    simp only [hfound]
    rw [resume_answered d s { σ with routes := _ } hlt]
    exact ⟨none, rfl, rfl⟩
  | some found =>
    obtain ⟨agent, owner⟩ := found
    exact ⟨some agent.id,
      lookedUp_alone d s { σ with routes := σ.routes ++ [.lookup req] } hlt req env hfound⟩

/-- The inserts of a flush left alone bring it to its commit. -/
theorem inserts_alone {i : Nat} (batch : Counter RequestKey) (existing : List UserId) :
    ∀ (rest : Counter RequestKey) (σ : MeterState),
      σ.flushes[i]? = some (nextInsert batch existing rest) →
      run (meterStep d s) σ (List.replicate rest.length (.advance i)) =
        { σ with flushes := σ.flushes.set i (.committing batch existing) } := by
  intro rest
  induction rest with
  | nil =>
    intro σ hσ
    have hset : σ.flushes.set i (.committing batch existing) = σ.flushes := by
      obtain ⟨hlt, hget⟩ := List.getElem?_eq_some_iff.mp hσ
      rw [show FlushCall.committing batch existing = σ.flushes[i] from hget.symm,
        List.set_getElem_self]
    rw [hset]
    rfl
  | cons e rest ih =>
    intro σ hσ
    have hlt : i < σ.flushes.length := (List.getElem?_eq_some_iff.mp hσ).1
    have hstep : meterStep d s σ (.advance i) =
        { σ with flushes := σ.flushes.set i (nextInsert batch existing rest) } :=
      meterStep_advance hσ
    rw [List.length_cons, List.replicate_succ, run_cons, hstep,
      ih _ (List.getElem?_set_self hlt)]
    simp only [List.set_set]

/-- **An undisturbed flush is `flushRequests`.** -/
theorem undisturbed_flush (σ : MeterState) (hne : σ.world.pending ≠ []) :
    (run (meterStep d s) σ (.flush :: .advance σ.flushes.length ::
      (List.replicate (kept (existingUsers σ.world.db.users σ.world.pending)
        σ.world.pending).length (.advance σ.flushes.length) ++
          [.advance σ.flushes.length]))).world = flushRequests σ.world false := by
  have hlast : ∀ f : FlushCall, (σ.flushes ++ [f])[σ.flushes.length]? = some f := by
    intro f
    rw [List.getElem?_append_right (le_refl _), Nat.sub_self]
    rfl
  have hset : ∀ f f' : FlushCall, (σ.flushes ++ [f]).set σ.flushes.length f' =
      σ.flushes ++ [f'] := by
    intro f f'
    rw [List.set_append_right _ _ (le_refl _), Nat.sub_self]
    rfl
  have hflush : meterStep d s σ .flush =
      { σ with
        world := { σ.world with pending := [] }
        flushes := σ.flushes ++ [.selecting σ.world.pending] } := if_neg hne
  rw [run_cons, run_cons, hflush]
  have hselect : meterStep d s
      { σ with
        world := { σ.world with pending := [] }
        flushes := σ.flushes ++ [.selecting σ.world.pending] } (.advance σ.flushes.length) =
      { σ with
        world := { σ.world with pending := [] }
        flushes := σ.flushes ++ [nextInsert σ.world.pending
          (existingUsers σ.world.db.users σ.world.pending)
          (kept (existingUsers σ.world.db.users σ.world.pending) σ.world.pending)] } := by
    rw [meterStep_advance (hlast _)]
    simp only [MeterState.advance, hset]
  rw [hselect, run_append, inserts_alone d s _ _ _ _ (hlast _), run_cons, run_nil]
  simp only [hset]
  have hcommit : meterStep d s
      { σ with
        world := { σ.world with pending := [] }
        flushes := σ.flushes ++ [.committing σ.world.pending
          (existingUsers σ.world.db.users σ.world.pending)] } (.advance σ.flushes.length) =
      MeterState.advance
        { σ with
          world := { σ.world with pending := [] }
          flushes := σ.flushes ++ [.committing σ.world.pending
            (existingUsers σ.world.db.users σ.world.pending)] } σ.flushes.length
        (.committing σ.world.pending (existingUsers σ.world.db.users σ.world.pending)) :=
    meterStep_advance (hlast _)
  rw [hcommit]
  unfold flushRequests
  rw [if_neg hne]
  rfl

end Alone

end Gateway
