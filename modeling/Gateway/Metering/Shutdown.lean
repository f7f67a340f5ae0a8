import Gateway.Metering.Counts

/-!
# Shutting down (`main.lifespan`, `scheduler.run_scheduler_loop`)

The scheduler loop sleeps, flushes the request counts, and goes through the agents; its flush is
one of the calls of `Counts.lean`, and requests go on being routed meanwhile. At shutdown
`lifespan` cancels the loop at the await it is in and then flushes once more itself.

`flush_requests` puts its batch back in an `except Exception` handler. `CancelledError` is not an
`Exception`: cancelled at the select, an insert or the commit, the flush ends without its handler,
and cancelled in the rollback it ends before the put-back. The batch goes with it.

* `MeterInv` adds to `Conserved` whose requests are where: an agent's requests carry its owner, and
  an owner who still exists at shutdown has been there ever since its first request.
* **`shutdown_counts_all_iff`**: the requests of the users that still exist are all in `usage_hours`
  after the shutdown exactly when the loop was not cancelled inside a flush that held one of them.
* **`cancelled_flush_loses_request`**: the shortest run in which one is lost.
-/

namespace Gateway

open Lib

/-! ## The process -/

/-- Where the scheduler loop waits. -/
inductive LoopPc where
  | sleeping
  | flushing (i : Nat)
  | agents
  deriving DecidableEq, Repr

/-- The process: its calls in progress and the scheduler loop. -/
structure Process where
  meter : MeterState := {}
  loop : LoopPc := .sleeping

/-- What happens next before the shutdown. -/
inductive ProcessEvent where
  | gateway (e : MeterEvent)
  | wake
  | returns
  | raises
  | tickEnds

/-- The flush in a loop's hands is the loop's to advance. -/
def MeterEvent.ofFlush : MeterEvent → Bool
  | .flush => true
  | .advance _ => true
  | .raise _ => true
  | _ => false

def FlushCall.isDone : FlushCall → Bool
  | .done => true
  | _ => false

/-- One event. A flush that raised is logged by `_tick`, which goes on to the agents like after one
that returned. -/
def processStep (d : Deps) (s : Settings) (p : Process) : ProcessEvent → Process
  | .gateway e => if e.ofFlush then p else { p with meter := meterStep d s p.meter e }
  | .wake =>
    match p.loop with
    | .sleeping =>
      { meter := meterStep d s p.meter .flush
        loop := if p.meter.world.pending = [] then .agents else .flushing p.meter.flushes.length }
    | _ => p
  | .returns =>
    match p.loop with
    | .flushing i =>
      let meter := meterStep d s p.meter (.advance i)
      { meter := meter
        loop := if (meter.flushes[i]?).elim true FlushCall.isDone then .agents else .flushing i }
    | _ => p
  | .raises =>
    match p.loop with
    | .flushing i => { p with meter := meterStep d s p.meter (.raise i) }
    | _ => p
  | .tickEnds =>
    match p.loop with
    | .agents => { p with loop := .sleeping }
    | _ => p

/-- `lifespan` cancels the loop: `CancelledError` is raised at the await it is in. -/
def Process.cancel (p : Process) : MeterState :=
  match p.loop with
  | .flushing i => (p.meter.flushes[i]?).elim p.meter (p.meter.raise .cancelled i)
  | _ => p.meter

/-- The world after `lifespan`, its own flush having succeeded. -/
def Process.shutdown (p : Process) : World := flushRequests p.cancel.world false

theorem Process.cancel_world (p : Process) : p.cancel.world = p.meter.world := by
  unfold Process.cancel
  split
  · rename_i i _
    cases p.meter.flushes[i]? <;> rfl
  · rfl

/-- The user exists when the process shuts down. -/
def Process.alive (p : Process) (u : UserId) : Prop := (p.meter.world.db.users.find? u).isSome

/-- After the shutdown every request counted for an agent of a user that still exists is in the
`requests` of its bucket, exactly once. -/
def CountsAll (owner : AgentId → UserId) (p : Process) : Prop :=
  ∀ a h, p.alive (owner a) →
    requestsIn p.shutdown.db.usageHours a h = given204 a h p.meter.answers

/-- The loop waits inside a flush whose batch holds a request of a user that still exists. -/
def InFlushOfAlive (p : Process) : Prop :=
  ∃ i f, p.loop = .flushing i ∧ p.meter.flushes[i]? = some f ∧ ∃ e ∈ f.held, p.alive e.1.userId

/-- What the environment of a run keeps to: an agent's row names its owner, and a user who is among
`alive` (those that exist at shutdown) does not go away and come back. -/
def OwnersKept (owner : AgentId → UserId) (alive : UserId → Prop) (p : Process) :
    ProcessEvent → Prop
  | .gateway (.environment db _) =>
    (∀ a ∈ db.agents.rows, a.userId = owner a.id) ∧
      ∀ u, alive u → (p.meter.world.db.users.find? u).isSome → (db.users.find? u).isSome
  | _ => True

/-! ## Whose requests are where -/

section Inv

variable (owner : AgentId → UserId) (alive : UserId → Prop) (users : Table User User.id)

/-- A request of an agent is its owner's, who is there if it is there at shutdown. -/
def OwnedKey (agentId : AgentId) (userId : UserId) : Prop :=
  userId = owner agentId ∧ (alive userId → (users.find? userId).isSome)

/-- The counts of a counter are positive and its keys owned. -/
def OwnedCounts (c : Counter RequestKey) : Prop :=
  c.Positive ∧ ∀ e ∈ c, OwnedKey owner alive users e.1.agentId e.1.userId

/-- A `route` call that waits for the key query has loaded an owned agent. -/
def OwnedRoute : RouteCall → Prop
  | .keyCheck _ agent _ => OwnedKey owner alive users agent.id agent.userId
  | _ => True

/-- The users a flush found include those alive at shutdown. -/
def FlushCall.FoundAlive : FlushCall → Prop
  | .inserting batch existing _ => ∀ e ∈ batch, alive e.1.userId → e.1.userId ∈ existing
  | .committing batch existing => ∀ e ∈ batch, alive e.1.userId → e.1.userId ∈ existing
  | _ => True

/-- What holds of the calls of a process at any time. -/
structure MeterInv (σ : MeterState) : Prop where
  conserved : Conserved σ
  agents : ∀ a ∈ σ.world.db.agents.rows, a.userId = owner a.id
  routes : ∀ c ∈ σ.routes, OwnedRoute owner alive σ.world.db.users c
  pending : OwnedCounts owner alive σ.world.db.users σ.world.pending
  flushes : ∀ f ∈ σ.flushes, OwnedCounts owner alive σ.world.db.users f.held ∧ f.FoundAlive alive
  dropped : ∀ e ∈ σ.dropped, e.1.userId = owner e.1.agentId ∧ ¬ alive e.1.userId

end Inv

section Lemmas

variable {owner : AgentId → UserId} {alive : UserId → Prop} {users users' : Table User User.id}

theorem OwnedKey.mono {a : AgentId} {u : UserId} (h : OwnedKey owner alive users a u)
    (hle : ∀ u, alive u → (users.find? u).isSome → (users'.find? u).isSome) :
    OwnedKey owner alive users' a u :=
  ⟨h.1, fun hu => hle u hu (h.2 hu)⟩

theorem OwnedCounts.mono {c : Counter RequestKey} (h : OwnedCounts owner alive users c)
    (hle : ∀ u, alive u → (users.find? u).isSome → (users'.find? u).isSome) :
    OwnedCounts owner alive users' c :=
  ⟨h.1, fun e he => (h.2 e he).mono hle⟩

theorem OwnedCounts.nil : OwnedCounts owner alive users [] :=
  ⟨fun _ he => absurd he List.not_mem_nil, fun _ he => absurd he List.not_mem_nil⟩

theorem OwnedCounts.countRequest {c : Counter RequestKey} (h : OwnedCounts owner alive users c)
    {agent : Agent} (ha : OwnedKey owner alive users agent.id agent.userId) (t : Instant) :
    OwnedCounts owner alive users (countRequest c agent t) :=
  ⟨h.1.add Nat.one_pos,
    Counter.keys_add (P := fun k : RequestKey => OwnedKey owner alive users k.agentId k.userId) ha
      h.2⟩

theorem OwnedCounts.update {c batch : Counter RequestKey} (h : OwnedCounts owner alive users c)
    (hb : OwnedCounts owner alive users batch) :
    OwnedCounts owner alive users (Counter.update c batch) :=
  ⟨h.1.update hb.1,
    Counter.keys_update (P := fun k : RequestKey => OwnedKey owner alive users k.agentId k.userId)
      h.2 hb.2⟩

theorem OwnedCounts.foundAlive {batch rest : Counter RequestKey}
    (h : OwnedCounts owner alive users batch) :
    (nextInsert batch (existingUsers users batch) rest).FoundAlive alive := by
  have hfound : ∀ e ∈ batch, alive e.1.userId → e.1.userId ∈ existingUsers users batch :=
    fun e he hu => (mem_existingUsers he).mpr ((h.2 e he).2 hu)
  cases rest with
  | nil => exact hfound
  | cons x rest => exact hfound

/-- `dispatch` counts the request or leaves the counter alone. -/
theorem dispatch_pending (d : Deps) (env : RouteEnv) (w : World) (agent : Agent) (user : User) :
    (dispatch d env w agent user).2.pending = w.pending ∨
      (dispatch d env w agent user).2.pending = countRequest w.pending agent env.countedAt := by
  by_cases hopen : (hitAgent d env.agentAt w agent user).1 = none ∧
      upstreams (w.containers agent.id) ≠ []
  · obtain ⟨target, -, -, hpending⟩ := dispatch_routed hopen.1 hopen.2
    exact Or.inr hpending
  · exact Or.inl (dispatch_refused hopen).2

end Lemmas

/-! ## One event -/

namespace MeterInv

variable {owner : AgentId → UserId} {alive : UserId → Prop} {d : Deps} {s : Settings}
  {σ : MeterState}

/-- Waiting calls that are replaced by owned ones stay owned. -/
theorem routes_set {c : RouteCall} (hσ : MeterInv owner alive σ) (i : Nat)
    (hc : OwnedRoute owner alive σ.world.db.users c) :
    ∀ c' ∈ σ.routes.set i c, OwnedRoute owner alive σ.world.db.users c' := by
  intro c' hc'
  rcases List.mem_or_eq_of_mem_set hc' with h | rfl
  · exact hσ.routes c' h
  · exact hc

theorem flushes_set {f : FlushCall} (hσ : MeterInv owner alive σ) (i : Nat)
    (hf : OwnedCounts owner alive σ.world.db.users f.held ∧ f.FoundAlive alive) :
    ∀ f' ∈ σ.flushes.set i f,
      OwnedCounts owner alive σ.world.db.users f'.held ∧ f'.FoundAlive alive := by
  intro f' hf'
  rcases List.mem_or_eq_of_mem_set hf' with h | rfl
  · exact hσ.flushes f' h
  · exact hf

theorem finish (hσ : MeterInv owner alive σ) (i : Nat) (env : RouteEnv) {agent : Agent}
    (user : User) (ha : OwnedKey owner alive σ.world.db.users agent.id agent.userId) :
    MeterInv owner alive (σ.finish d i env agent user) := by
  have hdb := (dispatch_frame d env σ.world agent user).1
  refine ⟨hσ.conserved.finish i env agent user, ?_, ?_, ?_, ?_, hσ.dropped⟩
  · show ∀ a ∈ (dispatch d env σ.world agent user).2.db.agents.rows, _
    rw [hdb]
    exact hσ.agents
  · show ∀ c ∈ σ.routes.set i .done,
      OwnedRoute owner alive (dispatch d env σ.world agent user).2.db.users c
    rw [hdb]
    exact hσ.routes_set i trivial
  · show OwnedCounts owner alive (dispatch d env σ.world agent user).2.db.users
      (dispatch d env σ.world agent user).2.pending
    rw [hdb]
    rcases dispatch_pending d env σ.world agent user with h | h
    · rw [h]
      exact hσ.pending
    · rw [h]
      exact hσ.pending.countRequest ha env.countedAt
  · show ∀ f ∈ σ.flushes, OwnedCounts owner alive (dispatch d env σ.world agent user).2.db.users
      f.held ∧ f.FoundAlive alive
    rw [hdb]
    exact hσ.flushes

theorem answer (hσ : MeterInv owner alive σ) (i : Nat) {r : Response} (agent : Option AgentId)
    (now : Instant) (hr : Conserved (σ.answer i r agent now)) :
    MeterInv owner alive (σ.answer i r agent now) :=
  { hσ with
    conserved := hr
    routes := hσ.routes_set i trivial }

theorem keyChecked (hσ : MeterInv owner alive σ) (i : Nat) (env : RouteEnv) (req : RouteRequest)
    {agent : Agent} (user : User)
    (ha : OwnedKey owner alive σ.world.db.users agent.id agent.userId) :
    MeterInv owner alive (σ.keyChecked d i env req agent user) := by
  have hconserved := hσ.conserved.keyChecked (d := d) i env req agent user
  unfold MeterState.keyChecked at hconserved ⊢
  split_ifs at hconserved ⊢
  · exact hσ.finish i env user ha
  · exact hσ.answer i _ _ hconserved

theorem lookedUp (hσ : MeterInv owner alive σ) (i : Nat) (env : RouteEnv) (req : RouteRequest) :
    MeterInv owner alive (σ.lookedUp d s i env req) := by
  have hconserved := hσ.conserved.lookedUp (d := d) (s := s) i env req
  unfold MeterState.lookedUp at hconserved ⊢
  cases hfound : agentAndOwner d s σ.world.db req.host with
  | none =>
    simp only [hfound] at hconserved
    exact hσ.answer i _ _ hconserved
  | some found =>
    obtain ⟨agent, user⟩ := found
    simp only [hfound] at hconserved
    obtain ⟨hmem, huser⟩ := agentAndOwner_some hfound
    have ha : OwnedKey owner alive σ.world.db.users agent.id agent.userId :=
      ⟨hσ.agents agent hmem, fun _ => by rw [huser]; rfl⟩
    have hw : MeterInv owner alive
        { σ with world := (hitClient s env.clientAt σ.world req agent).2 } :=
      { hσ with conserved := hσ.conserved.of_world rfl rfl }
    have hka : OwnedKey owner alive
        (hitClient s env.clientAt σ.world req agent).2.db.users agent.id agent.userId := ha
    simp only
    generalize hitClient s env.clientAt σ.world req agent = out at hw hka hconserved
    obtain ⟨res, w⟩ := out
    cases res with
    | some retryAfter => exact hw.answer i _ _ hconserved
    | none =>
      simp only at hconserved ⊢
      split_ifs at hconserved ⊢
      · exact { hw with
          conserved := hconserved
          routes := hw.routes_set i hka }
      · exact hw.answer i _ _ hconserved
      · exact hw.finish i env user hka

theorem arrive (hσ : MeterInv owner alive σ) (req : RouteRequest) (now : Instant) :
    MeterInv owner alive (σ.arrive s req now) := by
  have hconserved := hσ.conserved.arrive (s := s) req now
  unfold MeterState.arrive at hconserved ⊢
  cases hc : checkToken s req with
  | some r =>
    simp only [hc] at hconserved
    exact { hσ with conserved := hconserved }
  | none =>
    simp only [hc] at hconserved
    refine { hσ with conserved := hconserved, routes := fun c hc' => ?_ }
    rcases List.mem_append.mp hc' with h | h
    · exact hσ.routes c h
    · obtain rfl := List.mem_singleton.mp h
      trivial

theorem flush (hσ : MeterInv owner alive σ) : MeterInv owner alive σ.flush := by
  have hconserved := hσ.conserved.flush
  unfold MeterState.flush at hconserved ⊢
  split_ifs at hconserved ⊢
  · exact hσ
  · refine { hσ with conserved := hconserved, pending := .nil, flushes := fun f hf => ?_ }
    rcases List.mem_append.mp hf with h | h
    · exact hσ.flushes f h
    · obtain rfl := List.mem_singleton.mp h
      exact ⟨hσ.pending, trivial⟩

theorem advance (hσ : MeterInv owner alive σ) {i : Nat} {f : FlushCall}
    (hf : σ.flushes[i]? = some f) : MeterInv owner alive (σ.advance i f) := by
  have hconserved := hσ.conserved.advance hf
  obtain ⟨hheld, hfound⟩ := hσ.flushes f (List.mem_of_getElem? hf)
  cases f with
  | selecting batch =>
    exact { hσ with
      conserved := hconserved
      flushes := hσ.flushes_set i ⟨by rw [held_nextInsert]; exact hheld, hheld.foundAlive⟩ }
  | inserting batch existing rest =>
    refine { hσ with conserved := hconserved, flushes := hσ.flushes_set i ⟨?_, ?_⟩ }
    · rw [held_nextInsert]
      exact hheld
    · cases rest.tail with
      | nil => exact hfound
      | cons x rest => exact hfound
  | committing batch existing =>
    refine { hσ with
      conserved := hconserved
      flushes := hσ.flushes_set i ⟨.nil, trivial⟩
      dropped := fun e he => ?_ }
    rcases List.mem_append.mp he with he | he
    · exact hσ.dropped e he
    · obtain ⟨hmem, hgone⟩ := List.mem_filter.mp he
      refine ⟨(hheld.2 e hmem).1, fun hu => ?_⟩
      exact absurd (hfound e hmem hu) (by simpa using hgone)
  | rollingBack batch =>
    exact { hσ with
      conserved := hconserved
      pending := hσ.pending.update hheld
      flushes := hσ.flushes_set i ⟨.nil, trivial⟩ }
  | done => exact hσ

theorem raise (hσ : MeterInv owner alive σ) {i : Nat} {f : FlushCall}
    (hf : σ.flushes[i]? = some f) : MeterInv owner alive (σ.raise .exception i f) := by
  obtain ⟨hheld, -⟩ := hσ.flushes f (List.mem_of_getElem? hf)
  refine { hσ with
    conserved := hσ.conserved.raise hf
    flushes := hσ.flushes_set i ⟨by rw [held_raised]; exact hheld, ?_⟩ }
  cases f <;> trivial

/-- Other users may come and go. -/
theorem environment (hσ : MeterInv owner alive σ) {db : Db}
    {containers : AgentId → List Container} (hagents : ∀ a ∈ db.agents.rows, a.userId = owner a.id)
    (husers : ∀ u, alive u → (σ.world.db.users.find? u).isSome → (db.users.find? u).isSome) :
    MeterInv owner alive (meterStep d s σ (.environment db containers)) := by
  have hconserved := hσ.conserved.step (d := d) (s := s) σ (.environment db containers)
  simp only [meterStep] at hconserved ⊢
  split_ifs at hconserved ⊢
  · refine ⟨hconserved, hagents, fun c hc => ?_, hσ.pending.mono husers,
      fun f hf => ⟨(hσ.flushes f hf).1.mono husers, (hσ.flushes f hf).2⟩, hσ.dropped⟩
    have h := hσ.routes c hc
    cases c with
    | lookup req => trivial
    | keyCheck req agent user => exact OwnedKey.mono h husers
    | done => trivial
  · exact hσ

/-- **One event of the calls.** -/
theorem step (hσ : MeterInv owner alive σ) (e : MeterEvent)
    (henv : ∀ db cs, e = .environment db cs → (∀ a ∈ db.agents.rows, a.userId = owner a.id) ∧
      ∀ u, alive u → (σ.world.db.users.find? u).isSome → (db.users.find? u).isSome) :
    MeterInv owner alive (meterStep d s σ e) := by
  cases e with
  | environment db containers =>
    obtain ⟨hagents, husers⟩ := henv db containers rfl
    exact hσ.environment hagents husers
  | record agent replicas seconds now =>
    exact { hσ with conserved := hσ.conserved.step σ (.record agent replicas seconds now) }
  | arrive req now => exact hσ.arrive req now
  | resume i env =>
    refine resume_inv env hσ fun c hc => ?_
    have hroute := hσ.routes c (List.mem_of_getElem? hc)
    cases c with
    | lookup req => exact hσ.lookedUp i env req
    | keyCheck req agent user => exact hσ.keyChecked i env req user hroute
    | done => exact hσ
  | abandon i => exact { hσ with routes := hσ.routes_set i trivial }
  | flush => exact hσ.flush
  | advance i => exact advance_inv hσ fun f hf => hσ.advance hf
  | raise i => exact raise_inv hσ fun f hf => hσ.raise hf

end MeterInv

/-- What holds of a process at any time: the flush that holds requests is the loop's. -/
structure ProcessInv (owner : AgentId → UserId) (alive : UserId → Prop) (p : Process) : Prop where
  meter : MeterInv owner alive p.meter
  holder : ∀ j f, p.meter.flushes[j]? = some f → f.held ≠ [] → p.loop = .flushing j

namespace ProcessInv

variable {owner : AgentId → UserId} {alive : UserId → Prop} {d : Deps} {s : Settings}

/-- Events of other calls leave the flushes alone. -/
theorem flushes_of_not_ofFlush {σ : MeterState} {e : MeterEvent} (he : e.ofFlush = false) :
    (meterStep d s σ e).flushes = σ.flushes := by
  cases e with
  | environment db containers =>
    simp only [meterStep]
    split_ifs <;> rfl
  | record agent replicas seconds now => rfl
  | arrive req now =>
    simp only [meterStep, MeterState.arrive]
    split <;> rfl
  | resume i env =>
    refine resume_inv (P := fun σ' => σ'.flushes = σ.flushes) env rfl fun c _ => ?_
    cases c with
    | done => rfl
    | keyCheck req agent user =>
      simp only [MeterState.resume, MeterState.keyChecked]
      split_ifs <;> rfl
    | lookup req =>
      simp only [MeterState.resume, MeterState.lookedUp]
      split
      · rfl
      · split
        · rfl
        · split_ifs <;> rfl
  | abandon i => rfl
  | flush => exact absurd he (by decide)
  | advance i => exact absurd he (by simp [MeterEvent.ofFlush])
  | raise i => exact absurd he (by simp [MeterEvent.ofFlush])

/-- An event of flush `i` changes no other flush. -/
theorem flushes_ne {σ : MeterState} {i j : Nat} (hij : i ≠ j) :
    (meterStep d s σ (.advance i)).flushes[j]? = σ.flushes[j]? ∧
      (meterStep d s σ (.raise i)).flushes[j]? = σ.flushes[j]? := by
  constructor
  · refine advance_inv (P := fun σ' => σ'.flushes[j]? = σ.flushes[j]?) rfl fun f _ => ?_
    cases f <;> first | rfl | exact List.getElem?_set_ne hij
  · refine raise_inv (P := fun σ' => σ'.flushes[j]? = σ.flushes[j]?) rfl fun f _ => ?_
    exact List.getElem?_set_ne hij

variable {p : Process}

/-- What is held is held by the flush of a loop that is flushing. -/
theorem held_eq_nil (hp : ProcessInv owner alive p) (hl : ∀ j, p.loop ≠ .flushing j) {j : Nat}
    {f : FlushCall} (hf : p.meter.flushes[j]? = some f) : f.held = [] := by
  by_contra hne
  exact hl j (hp.holder j f hf hne)

/-- An event of the other calls. -/
theorem gateway (hp : ProcessInv owner alive p) {e : MeterEvent}
    (henv : OwnersKept owner alive p (.gateway e)) :
    ProcessInv owner alive (processStep d s p (.gateway e)) := by
  simp only [processStep]
  split_ifs with he
  · exact hp
  · rw [Bool.not_eq_true] at he
    refine ⟨hp.meter.step e fun db cs h => ?_, ?_⟩
    · subst h
      exact henv
    · rw [flushes_of_not_ofFlush he]
      exact hp.holder

/-- The loop wakes and starts its flush: nothing was held, so that is the only one to hold
something. -/
theorem wake (hp : ProcessInv owner alive p) :
    ProcessInv owner alive (processStep d s p .wake) := by
  unfold processStep
  cases hl : p.loop with
  | flushing i => exact hp
  | agents => exact hp
  | sleeping =>
    refine ⟨hp.meter.flush, fun j f hf hne => ?_⟩
    have hbefore : ∀ (j : Nat) (f : FlushCall), p.meter.flushes[j]? = some f → f.held = [] :=
      fun j f hf => hp.held_eq_nil (by simp [hl]) hf
    simp only [meterStep, MeterState.flush] at hf
    simp only
    split_ifs at hf ⊢ with hpend
    · exact absurd (hbefore j f hf) hne
    · rcases Nat.lt_trichotomy j p.meter.flushes.length with hj | hj | hj
      · rw [List.getElem?_append_left hj] at hf
        exact absurd (hbefore j f hf) hne
      · rw [hj]
      · rw [List.getElem?_eq_none (by simp; omega)] at hf
        exact absurd hf (by simp)

/-- An await of the loop's flush returns; the loop goes on once the flush is done. -/
theorem returns (hp : ProcessInv owner alive p) :
    ProcessInv owner alive (processStep d s p .returns) := by
  unfold processStep
  cases hl : p.loop with
  | sleeping => exact hp
  | agents => exact hp
  | flushing i =>
    refine ⟨hp.meter.step (d := d) (s := s) (.advance i) (by simp), fun j f hf hne => ?_⟩
    simp only at hf ⊢
    by_cases hij : i = j
    · subst hij
      have hnd : f.isDone = false := by
        cases f with
        | done => exact absurd rfl hne
        | _ => rfl
      rw [hf, Option.elim_some, hnd]
      rfl
    · rw [(flushes_ne hij).1] at hf
      have := hl.symm.trans (hp.holder j f hf hne)
      exact absurd (LoopPc.flushing.inj this) hij

/-- An await of it raises an `Exception`. -/
theorem raises (hp : ProcessInv owner alive p) :
    ProcessInv owner alive (processStep d s p .raises) := by
  unfold processStep
  cases hl : p.loop with
  | sleeping => exact hp
  | agents => exact hp
  | flushing i =>
    refine ⟨hp.meter.step (d := d) (s := s) (.raise i) (by simp), fun j f hf hne => ?_⟩
    by_cases hij : i = j
    · rw [← hij]
    · rw [(flushes_ne hij).2] at hf
      exact hl.symm.trans (hp.holder j f hf hne)

theorem tickEnds (hp : ProcessInv owner alive p) :
    ProcessInv owner alive (processStep d s p .tickEnds) := by
  unfold processStep
  cases hl : p.loop with
  | sleeping => exact hp
  | flushing i => exact hp
  | agents =>
    refine ⟨hp.meter, fun j f hf hne => ?_⟩
    exact absurd (hp.held_eq_nil (by simp [hl]) hf) hne

/-- **One event of the process.** -/
theorem step (p : Process) (e : ProcessEvent) (hp : ProcessInv owner alive p)
    (henv : OwnersKept owner alive p e) : ProcessInv owner alive (processStep d s p e) := by
  cases e with
  | gateway e => exact hp.gateway henv
  | wake => exact hp.wake
  | returns => exact hp.returns
  | raises => exact hp.raises
  | tickEnds => exact hp.tickEnds

end ProcessInv

/-! ## The shutdown -/

/-- The bucket of an agent whose owner is alive holds none of the dropped counts. -/
theorem total_eq_zero_of_not_alive (owner : AgentId → UserId) {alive : UserId → Prop}
    {c : Counter RequestKey}
    (h : ∀ e ∈ c, e.1.userId = owner e.1.agentId ∧ ¬ alive e.1.userId) {a : AgentId} {t : Instant}
    (ha : alive (owner a)) : Counter.total (inBucket a t) c = 0 := by
  induction c with
  | nil => rfl
  | cons e c ih =>
    obtain ⟨howner, hgone⟩ := h e List.mem_cons_self
    have hbucket : inBucket a t e.1 = false := by
      unfold inBucket
      rw [decide_eq_false_iff_not]
      rintro ⟨rfl, -⟩
      exact hgone (howner ▸ ha)
    rw [Counter.total_cons, hbucket, ih fun x hx => h x (List.mem_cons_of_mem e hx)]
    rfl

/-- The last flush writes all that is pending for users that exist. -/
theorem requestsIn_shutdown {owner : AgentId → UserId} {p : Process}
    (hp : MeterInv owner p.alive p.meter) {a : AgentId} (ha : p.alive (owner a)) (t : Instant) :
    requestsIn p.shutdown.db.usageHours a t =
      requestsIn p.meter.world.db.usageHours a t +
        Counter.total (inBucket a t) p.meter.world.pending := by
  unfold Process.shutdown
  rw [Process.cancel_world]
  unfold flushRequests
  split_ifs with hpend hfails
  · rw [hpend]
    rfl
  · exact absurd hfails (by simp)
  · show requestsIn (commitRequests _ _) a t = _
    have hsplit := total_kept_add_dropped (inBucket a t)
      (existingUsers p.meter.world.db.users p.meter.world.pending) p.meter.world.pending
    have hgone : Counter.total (inBucket a t)
        (dropped (existingUsers p.meter.world.db.users p.meter.world.pending)
          p.meter.world.pending) = 0 := by
      refine total_eq_zero_of_not_alive owner (fun e he => ?_) ha
      obtain ⟨hmem, hnot⟩ := List.mem_filter.mp he
      refine ⟨(hp.pending.2 e hmem).1, fun hu => ?_⟩
      exact absurd ((mem_existingUsers hmem).mpr ((hp.pending.2 e hmem).2 hu)) (by simpa using hnot)
    rw [requestsIn_commitRequests]
    omega

/-- After the shutdown a bucket lacks exactly what the loop's flush held. -/
theorem requestsIn_shutdown_add {owner : AgentId → UserId} {p : Process}
    (hp : MeterInv owner p.alive p.meter) {a : AgentId} (ha : p.alive (owner a)) (t : Instant) :
    requestsIn p.shutdown.db.usageHours a t + heldIn a t p.meter.flushes =
      given204 a t p.meter.answers := by
  have hdropped : Counter.total (inBucket a t) p.meter.dropped = 0 :=
    total_eq_zero_of_not_alive owner hp.dropped ha
  rw [hp.conserved a t, requestsIn_shutdown hp ha, hdropped]
  omega

/-- **What a shutdown loses.** For every run of the gateway and its scheduler loop, cancelled at
any point: after the last flush the requests of the users that still exist are all in
`usage_hours`, exactly once, if and only if the loop was not inside a flush that held one of
them. -/
theorem shutdown_counts_all_iff (d : Deps) (s : Settings) (owner : AgentId → UserId) (w : World)
    (hpending : w.pending = []) (husage : w.db.usageHours.rows = [])
    (hagents : ∀ a ∈ w.db.agents.rows, a.userId = owner a.id) (events : List ProcessEvent)
    (hkept : Along (processStep d s)
      (OwnersKept owner (run (processStep d s) { meter := { world := w } } events).alive)
      { meter := { world := w } } events) :
    CountsAll owner (run (processStep d s) { meter := { world := w } } events) ↔
      ¬ InFlushOfAlive (run (processStep d s) { meter := { world := w } } events) := by
  have hinv := run_inv (fun p e => ProcessInv.step p e) events (s := { meter := { world := w } })
    (?_ : ProcessInv owner _ _) hkept
  · generalize run (processStep d s) { meter := { world := w } } events = p at hinv
    constructor
    · rintro hall ⟨i, f, -, hf, e, he, hu⟩
      have hmem := List.mem_of_getElem? hf
      obtain ⟨hpos, hkeys⟩ := (hinv.meter.flushes f hmem).1
      have howner := (hkeys e he).1
      have hcount := hall e.1.agentId e.1.hourStart (howner ▸ hu)
      have hadd := requestsIn_shutdown_add hinv.meter (a := e.1.agentId) (howner ▸ hu) e.1.hourStart
      have hzero : heldIn e.1.agentId e.1.hourStart p.meter.flushes = 0 := by omega
      have hbucket := (Counter.total_eq_zero_iff hpos).mp
        ((Pool.weight_eq_zero_iff _).mp hzero f hmem) e he
      exact absurd hbucket (by simp [inBucket])
    · intro hno a t ha
      have hzero : heldIn a t p.meter.flushes = 0 := by
        refine (Pool.weight_eq_zero_iff _).mpr fun f hf => ?_
        obtain ⟨hpos, hkeys⟩ := (hinv.meter.flushes f hf).1
        refine (Counter.total_eq_zero_iff hpos).mpr fun e he => ?_
        by_contra hb
        rw [Bool.not_eq_false, inBucket, decide_eq_true_eq] at hb
        obtain ⟨j, hj⟩ := List.mem_iff_getElem?.mp hf
        refine hno ⟨j, f, hinv.holder j f hj (List.ne_nil_of_mem he), hj, e, he, ?_⟩
        rw [(hkeys e he).1, hb.1]
        exact ha
      rw [← requestsIn_shutdown_add hinv.meter ha t, hzero, Nat.add_zero]
  · refine ⟨⟨?_, hagents, ?_, ?_, ?_, ?_⟩, ?_⟩
    · intro a h
      simp [given204, requestsIn, Table.find?, husage, hpending, heldIn]
    · exact fun c hc => absurd hc List.not_mem_nil
    · show OwnedCounts owner _ w.db.users w.pending
      rw [hpending]
      exact .nil
    · exact fun f hf => absurd hf List.not_mem_nil
    · exact fun e he => absurd he List.not_mem_nil
    · intro j f hf
      exact absurd hf (by simp)

/-! ## A request lost, and one kept -/

/-- One visit to the public agent, and the loop waking up. -/
def visitThenWake : List ProcessEvent :=
  [.gateway (.environment publicDb fun _ => containersFrom 0 1), .gateway (.arrive publicVisit 0),
    .gateway (.resume 0 {}), .wake]

theorem visitThenWake_kept (alive : UserId → Prop) (rest : List ProcessEvent)
    (hrest : ∀ e ∈ rest, e = .returns) :
    Along (processStep .transparent edgeSettings) (OwnersKept (fun _ => freeUser.id) alive) {}
      (visitThenWake ++ rest) := by
  refine ⟨⟨?_, ?_⟩, trivial, trivial, trivial, ?_⟩
  · intro a ha
    obtain rfl := List.mem_singleton.mp ha
    rfl
  · intro u _ hu
    exact absurd hu (by simp [Table.find?, Table.empty])
  · suffices h : ∀ (es : List ProcessEvent) (p : Process), (∀ e ∈ es, e = .returns) →
        Along (processStep .transparent edgeSettings) (OwnersKept (fun _ => freeUser.id) alive)
          p es from h rest _ hrest
    intro es
    induction es with
    | nil => exact fun _ _ => trivial
    | cons e es ih =>
      intro p hes
      obtain rfl := hes e List.mem_cons_self
      exact ⟨trivial, ih _ fun x hx => hes x (List.mem_cons_of_mem _ hx)⟩

/-- Cancelled after its flush has committed, the loop leaves nothing behind. -/
theorem counted_after_commit :
    CountsAll (fun _ => freeUser.id) (run (processStep .transparent edgeSettings) {}
      (visitThenWake ++ [.returns, .returns, .returns])) := by
  refine (shutdown_counts_all_iff .transparent edgeSettings (fun _ => freeUser.id) {} rfl rfl
    (fun a ha => absurd ha List.not_mem_nil) _
    (visitThenWake_kept _ _ (by simp))).mpr ?_
  rintro ⟨i, f, hl, -⟩
  have hloop : (run (processStep .transparent edgeSettings) {}
      (visitThenWake ++ [.returns, .returns, .returns])).loop = .agents := by decide +kernel
  exact absurd (hloop.symm.trans hl) (by simp)

/-- **A cancelled flush loses its request.** One visit is answered 204; the loop wakes up and is
cancelled at the first await of its flush; the last flush finds nothing pending. -/
theorem cancelled_flush_loses_request :
    ¬ CountsAll (fun _ => freeUser.id)
      (run (processStep .transparent edgeSettings) {} visitThenWake) := by
  intro h
  have hcount := h "a" 0 (by unfold Process.alive; decide +kernel)
  revert hcount
  decide +kernel

end Gateway
