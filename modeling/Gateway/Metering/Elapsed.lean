import Gateway.Agents.Scheduler
import Gateway.Lib.TwoRuns

/-!
# Metered time against elapsed time (`run_scheduler_loop`)

The loop with everything that can cut a tick short: any commit, the upsert of `record` and the
quota query may raise, and a commit that raised may have taken effect all the same. A `Turn`
carries what the turn of one loaded row finds; what other sessions do to the agents in between only
shows in the rows and reports that later turns carry, so it needs no step of its own. The state is
`last_tick` and `usage_hours`, and a tick answers the calls of `record` it made.

* `tickAgents_turns`: the tick of `Scheduler.lean` is the one here whose turns find no fault.
* **`metered_within_elapsed`**: per tick at most one call for an agent, of at most three intervals;
  over a run the seconds telescope to the time from the first tick's start to the last one's, and
  one interval; the agent's `replica_seconds` grow by at most that times the largest reported
  count.
-/

namespace Gateway

open Lib

/-! ## Turns with faults -/

/-- How the statement and the commit of `record` end: raising, the write may still be kept. -/
inductive RecordEnd where
  | committed
  | raised (kept : Bool)
  deriving DecidableEq, Repr

/-- What the turn of one loaded row finds. -/
structure Turn where
  agent : Agent
  health : Except CoreError Health
  statusCommitRaises : Bool := false
  recordEnd : RecordEnd := .committed
  headroom : Except GatewayError Bool := .ok false

/-- A call of `metering_service.record`. -/
structure RecordCall where
  agentId : AgentId
  replicas : Nat
  seconds : ℚ
  deriving DecidableEq, Repr

/-- What a part of a tick did: whether it raised, the calls it made and the table it left. -/
structure Metered where
  raised : Bool
  calls : List RecordCall
  usage : UsageHours

/-- `agent.status in ("running", "scaling") and live_replicas > 0`. -/
def isMetered (a : Agent) (live : Nat) : Bool :=
  (a.status = .running ∨ a.status = .scaling) ∧ 0 < live

/-- The quota query of an agent to auto-scale raises. -/
def Turn.scalingRaises (t : Turn) (seen : Agent) (live : Nat) : Bool :=
  decide (seen.autoScale ∧ seen.status = .running ∧ 0 < live) && !t.headroom.isOk

/-- The turn of one loaded row. -/
def Turn.run (seconds : ℚ) (now : Instant) (usage : UsageHours) (t : Turn) : Metered :=
  match t.health with
  | .error _ => ⟨false, [], usage⟩
  | .ok health =>
    let seen := observe t.agent health
    let live := health.liveReplicas
    if seen ≠ t.agent ∧ t.statusCommitRaises then ⟨true, [], usage⟩
    else if isMetered seen live then
      let recorded := record usage seen live seconds now
      match t.recordEnd with
      | .raised kept => ⟨true, [⟨seen.id, live, seconds⟩], if kept then recorded else usage⟩
      | .committed => ⟨t.scalingRaises seen live, [⟨seen.id, live, seconds⟩], recorded⟩
    else ⟨t.scalingRaises seen live, [], usage⟩

/-- The `for` loop of `_tick`: the first turn that raises ends it. -/
def runTurns (seconds : ℚ) (now : Instant) : List Turn → UsageHours → Metered
  | [], usage => ⟨false, [], usage⟩
  | t :: rest, usage =>
    let out := t.run seconds now usage
    if out.raised then out
    else
      let more := runTurns seconds now rest out.usage
      ⟨more.raised, out.calls ++ more.calls, more.usage⟩

/-! ## The loop -/

/-- What one tick of the loop meets: the monotonic clock at its start, the wall clock, the request
counts its flush writes, and the turns of the rows it loads, each row once. -/
structure TickInput where
  started : ℚ
  now : Instant
  flushed : Counter RequestKey := []
  turns : List Turn
  distinct : (turns.map fun t => t.agent.id).Nodup

/-- What the loop keeps from tick to tick, and the table it writes. -/
structure LoopState where
  lastTick : Option ℚ := none
  usage : UsageHours := .empty

/-- `elapsed`: nothing on the first tick, capped at three intervals afterwards. -/
def elapsedSince (s : Settings) (lastTick : Option ℚ) (started : ℚ) : Option ℚ :=
  lastTick.map fun last => min (started - last) (3 * s.schedulerIntervalSeconds)

/-- One round of `run_scheduler_loop`, which answers the calls of `record` it made. `last_tick` is
set before the tick, so one that fails is not metered again by the next. -/
def loopTick (s : Settings) (st : LoopState) (i : TickInput) : List RecordCall × LoopState :=
  let elapsed := elapsedSince s st.lastTick i.started
  let out := runTurns (elapsed.getD s.schedulerIntervalSeconds) i.now i.turns
    (commitRequests st.usage i.flushed)
  (out.calls,
    { lastTick := some i.started
      usage := out.usage })

/-! ## The ticks of `Scheduler.lean` -/

/-- The world in which the turn of `a` asks for headroom, after a health report. -/
def meteredWorld (seconds : ℚ) (now : Instant) (w : World) (a : Agent) (health : Health) : World :=
  let seen := observe a health
  let w := w.logCall (.healthCheck a.id)
  meter (if seen = a then w else w.saveAgent seen) seen health.liveReplicas seconds now

/-- The turn of `a` in a serial tick: nothing but the quota query raises. -/
def turnOf (d : Deps) (rt : Runtime) (seconds : ℚ) (now : Instant) (w : World) (a : Agent) :
    Turn where
  agent := a
  health := rt.healthCheck a.id (w.containers a.id)
  headroom := (rt.healthCheck a.id (w.containers a.id)).toOption.elim (.ok false) fun health =>
    hasHeadroomForReplica d (meteredWorld seconds now w a health).db (observe a health)

/-- The turns of a serial tick. -/
def turnsOf (d : Deps) (rt : Runtime) (seconds : ℚ) (now : Instant) :
    List Agent → World → List Turn
  | [], _ => []
  | a :: rest, w =>
    turnOf d rt seconds now w a :: turnsOf d rt seconds now rest (tickAgent d rt seconds now w a).2

theorem meter_usageHours (w : World) (a : Agent) (live : Nat) (seconds : ℚ) (now : Instant) :
    (meter w a live seconds now).db.usageHours =
      if isMetered a live then record w.db.usageHours a live seconds now else w.db.usageHours := by
  unfold meter isMetered
  simp only [decide_eq_true_eq]
  split_ifs <;> rfl

theorem meteredWorld_usage (seconds : ℚ) (now : Instant) (w : World) (a : Agent)
    (health : Health) :
    (meteredWorld seconds now w a health).db.usageHours =
      if isMetered (observe a health) health.liveReplicas then
        record w.db.usageHours (observe a health) health.liveReplicas seconds now
      else w.db.usageHours := by
  unfold meteredWorld
  rw [meter_usageHours]
  split_ifs <;> rfl

/-- A serial turn raises and writes as its turn here does. -/
theorem turnOf_run (d : Deps) (rt : Runtime) (seconds : ℚ) (now : Instant) (w : World)
    (a : Agent) :
    ((turnOf d rt seconds now w a).run seconds now w.db.usageHours).raised =
        !(tickAgent d rt seconds now w a).1.isOk ∧
      ((turnOf d rt seconds now w a).run seconds now w.db.usageHours).usage =
        (tickAgent d rt seconds now w a).2.db.usageHours := by
  unfold tickAgent Turn.run turnOf
  simp only [World.logCall_containers]
  cases rt.healthCheck a.id (w.containers a.id) with
  | error e => exact ⟨rfl, rfl⟩
  | ok health =>
    have husage := meteredWorld_usage seconds now w a health
    have hworld : meter (if observe a health = a then w.logCall (.healthCheck a.id)
        else (w.logCall (.healthCheck a.id)).saveAgent (observe a health)) (observe a health)
        health.liveReplicas seconds now = meteredWorld seconds now w a health := rfl
    simp only [hworld, Bool.false_eq_true, and_false, if_false, Turn.scalingRaises,
      Except.toOption, Option.elim_some]
    generalize meteredWorld seconds now w a health = w₁ at husage
    by_cases hauto : (observe a health).autoScale = true ∧ (observe a health).status = .running ∧
        0 < health.liveReplicas
    · have hm : isMetered (observe a health) health.liveReplicas = true :=
        decide_eq_true ⟨Or.inl hauto.2.1, hauto.2.2⟩
      rw [if_pos hm] at husage
      simp only [if_pos hauto, hm, if_true, decide_eq_true hauto, Bool.true_and]
      cases hasHeadroomForReplica d w₁.db (observe a health) with
      | error e => exact ⟨rfl, husage.symm⟩
      | ok room => cases room <;> exact ⟨rfl, husage.symm⟩
    · simp only [if_neg hauto, decide_eq_false hauto, Bool.false_and]
      cases hm : isMetered (observe a health) health.liveReplicas with
      | true =>
        rw [if_pos hm] at husage
        exact ⟨rfl, husage.symm⟩
      | false =>
        rw [if_neg (by rw [hm]; exact Bool.false_ne_true)] at husage
        exact ⟨rfl, husage.symm⟩

/-- A tick of the serial model writes what the tick with those turns writes. -/
theorem tickAgents_turns (d : Deps) (rt : Runtime) (seconds : ℚ) (now : Instant) :
    ∀ (rest : List Agent) (w : World),
      (tickAgents d rt seconds now rest w).2.db.usageHours =
        (runTurns seconds now (turnsOf d rt seconds now rest w) w.db.usageHours).usage := by
  intro rest
  induction rest with
  | nil =>
    intro _
    rfl
  | cons a rest ih =>
    intro w
    obtain ⟨hraised, husage⟩ := turnOf_run d rt seconds now w a
    have hrest := ih (tickAgent d rt seconds now w a).2
    unfold tickAgents turnsOf runTurns
    simp only [hraised]
    rw [husage, ← hrest]
    generalize tickAgent d rt seconds now w a = out at husage
    obtain ⟨res, w'⟩ := out
    cases res with
    | error e => exact husage.symm
    | ok _ => rfl

/-- The input of the loop that a serial tick amounts to. -/
def tickInput (d : Deps) (s : Settings) (rt : Runtime) (lastTick : Option ℚ) (started : ℚ)
    (now : Instant) (w : World) : TickInput where
  started := started
  now := now
  turns := turnsOf d rt ((elapsedSince s lastTick started).getD s.schedulerIntervalSeconds) now
    (loadedAgents w.db) w
  distinct := by
    have hids : ∀ (seconds : ℚ) (rest : List Agent) (w : World),
        (turnsOf d rt seconds now rest w).map (fun t => t.agent.id) = rest.map Agent.id := by
      intro seconds rest
      induction rest with
      | nil => exact fun _ => rfl
      | cons a rest ih => exact fun w => congrArg (a.id :: ·) (ih _)
    rw [hids]
    exact w.db.agents.nodup.sublist (List.filter_sublist.map Agent.id)

/-- **The serial tick is a round of the loop**, after its flush. -/
theorem tick_usageHours (d : Deps) (s : Settings) (rt : Runtime) (lastTick : Option ℚ) (started : ℚ)
    (now : Instant) (flushFails : Bool) (w : World) :
    (tick d s rt (elapsedSince s lastTick started) now flushFails w).2.db.usageHours =
      (loopTick s ⟨lastTick, (flushRequests w flushFails).db.usageHours⟩
        (tickInput d s rt lastTick started now (flushRequests w flushFails))).2.usage :=
  tickAgents_turns d rt _ now _ _

/-! ## What a call charges -/

/-- The calls of `record` for an agent. -/
def callsFor (a : AgentId) (calls : List RecordCall) : List RecordCall :=
  calls.filter fun c => c.agentId = a

/-- The seconds recorded for an agent. -/
def secondsFor (a : AgentId) (calls : List RecordCall) : ℚ :=
  ((callsFor a calls).map RecordCall.seconds).sum

/-- The replica seconds recorded for an agent. -/
def chargedFor (a : AgentId) (calls : List RecordCall) : ℚ :=
  ((callsFor a calls).map fun c => (c.replicas : ℚ) * c.seconds).sum

/-- The `replica_seconds` an agent has in `usage_hours`. -/
def replicaSecondsOf (a : AgentId) (usage : UsageHours) : ℚ :=
  usage.total fun r => if r.agentId = a then r.replicaSeconds else 0

section Charge

variable {a : AgentId}

theorem callsFor_append (a : AgentId) (l l' : List RecordCall) :
    callsFor a (l ++ l') = callsFor a l ++ callsFor a l' := List.filter_append ..

theorem secondsFor_append (a : AgentId) (l l' : List RecordCall) :
    secondsFor a (l ++ l') = secondsFor a l + secondsFor a l' := by
  unfold secondsFor
  rw [callsFor_append, List.map_append, List.sum_append]

theorem chargedFor_append (a : AgentId) (l l' : List RecordCall) :
    chargedFor a (l ++ l') = chargedFor a l + chargedFor a l' := by
  unfold chargedFor
  rw [callsFor_append, List.map_append, List.sum_append]

/-- Calls of at most `N` replicas charge at most `N` times their seconds. -/
theorem chargedFor_le {calls : List RecordCall} {N : Nat}
    (h : ∀ c ∈ callsFor a calls, c.replicas ≤ N ∧ 0 ≤ c.seconds) :
    chargedFor a calls ≤ N * secondsFor a calls := by
  unfold chargedFor secondsFor
  generalize callsFor a calls = l at h
  induction l with
  | nil => simp
  | cons c l ih =>
    obtain ⟨hN, hs⟩ := h c List.mem_cons_self
    have hrest := ih fun x hx => h x (List.mem_cons_of_mem c hx)
    have hc : (c.replicas : ℚ) * c.seconds ≤ N * c.seconds :=
      mul_le_mul_of_nonneg_right (by exact_mod_cast hN) hs
    simp only [List.map_cons, List.sum_cons, mul_add]
    exact add_le_add hc hrest

/-- What `record` adds to an agent's replica seconds. -/
theorem replicaSecondsOf_record (usage : UsageHours) (b : Agent) (n : Nat) {seconds : ℚ}
    (hs : 0 ≤ seconds) (now : Instant) :
    replicaSecondsOf a (record usage b n seconds now) =
      replicaSecondsOf a usage + chargedFor a [⟨b.id, n, seconds⟩] := by
  have hcharge : chargedFor a [⟨b.id, n, seconds⟩] = if b.id = a then n * seconds else 0 := by
    unfold chargedFor callsFor
    by_cases hb : b.id = a <;> simp [hb]
  unfold record
  split_ifs with hnone
  · have hzero : (n : ℚ) * seconds = 0 := by
      rcases hnone with rfl | hle
      · simp
      · rw [le_antisymm hle hs, mul_zero]
    rw [hcharge, hzero, ite_self, add_zero]
  · rw [hcharge]
    unfold replicaSecondsOf addUsage
    refine Table.total_upsert _ _ _ (fun _ => rfl) fun o ho => ?_
    have hid : o.agentId = b.id := congrArg Prod.fst ho
    simp only [hid]
    split_ifs
    · rfl
    · rw [add_zero]

/-- A flush adds no replica seconds. -/
theorem replicaSecondsOf_commitRequests (entries : Counter RequestKey) :
    ∀ usage : UsageHours,
      replicaSecondsOf a (commitRequests usage entries) = replicaSecondsOf a usage := by
  induction entries with
  | nil => exact fun _ => rfl
  | cons e entries ih =>
    intro usage
    show replicaSecondsOf a (commitRequests (addRequests usage e.1 e.2) entries) = _
    rw [ih]
    unfold replicaSecondsOf addRequests
    rw [Table.total_upsert]
    · simp
    · exact fun _ => rfl
    · exact fun o _ => by simp

end Charge

/-! ## One tick -/

section Tick

variable {seconds : ℚ} {now : Instant} {a : AgentId}

/-- **What a turn does**: at most one call, for its agent, of the tick's seconds and the reported
replicas, and no more than that is charged. -/
theorem Turn.run_calls (t : Turn) (seconds : ℚ) (now : Instant) (usage : UsageHours) :
    (t.run seconds now usage).calls = [] ∨ ∃ health, t.health = .ok health ∧
      (t.run seconds now usage).calls = [⟨t.agent.id, health.liveReplicas, seconds⟩] := by
  unfold Turn.run
  cases t.health with
  | error e => exact Or.inl rfl
  | ok health =>
    simp only
    split_ifs
    · exact Or.inl rfl
    · refine Or.inr ⟨health, rfl, ?_⟩
      cases t.recordEnd <;> rfl
    · exact Or.inl rfl

theorem Turn.run_usage (t : Turn) (hs : 0 ≤ seconds) (now : Instant) (usage : UsageHours) :
    replicaSecondsOf a (t.run seconds now usage).usage ≤
      replicaSecondsOf a usage + chargedFor a (t.run seconds now usage).calls := by
  have hcharge : ∀ n b, 0 ≤ chargedFor a [⟨b, n, seconds⟩] := by
    intro n b
    unfold chargedFor callsFor
    by_cases hb : b = a
    · simpa [hb] using mul_nonneg (Nat.cast_nonneg n) hs
    · simp [hb]
  have hnil : chargedFor a [] = 0 := rfl
  unfold Turn.run
  cases t.health with
  | error e => simp [hnil]
  | ok health =>
    simp only
    split_ifs
    · simp [hnil]
    · cases t.recordEnd with
      | committed => exact (replicaSecondsOf_record usage _ _ hs now).le
      | raised kept =>
        cases kept with
        | true => exact (replicaSecondsOf_record usage _ _ hs now).le
        | false => exact le_add_of_nonneg_right (hcharge _ _)
    · simp [hnil]

/-- What the turns of a tick do. -/
theorem runTurns_usage (hs : 0 ≤ seconds) (now : Instant) :
    ∀ (turns : List Turn) (usage : UsageHours),
      replicaSecondsOf a (runTurns seconds now turns usage).usage ≤
        replicaSecondsOf a usage + chargedFor a (runTurns seconds now turns usage).calls := by
  intro turns
  induction turns with
  | nil =>
    intro usage
    exact le_add_of_nonneg_right (le_refl (0 : ℚ))
  | cons t rest ih =>
    intro usage
    have hturn := t.run_usage (a := a) hs now usage
    unfold runTurns
    simp only
    split_ifs
    · exact hturn
    · have hrest := ih (t.run seconds now usage).usage
      rw [chargedFor_append]
      linarith

/-- Every call of a tick is of its seconds, for the agent of a turn and the replicas it reported. -/
theorem mem_runTurns_calls (seconds : ℚ) (now : Instant) :
    ∀ (turns : List Turn) (usage : UsageHours), ∀ c ∈ (runTurns seconds now turns usage).calls,
      c.seconds = seconds ∧ ∃ t ∈ turns, ∃ health, t.health = .ok health ∧ c.agentId = t.agent.id ∧
        c.replicas = health.liveReplicas := by
  intro turns
  induction turns with
  | nil =>
    intro _ c hc
    exact absurd hc List.not_mem_nil
  | cons t rest ih =>
    intro usage c hc
    have hturn : ∀ c ∈ (t.run seconds now usage).calls, c.seconds = seconds ∧ ∃ t' ∈ t :: rest,
        ∃ health, t'.health = .ok health ∧ c.agentId = t'.agent.id ∧
          c.replicas = health.liveReplicas := by
      intro c hc
      rcases t.run_calls seconds now usage with h | ⟨health, hh, h⟩
      · rw [h] at hc
        exact absurd hc List.not_mem_nil
      · rw [h, List.mem_singleton] at hc
        subst hc
        exact ⟨rfl, t, List.mem_cons_self, health, hh, rfl, rfl⟩
    unfold runTurns at hc
    simp only at hc
    split_ifs at hc
    · exact hturn c hc
    · rcases List.mem_append.mp hc with hc | hc
      · exact hturn c hc
      · obtain ⟨hsec, t', ht', hrep⟩ := ih _ c hc
        exact ⟨hsec, t', List.mem_cons_of_mem t ht', hrep⟩

/-- The agents of a tick's calls, in order, are among those of its turns. -/
theorem runTurns_calls_sublist (seconds : ℚ) (now : Instant) :
    ∀ (turns : List Turn) (usage : UsageHours),
      ((runTurns seconds now turns usage).calls.map RecordCall.agentId).Sublist
        (turns.map fun t => t.agent.id) := by
  intro turns
  induction turns with
  | nil =>
    intro _
    exact List.Sublist.slnil
  | cons t rest ih =>
    intro usage
    have hturn : ((t.run seconds now usage).calls.map RecordCall.agentId).Sublist
        [t.agent.id] := by
      rcases t.run_calls seconds now usage with h | ⟨health, -, h⟩
      · rw [h]
        exact List.nil_sublist _
      · rw [h]
        exact List.Sublist.refl _
    unfold runTurns
    simp only [List.map_cons]
    split_ifs
    · exact hturn.trans (List.singleton_sublist.mpr List.mem_cons_self)
    · rw [List.map_append]
      exact hturn.append (ih _)

/-- Each agent is recorded at most once a tick. -/
theorem callsFor_runTurns_length {turns : List Turn}
    (hnd : (turns.map fun t => t.agent.id).Nodup) (seconds : ℚ) (now : Instant)
    (usage : UsageHours) :
    (callsFor a (runTurns seconds now turns usage).calls).length ≤ 1 := by
  have hids := hnd.sublist (runTurns_calls_sublist seconds now turns usage)
  generalize (runTurns seconds now turns usage).calls = calls at hids
  have hcount : ((calls.map RecordCall.agentId).count a) ≤ 1 :=
    List.nodup_iff_count_le_one.mp hids a
  rw [List.count_eq_countP, List.countP_map, List.countP_eq_length_filter] at hcount
  unfold callsFor
  convert hcount using 4
  exact (beq_eq_decide _ _).symm

end Tick

/-! ## Runs of the loop -/

section Loop

variable {s : Settings} {a : AgentId}

/-- The seconds a tick meters are not negative when the clock does not go back. -/
theorem tickSeconds_nonneg {lastTick : Option ℚ} {started : ℚ} (h : ∀ t ∈ lastTick, t ≤ started) :
    0 ≤ (elapsedSince s lastTick started).getD s.schedulerIntervalSeconds := by
  cases lastTick with
  | none => exact Nat.cast_nonneg _
  | some t =>
    have ht : t ≤ started := h t rfl
    exact le_min (sub_nonneg.mpr ht) (mul_nonneg (by norm_num) (Nat.cast_nonneg _))

theorem tickSeconds_le (s : Settings) (lastTick : Option ℚ) (started : ℚ) :
    (elapsedSince s lastTick started).getD s.schedulerIntervalSeconds ≤
      3 * s.schedulerIntervalSeconds := by
  cases lastTick with
  | none =>
    have hpos : (0 : ℚ) ≤ s.schedulerIntervalSeconds := Nat.cast_nonneg _
    show (s.schedulerIntervalSeconds : ℚ) ≤ 3 * s.schedulerIntervalSeconds
    linarith
  | some t => exact min_le_right _ _

/-- What a tick records for an agent is at most its seconds. -/
theorem secondsFor_loopTick (st : LoopState) (i : TickInput)
    (h : ∀ t ∈ st.lastTick, t ≤ i.started) :
    secondsFor a (loopTick s st i).1 ≤
      (elapsedSince s st.lastTick i.started).getD s.schedulerIntervalSeconds := by
  have hlen := callsFor_runTurns_length (a := a) i.distinct
    ((elapsedSince s st.lastTick i.started).getD s.schedulerIntervalSeconds) i.now
    (commitRequests st.usage i.flushed)
  have hsec := mem_runTurns_calls
    ((elapsedSince s st.lastTick i.started).getD s.schedulerIntervalSeconds) i.now i.turns
    (commitRequests st.usage i.flushed)
  have hpos := tickSeconds_nonneg (s := s) h
  unfold loopTick secondsFor
  simp only
  generalize (elapsedSince s st.lastTick i.started).getD s.schedulerIntervalSeconds = sec
    at hlen hsec hpos
  cases hcalls :
    callsFor a (runTurns sec i.now i.turns (commitRequests st.usage i.flushed)).calls with
  | nil => exact hpos
  | cons c l =>
    rw [hcalls] at hlen
    obtain rfl : l = [] := List.length_eq_zero_iff.mp (by simpa using hlen)
    have hc : c ∈ callsFor a (runTurns sec i.now i.turns
        (commitRequests st.usage i.flushed)).calls := by
      rw [hcalls]
      exact List.mem_cons_self
    have hcsec := (hsec c (List.mem_of_mem_filter hc)).1
    simp [hcsec]

/-- The start of the last of these ticks, or `t` without one. -/
def lastStart (t : ℚ) (ticks : List TickInput) : ℚ := (ticks.map TickInput.started).getLastD t

/-- From a tick on, the seconds recorded telescope. -/
theorem secondsFor_answers :
    ∀ (ticks : List TickInput) (st : LoopState) (t : ℚ), st.lastTick = some t →
      (t :: ticks.map TickInput.started).Pairwise (· ≤ ·) →
      secondsFor a (answers (loopTick s) st ticks).flatten ≤ lastStart t ticks - t := by
  intro ticks
  induction ticks with
  | nil =>
    intro st t _ _
    show (0 : ℚ) ≤ t - t
    rw [sub_self]
  | cons i ticks ih =>
    intro st t hlast hmono
    have hstart : t ≤ i.started := (List.pairwise_cons.mp hmono).1 _ List.mem_cons_self
    have htick := secondsFor_loopTick (s := s) (a := a) st i (by
      rw [hlast]
      rintro _ ⟨⟩
      exact hstart)
    have helapsed : (elapsedSince s st.lastTick i.started).getD s.schedulerIntervalSeconds ≤
        i.started - t := by
      rw [hlast]
      exact min_le_left _ _
    have hrest := ih (leaves (loopTick s) st i) i.started rfl
      (List.pairwise_cons.mp hmono).2
    have hend : lastStart t (i :: ticks) = lastStart i.started ticks := by
      unfold lastStart
      rw [List.map_cons, List.getLastD_cons]
    unfold answers
    rw [List.flatten_cons, secondsFor_append, hend]
    linarith

/-- A tick does not start before the one before it. -/
def ClockOk (st : LoopState) (i : TickInput) : Prop := ∀ t ∈ st.lastTick, t ≤ i.started

theorem along_clockOk :
    ∀ (ticks : List TickInput) (st : LoopState),
      (∀ t ∈ st.lastTick, ∀ i ∈ ticks, t ≤ i.started) →
      (ticks.map TickInput.started).Pairwise (· ≤ ·) →
      Along (leaves (loopTick s)) ClockOk st ticks := by
  intro ticks
  induction ticks with
  | nil =>
    intro _ _ _
    trivial
  | cons i ticks ih =>
    intro st hfirst hmono
    refine ⟨fun t ht => hfirst t ht i List.mem_cons_self, ih _ ?_
      (List.pairwise_cons.mp hmono).2⟩
    rintro _ ⟨⟩ j hj
    exact (List.pairwise_cons.mp hmono).1 _ (List.mem_map_of_mem hj)

/-- Over a run the replica seconds grow by what was charged. -/
theorem replicaSecondsOf_run :
    ∀ (ticks : List TickInput) (st : LoopState), Along (leaves (loopTick s)) ClockOk st ticks →
      replicaSecondsOf a (run (leaves (loopTick s)) st ticks).usage ≤
        replicaSecondsOf a st.usage + chargedFor a (answers (loopTick s) st ticks).flatten := by
  intro ticks
  induction ticks with
  | nil =>
    intro st _
    exact le_add_of_nonneg_right (le_refl (0 : ℚ))
  | cons i ticks ih =>
    intro st hclock
    have htick : replicaSecondsOf a (leaves (loopTick s) st i).usage ≤
        replicaSecondsOf a st.usage + chargedFor a (loopTick s st i).1 := by
      have husage := runTurns_usage (a := a) (tickSeconds_nonneg (s := s) hclock.1) i.now
        i.turns (commitRequests st.usage i.flushed)
      rw [replicaSecondsOf_commitRequests] at husage
      exact husage
    have hrest := ih (leaves (loopTick s) st i) hclock.2
    unfold answers
    rw [List.flatten_cons, chargedFor_append, run_cons]
    linarith

end Loop

/-- **Metered time never exceeds elapsed time.** Over any run of the loop from its start, at clock
readings that do not go back, with any reports and any faults, for every agent: each tick calls
`record` for it at most once, and no call is of more than three intervals; the seconds recorded for
it come to at most one interval and the time from the first tick's start to the last one's; and its
`replica_seconds` grow by at most these seconds times any bound on its reported replicas. -/
theorem metered_within_elapsed (s : Settings) (usage : UsageHours) (first : TickInput)
    (rest : List TickInput)
    (hmono : ((first :: rest).map TickInput.started).Pairwise (· ≤ ·)) (a : AgentId) :
    (∀ made ∈ answers (loopTick s) ⟨none, usage⟩ (first :: rest),
      (callsFor a made).length ≤ 1 ∧ ∀ c ∈ made, c.seconds ≤ 3 * s.schedulerIntervalSeconds) ∧
    secondsFor a (answers (loopTick s) ⟨none, usage⟩ (first :: rest)).flatten ≤
      s.schedulerIntervalSeconds + (lastStart first.started rest - first.started) ∧
    ∀ N : Nat, (∀ i ∈ first :: rest, ∀ t ∈ i.turns, t.agent.id = a →
        ∀ health, t.health = .ok health → health.liveReplicas ≤ N) →
      replicaSecondsOf a (run (leaves (loopTick s)) ⟨none, usage⟩ (first :: rest)).usage -
          replicaSecondsOf a usage ≤
        N * secondsFor a (answers (loopTick s) ⟨none, usage⟩ (first :: rest)).flatten := by
  have hclock : Along (leaves (loopTick s)) ClockOk ⟨none, usage⟩ (first :: rest) :=
    along_clockOk _ _ (fun t ht => absurd ht (by simp)) hmono
  refine ⟨fun made hmade => ?_, ?_, fun N hN => ?_⟩
  · obtain ⟨i, -, hlen, hsec⟩ := exists_of_mem_answers (f := loopTick s) (G := ClockOk)
      (P := fun _ made => (callsFor a made).length ≤ 1 ∧
        ∀ c ∈ made, c.seconds ≤ 3 * s.schedulerIntervalSeconds)
      (fun st i _ => ⟨callsFor_runTurns_length i.distinct _ _ _, fun c hc => by
        rw [(mem_runTurns_calls _ _ i.turns _ c hc).1]
        exact tickSeconds_le s st.lastTick i.started⟩) _ hclock made hmade
    exact ⟨hlen, hsec⟩
  · have hfirst := secondsFor_loopTick (s := s) (a := a) _ _ hclock.1
    have hrest := secondsFor_answers (s := s) (a := a) rest
      (leaves (loopTick s) ⟨none, usage⟩ first) first.started rfl hmono
    unfold answers
    rw [List.flatten_cons, secondsFor_append]
    exact add_le_add hfirst hrest
  · have hgrowth := replicaSecondsOf_run (a := a) (first :: rest) ⟨none, usage⟩ hclock
    have hcharged : chargedFor a (answers (loopTick s) ⟨none, usage⟩ (first :: rest)).flatten ≤
        N * secondsFor a (answers (loopTick s) ⟨none, usage⟩ (first :: rest)).flatten := by
      refine chargedFor_le fun c hc => ?_
      obtain ⟨hc, hca⟩ := List.mem_filter.mp hc
      obtain ⟨made, hmade, hcm⟩ := List.mem_flatten.mp hc
      obtain ⟨i, hi, hcalls⟩ := exists_of_mem_answers (f := loopTick s) (G := ClockOk)
        (P := fun i made => ∀ c ∈ made, 0 ≤ c.seconds ∧ ∃ t ∈ i.turns, ∃ health,
          t.health = .ok health ∧ c.agentId = t.agent.id ∧ c.replicas = health.liveReplicas)
        (fun st i hst c hc => by
          obtain ⟨hsec, hfrom⟩ := mem_runTurns_calls _ _ i.turns _ c hc
          exact ⟨hsec ▸ tickSeconds_nonneg hst, hfrom⟩) _ hclock made hmade
      obtain ⟨hpos, t, ht, health, hh, hid, hrep⟩ := hcalls c hcm
      rw [hrep]
      exact ⟨hN i hi t ht (hid.symm.trans (of_decide_eq_true hca)) health hh, hpos⟩
    linarith

/-- A tick that meets one running agent with one healthy container. -/
def soloTick (started : ℚ) (recordEnd : RecordEnd) : TickInput where
  started := started
  now := 0
  turns :=
    [{ agent := { id := "a", userId := 1, slug := "solo", name := "solo", status := .running }
       health := .ok { containers := some ["solo-0"], healthy := some true }
       recordEnd := recordEnd }]
  distinct := by simp

/-- Three ticks, the second of which loses the connection in `record` and the third of which comes
late: 30 seconds, 30 more although nobody knows whether they were kept, and the cap of 90. -/
theorem metered_within_elapsed_faulty :
    ((soloTick 0 .committed :: [soloTick 30 (.raised true), soloTick 200 .committed]).map
      TickInput.started).Pairwise (· ≤ ·) ∧
    secondsFor "a" (answers (loopTick {}) ⟨none, .empty⟩
      (soloTick 0 .committed :: [soloTick 30 (.raised true), soloTick 200 .committed])).flatten =
        150 ∧
    (150 : ℚ) ≤ 30 + (200 - 0) := by
  have hmono : ((soloTick 0 .committed ::
      [soloTick 30 (.raised true), soloTick 200 .committed]).map
        TickInput.started).Pairwise (· ≤ ·) := by
    norm_num [soloTick]
  have hseconds : secondsFor "a" (answers (loopTick {}) ⟨none, .empty⟩
      (soloTick 0 .committed :: [soloTick 30 (.raised true), soloTick 200 .committed])).flatten =
        150 := by
    decide +kernel
  have hbound := (metered_within_elapsed {} .empty (soloTick 0 .committed)
    [soloTick 30 (.raised true), soloTick 200 .committed] hmono "a").2.1
  rw [hseconds] at hbound
  exact ⟨hmono, hseconds, hbound⟩

end Gateway
