import Gateway.Lib.Pool
import Gateway.Site.Frame

/-!
# How far concurrent creations overshoot

`quota_service` reads an account's usage and acts on it without a lock: calls of `create_agent` that
overlap can each find room for one more agent and together take the account past its plan. Here any
number of them run at once, each cut at its awaits, while everything else the gateway does goes on
around them.

* `CreateCall`, `CreateCall.advance`: a call from its first query to the commit of its row.
* `undisturbed_create`: a call that is not interrupted is the serial one.
* `AddsNone`, `gatewayStep_addsNone`: no other step of the gateway makes a row.
* **`createOvershoot_le`**: with at most `k` calls of an account in progress at any time, the
  account never has more than `k - 1` agents over the limit of its plan, if it starts within it.

Out of scope: what the calls do after their rows, and plans that shrink meanwhile.
-/

namespace Gateway

open Lib

/-! ## A call in progress -/

/-- The arguments of a `create_agent` call and what it draws. -/
structure CreateArgs where
  userId : UserId
  body : AgentConfigIn
  newId : AgentId
  suffix : List Char
  draws : Draws := {}

/-- Where a `create_agent` call waits. -/
inductive CreateCall where
  /-- For the account, in `ensure_can_create_agent`. -/
  | lookup (c : CreateArgs)
  /-- For the count of its agents. -/
  | counting (c : CreateArgs) (user : User)
  /-- For its active agents, the other query of `current_usage`. -/
  | selecting (c : CreateArgs) (user : User) (agents : Nat)
  /-- For the account, in `ensure_resources`. -/
  | resourcesUser (c : CreateArgs) (deploy : DeployConfig)
  /-- For the usage there; `users` is what the query before saw. -/
  | resourcesUsage (c : CreateArgs) (deploy : DeployConfig) (users : Table User User.id)
  /-- For the commit of the new row. -/
  | inserting (c : CreateArgs)
  | done

/-- Once the count fits: with a config its resources are checked. -/
def CreateArgs.counted (c : CreateArgs) : CreateCall :=
  match c.body.deploy with
  | none => .inserting c
  | some deploy => .resourcesUser c deploy.1

/-- The row of a call. -/
def CreateArgs.row (d : Deps) (c : CreateArgs) : Agent :=
  newAgent d c.draws c.userId c.body c.newId c.suffix

/-- What a call waits for returns. -/
def CreateCall.advance (d : Deps) (w : World) : CreateCall → CreateCall × World
  | .lookup c =>
    match w.db.users.find? c.userId with
    | none => (.done, w)
    | some user => (if isExempt d user then c.counted else .counting c user, w)
  | .counting c user => (.selecting c user (agentCount w.db c.userId), w)
  | .selecting c user agents =>
    (if (limitsFor user.plan).maxAgents < agents + 1 then .done else c.counted, w)
  | .resourcesUser c deploy => (.resourcesUsage c deploy w.db.users, w)
  | .resourcesUsage c deploy users =>
    match ensureResources d { w.db with users := users } c.userId none deploy.replicas
        deploy.resources.cpu deploy.resources.memoryMb with
    | .error _ => (.done, w)
    | .ok () => (.inserting c, w)
  | .inserting c => (.done, (insertAgent? w (c.row d)).getD w)
  | .done => (.done, w)

/-! ## The race -/

/-- The world and the calls, each known by its position. -/
structure CreateRace where
  world : World
  calls : List CreateCall := []

/-- What happens next: a call arrives, one goes on or is cancelled, or anything else. -/
inductive CreateEvent where
  | arrive (c : CreateArgs)
  | advance (i : Nat)
  | cancel (i : Nat)
  | others (w : World)

def createRaceStep (d : Deps) (σ : CreateRace) : CreateEvent → CreateRace
  | .arrive c => { σ with calls := σ.calls ++ [.lookup c] }
  | .advance i =>
    match σ.calls[i]? with
    | none => σ
    | some call =>
      let out := call.advance d σ.world
      { world := out.2, calls := σ.calls.set i out.1 }
  | .cancel i => { σ with calls := σ.calls.set i .done }
  | .others w => { σ with world := w }

/-- Every row after was there before, with the same owner. -/
def AddsNone (w w' : World) : Prop :=
  ∀ a ∈ w'.db.agents.rows, ∃ b ∈ w.db.agents.rows, b.id = a.id ∧ b.userId = a.userId

/-! ## An uninterrupted call -/

/-- The world `create_agent` has before it deploys. -/
def createRow (d : Deps) (w : World) (c : CreateArgs) : World :=
  match createQuota d w.db c.userId c.body with
  | .error _ => w
  | .ok () => (insertAgent? w (c.row d)).getD w

/-- `create_agent` is the insert, and then the deploy. -/
theorem createAgent_eq_createRow (d : Deps) (rt : Runtime) (w : World) (c : CreateArgs)
    (hdraws : rt.draws = c.draws) :
    (createAgent d rt w c.userId c.body c.newId c.suffix).2 =
      if createQuota d w.db c.userId c.body = .ok () ∧ (insertAgent? w (c.row d)).isSome ∧
          c.body.deploy.isSome then
        (deployAgent d rt (createRow d w c) c.userId (c.row d).id none).2
      else createRow d w c := by
  unfold createAgent createRow CreateArgs.row
  rw [hdraws]
  cases createQuota d w.db c.userId c.body with
  | error e => simp
  | ok _ =>
    simp only
    cases insertAgent? w (newAgent d c.draws c.userId c.body c.newId c.suffix) with
    | none => simp
    | some w₁ => cases c.body.deploy <;> simp

section Alone

variable {d : Deps} {w : World}

/-- The race of one call, after `n` of its awaits. -/
theorem run_alone_succ (d : Deps) (w : World) (call : CreateCall) (n : Nat) :
    run (createRaceStep d) { world := w, calls := [call] } (List.replicate (n + 1) (.advance 0)) =
      run (createRaceStep d) { world := (call.advance d w).2, calls := [(call.advance d w).1] }
        (List.replicate n (.advance 0)) := rfl

theorem run_alone_done (d : Deps) (w : World) (n : Nat) :
    run (createRaceStep d) { world := w, calls := [.done] } (List.replicate n (.advance 0)) =
      { world := w, calls := [.done] } := by
  induction n with
  | zero => rfl
  | succ n ih =>
    rw [run_alone_succ]
    exact ih

/-- From the count on. -/
theorem run_alone_counted (d : Deps) (w : World) (c : CreateArgs) (n : Nat) :
    run (createRaceStep d) { world := w, calls := [c.counted] }
        (List.replicate (n + 3) (.advance 0)) =
      { world :=
          match c.body.deploy with
          | none => (insertAgent? w (c.row d)).getD w
          | some deploy =>
            match ensureResources d w.db c.userId none deploy.1.replicas deploy.1.resources.cpu
                deploy.1.resources.memoryMb with
            | .error _ => w
            | .ok () => (insertAgent? w (c.row d)).getD w
        calls := [.done] } := by
  unfold CreateArgs.counted
  cases c.body.deploy with
  | none =>
    rw [run_alone_succ]
    exact run_alone_done ..
  | some deploy =>
    simp only
    rw [run_alone_succ, run_alone_succ]
    simp only [CreateCall.advance]
    cases ensureResources d w.db c.userId none deploy.1.replicas deploy.1.resources.cpu
        deploy.1.resources.memoryMb with
    | error e => exact run_alone_done ..
    | ok _ =>
      simp only
      rw [run_alone_succ]
      exact run_alone_done ..

/-- **A call that is not interrupted is the serial one**, as far as its row. -/
theorem undisturbed_create (d : Deps) (w : World) (c : CreateArgs) :
    run (createRaceStep d) { world := w, calls := [.lookup c] } (List.replicate 6 (.advance 0)) =
      { world := createRow d w c, calls := [.done] } := by
  unfold createRow createQuota ensureCanCreateAgent
  rw [run_alone_succ]
  simp only [CreateCall.advance]
  cases w.db.users.find? c.userId with
  | none => exact run_alone_done ..
  | some user =>
    simp only
    by_cases hexempt : isExempt d user = true
    · simp only [if_pos hexempt]
      rw [run_alone_counted]
      cases c.body.deploy <;> rfl
    · simp only [if_neg hexempt]
      rw [run_alone_succ, run_alone_succ]
      simp only [CreateCall.advance]
      have hcount : (currentUsage d w.db c.userId none).agents = agentCount w.db c.userId := rfl
      rw [hcount]
      by_cases hover : (limitsFor user.plan).maxAgents < agentCount w.db c.userId + 1
      · simp only [if_pos hover]
        exact run_alone_done ..
      · simp only [if_neg hover]
        rw [run_alone_counted]
        cases c.body.deploy <;> rfl

end Alone

/-! ## What the others do -/

/-- **No other step of the gateway makes a row.** -/
theorem gatewayStep_addsNone (d : GatewayDeps) (cfg : GatewaySettings) (site : Site)
    (i : GatewayStep) (hdraws : i.drawsId = none) :
    AddsNone site.world (gatewayStep d cfg site i).world := by
  intro a ha
  have hfound := Table.find?_of_mem ha
  cases hbefore : site.world.db.agents.find? a.id with
  | none => cases hdraws.symm.trans (drawsId_of_new hfound hbefore)
  | some b =>
    rcases gatewayStep_row i hbefore with hgone | ⟨a', m, ha', hlives, -⟩
    · cases hgone.symm.trans hfound
    · obtain rfl := Option.some.inj (hfound.symm.trans ha')
      exact ⟨b, Table.mem_of_find? hbefore, hlives.identity.id.symm, hlives.identity.userId.symm⟩

section Counts

variable {w w' : World} {u : UserId}

theorem AddsNone.agentCount_le (h : AddsNone w w') (u : UserId) :
    agentCount w'.db u ≤ agentCount w.db u := by
  have hids : ((w'.db.agents.rows.filter fun a => a.userId = u).map Agent.id).Nodup :=
    w'.db.agents.nodup.sublist (List.filter_sublist.map Agent.id)
  have hsub : ((w'.db.agents.rows.filter fun a => a.userId = u).map Agent.id) ⊆
      (w.db.agents.rows.filter fun a => a.userId = u).map Agent.id := by
    intro id hid
    obtain ⟨a, ha, rfl⟩ := List.mem_map.mp hid
    obtain ⟨hmem, hu⟩ := List.mem_filter.mp ha
    obtain ⟨b, hb, hbid, hbu⟩ := h a hmem
    exact List.mem_map.mpr ⟨b, List.mem_filter.mpr ⟨hb, by rw [hbu]; exact hu⟩, hbid⟩
  have hle := (hids.subperm hsub).length_le
  rw [List.length_map, List.length_map] at hle
  exact hle

/-- An insert makes at most one more agent, of its owner. -/
theorem agentCount_insert_le (w : World) (a : Agent) (u : UserId) :
    agentCount ((insertAgent? w a).getD w).db u ≤
      agentCount w.db u + if a.userId = u then 1 else 0 := by
  cases hins : insertAgent? w a with
  | none => exact Nat.le_add_right _ _
  | some w' =>
    have hrows := (Table.insert?_eq_some (insertAgent?_inserts hins).agents).1
    show agentCount w'.db u ≤ _
    unfold agentCount
    rw [hrows, List.filter_append, List.length_append]
    by_cases hu : a.userId = u
    · simp [hu]
    · simp [hu]

end Counts

/-! ## The overshoot -/

section Overshoot

variable {d : Deps} {u : UserId} {M k : Nat}

/-- The arguments of a call in progress. -/
def CreateCall.args? : CreateCall → Option CreateArgs
  | .lookup c => some c
  | .counting c _ => some c
  | .selecting c _ _ => some c
  | .resourcesUser c _ => some c
  | .resourcesUsage c _ _ => some c
  | .inserting c => some c
  | .done => none

/-- `1` for a call of `u` in progress. -/
def CreateCall.inProgress (u : UserId) (call : CreateCall) : Nat :=
  if call.args?.any (·.userId = u) then 1 else 0

/-- `1` for a call of `u` that has counted and found room. -/
def CreateCall.passed (u : UserId) : CreateCall → Nat
  | .selecting c user agents =>
    if c.userId = u ∧ agents + 1 ≤ (limitsFor user.plan).maxAgents then 1 else 0
  | .resourcesUser c _ => if c.userId = u then 1 else 0
  | .resourcesUsage c _ _ => if c.userId = u then 1 else 0
  | .inserting c => if c.userId = u then 1 else 0
  | _ => 0

/-- The plan a call of `u` has read allows at most `M` agents. -/
def CreateCall.LimitWithin (u : UserId) (M : Nat) : CreateCall → Prop
  | .counting c user => c.userId = u → (limitsFor user.plan).maxAgents ≤ M
  | .selecting c user _ => c.userId = u → (limitsFor user.plan).maxAgents ≤ M
  | _ => True

/-- The account has a limit, of at most `M` agents. -/
def planWithin (d : Deps) (u : UserId) (M : Nat) (w : World) : Bool :=
  (w.db.users.find? u).all fun user => !isExempt d user && (limitsFor user.plan).maxAgents ≤ M

theorem CreateCall.passed_le_inProgress (u : UserId) (call : CreateCall) :
    call.passed u ≤ call.inProgress u := by
  cases call with
  | selecting c user agents =>
    simp only [passed, inProgress, args?, Option.any_some, decide_eq_true_eq]
    by_cases hu : c.userId = u
    · rw [if_pos hu]
      split_ifs <;> omega
    · rw [if_neg fun h => hu h.1]
      exact Nat.zero_le _
  | _ => simp [passed, inProgress, args?]

/-- What waits once the count fits is in progress and has passed. -/
theorem CreateArgs.counted_passed (c : CreateArgs) (u : UserId) :
    c.counted.passed u = (if c.userId = u then 1 else 0) ∧
      c.counted.inProgress u = (if c.userId = u then 1 else 0) ∧ c.counted.LimitWithin u M := by
  unfold counted
  cases c.body.deploy with
  | none => exact ⟨rfl, by simp [CreateCall.inProgress, CreateCall.args?], trivial⟩
  | some deploy => exact ⟨rfl, by simp [CreateCall.inProgress, CreateCall.args?], trivial⟩

/-- **One await of a call**: it stays in progress or ends; and either agents and calls that passed
do not become more, taken together, or there was room for one more agent. -/
theorem CreateCall.advance_spec (d : Deps) (w : World) (call : CreateCall)
    (hplan : planWithin d u M w = true) (hlimit : call.LimitWithin u M) :
    (call.advance d w).1.inProgress u ≤ call.inProgress u ∧
      (call.advance d w).1.LimitWithin u M ∧
      (agentCount (call.advance d w).2.db u + (call.advance d w).1.passed u ≤
          agentCount w.db u + call.passed u ∨
        agentCount (call.advance d w).2.db u + 1 ≤ M) := by
  cases call with
  | lookup c =>
    simp only [advance]
    cases huser : w.db.users.find? c.userId with
    | none => exact ⟨Nat.zero_le _, trivial, Or.inl (Nat.le_refl _)⟩
    | some user =>
      simp only
      by_cases hu : c.userId = u
      · subst hu
        unfold planWithin at hplan
        rw [huser] at hplan
        simp only [Option.all_some, Bool.and_eq_true, Bool.not_eq_true', decide_eq_true_eq] at hplan
        rw [hplan.1]
        exact ⟨Nat.le_refl _, fun _ => hplan.2, Or.inl (Nat.le_refl _)⟩
      · split_ifs
        · obtain ⟨hpassed, hprogress, hwithin⟩ := c.counted_passed (M := M) u
          rw [hpassed, hprogress, if_neg hu]
          exact ⟨Nat.zero_le _, hwithin, Or.inl (Nat.le_refl _)⟩
        · exact ⟨Nat.le_refl _, fun h => absurd h hu, Or.inl (Nat.le_refl _)⟩
  | counting c user =>
    refine ⟨Nat.le_refl _, hlimit, ?_⟩
    simp only [advance, passed]
    by_cases hroom : c.userId = u ∧ agentCount w.db c.userId + 1 ≤ (limitsFor user.plan).maxAgents
    · obtain ⟨rfl, hroom⟩ := hroom
      exact Or.inr (hroom.trans (hlimit rfl))
    · rw [if_neg hroom]
      exact Or.inl (Nat.le_refl _)
  | selecting c user agents =>
    simp only [advance]
    split_ifs with hover
    · exact ⟨Nat.zero_le _, trivial, Or.inl (Nat.le_add_right _ _)⟩
    · obtain ⟨hpassed, hprogress, hwithin⟩ := c.counted_passed (M := M) u
      refine ⟨?_, hwithin, Or.inl ?_⟩
      · rw [hprogress]
        simp [inProgress, args?]
      · have hfits : agents + 1 ≤ (limitsFor user.plan).maxAgents := Nat.not_lt.mp hover
        rw [hpassed]
        simp [passed, hfits]
  | resourcesUser c deploy => exact ⟨Nat.le_refl _, trivial, Or.inl (Nat.le_refl _)⟩
  | resourcesUsage c deploy users =>
    simp only [advance]
    split
    · exact ⟨Nat.zero_le _, trivial, Or.inl (Nat.le_add_right _ _)⟩
    · exact ⟨Nat.le_refl _, trivial, Or.inl (Nat.le_refl _)⟩
  | inserting c =>
    refine ⟨Nat.zero_le _, trivial, Or.inl ?_⟩
    have hle := agentCount_insert_le w (c.row d) u
    unfold CreateArgs.row at hle
    rw [newAgent_userId] at hle
    exact hle
  | done => exact ⟨Nat.le_refl _, trivial, Or.inl (Nat.le_refl _)⟩

/-- What the race is subject to: a limit of at most `M` agents whenever a call looks, at most `k`
calls of the account in progress, and nothing but these calls making agents. -/
def CreateGuard (d : Deps) (u : UserId) (M k : Nat) (σ : CreateRace) : CreateEvent → Prop
  | .arrive c => c.userId = u → Pool.weight (CreateCall.inProgress u) σ.calls + 1 ≤ k
  | .advance _ => planWithin d u M σ.world = true
  | .cancel _ => True
  | .others w => AddsNone σ.world w

instance decidableAddsNone (w w' : World) : Decidable (AddsNone w w') :=
  inferInstanceAs (Decidable (∀ a ∈ _, ∃ b ∈ _, _))

instance decidableCreateGuard (σ : CreateRace) : ∀ e, Decidable (CreateGuard d u M k σ e)
  | .arrive _ => inferInstanceAs (Decidable (_ → _))
  | .advance _ => inferInstanceAs (Decidable (_ = _))
  | .cancel _ => inferInstanceAs (Decidable True)
  | .others w => decidableAddsNone σ.world w

/-- The agents of the account and its calls that found room are fewer than limit and calls
allow. -/
structure CreateInv (u : UserId) (M k : Nat) (σ : CreateRace) : Prop where
  progress : Pool.weight (CreateCall.inProgress u) σ.calls ≤ k
  limits : ∀ call ∈ σ.calls, call.LimitWithin u M
  room : agentCount σ.world.db u + Pool.weight (CreateCall.passed u) σ.calls + 1 ≤ M + k

/-- **One step.** -/
theorem CreateInv.step (σ : CreateRace) (e : CreateEvent) (hinv : CreateInv u M k σ)
    (hguard : CreateGuard d u M k σ e) : CreateInv u M k (createRaceStep d σ e) := by
  cases e with
  | arrive c =>
    refine ⟨?_, fun call hcall => ?_, ?_⟩
    · rw [createRaceStep, Pool.weight_append]
      by_cases hu : c.userId = u
      · have hfits := hguard hu
        simpa [CreateCall.inProgress, CreateCall.args?, hu] using hfits
      · simpa [CreateCall.inProgress, CreateCall.args?, hu] using hinv.progress
    · rcases List.mem_append.mp hcall with hcall | hcall
      · exact hinv.limits call hcall
      · obtain rfl := List.mem_singleton.mp hcall
        trivial
    · rw [createRaceStep, Pool.weight_append]
      exact hinv.room
  | advance i =>
    cases hi : σ.calls[i]? with
    | none =>
      simp only [createRaceStep, hi]
      exact hinv
    | some call =>
      obtain ⟨hprogress, hlimit, hroom⟩ := call.advance_spec d σ.world hguard
        (hinv.limits call (List.mem_of_getElem? hi))
      simp only [createRaceStep, hi]
      have hweight := Pool.weight_set (CreateCall.inProgress u) (call.advance d σ.world).1 hi
      have hpassed := Pool.weight_set (CreateCall.passed u) (call.advance d σ.world).1 hi
      have hinProgress := hinv.progress
      refine ⟨?_, fun x hx => ?_, ?_⟩
      · show Pool.weight (CreateCall.inProgress u)
          (σ.calls.set i (call.advance d σ.world).1) ≤ k
        omega
      · rcases List.mem_or_eq_of_mem_set hx with hx | rfl
        · exact hinv.limits x hx
        · exact hlimit
      · have hbefore := hinv.room
        show agentCount (call.advance d σ.world).2.db u +
          Pool.weight (CreateCall.passed u) (σ.calls.set i (call.advance d σ.world).1) + 1 ≤ M + k
        -- Those that found room are in progress, this call among them.
        have hmono := Pool.weight_mono (CreateCall.passed_le_inProgress u)
          (σ.calls.set i (call.advance d σ.world).1)
        rcases hroom with hsame | hfree
        · omega
        · omega
  | cancel i =>
    simp only [createRaceStep]
    cases hi : σ.calls[i]? with
    | none =>
      rw [Pool.set_of_getElem?_eq_none _ hi]
      exact hinv
    | some call =>
      have hweight := Pool.weight_set (CreateCall.inProgress u) .done hi
      have hpassed := Pool.weight_set (CreateCall.passed u) .done hi
      have hdone : CreateCall.done.inProgress u = 0 ∧ CreateCall.done.passed u = 0 := ⟨rfl, rfl⟩
      have hinProgress := hinv.progress
      have hbefore := hinv.room
      refine ⟨?_, fun x hx => ?_, ?_⟩
      · show Pool.weight (CreateCall.inProgress u) (σ.calls.set i .done) ≤ k
        omega
      · rcases List.mem_or_eq_of_mem_set hx with hx | rfl
        · exact hinv.limits x hx
        · trivial
      · show agentCount σ.world.db u +
          Pool.weight (CreateCall.passed u) (σ.calls.set i .done) + 1 ≤ M + k
        omega
  | others w =>
    have hle := AddsNone.agentCount_le hguard u
    have hbefore := hinv.room
    refine ⟨hinv.progress, hinv.limits, ?_⟩
    show agentCount w.db u + Pool.weight (CreateCall.passed u) σ.calls + 1 ≤ M + k
    omega

/-- **The overshoot of concurrent creations.** From at most `M` agents, in every interleaving of
`create_agent` calls with one another and with anything else, in which the account always has a
limit of at most `M` agents and at most `k` of its calls are in progress at a time, it never has
more than `M + (k - 1)` agents. -/
theorem createOvershoot_le {w : World} {events : List CreateEvent} (hk : 1 ≤ k)
    (hstart : agentCount w.db u ≤ M)
    (hguard : Along (createRaceStep d) (CreateGuard d u M k) { world := w } events) :
    agentCount (run (createRaceStep d) { world := w } events).world.db u ≤ M + (k - 1) := by
  have hinv : CreateInv u M k (run (createRaceStep d) { world := w } events) := by
    refine run_inv CreateInv.step events ⟨Nat.zero_le _, fun call hcall => ?_, ?_⟩ hguard
    · cases hcall
    · show agentCount w.db u + 0 + 1 ≤ M + k
      omega
  have hroom := hinv.room
  omega

/-- Four calls of a free account, the last two together. -/
def fourCreations : List CreateEvent :=
  let call (newId : AgentId) (suffix : String) : CreateArgs :=
    { userId := 1, body := { name := "bot" }, newId := newId, suffix := suffix.toList }
  [.arrive (call "a" "aaaaaa"), .advance 0, .advance 0, .advance 0, .advance 0,
    .arrive (call "b" "bbbbbb"), .advance 1, .advance 1, .advance 1, .advance 1,
    .arrive (call "c" "cccccc"), .arrive (call "d" "dddddd"),
    .advance 2, .advance 3, .advance 2, .advance 3, .advance 2, .advance 3, .advance 2, .advance 3]

/-- The bound is met: a free account allows three agents and ends up with four. -/
theorem createOvershoot_le_tight :
    agentCount (run (createRaceStep .transparent) { world := freeWorld } fourCreations).world.db 1 ≤
        3 + (2 - 1) ∧
      agentCount (run (createRaceStep .transparent) { world := freeWorld } fourCreations).world.db
        1 = 4 :=
  ⟨createOvershoot_le (by decide) (by decide) (by decide +kernel), by decide +kernel⟩

end Overshoot

end Gateway
