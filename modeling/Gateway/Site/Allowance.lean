import Gateway.Ingress.Strangers
import Gateway.Ingress.Windows
import Gateway.Site.Steps

/-!
# What visitors can spend

The ingress asks two limiters before it lets a visitor through: `per_client` for the agent and the
caller's address, `per_agent` for the agent, unless its owner is an admin. Between two visits
anything can happen: agents are deployed, deleted and patched, plans change, the scheduler ticks.

* `route_limiters`: a visit hits each limiter at most once (`clientHits`, `agentHits`); no other
  step of the gateway touches them.
* `countP_emitted_le`: what is let through over a run is among the hits its limiter accepted.
* **`agentAllowance`**: in a minute of the clock at most as many visitors are let through to an
  agent as its owner's plan allows, and at most twice as many in any span of a minute.
* **`clientAllowance`**: the same for the visitors of one address and the agent's own limit.

Out of scope: visits that overlap, several processes (each has its own limiters), and clocks that go
back.
-/

namespace Gateway

open Lib

namespace FixedWindowLimiter

/-! ## Hits over a run -/

theorem accepted_append (l : FixedWindowLimiter) (xs ys : List Hit) :
    l.accepted (xs ++ ys) = l.accepted xs ++ (l.after xs).accepted ys := by
  induction xs generalizing l with
  | nil => rfl
  | cons h hs ih =>
    rw [List.cons_append, accepted, accepted, ih, List.append_assoc]
    rfl

/-- A call that is let through. -/
theorem accepted_singleton {l : FixedWindowLimiter} {h : Hit} (hacc : (l.call h).1 = none) :
    l.accepted [h] = [h] := by
  simp [accepted, hacc]

/-- Limits of at most `L` bound the calls let through in a window. -/
theorem tally_le_of_limit_le {W : Nat} {calls : List Hit} {key : String} {L : Nat}
    (hord : Ordered calls) (hL : ∀ g ∈ calls, g.key = key → g.limit ≤ L) (w : Int) :
    tally ((start W).accepted calls) W key w ≤ L := by
  induction calls using List.reverseRecOn with
  | nil => exact Nat.zero_le _
  | append_singleton gs g ih =>
    have hprev := ih hord.of_concat.1 fun x hx => hL x (List.mem_append_left _ hx)
    rw [tally_accepted_concat]
    split_ifs with hnew
    · obtain ⟨hacc, hkey, hw⟩ := hnew
      have hlt := (call_after_eq_none hord).mp hacc
      have hle := hL g (List.mem_append_right _ List.mem_cons_self) hkey
      rw [hkey, hw] at hlt
      omega
    · exact hprev

section Emitted

variable {σ ι β : Type*} {step : σ → ι → σ} {limiter : σ → FixedWindowLimiter}
  {hits : σ → ι → List Hit} {out : σ → ι → List β} {W : Nat} {key : String} {w : Int}
  {G : σ → ι → Prop} {p : β → Bool}

/-- **What is let through over a run is among the hits its limiter accepted**, if that is so of each
step and the steps hit the limiter as they say. -/
theorem countP_emitted_le
    (hlimiter : ∀ s i, limiter (step s i) = (limiter s).after (hits s i))
    (hout : ∀ s i, G s i → (out s i).countP p ≤ tally ((limiter s).accepted (hits s i)) W key w) :
    ∀ (is : List ι) {s : σ}, Along step G s is →
      (emitted step out s is).countP p ≤
        tally ((limiter s).accepted (emitted step hits s is)) W key w := by
  intro is
  induction is with
  | nil =>
    intro _ _
    exact Nat.zero_le _
  | cons i is ih =>
    intro s hG
    have hhead := hout s i hG.1
    have htail := ih hG.2
    unfold emitted
    rw [List.countP_append, accepted_append, tally_append, ← hlimiter]
    omega

/-- **The rule for allowances.** Over a run from the empty limiter, with hits in order and limits of
at most `L`, at most `L` of what is let through falls in a window and `2 * L` in a span as long. -/
theorem emitted_allowance (limiter : σ → FixedWindowLimiter) (f : β → Hit) {is : List ι} {s : σ}
    {L : Nat} (hW : 1 ≤ W) (hstart : limiter s = start W)
    (hlimiter : ∀ s i, limiter (step s i) = (limiter s).after (hits s i))
    (hord : Ordered (emitted step hits s is))
    (hL : ∀ g ∈ emitted step hits s is, g.key = key → g.limit ≤ L)
    (hout : ∀ s i, G s i → ∀ w, (out s i).countP (fun v => (f v).key = key ∧
      windowOf W (f v).time = w) ≤ tally ((limiter s).accepted (hits s i)) W key w)
    (hG : Along step G s is) :
    (∀ w, (emitted step out s is).countP (fun v => (f v).key = key ∧
        windowOf W (f v).time = w) ≤ L) ∧
      ∀ t : ℚ, (emitted step out s is).countP (fun v => (f v).key = key ∧ t ≤ (f v).time ∧
        (f v).time ≤ t + W) ≤ 2 * L := by
  have hwindow : ∀ w, (emitted step out s is).countP (fun v => (f v).key = key ∧
      windowOf W (f v).time = w) ≤ L := fun w => by
    have hle := countP_emitted_le hlimiter (fun s i hi => hout s i hi w) is hG
    rw [hstart] at hle
    exact hle.trans (tally_le_of_limit_le hord hL w)
  refine ⟨hwindow, fun t => ?_⟩
  have hspan := countP_span_le hW ((emitted step out s is).map f) key t
  unfold tally at hspan
  simp only [List.countP_map, Function.comp_def] at hspan
  have hfirst := hwindow (windowOf W t)
  have hsecond := hwindow (windowOf W t + 1)
  omega

end Emitted

end FixedWindowLimiter

open FixedWindowLimiter

/-! ## The hits of a visit -/

section Route

variable {d : Deps} {s : Settings} {env : RouteEnv} {w : World} {req : RouteRequest} {agent : Agent}
  {owner : User}

/-- The hit of a request on `per_client`, once its agent is found. -/
def clientHits (d : Deps) (s : Settings) (env : RouteEnv) (w : World) (req : RouteRequest) :
    List Hit :=
  match checkToken s req, agentAndOwner d s w.db req.host with
  | none, some (agent, _) => [⟨env.clientAt, clientKey agent req, clientLimit s agent⟩]
  | _, _ => []

/-- The request gets as far as `per_agent`. -/
def reachesAgent (d : Deps) (s : Settings) (env : RouteEnv) (w : World) (req : RouteRequest)
    (agent : Agent) (owner : User) : Bool :=
  w.perClient.countAt env.clientAt (clientKey agent req) < clientLimit s agent &&
    (agent.access ≠ .priv ||
      isValidAccessKey d w.db agent.id (bearerToken d req.authorization)) &&
    !isExempt d owner

/-- The hit of a request on `per_agent`. -/
def agentHits (d : Deps) (s : Settings) (env : RouteEnv) (w : World) (req : RouteRequest) :
    List Hit :=
  match checkToken s req, agentAndOwner d s w.db req.host with
  | none, some (agent, owner) =>
    if reachesAgent d s env w req agent owner then
      [⟨env.agentAt, agent.id, (limitsFor owner.plan).maxAgentRpm⟩]
    else []
  | _, _ => []

theorem dispatch_perAgent (env : RouteEnv) (w : World) (agent : Agent) (owner : User) :
    (dispatch d env w agent owner).2.perAgent =
      (hitAgent d env.agentAt w agent owner).2.perAgent := by
  unfold dispatch
  cases hitAgent d env.agentAt w agent owner with
  | mk res w₁ =>
    cases res with
    | some retryAfter => rfl
    | none =>
      simp only
      split <;> rfl

theorem dispatch_keeps_perClient (env : RouteEnv) (w : World) (agent : Agent) (owner : User) :
    (dispatch d env w agent owner).2.perClient = w.perClient := by
  have hhit : (hitAgent d env.agentAt w agent owner).2.perClient = w.perClient := by
    unfold hitAgent
    split <;> rfl
  unfold dispatch
  cases hout : hitAgent d env.agentAt w agent owner with
  | mk res w₁ =>
    rw [hout] at hhit
    cases res with
    | some retryAfter => exact hhit
    | none =>
      simp only
      split <;> exact hhit

/-- **A visit hits each limiter at most once.** -/
theorem route_limiters (d : Deps) (s : Settings) (env : RouteEnv) (w : World)
    (req : RouteRequest) :
    (route d s env w req).2.perClient = w.perClient.after (clientHits d s env w req) ∧
      (route d s env w req).2.perAgent = w.perAgent.after (agentHits d s env w req) := by
  unfold route clientHits agentHits
  cases checkToken s req with
  | some r => exact ⟨rfl, rfl⟩
  | none =>
    simp only
    cases agentAndOwner d s w.db req.host with
    | none => exact ⟨rfl, rfl⟩
    | some found =>
      obtain ⟨agent, owner⟩ := found
      simp only
      unfold serve
      have hclient : (hitClient s env.clientAt w req agent).2.perClient =
          w.perClient.after [⟨env.clientAt, clientKey agent req, clientLimit s agent⟩] := rfl
      have hgate : (hitClient s env.clientAt w req agent).1 = none ↔
          w.perClient.countAt env.clientAt (clientKey agent req) < clientLimit s agent :=
        hitClient_fst_eq_none
      cases hhit : hitClient s env.clientAt w req agent with
      | mk res w₁ =>
        rw [hhit] at hclient hgate
        obtain rfl : (hitClient s env.clientAt w req agent).2 = w₁ := congrArg Prod.snd hhit
        cases res with
        | some retryAfter =>
          have hover : reachesAgent d s env w req agent owner = false := by
            have hnot : ¬ w.perClient.countAt env.clientAt (clientKey agent req) <
              clientLimit s agent := fun hlt => by cases hgate.mpr hlt
            simp [reachesAgent, hnot]
          simp only [hover]
          exact ⟨hclient, rfl⟩
        | none =>
          have hunder := hgate.mp rfl
          simp only
          split_ifs with hkey hreach hreach
          · have hbad : reachesAgent d s env w req agent owner = false := by
              have hinvalid : isValidAccessKey d w.db agent.id
                  (bearerToken d req.authorization) = false := Bool.not_eq_true _ ▸ hkey.2
              simp [reachesAgent, hkey.1, hinvalid]
            rw [hbad] at hreach
            cases hreach
          · exact ⟨hclient, rfl⟩
          · refine ⟨(dispatch_keeps_perClient env _ agent owner).trans hclient, ?_⟩
            have hopen : isExempt d owner = false := by
              unfold reachesAgent at hreach
              simp only [Bool.and_eq_true, Bool.not_eq_true'] at hreach
              exact hreach.2
            rw [dispatch_perAgent]
            unfold hitAgent
            rw [if_neg (by rw [hopen]; exact Bool.false_ne_true)]
            rfl
          · refine ⟨(dispatch_keeps_perClient env _ agent owner).trans hclient, ?_⟩
            have hexempt : isExempt d owner = true := by
              by_contra hnot
              rw [Bool.not_eq_true] at hnot
              refine hreach ?_
              have hvalid : agent.access = .priv → isValidAccessKey d w.db agent.id
                  (bearerToken d req.authorization) = true := fun hpriv => by
                by_contra hbad
                exact hkey ⟨hpriv, hbad⟩
              unfold reachesAgent
              simp only [hunder, hnot, decide_true, Bool.not_false, Bool.and_true, Bool.true_and]
              by_cases hpriv : agent.access = .priv
              · rw [hvalid hpriv, Bool.or_true]
              · simp [hpriv]
            rw [dispatch_perAgent]
            unfold hitAgent
            rw [if_pos hexempt]
            rfl

/-- A visitor who is let through was within the caller's limit. -/
theorem Admits.client_accepted (h : Admits d s env w req agent owner) :
    w.perClient.accepted (clientHits d s env w req) =
      [⟨env.clientAt, clientKey agent req, clientLimit s agent⟩] := by
  unfold clientHits
  rw [h.token, h.found]
  exact accepted_singleton (call_fst_eq_none.mpr (Int.ofNat_lt.mpr h.client))

/-- A visitor who is let through was within the plan's limit, unless there is none. -/
theorem Admits.agent_accepted (h : Admits d s env w req agent owner)
    (hplan : isExempt d owner = false) : w.perAgent.accepted (agentHits d s env w req) =
      [⟨env.agentAt, agent.id, (limitsFor owner.plan).maxAgentRpm⟩] := by
  have hreach : reachesAgent d s env w req agent owner = true := by
    unfold reachesAgent
    simp only [h.client, hplan, decide_true, Bool.not_false, Bool.and_true, Bool.true_and]
    by_cases hpriv : agent.access = .priv
    · rw [h.key hpriv, Bool.or_true]
    · simp [hpriv]
  unfold agentHits
  rw [h.token, h.found]
  simp only [if_pos hreach]
  exact accepted_singleton (call_fst_eq_none.mpr (Int.ofNat_lt.mpr (h.plan hplan)))

end Route

/-! ## The hits of a step -/

section Steps

variable {d : GatewayDeps} {cfg : GatewaySettings} {site : Site}

/-- The hits of a step on `per_client`. -/
def stepClientHits (d : GatewayDeps) (cfg : GatewaySettings) (site : Site) :
    GatewayStep → List Hit
  | .visit env req => clientHits d.toDeps cfg.gateway env site.world req
  | _ => []

/-- The hits of a step on `per_agent`. -/
def stepAgentHits (d : GatewayDeps) (cfg : GatewaySettings) (site : Site) :
    GatewayStep → List Hit
  | .visit env req => agentHits d.toDeps cfg.gateway env site.world req
  | _ => []

/-- The limiters of a world are those of another. -/
def SameLimiters (w w' : World) : Prop := w'.perClient = w.perClient ∧ w'.perAgent = w.perAgent

theorem SameLimiters.trans {w₁ w₂ w₃ : World} (h : SameLimiters w₁ w₂) (h' : SameLimiters w₂ w₃) :
    SameLimiters w₁ w₃ := ⟨h'.1.trans h.1, h'.2.trans h.2⟩

theorem tick_sameLimiters (d : Deps) (s : Settings) (rt : Runtime) (elapsed : Option ℚ)
    (now : Instant) (flushFails : Bool) (w : World) :
    SameLimiters w (tick d s rt elapsed now flushFails w).2 := by
  refine tick_inv (P := SameLimiters w) (fun h => h.trans ?_)
    (fun _ _ _ _ _ _ h _ _ hrw => h.trans ⟨hrw.perClient, hrw.perAgent⟩) ⟨rfl, rfl⟩
  unfold flushRequests
  split_ifs
  · exact ⟨rfl, rfl⟩
  · exact ⟨rfl, rfl⟩
  · exact ⟨rfl, rfl⟩

/-- Only a visit touches the limiters. -/
theorem gatewayStep_sameLimiters {i : GatewayStep} (hi : ∀ env req, i ≠ .visit env req) :
    SameLimiters site.world (gatewayStep d cfg site i).world := by
  have helse : i.touchesAgents = false →
      SameLimiters site.world (gatewayStep d cfg site i).world := fun hno => by
    rw [gatewayStep_world hno]
    exact ⟨rfl, rfl⟩
  cases i with
  | request m creds req =>
    cases req with
    | agents request =>
      show SameLimiters site.world
        (siteRequest d.toSiteDeps cfg.toSiteSettings m site creds (.agents request)).2.world
      unfold siteRequest
      cases (SiteRequest.agents request).guard.enforce d.toAuthDeps cfg.auth site m.now creds with
      | error e => exact ⟨rfl, rfl⟩
      | ok p =>
        have hkeeps := agentsHandler_keepsRest d.toApiDeps cfg.gateway m.toSurroundings site.world
          p.userId request
        exact ⟨hkeeps.perClient, hkeeps.perAgent⟩
    | _ => exact helse rfl
  | visit env req => exact absurd rfl (hi env req)
  | tick rt elapsed now flushFails => exact tick_sameLimiters _ _ rt elapsed now flushFails _
  | _ => exact helse rfl

/-- **A step does its hits to the limiters, and nothing else.** -/
theorem gatewayStep_limiters (d : GatewayDeps) (cfg : GatewaySettings) (site : Site)
    (i : GatewayStep) :
    (gatewayStep d cfg site i).world.perClient =
        site.world.perClient.after (stepClientHits d cfg site i) ∧
      (gatewayStep d cfg site i).world.perAgent =
        site.world.perAgent.after (stepAgentHits d cfg site i) := by
  cases i with
  | visit env req => exact route_limiters d.toDeps cfg.gateway env site.world req
  | _ => exact gatewayStep_sameLimiters (by intro _ _ h; cases h)

/-! ## What a run lets through -/

/-- A visitor who is let through to an agent, with the key and the times its limiters saw. -/
structure Served where
  agentId : AgentId
  caller : String
  clientAt : ℚ
  agentAt : ℚ
  deriving DecidableEq, Repr

/-- The visitor a step lets through. -/
def served (d : GatewayDeps) (cfg : GatewaySettings) (site : Site) : GatewayStep → List Served
  | .visit env req =>
    if (route d.toDeps cfg.gateway env site.world req).1.status = 204 then
      match agentAndOwner d.toDeps cfg.gateway site.world.db req.host with
      | some (agent, _) => [⟨agent.id, clientKey agent req, env.clientAt, env.agentAt⟩]
      | none => []
    else []
  | _ => []

/-- The time of a visit's hit on `per_client`. -/
def GatewayStep.clientAt? : GatewayStep → Option ℚ
  | .visit env _ => some env.clientAt
  | _ => none

/-- The time of a visit's hit on `per_agent`. -/
def GatewayStep.agentAt? : GatewayStep → Option ℚ
  | .visit env _ => some env.agentAt
  | _ => none

/-- What `P` says of whatever agent and owner a visit finds. -/
def Finds (d : GatewayDeps) (cfg : GatewaySettings) (site : Site) (i : GatewayStep)
    (P : RouteRequest → Agent → User → Prop) : Prop :=
  ∀ env req agent owner, i = .visit env req →
    agentAndOwner d.toDeps cfg.gateway site.world.db req.host = some (agent, owner) →
      P req agent owner

instance decidableFinds {d : GatewayDeps} {cfg : GatewaySettings}
    {P : RouteRequest → Agent → User → Prop} [∀ req agent owner, Decidable (P req agent owner)]
    (site : Site) : ∀ i, Decidable (Finds d cfg site i P)
  | .visit env req =>
    match hfound : agentAndOwner d.toDeps cfg.gateway site.world.db req.host with
    | none => isTrue fun _ _ _ _ hi hsome => by
      cases hi
      rw [hfound] at hsome
      cases hsome
    | some (agent, owner) =>
      decidable_of_iff (P req agent owner) ⟨fun h _ _ _ _ hi hsome => by
        cases hi
        rw [hfound] at hsome
        cases hsome
        exact h, fun h => h env req agent owner rfl hfound⟩
  | .request _ _ _ | .register _ | .login _ _ | .webhook _ _ _ | .tick _ _ _ _ | .setRole _ _ =>
    isTrue fun _ _ _ _ hi => by cases hi

/-- A visit lets through nobody, or the visitor it admits. -/
theorem served_visit (d : GatewayDeps) (cfg : GatewaySettings) (site : Site) (env : RouteEnv)
    (req : RouteRequest) : served d cfg site (.visit env req) = [] ∨
      ∃ agent owner, Admits d.toDeps cfg.gateway env site.world req agent owner ∧
        served d cfg site (.visit env req) =
          [⟨agent.id, clientKey agent req, env.clientAt, env.agentAt⟩] := by
  unfold served
  simp only
  split_ifs with hstatus
  · obtain ⟨agent, owner, hadm⟩ := admits_of_routed hstatus
    refine Or.inr ⟨agent, owner, hadm, ?_⟩
    rw [hadm.found]
  · exact Or.inl rfl

theorem stepAgentHits_times (site : Site) (i : GatewayStep) :
    ((stepAgentHits d cfg site i).map Hit.time).Sublist i.agentAt?.toList := by
  cases i with
  | visit env req =>
    simp only [stepAgentHits, agentHits]
    split
    · split_ifs
      · exact List.Sublist.refl _
      · exact List.nil_sublist _
    · exact List.nil_sublist _
  | _ => exact List.nil_sublist _

theorem stepClientHits_times (site : Site) (i : GatewayStep) :
    ((stepClientHits d cfg site i).map Hit.time).Sublist i.clientAt?.toList := by
  cases i with
  | visit env req =>
    simp only [stepClientHits, clientHits]
    split
    · exact List.Sublist.refl _
    · exact List.nil_sublist _
  | _ => exact List.nil_sublist _

/-- Hits at the times of visits in order are in order. -/
theorem ordered_of_times {hits : Site → GatewayStep → List Hit} {at? : GatewayStep → Option ℚ}
    (htimes : ∀ site i, ((hits site i).map Hit.time).Sublist (at? i).toList)
    {steps : List GatewayStep} (hclock : (steps.filterMap at?).Pairwise (· ≤ ·)) :
    Ordered (emitted (gatewayStep d cfg) hits site steps) :=
  List.pairwise_map.mp (hclock.sublist (map_emitted_sublist htimes steps site))

end Steps

section Allowances

variable {d : GatewayDeps} {cfg : GatewaySettings} {site : Site} {steps : List GatewayStep}

/-- **The plan's allowance.** In any run of the gateway from an empty `per_agent` limiter, if no
visit finds the agent with an owner who is exempt or has a plan of more than `L` requests a minute,
then at most `L` visitors are let through to it in a minute of the clock, and at most `2 * L` in
any span of a minute. -/
theorem agentAllowance {id : AgentId} {L : Nat} (hstart : site.world.perAgent = start 60)
    (hclock : (steps.filterMap GatewayStep.agentAt?).Pairwise (· ≤ ·))
    (hplan : Along (gatewayStep d cfg) (fun site i => Finds d cfg site i fun _ agent owner =>
      agent.id = id → isExempt d.toDeps owner = false ∧ (limitsFor owner.plan).maxAgentRpm ≤ L)
      site steps) :
    (∀ w, (emitted (gatewayStep d cfg) (served d cfg) site steps).countP (fun v =>
        v.agentId = id ∧ windowOf 60 v.agentAt = w) ≤ L) ∧
      ∀ t : ℚ, (emitted (gatewayStep d cfg) (served d cfg) site steps).countP (fun v =>
        v.agentId = id ∧ t ≤ v.agentAt ∧ v.agentAt ≤ t + (60 : Nat)) ≤ 2 * L := by
  refine emitted_allowance (fun site : Site => site.world.perAgent)
    (fun v : Served => ⟨v.agentAt, v.agentId, 0⟩) (by decide) hstart
    (fun site i => (gatewayStep_limiters d cfg site i).2)
    (ordered_of_times stepAgentHits_times hclock) (forall_emitted ?_ steps hplan) ?_ hplan
  · intro site i hfinds g hg hkey
    cases i with
    | visit env req =>
      simp only [stepAgentHits, agentHits] at hg
      split at hg
      · rename_i agent owner _ hfound
        split_ifs at hg
        · obtain rfl := List.mem_singleton.mp hg
          exact Int.ofNat_le.mpr (hfinds env req agent owner rfl hfound hkey).2
        · cases hg
      · cases hg
    | _ => cases hg
  · intro site i hfinds w
    cases i with
    | visit env req =>
      rcases served_visit d cfg site env req with hnone | ⟨agent, owner, hadm, hone⟩
      · rw [hnone]
        exact Nat.zero_le _
      · rw [hone]
        by_cases hid : agent.id = id
        · have hexempt := (hfinds env req agent owner rfl hadm.found hid).1
          show _ ≤ tally (site.world.perAgent.accepted
            (agentHits d.toDeps cfg.gateway env site.world req)) 60 id w
          rw [hadm.agent_accepted hexempt]
          exact Nat.le_refl _
        · simp [hid]
    | _ => exact Nat.zero_le _

/-- The gateway with `keyedDeps`. -/
def keyedGateway : GatewayDeps :=
  { GatewayDeps.transparent with toDeps := keyedDeps }

/-- The gateway of `limitedWorld`, whose owner now allows each caller 1000 visits a minute. -/
def openSite : Site :=
  { world := limitedWorld.saveAgent
      { (limitedWorld.db.agents.find? "a").getD freeAgent with rateLimitRpm := some 1000 } }

/-- Visits by one caller, all at once. -/
def visitsAtOnce (n : Nat) : List GatewayStep :=
  List.replicate n (.visit { clientAt := 0, agentAt := 0 } sampleVisit)

/-- The agent of a free account: 300 visitors a minute at most, and 300 of 301 are let through. -/
theorem agentAllowance_full :
    (emitted (gatewayStep keyedGateway { gateway := edgeSettings })
        (served keyedGateway { gateway := edgeSettings }) openSite (visitsAtOnce 301)).countP
      (fun v => v.agentId = "a" ∧ windowOf 60 v.agentAt = 0) ≤ 300 ∧
    (emitted (gatewayStep keyedGateway { gateway := edgeSettings })
        (served keyedGateway { gateway := edgeSettings }) openSite (visitsAtOnce 301)).countP
      (fun v => v.agentId = "a" ∧ windowOf 60 v.agentAt = 0) = 300 :=
  ⟨(agentAllowance (by decide +kernel) (by decide +kernel) (by decide +kernel)).1 0,
    by decide +kernel⟩

/-- **The caller's allowance.** In any run of the gateway from an empty `per_client` limiter, if no
visit under `caller`'s key finds an agent with a limit of more than `L` requests a minute, then at
most `L` of its visits are let through in a minute of the clock, and at most `2 * L` in any span of
a minute. -/
theorem clientAllowance {caller : String} {L : Nat} (hstart : site.world.perClient = start 60)
    (hclock : (steps.filterMap GatewayStep.clientAt?).Pairwise (· ≤ ·))
    (hlimit : Along (gatewayStep d cfg) (fun site i => Finds d cfg site i fun req agent _ =>
      clientKey agent req = caller → clientLimit cfg.gateway agent ≤ L) site steps) :
    (∀ w, (emitted (gatewayStep d cfg) (served d cfg) site steps).countP (fun v =>
        v.caller = caller ∧ windowOf 60 v.clientAt = w) ≤ L) ∧
      ∀ t : ℚ, (emitted (gatewayStep d cfg) (served d cfg) site steps).countP (fun v =>
        v.caller = caller ∧ t ≤ v.clientAt ∧ v.clientAt ≤ t + (60 : Nat)) ≤ 2 * L := by
  refine emitted_allowance (fun site : Site => site.world.perClient)
    (fun v : Served => ⟨v.clientAt, v.caller, 0⟩) (by decide) hstart
    (fun site i => (gatewayStep_limiters d cfg site i).1)
    (ordered_of_times stepClientHits_times hclock) (forall_emitted ?_ steps hlimit) ?_ hlimit
  · intro site i hfinds g hg hkey
    cases i with
    | visit env req =>
      simp only [stepClientHits, clientHits] at hg
      split at hg
      · rename_i agent owner _ hfound
        obtain rfl := List.mem_singleton.mp hg
        exact Int.ofNat_le.mpr (hfinds env req agent owner rfl hfound hkey)
      · cases hg
    | _ => cases hg
  · intro site i _ w
    cases i with
    | visit env req =>
      rcases served_visit d cfg site env req with hnone | ⟨agent, owner, hadm, hone⟩
      · rw [hnone]
        exact Nat.zero_le _
      · rw [hone]
        show _ ≤ tally (site.world.perClient.accepted
          (clientHits d.toDeps cfg.gateway env site.world req)) 60 caller w
        rw [hadm.client_accepted]
        exact Nat.le_refl _
    | _ => exact Nat.zero_le _

/-- Three visits by one caller around the end of a minute. -/
def visitsAround : List GatewayStep :=
  [.visit { clientAt := 59, agentAt := 59 } sampleVisit,
    .visit { clientAt := 60, agentAt := 60 } sampleVisit,
    .visit { clientAt := 61, agentAt := 61 } sampleVisit]

/-- The owner allows each caller one visit a minute: one is let through in each minute of the clock,
two within two seconds. -/
theorem clientAllowance_around :
    (emitted (gatewayStep keyedGateway { gateway := edgeSettings })
        (served keyedGateway { gateway := edgeSettings }) { world := limitedWorld }
          visitsAround).countP
      (fun v => v.caller = "a|203.0.113.9" ∧ windowOf 60 v.clientAt = 1) ≤ 1 ∧
    (emitted (gatewayStep keyedGateway { gateway := edgeSettings })
        (served keyedGateway { gateway := edgeSettings }) { world := limitedWorld }
          visitsAround).countP
      (fun v => v.caller = "a|203.0.113.9" ∧ (59 : ℚ) ≤ v.clientAt ∧
        v.clientAt ≤ (59 : ℚ) + (60 : Nat)) ≤
        2 * 1 ∧
    emitted (gatewayStep keyedGateway { gateway := edgeSettings })
        (served keyedGateway { gateway := edgeSettings }) { world := limitedWorld } visitsAround =
      [⟨"a", "a|203.0.113.9", 59, 59⟩, ⟨"a", "a|203.0.113.9", 60, 60⟩] :=
  ⟨(clientAllowance (by decide +kernel) (by decide +kernel) (by decide +kernel)).1 1,
    (clientAllowance (by decide +kernel) (by decide +kernel) (by decide +kernel)).2 59,
    by decide +kernel⟩

end Allowances

end Gateway
