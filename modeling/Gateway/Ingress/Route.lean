import Mathlib.Data.List.GetD
import Gateway.Ingress.AccessKeys
import Gateway.Metering.Model

/-!
# Routing a request to an agent (`routers/ingress.py`)

`route` with every gate in the source's order: the internal token, the agent and its owner by
hostname, the caller's allowance, the key of a private agent, the plan's allowance, and the
containers with an address. Between two of its awaits the handler runs undisturbed, so it is cut
there: `checkToken`, `agentAndOwner`, `hitClient`, `isValidAccessKey` and `dispatch` are the pieces,
and `route` is their composition.

`Admits` lists what a request must pass; `route_of_admits` and `admits_of_routed` say that these
and only these requests are answered 204.
-/

namespace Gateway

open Lib

/-- The headers of a `route` call. -/
structure RouteRequest where
  host : String := ""
  internalToken : String := ""
  clientIp : String := ""
  authorization : String := ""
  deriving DecidableEq, Repr

/-- What the handler reads from the clock and the random generator. -/
structure RouteEnv where
  clientAt : ℚ := 0
  agentAt : ℚ := 0
  countedAt : Instant := 0
  pick : Nat := 0

/-- A `Response`. -/
structure Response where
  status : Nat
  body : String := ""
  headers : List (String × String) := []
  deriving DecidableEq, Repr

def forbidden : Response where
  status := 403

/-- What an exception in the handler is answered with. -/
def internalError : Response where
  status := 500

def noAgent : Response where
  status := 404
  body := "No agent is deployed at this address.\n"

/-- `_too_many_requests`. -/
def tooManyRequests (retryAfter : Int) : Response where
  status := 429
  body := "Too many requests to this agent. Try again shortly.\n"
  headers := [("Retry-After", toString retryAfter)]

def privateAgent : Response where
  status := 401
  body := "This agent is private. Send one of its access keys as 'Authorization: Bearer <key>'.\n"
  headers := [("WWW-Authenticate", "Bearer realm=\"agent\"")]

def notRunning : Response where
  status := 503
  body := "This agent is not running.\n"

def routed (ipAddress : String) (agent : Agent) : Response where
  status := 204
  headers := [("X-Agnt-Upstream", ipAddress ++ ":" ++ toString agent.port)]

/-! ## The gates -/

/-- `hmac.compare_digest` on two `str`: it raises on a character outside ASCII. -/
def compareDigest (a b : String) : Option Bool :=
  if a.toList.all (·.val < 128) && b.toList.all (·.val < 128) then some (a == b) else none

/-- The answer of the first gate, or `none` to go on. -/
def checkToken (s : Settings) (req : RouteRequest) : Option Response :=
  match s.ingressInternalToken.filter (· ≠ "") with
  | none => some forbidden
  | some expected =>
    match compareDigest req.internalToken expected with
    | none => some internalError
    | some false => some forbidden
    | some true => none

/-- The first gate never answers 204. -/
theorem checkToken_status {s : Settings} {req : RouteRequest} {r : Response}
    (h : checkToken s req = some r) : r.status ≠ 204 := by
  unfold checkToken at h
  split at h
  · obtain rfl := Option.some.inj h
    simp [forbidden]
  · split at h
    · obtain rfl := Option.some.inj h
      simp [internalError]
    · obtain rfl := Option.some.inj h
      simp [forbidden]
    · exact absurd h (by simp)

/-- `_agent_and_owner`. -/
def agentAndOwner (d : Deps) (s : Settings) (db : Db) (host : String) : Option (Agent × User) :=
  (slugFromHost d s host).bind fun slug =>
    (db.agents.rows.find? fun a => a.slug = slug).bind fun agent =>
      (db.users.find? agent.userId).map fun owner => (agent, owner)

/-- The agent found for a host is stored, and so is its owner. -/
theorem agentAndOwner_some {d : Deps} {s : Settings} {db : Db} {host : String} {agent : Agent}
    {user : User} (h : agentAndOwner d s db host = some (agent, user)) :
    agent ∈ db.agents.rows ∧ db.users.find? agent.userId = some user := by
  unfold agentAndOwner at h
  obtain ⟨slug, -, h⟩ := Option.bind_eq_some_iff.mp h
  obtain ⟨a, ha, h⟩ := Option.bind_eq_some_iff.mp h
  obtain ⟨o, ho, heq⟩ := Option.map_eq_some_iff.mp h
  obtain ⟨rfl, rfl⟩ := Prod.mk.inj heq
  exact ⟨List.mem_of_find?_eq_some ha, ho⟩

/-- A slug that is its agent's alone finds that agent. -/
theorem find?_slug {rows : List Agent} {a : Agent} (ha : a ∈ rows)
    (halone : ∀ b ∈ rows, b.slug = a.slug → b = a) :
    (rows.find? fun b => b.slug = a.slug) = some a := by
  cases hf : rows.find? fun b => b.slug = a.slug with
  | none =>
    have hne := List.find?_eq_none.mp hf a ha
    simp at hne
  | some b =>
    rw [halone b (List.mem_of_find?_eq_some hf) (by simpa using List.find?_some hf)]

/-- `str.isspace` for one character. -/
def isSpace (c : Char) : Bool :=
  let n := c.toNat
  (9 ≤ n && n ≤ 13) || (28 ≤ n && n ≤ 32) || n == 133 || n == 160 || n == 5760 ||
    (8192 ≤ n && n ≤ 8202) || n == 8232 || n == 8233 || n == 8239 || n == 8287 || n == 12288

/-- `s.strip()`. -/
def stripSpaces (s : List Char) : List Char :=
  ((s.dropWhile isSpace).reverse.dropWhile isSpace).reverse

/-- `_bearer_token`. -/
def bearerToken (d : Deps) (authorization : String) : String :=
  let scheme := authorization.toList.takeWhile (· ≠ ' ')
  let token := (authorization.toList.dropWhile (· ≠ ' ')).drop 1
  if d.lower scheme = "bearer".toList then String.ofList (stripSpaces token) else ""

/-- `agent.rate_limit_rpm or settings.ingress_default_rpm_per_ip`. -/
def clientLimit (s : Settings) (agent : Agent) : Nat :=
  (agent.rateLimitRpm.filter (· ≠ 0)).getD s.ingressDefaultRpmPerIp

/-- The key of the caller in `per_client`. -/
def clientKey (agent : Agent) (req : RouteRequest) : String :=
  agent.id ++ "|" ++ (if req.clientIp = "" then "unknown" else req.clientIp)

/-- The hit on `per_client`. -/
def hitClient (s : Settings) (now : ℚ) (w : World) (req : RouteRequest) (agent : Agent) :
    Option Int × World :=
  let out := w.perClient.hit now (clientKey agent req) (clientLimit s agent)
  (out.1, { w with perClient := out.2 })

/-- The hit on `per_agent`; admins have no allowance to spend. -/
def hitAgent (d : Deps) (now : ℚ) (w : World) (agent : Agent) (owner : User) : Option Int × World :=
  if isExempt d owner then (none, w)
  else
    let out := w.perAgent.hit now agent.id (limitsFor owner.plan).maxAgentRpm
    (out.1, { w with perAgent := out.2 })

/-- The addresses of the containers that have one. -/
def upstreams (cs : List Container) : List String :=
  cs.filterMap fun c => c.ipAddress.filter (· ≠ "")

/-- The rest of the handler once the key has been accepted. -/
def dispatch (d : Deps) (env : RouteEnv) (w : World) (agent : Agent) (owner : User) :
    Response × World :=
  match hitAgent d env.agentAt w agent owner with
  | (some retryAfter, w) => (tooManyRequests retryAfter, w)
  | (none, w) =>
    match upstreams (w.containers agent.id) with
    | [] => (notRunning, w)
    | u :: us =>
      let target := (u :: us).getD (env.pick % (us.length + 1)) u
      (routed target agent, { w with pending := countRequest w.pending agent env.countedAt })

/-- The handler after the lookup of the agent. -/
def serve (d : Deps) (s : Settings) (env : RouteEnv) (w : World) (req : RouteRequest)
    (agent : Agent) (owner : User) : Response × World :=
  match hitClient s env.clientAt w req agent with
  | (some retryAfter, w) => (tooManyRequests retryAfter, w)
  | (none, w) =>
    if agent.access = .priv ∧
        ¬ isValidAccessKey d w.db agent.id (bearerToken d req.authorization) then
      (privateAgent, w)
    else dispatch d env w agent owner

/-- `route`. -/
def route (d : Deps) (s : Settings) (env : RouteEnv) (w : World) (req : RouteRequest) :
    Response × World :=
  match checkToken s req with
  | some r => (r, w)
  | none =>
    match agentAndOwner d s w.db req.host with
    | none => (noAgent, w)
    | some (agent, owner) => serve d s env w req agent owner

/-! ## Who is let through -/

/-- Everything a request must pass to be routed to `agent`. -/
structure Admits (d : Deps) (s : Settings) (env : RouteEnv) (w : World) (req : RouteRequest)
    (agent : Agent) (owner : User) : Prop where
  token : checkToken s req = none
  found : agentAndOwner d s w.db req.host = some (agent, owner)
  client : w.perClient.countAt env.clientAt (clientKey agent req) < clientLimit s agent
  key : agent.access = .priv →
    isValidAccessKey d w.db agent.id (bearerToken d req.authorization) = true
  plan : isExempt d owner = false →
    w.perAgent.countAt env.agentAt agent.id < (limitsFor owner.plan).maxAgentRpm
  address : upstreams (w.containers agent.id) ≠ []

section Dispatch

variable {d : Deps} {env : RouteEnv} {w : World} {agent : Agent} {owner : User}

/-- The two gates of `dispatch`. -/
theorem hitAgent_fst_eq_none :
    (hitAgent d env.agentAt w agent owner).1 = none ↔
      (isExempt d owner = false →
        w.perAgent.countAt env.agentAt agent.id < (limitsFor owner.plan).maxAgentRpm) := by
  unfold hitAgent
  split
  · rename_i h
    simp [h]
  · rename_i h
    rw [Bool.not_eq_true] at h
    simp only [FixedWindowLimiter.hit_fst_eq_none, h, forall_const]

theorem hitAgent_frame (d : Deps) (now : ℚ) (w : World) (agent : Agent) (owner : User) :
    (hitAgent d now w agent owner).2.db = w.db ∧
      (hitAgent d now w agent owner).2.containers = w.containers ∧
      (hitAgent d now w agent owner).2.pending = w.pending := by
  unfold hitAgent
  split
  · exact ⟨rfl, rfl, rfl⟩
  · exact ⟨rfl, rfl, rfl⟩

/-- `dispatch` leaves the tables and the containers alone. -/
theorem dispatch_frame (d : Deps) (env : RouteEnv) (w : World) (agent : Agent) (owner : User) :
    (dispatch d env w agent owner).2.db = w.db ∧
      (dispatch d env w agent owner).2.containers = w.containers := by
  obtain ⟨hdb, hcs, -⟩ := hitAgent_frame d env.agentAt w agent owner
  unfold dispatch
  cases hhit : hitAgent d env.agentAt w agent owner with
  | mk res w₁ =>
    rw [hhit] at hdb hcs
    cases res with
    | some retryAfter => exact ⟨hdb, hcs⟩
    | none =>
      simp only
      split
      · exact ⟨hdb, hcs⟩
      · exact ⟨hdb, hcs⟩

/-- A request past the plan's allowance with an address to go to is counted and sent to one of the
agent's addresses. -/
theorem dispatch_routed (hplan : (hitAgent d env.agentAt w agent owner).1 = none)
    (haddr : upstreams (w.containers agent.id) ≠ []) :
    ∃ target ∈ upstreams (w.containers agent.id),
      (dispatch d env w agent owner).1 = routed target agent ∧
      (dispatch d env w agent owner).2.pending = countRequest w.pending agent env.countedAt := by
  obtain ⟨-, hcs, hpending⟩ := hitAgent_frame d env.agentAt w agent owner
  unfold dispatch
  cases hhit : hitAgent d env.agentAt w agent owner with
  | mk res w₁ =>
    rw [hhit] at hplan hcs hpending
    simp only at hplan hcs hpending
    subst hplan
    simp only [hcs]
    cases hu : upstreams (w.containers agent.id) with
    | nil => exact absurd hu haddr
    | cons u us =>
      refine ⟨_, ?_, rfl, by simp only [hpending]⟩
      have hlt : env.pick % (us.length + 1) < (u :: us).length := Nat.mod_lt _ (Nat.succ_pos _)
      rw [List.getD_eq_getElem _ _ hlt]
      exact List.getElem_mem hlt

/-- Any other request is answered something else and not counted. -/
theorem dispatch_refused (h : ¬ ((hitAgent d env.agentAt w agent owner).1 = none ∧
      upstreams (w.containers agent.id) ≠ [])) :
    (dispatch d env w agent owner).1.status ≠ 204 ∧
      (dispatch d env w agent owner).2.pending = w.pending := by
  obtain ⟨-, hcs, hpending⟩ := hitAgent_frame d env.agentAt w agent owner
  unfold dispatch
  cases hhit : hitAgent d env.agentAt w agent owner with
  | mk res w₁ =>
    rw [hhit] at h hcs hpending
    simp only at h hcs hpending
    cases res with
    | some retryAfter => exact ⟨by simp [tooManyRequests], hpending⟩
    | none =>
      simp only [hcs]
      cases hu : upstreams (w.containers agent.id) with
      | nil => exact ⟨by simp [notRunning], hpending⟩
      | cons u us => exact absurd ⟨rfl, by simp [hu]⟩ h

end Dispatch

section Route

variable {d : Deps} {s : Settings} {env : RouteEnv} {w : World} {req : RouteRequest}
  {agent : Agent} {owner : User}

theorem hitClient_fst_eq_none :
    (hitClient s env.clientAt w req agent).1 = none ↔
      w.perClient.countAt env.clientAt (clientKey agent req) < clientLimit s agent :=
  FixedWindowLimiter.hit_fst_eq_none

/-- `route` leaves the tables and the containers alone. -/
theorem route_frame (d : Deps) (s : Settings) (env : RouteEnv) (w : World) (req : RouteRequest) :
    (route d s env w req).2.db = w.db ∧ (route d s env w req).2.containers = w.containers := by
  unfold route
  split
  · exact ⟨rfl, rfl⟩
  · split
    · exact ⟨rfl, rfl⟩
    · rename_i agent owner _
      unfold serve
      cases hhit : hitClient s env.clientAt w req agent with
      | mk res w₁ =>
        obtain rfl : _ = w₁ := congrArg Prod.snd hhit
        cases res with
        | some retryAfter => exact ⟨rfl, rfl⟩
        | none =>
          simp only
          split
          · exact ⟨rfl, rfl⟩
          · exact dispatch_frame d env (hitClient s env.clientAt w req agent).2 agent owner

/-- The configured internal token is the one the request carries. -/
def ValidInternalToken (s : Settings) (req : RouteRequest) : Prop :=
  ∃ expected, s.ingressInternalToken = some expected ∧ expected ≠ "" ∧
    compareDigest req.internalToken expected = some true

theorem checkToken_of_valid (h : ValidInternalToken s req) : checkToken s req = none := by
  obtain ⟨expected, hset, hne, hcmp⟩ := h
  unfold checkToken
  have hfilter : s.ingressInternalToken.filter (· ≠ "") = some expected := by
    rw [hset, Option.filter_some, if_pos (by simpa using hne)]
  rw [hfilter]
  simp only [hcmp]

/-- **A request that passes every gate is routed** to an address of the agent's own containers. -/
theorem route_of_admits (h : Admits d s env w req agent owner) :
    ∃ target ∈ upstreams (w.containers agent.id),
      (route d s env w req).1 = routed target agent := by
  have hclient : (hitClient s env.clientAt w req agent).1 = none :=
    hitClient_fst_eq_none.mpr h.client
  unfold route
  rw [h.token, h.found]
  simp only
  unfold serve
  cases hhit : hitClient s env.clientAt w req agent with
  | mk res w₁ =>
    rw [hhit] at hclient
    simp only at hclient
    subst hclient
    obtain rfl : _ = w₁ := congrArg Prod.snd hhit
    simp only
    split
    · rename_i hkey
      exact absurd (h.key hkey.1) hkey.2
    · have hplan : (hitAgent d env.agentAt (hitClient s env.clientAt w req agent).2 agent
          owner).1 = none := hitAgent_fst_eq_none.mpr h.plan
      obtain ⟨target, hmem, hres, -⟩ := dispatch_routed hplan h.address
      exact ⟨target, hmem, hres⟩

/-- **Only such a request is.** -/
theorem admits_of_routed (h : (route d s env w req).1.status = 204) :
    ∃ agent owner, Admits d s env w req agent owner := by
  unfold route at h
  cases htoken : checkToken s req with
  | some r =>
    rw [htoken] at h
    exact absurd h (checkToken_status htoken)
  | none =>
    rw [htoken] at h
    cases hfound : agentAndOwner d s w.db req.host with
    | none =>
      rw [hfound] at h
      exact absurd h (by simp [noAgent])
    | some found =>
      obtain ⟨agent, owner⟩ := found
      rw [hfound] at h
      simp only at h
      unfold serve at h
      cases hhit : hitClient s env.clientAt w req agent with
      | mk res w₁ =>
        rw [hhit] at h
        cases res with
        | some retryAfter => exact absurd h (by simp [tooManyRequests])
        | none =>
          have hclient := hitClient_fst_eq_none.mp (congrArg Prod.fst hhit)
          obtain rfl : _ = w₁ := congrArg Prod.snd hhit
          simp only at h
          split at h
          · exact absurd h (by simp [privateAgent])
          · rename_i hkey
            by_contra hnone
            refine (dispatch_refused fun hopen => hnone ⟨agent, owner, ?_⟩).1 h
            have hplan := hitAgent_fst_eq_none.mp hopen.1
            exact
              { token := htoken
                found := hfound
                client := hclient
                key := fun hpriv => by
                  by_contra hbad
                  exact hkey ⟨hpriv, hbad⟩
                plan := hplan
                address := hopen.2 }

end Route

/-- An edge that serves agents under `run.example.com`. -/
def edgeSettings : Settings where
  agentBaseDomain := some "run.example.com"
  ingressInternalToken := some "edge-secret"

end Gateway
