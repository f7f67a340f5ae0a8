import Gateway.Ingress.Private

/-!
# Strangers and the allowance of a private agent

`route` counts a caller before it looks at the key, so that strangers spend their own allowance
(`per_client`) and not the one the agent's real callers share (`per_agent`). Both limiters keep one
table for all keys, wiped by whichever hit first falls in a new window, so a stranger's request does
change state that later requests read. `Agree K t` says how much of it: from `t` on two limiters
give the keys in `K` the same counts.

* `Agree.hit_both`, `Agree.hit_left`: a hit on a key in `K` is answered alike by both, and one on
  another key makes no difference to those in `K`.
* **`strangers_spend_nothing`**: requests without a key, from addresses that the agent's real
  callers do not use, change no answer but those to other requests of that kind.
* **`stranger_at_the_same_address`**: callers are told apart by their address alone, so a stranger
  who shares it does spend a real caller's allowance.
-/

namespace Gateway

open Lib

/-! ## Two limiters that agree on some keys -/

namespace FixedWindowLimiter

/-- From `t` on the keys in `K` have the same counts. -/
structure Agree (K : String → Prop) (t : ℚ) (l l' : FixedWindowLimiter) : Prop where
  seconds : l'.windowSeconds = l.windowSeconds
  past : l.window ≤ l.windowAt t
  past' : l'.window ≤ l'.windowAt t
  counts : ∀ key, K key → ∀ now, t ≤ now → l.countAt now key = l'.countAt now key

namespace Agree

variable {K : String → Prop} {t now : ℚ} {l l' : FixedWindowLimiter} {key : String}

theorem refl (h : l.window ≤ l.windowAt t) : Agree K t l l := ⟨rfl, h, h, fun _ _ _ _ => rfl⟩

theorem symm (h : Agree K t l l') : Agree K t l' l where
  seconds := h.seconds.symm
  past := h.past'
  past' := h.past
  counts key hk now hle := (h.counts key hk now hle).symm

theorem windowAt_eq (h : Agree K t l l') (now : ℚ) : l'.windowAt now = l.windowAt now := by
  unfold windowAt
  rw [h.seconds]

theorem later (h : Agree K t l l') (hle : t ≤ now) : Agree K now l l' where
  seconds := h.seconds
  past := h.past.trans (windowAt_mono l hle)
  past' := h.past'.trans (windowAt_mono l' hle)
  counts key hk later hl := h.counts key hk later (hle.trans hl)

theorem window_hit_le (l : FixedWindowLimiter) (now : ℚ) (key : String) (limit : Nat) :
    (l.hit now key limit).2.window ≤ (l.hit now key limit).2.windowAt now := by
  rw [window_hit]
  unfold windowAt
  rw [windowSeconds_hit]

/-- A hit of one side on a key outside `K`. -/
theorem hit_left (h : Agree K t l l') (hle : t ≤ now) (hkey : ¬ K key) (limit : Nat) :
    Agree K now (l.hit now key limit).2 l' where
  seconds := by rw [windowSeconds_hit, h.seconds]
  past := window_hit_le l now key limit
  past' := (h.later hle).past'
  counts j hj later hl := by
    have hother : ¬ (l.windowAt later = l.windowAt now ∧ key = j ∧ l.countAt now key < limit) :=
      fun hh => hkey (hh.2.1 ▸ hj)
    rw [countAt_hit (h.later hle).past hl, if_neg hother]
    exact (h.later hle).counts j hj later hl

/-- A hit of both sides on a key in `K`: the answer is the same, and they go on agreeing. -/
theorem hit_both (h : Agree K t l l') (hle : t ≤ now) (hkey : K key) (limit : Nat) :
    (l'.hit now key limit).1 = (l.hit now key limit).1 ∧
      Agree K now (l.hit now key limit).2 (l'.hit now key limit).2 := by
  have hcount := h.counts key hkey now hle
  refine ⟨?_, ⟨?_, window_hit_le l now key limit, window_hit_le l' now key limit, ?_⟩⟩
  · unfold hit
    rw [← hcount, h.windowAt_eq, h.seconds]
    split
    · rfl
    · rfl
  · rw [windowSeconds_hit, windowSeconds_hit, h.seconds]
  · intro j hj later hl
    rw [countAt_hit (h.later hle).past hl, countAt_hit (h.later hle).past' hl, h.windowAt_eq,
      h.windowAt_eq, ← hcount, (h.later hle).counts j hj later hl]

end Agree

end FixedWindowLimiter

/-! ## Sequences of requests -/

/-- A `route` request with what it reads from its environment. The inserted ones are those the
sequence is compared without. -/
structure Visit where
  env : RouteEnv := {}
  req : RouteRequest
  inserted : Bool := false

/-- The gateway after a visit. -/
def visitStep (d : Deps) (s : Settings) (w : World) (v : Visit) : World :=
  (route d s v.env w v.req).2

/-- The gateway after the visits. -/
def afterVisits (d : Deps) (s : Settings) (w : World) (vs : List Visit) : World :=
  run (visitStep d s) w vs

/-- The visits without the inserted ones. -/
def original (vs : List Visit) : List Visit := vs.filter fun v => !v.inserted

/-- The caller as `per_client` names it: `x_agnt_client_ip or 'unknown'`. -/
def caller (req : RouteRequest) : String := if req.clientIp = "" then "unknown" else req.clientIp

/-- The request is one to the agent `a`. -/
def SentTo (d : Deps) (s : Settings) (db : Db) (a : Agent) (req : RouteRequest) : Prop :=
  ∃ owner, agentAndOwner d s db req.host = some (a, owner)

/-- The request carries a valid access key of `a`. -/
def carriesKey (d : Deps) (db : Db) (a : Agent) (req : RouteRequest) : Bool :=
  isValidAccessKey d db a.id (bearerToken d req.authorization)

/-- A request to `a` without a valid key, from outside `S`. -/
structure FromStranger (d : Deps) (s : Settings) (db : Db) (a : Agent) (S : Set String)
    (req : RouteRequest) : Prop where
  sent : SentTo d s db a req
  noKey : carriesKey d db a req = false
  outside : caller req ∉ S

/-- The inserted visits make no difference: not to the counts of `per_agent`, not to the pending
requests, and not to the answer to any other visit from `S` or to another agent. -/
def Unaffected (d : Deps) (s : Settings) (w : World) (a : Agent) (S : Set String)
    (vs : List Visit) : Prop :=
  (afterVisits d s w vs).perAgent = (afterVisits d s w (original vs)).perAgent ∧
  (afterVisits d s w vs).pending = (afterVisits d s w (original vs)).pending ∧
  ∀ before v later, vs = before ++ v :: later → v.inserted = false →
    caller v.req ∈ S ∨ ¬ SentTo d s w.db a v.req →
    (route d s v.env (afterVisits d s w before) v.req).1 =
      (route d s v.env (afterVisits d s w (original before)) v.req).1

/-! ## One request in two gateways -/

/-- The keys of `per_client` that no stranger from outside `S` to `a` has. -/
def Guarded (a : Agent) (S : Set String) (key : String) : Prop :=
  ∀ ip, ip ∉ S → key ≠ a.id ++ "|" ++ ip

/-- Two gateways that differ in nothing but `per_client`, and there not on the guarded keys. -/
structure Alike (a : Agent) (S : Set String) (t : ℚ) (w w' : World) : Prop where
  same : w' = { w with perClient := w'.perClient }
  agree : w.perClient.Agree (Guarded a S) t w'.perClient

section Step

variable {d : Deps} {s : Settings} {a : Agent} {S : Set String} {t : ℚ} {w w' : World} {v : Visit}

theorem Alike.symm (h : Alike a S t w w') : Alike a S t w' w where
  same := by
    rw [h.same]
  agree := h.agree.symm

theorem Alike.later (h : Alike a S t w w') {now : ℚ} (hle : t ≤ now) : Alike a S now w w' :=
  ⟨h.same, h.agree.later hle⟩

/-- `dispatch` neither reads nor writes `per_client`. -/
theorem dispatch_perClient (env : RouteEnv) (w : World) (l : FixedWindowLimiter) (agent : Agent)
    (owner : User) :
    dispatch d env { w with perClient := l } agent owner =
      ((dispatch d env w agent owner).1,
        { (dispatch d env w agent owner).2 with perClient := l }) := by
  unfold dispatch hitAgent
  split_ifs with hex
  · simp only
    cases upstreams (w.containers agent.id) <;> rfl
  · simp only
    cases w.perAgent.hit env.agentAt agent.id (limitsFor owner.plan).maxAgentRpm with
    | mk res l' =>
      cases res with
      | some retryAfter => rfl
      | none =>
        simp only
        cases upstreams (w.containers agent.id) <;> rfl

/-- **A stranger's request** costs its caller a hit, or nothing at all. -/
theorem visitStep_stranger (hpriv : a.access = .priv) (hs : FromStranger d s w.db a S v.req) :
    visitStep d s w v = w ∨
      visitStep d s w v =
        { w with perClient :=
            (w.perClient.hit v.env.clientAt (clientKey a v.req) (clientLimit s a)).2 } := by
  obtain ⟨owner, hfound⟩ := hs.sent
  have hkey := hs.noKey
  unfold visitStep route
  cases checkToken s v.req with
  | some r => exact Or.inl rfl
  | none =>
    right
    rw [hfound]
    simp only
    unfold serve hitClient
    cases w.perClient.hit v.env.clientAt (clientKey a v.req) (clientLimit s a) with
    | mk res l =>
      cases res with
      | some retryAfter => rfl
      | none =>
        simp only
        rw [if_pos ⟨hpriv, by unfold carriesKey at hkey; rw [hkey]; decide⟩]

theorem not_guarded_stranger (h : caller v.req ∉ S) : ¬ Guarded a S (clientKey a v.req) :=
  fun hg => hg (caller v.req) h rfl

theorem Alike.stranger (h : Alike a S t w w') (hpriv : a.access = .priv)
    (hle : t ≤ v.env.clientAt) (hs : FromStranger d s w.db a S v.req) :
    Alike a S v.env.clientAt (visitStep d s w v) w' := by
  rcases visitStep_stranger hpriv hs with he | he
  · rw [he]
    exact h.later hle
  · rw [he]
    exact ⟨h.same, h.agree.hit_left hle (not_guarded_stranger hs.outside) _⟩

/-- **A request under a guarded key** is answered alike. -/
theorem Alike.guarded (h : Alike a S t w w') (hle : t ≤ v.env.clientAt)
    (hg : ∀ agent owner, agentAndOwner d s w.db v.req.host = some (agent, owner) →
      Guarded a S (clientKey agent v.req)) :
    (route d s v.env w v.req).1 = (route d s v.env w' v.req).1 ∧
      Alike a S v.env.clientAt (visitStep d s w v) (visitStep d s w' v) := by
  have hw' := h.same
  have hagree := h.agree
  generalize w'.perClient = l at hw' hagree
  subst hw'
  unfold visitStep route
  cases checkToken s v.req with
  | some r => exact ⟨rfl, rfl, hagree.later hle⟩
  | none =>
    simp only
    cases hfound : agentAndOwner d s w.db v.req.host with
    | none => exact ⟨rfl, rfl, hagree.later hle⟩
    | some found =>
      obtain ⟨agent, owner⟩ := found
      obtain ⟨hres, hafter⟩ :=
        hagree.hit_both hle (hg agent owner hfound) (clientLimit s agent)
      simp only
      unfold serve hitClient
      simp only
      rw [hres]
      cases hout : (w.perClient.hit v.env.clientAt (clientKey agent v.req)
          (clientLimit s agent)).1 with
      | some retryAfter => exact ⟨rfl, rfl, hafter⟩
      | none =>
        simp only
        split_ifs with hkey
        · exact ⟨rfl, rfl, hafter⟩
        · generalize (w.perClient.hit v.env.clientAt (clientKey agent v.req)
            (clientLimit s agent)).2 = m at hafter ⊢
          generalize (l.hit v.env.clientAt (clientKey agent v.req)
            (clientLimit s agent)).2 = m' at hafter ⊢
          rw [dispatch_perClient v.env w m, dispatch_perClient v.env w m']
          exact ⟨rfl, rfl, hafter⟩

end Step

/-! ## Whose keys are guarded -/

/-- A caller's key names the agent and the caller, if no agent id has a bar in it. -/
theorem clientKey_inj {a b : Agent} (ha : '|' ∉ a.id.toList) (hb : '|' ∉ b.id.toList)
    {ip ip' : String} (h : b.id ++ "|" ++ ip = a.id ++ "|" ++ ip') : b.id = a.id ∧ ip = ip' := by
  have hlist : b.id.toList ++ '|' :: ip.toList = a.id.toList ++ '|' :: ip'.toList := by
    have := congrArg String.toList h
    simpa [String.toList_append, List.append_assoc] using this
  have hcut : ∀ {l : List Char} (r : List Char), '|' ∉ l →
      (l ++ '|' :: r).takeWhile (· ≠ '|') = l := by
    intro l r hl
    rw [List.takeWhile_append_of_pos, List.takeWhile_cons_of_neg (by simp), List.append_nil]
    intro c hc
    rw [decide_eq_true_iff]
    rintro rfl
    exact hl hc
  have hids : b.id.toList = a.id.toList := by
    rw [← hcut ip.toList hb, hlist, hcut ip'.toList ha]
  rw [hids] at hlist
  exact ⟨String.toList_inj.mp hids, String.toList_inj.mp (by simpa using hlist)⟩

section Visits

variable {d : Deps} {s : Settings} {a : Agent} {S : Set String} {db : Db}

/-- The ids of the agents, as `_new_agent_id` draws them, have no bar. -/
def PlainIds (db : Db) : Prop := ∀ b ∈ db.agents.rows, '|' ∉ b.id.toList

/-- A request from `S` or to another agent has a guarded key. -/
theorem guarded_of_other (hids : PlainIds db) (ha : a ∈ db.agents.rows) {req : RouteRequest}
    (h : caller req ∈ S ∨ ¬ SentTo d s db a req) {agent : Agent} {owner : User}
    (hfound : agentAndOwner d s db req.host = some (agent, owner)) :
    Guarded a S (clientKey agent req) := by
  have hmem := (agentAndOwner_some hfound).1
  intro ip hip heq
  obtain ⟨hid, hcaller⟩ := clientKey_inj (hids a ha) (hids agent hmem) heq
  obtain rfl : agent = a := db.agents.eq_of_key_eq hmem ha hid
  rcases h with hin | hother
  · exact hip (hcaller ▸ hin)
  · exact hother ⟨owner, hfound⟩

/-- What is assumed of a visit: an inserted one is a stranger's, and a real caller of `a` comes
from `S`. -/
structure Fits (d : Deps) (s : Settings) (db : Db) (a : Agent) (S : Set String) (v : Visit) :
    Prop where
  stranger : v.inserted = true → FromStranger d s db a S v.req
  realCaller : v.inserted = false → SentTo d s db a v.req → carriesKey d db a v.req = true →
    caller v.req ∈ S

theorem visitStep_db (w : World) (v : Visit) : (visitStep d s w v).db = w.db :=
  (route_frame d s v.env w v.req).1

/-- **The two runs stay alike**, from the last visit on. -/
theorem alike_afterVisits (hids : PlainIds db) (ha : a ∈ db.agents.rows)
    (hpriv : a.access = .priv) :
    ∀ (vs : List Visit) {t u : ℚ} {w w' : World}, w.db = db → Alike a S t w w' → t ≤ u →
      (∀ v ∈ vs, t ≤ v.env.clientAt ∧ v.env.clientAt ≤ u) →
      vs.Pairwise (fun v v' => v.env.clientAt ≤ v'.env.clientAt) → (∀ v ∈ vs, Fits d s db a S v) →
      Alike a S u (afterVisits d s w vs) (afterVisits d s w' (original vs)) := by
  intro vs
  induction vs with
  | nil =>
    intro t u w w' _ h htu _ _ _
    exact h.later htu
  | cons v vs ih =>
    intro t u w w' hdb h _ htimes hsorted hfits
    obtain ⟨htv, hvu⟩ := htimes v List.mem_cons_self
    have hfit := hfits v List.mem_cons_self
    rw [List.pairwise_cons] at hsorted
    have htimes' : ∀ x ∈ vs, v.env.clientAt ≤ x.env.clientAt ∧ x.env.clientAt ≤ u := fun x hx =>
      ⟨hsorted.1 x hx, (htimes x (List.mem_cons_of_mem v hx)).2⟩
    have hfits' : ∀ x ∈ vs, Fits d s db a S x := fun x hx => hfits x (List.mem_cons_of_mem v hx)
    have hdb' : (visitStep d s w v).db = db := (visitStep_db w v).trans hdb
    have hw'db : w'.db = db := by
      rw [h.same]
      exact hdb
    cases hins : v.inserted with
    | true =>
      have hnext : original (v :: vs) = original vs := by simp [original, hins]
      rw [hnext]
      exact ih hdb'
        (h.stranger hpriv htv (hdb ▸ hfit.stranger hins)) hvu htimes' hsorted.2 hfits'
    | false =>
      have hnext : original (v :: vs) = v :: original vs := by simp [original, hins]
      rw [hnext]
      refine ih hdb' ?_ hvu htimes' hsorted.2 hfits'
      by_cases hother : caller v.req ∈ S ∨ ¬ SentTo d s db a v.req
      · subst hdb
        exact (h.guarded htv fun _ _ => guarded_of_other hids ha hother).2
      · -- A stranger of the original sequence: its answer may differ, what it leaves does not.
        rw [not_or, not_not] at hother
        have hkey : carriesKey d db a v.req = false := by
          by_contra hk
          exact hother.1 (hfit.realCaller hins hother.2 (by simpa using hk))
        have hstranger : FromStranger d s db a S v.req := ⟨hother.2, hkey, hother.1⟩
        have hleft := h.stranger hpriv htv (hdb ▸ hstranger)
        exact (hleft.symm.stranger hpriv le_rfl (hw'db ▸ hstranger)).symm

/-- **Strangers spend nothing of a private agent's allowance.** Into a sequence of requests with a
clock that does not run backwards, any number of requests to a private agent are inserted that carry
no valid key of it and come from addresses outside `S`; the callers of the sequence that do carry
one come from `S`. Then no answer to a request from `S` or to another agent changes, nor do the
counts of `per_agent` or the pending requests. -/
theorem strangers_spend_nothing (d : Deps) (s : Settings) (w : World) (a : Agent)
    (S : Set String) (vs : List Visit) (hids : PlainIds w.db) (ha : a ∈ w.db.agents.rows)
    (hpriv : a.access = .priv)
    (hclock : vs.Pairwise fun v v' => v.env.clientAt ≤ v'.env.clientAt)
    (hpast : ∀ v ∈ vs, w.perClient.window ≤ w.perClient.windowAt v.env.clientAt)
    (hfits : ∀ v ∈ vs, Fits d s w.db a S v) : Unaffected d s w a S vs := by
  -- Up to any of its visits the sequence leaves the two gateways alike.
  have hupTo : ∀ before later, vs = before ++ later → ∀ u, (∀ v ∈ before, v.env.clientAt ≤ u) →
      (before = [] → w.perClient.window ≤ w.perClient.windowAt u) →
      Alike a S u (afterVisits d s w before) (afterVisits d s w (original before)) := by
    rintro before later rfl u hu hnil
    cases before with
    | nil => exact ⟨rfl, .refl (hnil rfl)⟩
    | cons v vs' =>
      have hfirst : ∀ x ∈ v :: vs', v.env.clientAt ≤ x.env.clientAt := by
        intro x hx
        rcases List.mem_cons.mp hx with rfl | hx
        · exact le_rfl
        · exact (List.pairwise_cons.mp (List.pairwise_append.mp hclock).1).1 x hx
      refine alike_afterVisits hids ha hpriv (v :: vs') rfl
        ⟨rfl, .refl (hpast v (by simp))⟩ (hu v List.mem_cons_self)
        (fun x hx => ⟨hfirst x hx, hu x hx⟩) (List.pairwise_append.mp hclock).1
        fun x hx => hfits x (List.mem_append_left _ hx)
  have hend : (afterVisits d s w vs).perAgent = (afterVisits d s w (original vs)).perAgent ∧
      (afterVisits d s w vs).pending = (afterVisits d s w (original vs)).pending := by
    rcases List.eq_nil_or_concat' vs with rfl | ⟨before, v, rfl⟩
    · exact ⟨rfl, rfl⟩
    · have hlast : ∀ x ∈ before ++ [v], x.env.clientAt ≤ v.env.clientAt := by
        intro x hx
        rcases List.mem_append.mp hx with hx | hx
        · exact (List.pairwise_append.mp hclock).2.2 x hx v (by simp)
        · rw [List.mem_singleton.mp hx]
      have halike := hupTo (before ++ [v]) [] (by simp) v.env.clientAt hlast (by simp)
      rw [halike.same]
      exact ⟨rfl, rfl⟩
  refine ⟨hend.1, hend.2, ?_⟩
  rintro before v later rfl hins hother
  have halike := hupTo before (v :: later) rfl v.env.clientAt
    (fun x hx => (List.pairwise_append.mp hclock).2.2 x hx v List.mem_cons_self)
    fun _ => hpast v (by simp)
  refine (halike.guarded le_rfl fun agent owner hfound => ?_).1
  have hdb : (afterVisits d s w before).db = w.db :=
    run_preserves (P := fun x : World => x.db = w.db)
      (fun x y hx => (visitStep_db x y).trans hx) before rfl
  rw [hdb] at hfound
  exact guarded_of_other hids ha hother hfound

end Visits

/-! ## A stranger next door -/

/-- A private agent whose owner allows each caller one request a minute. -/
def limitedWorld : World :=
  (ingressRun keyedDeps edgeSettings freeWorld
    [createPrivate, .call .obliging (.update freeUser.id "a"
      { rateLimitRpm := some (some 1), inRange := by simp })]).world

/-- A visitor without a key. -/
def strangerVisit (clientIp : String) : Visit where
  req := { sampleVisit with clientIp := clientIp, authorization := "" }
  inserted := true

/-- The stranger comes first, then the visitor with the key. -/
def strangerFirst (clientIp : String) : List Visit :=
  [strangerVisit clientIp, { req := sampleVisit }]

theorem strangerFirst_clock (clientIp : String) :
    ((strangerFirst clientIp).Pairwise fun v v' => v.env.clientAt ≤ v'.env.clientAt) ∧
      ∀ v ∈ strangerFirst clientIp,
        limitedWorld.perClient.window ≤ limitedWorld.perClient.windowAt v.env.clientAt := by
  have hpast : limitedWorld.perClient.window ≤ limitedWorld.perClient.windowAt 0 := by
    decide +kernel
  refine ⟨by simp [strangerFirst, strangerVisit], fun v hv => ?_⟩
  simp only [strangerFirst, List.mem_cons, List.not_mem_nil, or_false] at hv
  rcases hv with rfl | rfl
  · exact hpast
  · exact hpast

/-- The agent, and what its two visitors present. -/
theorem limitedWorld_agent : PlainIds limitedWorld.db ∧ ∃ a ∈ limitedWorld.db.agents.rows,
    a.access = .priv ∧ SentTo keyedDeps edgeSettings limitedWorld.db a sampleVisit ∧
      isValidAccessKey keyedDeps limitedWorld.db a.id (bearerToken keyedDeps "") = false := by
  have hids : ∀ b ∈ limitedWorld.db.agents.rows, '|' ∉ b.id.toList := by decide +kernel
  have hrow : ∃ a ∈ limitedWorld.db.agents.rows, a.access = .priv ∧
      (agentAndOwner keyedDeps edgeSettings limitedWorld.db sampleVisit.host).map Prod.fst =
        some a ∧
      isValidAccessKey keyedDeps limitedWorld.db a.id (bearerToken keyedDeps "") = false := by
    decide +kernel
  obtain ⟨a, ha, hpriv, hsent, hkey⟩ := hrow
  obtain ⟨⟨_, owner⟩, hfound, rfl⟩ := Option.map_eq_some_iff.mp hsent
  exact ⟨hids, _, ha, hpriv, ⟨owner, hfound⟩, hkey⟩

/-- A stranger from elsewhere changes nothing. -/
theorem stranger_from_elsewhere : ∃ a ∈ limitedWorld.db.agents.rows,
    Unaffected keyedDeps edgeSettings limitedWorld a {"203.0.113.9"}
      (strangerFirst "198.51.100.7") := by
  obtain ⟨hids, a, ha, hpriv, hsent, hkey⟩ := limitedWorld_agent
  obtain ⟨hclock, hpast⟩ := strangerFirst_clock "198.51.100.7"
  refine ⟨a, ha, strangers_spend_nothing keyedDeps edgeSettings limitedWorld a _ _ hids ha hpriv
    hclock hpast fun v hv => ?_⟩
  simp only [strangerFirst, List.mem_cons, List.not_mem_nil, or_false] at hv
  rcases hv with rfl | rfl
  · exact ⟨fun _ => ⟨hsent, hkey, by decide⟩, fun h => absurd h (by decide)⟩
  · exact ⟨fun h => absurd h (by decide), fun _ _ _ => by decide⟩

/-- **A stranger at a real caller's address spends its allowance**: the request with the key is
refused, and neither counted for the agent nor pending, though the stranger is outside `S`. -/
theorem stranger_at_the_same_address : ∃ a ∈ limitedWorld.db.agents.rows,
    a.access = .priv ∧ PlainIds limitedWorld.db ∧
      ((strangerFirst "203.0.113.9").Pairwise fun v v' => v.env.clientAt ≤ v'.env.clientAt) ∧
      (∀ v ∈ strangerFirst "203.0.113.9",
        limitedWorld.perClient.window ≤ limitedWorld.perClient.windowAt v.env.clientAt) ∧
      (∀ v ∈ strangerFirst "203.0.113.9", v.inserted = true →
        FromStranger keyedDeps edgeSettings limitedWorld.db a {"198.51.100.7"} v.req) ∧
      ¬ Unaffected keyedDeps edgeSettings limitedWorld a {"198.51.100.7"}
        (strangerFirst "203.0.113.9") := by
  obtain ⟨hids, a, ha, hpriv, hsent, hkey⟩ := limitedWorld_agent
  obtain ⟨hclock, hpast⟩ := strangerFirst_clock "203.0.113.9"
  refine ⟨a, ha, hpriv, hids, hclock, hpast, fun v hv hins => ?_, fun h => ?_⟩
  · simp only [strangerFirst, List.mem_cons, List.not_mem_nil, or_false] at hv
    rcases hv with rfl | rfl
    · exact ⟨hsent, hkey, by decide⟩
    · exact absurd hins (by decide)
  · have hpending : (afterVisits keyedDeps edgeSettings limitedWorld
        (strangerFirst "203.0.113.9")).pending ≠ (afterVisits keyedDeps edgeSettings limitedWorld
        (original (strangerFirst "203.0.113.9"))).pending := by decide +kernel
    exact hpending h.2.1

end Gateway
