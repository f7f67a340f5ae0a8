import Gateway.Agents.Scheduler
import Gateway.Lib.Trace

/-!
# Serial runs of the agent service

A run is a list of steps, each a complete call of the service or a complete tick. A step carries
the `Runtime` it meets and whatever else the environment chooses: new ids and slug suffixes, the
clock, whether the flush of a tick fails. What users send is what the schemas accept.

`CallEffect` gathers what the operations can do (`Effects.lean`) into one relation on worlds, and
`Call.exec_effect` says that it covers every call: an invariant of runs is proved by cases on it.
-/

namespace Gateway

open Lib

/-- A call of the agent service. -/
inductive Call where
  | create (userId : UserId) (body : AgentConfigIn) (newId : AgentId) (suffix : List Char)
  | update (userId : UserId) (agentId : AgentId) (body : AgentUpdate)
  | deploy (userId : UserId) (agentId : AgentId) (deploy : Option AcceptedConfig)
  | scale (userId : UserId) (agentId : AgentId) (body : ScaleRequest)
  | delete (userId : UserId) (agentId : AgentId)

/-- The state a call leaves, whatever it answers. -/
def Call.exec (d : Deps) (rt : Runtime) (w : World) : Call → World
  | .create u body newId suffix => (createAgent d rt w u body newId suffix).2
  | .update u id body => (updateAgent w u id body).2
  | .deploy u id config => (deployAgent d rt w u id (config.map Subtype.val)).2
  | .scale u id body => (scaleAgent d rt w u id body.direction body.count).2
  | .delete u id => (deleteAgent rt w u id).2

/-- A call together with the runtime it meets. -/
abbrev RuntimeStep := Runtime × Call

/-- One call. -/
def callStep (d : Deps) (w : World) (s : RuntimeStep) : World := s.2.exec d s.1 w

/-- A step of the service: a call or a tick. -/
inductive ServiceStep where
  | call (rt : Runtime) (c : Call)
  | tick (rt : Runtime) (elapsed : Option ℚ) (now : Instant) (flushFails : Bool)

/-- The runtime a step meets. -/
def ServiceStep.runtime : ServiceStep → Runtime
  | .call rt _ => rt
  | .tick rt _ _ _ => rt

/-- One step of the service. -/
def serviceStep (d : Deps) (s : Settings) (w : World) : ServiceStep → World
  | .call rt c => c.exec d rt w
  | .tick rt elapsed now flushFails => (tick d s rt elapsed now flushFails w).2

/-! ## What a call can do -/

/-- What a call can do to the world: nothing, a rewrite of one row and its containers, the removal
of a row, or the insertion of one, which may be followed by its deploy. -/
inductive CallEffect (d : Deps) (rt : Runtime) (w : World) : Call → World → Prop
  | refused {c : Call} : CallEffect d rt w c w
  | updated {u : UserId} {id : AgentId} {body : AgentUpdate} {old : Agent} {access : AgentAccess}
      {rpm : Option Nat} {w' : World} (ho : w.db.ownedAgent? u id = some old)
      (h : Rewrites w w' old { old with access := access, rateLimitRpm := rpm }
        (w.containers id)) :
      CallEffect d rt w (.update u id body) w'
  | deployed {u : UserId} {id : AgentId} {deploy : Option AcceptedConfig} {old new : Agent}
      {cs : List Container} {w' : World} (ho : w.db.ownedAgent? u id = some old)
      (hq : deployQuota d w.db old (deploy.map Subtype.val) = .ok ())
      (heff : DeployEffect d rt old (deploy.map Subtype.val) (w.containers id) new cs)
      (h : Rewrites w w' old new cs) :
      CallEffect d rt w (.deploy u id deploy) w'
  | scaled {u : UserId} {id : AgentId} {body : ScaleRequest} {old new : Agent}
      {cs : List Container} {w' : World} (ho : w.db.ownedAgent? u id = some old)
      (hq : scaleQuota d w.db old body.direction body.count = .ok ())
      (heff : ScaleEffect rt old body.direction body.count (w.containers id) new cs)
      (h : Rewrites w w' old new cs) :
      CallEffect d rt w (.scale u id body) w'
  | removeFailed {u : UserId} {id : AgentId} {old : Agent} {e : CoreError}
      {left : List Container} {w' : World} (ho : w.db.ownedAgent? u id = some old)
      (hout : rt.remove id (w.containers id) = (.error e, left))
      (h : Rewrites w w' old old left) :
      CallEffect d rt w (.delete u id) w'
  | removed {u : UserId} {id : AgentId} {old : Agent} {left : List Container} {w' : World}
      (ho : w.db.ownedAgent? u id = some old)
      (hout : rt.remove id (w.containers id) = (.ok (), left)) (h : Removes w w' old left) :
      CallEffect d rt w (.delete u id) w'
  | created {u : UserId} {body : AgentConfigIn} {newId : AgentId} {suffix : List Char}
      {w₁ : World} (hq : createQuota d w.db u body = .ok ())
      (hins : Inserts w w₁ (newAgent d rt.draws u body newId suffix)) :
      CallEffect d rt w (.create u body newId suffix) w₁
  | createdDeployed {u : UserId} {body : AgentConfigIn} {newId : AgentId} {suffix : List Char}
      {w₁ w' : World} {new : Agent} {cs : List Container} (hdep : body.deploy.isSome)
      (hq : createQuota d w.db u body = .ok ())
      (hins : Inserts w w₁ (newAgent d rt.draws u body newId suffix))
      (hq₁ : deployQuota d w₁.db (newAgent d rt.draws u body newId suffix) none = .ok ())
      (heff : DeployEffect d rt (newAgent d rt.draws u body newId suffix) none
        (w.containers newId) new cs)
      (h : Rewrites w₁ w' (newAgent d rt.draws u body newId suffix) new cs) :
      CallEffect d rt w (.create u body newId suffix) w'

/-- **Everything a call can do.** -/
theorem Call.exec_effect (d : Deps) (rt : Runtime) (w : World) (c : Call) :
    CallEffect d rt w c (c.exec d rt w) := by
  cases c with
  | create u body newId suffix =>
    show CallEffect d rt w _ (createAgent d rt w u body newId suffix).2
    rcases createAgent_cases d rt w u body newId suffix with h | ⟨w₁, hq, hins, h | ⟨hdep, h⟩⟩
    · rw [h]
      exact .refused
    · rw [h.2]
      exact .created hq hins
    · rw [h]
      rcases deployAgent_cases d rt w₁ u newId none with h | ⟨old, new, cs, ho, hq₁, heff, hrw⟩
      · rw [h]
        exact .created hq hins
      · have hold : newAgent d rt.draws u body newId suffix = old := by
          have hself := Table.find?_insert?_self hins.agents
          rw [newAgent_id, (Db.ownedAgent?_eq_some ho).1] at hself
          exact (Option.some.inj hself).symm
        subst hold
        rw [hins.containers] at heff
        exact .createdDeployed hdep hq hins hq₁ heff hrw
  | update u id body =>
    show CallEffect d rt w _ (updateAgent w u id body).2
    rcases updateAgent_cases w u id body with h | ⟨old, access, rpm, ho, h⟩
    · rw [h]
      exact .refused
    · exact .updated ho h
  | deploy u id deploy =>
    show CallEffect d rt w _ (deployAgent d rt w u id (deploy.map Subtype.val)).2
    rcases deployAgent_cases d rt w u id (deploy.map Subtype.val) with
      h | ⟨old, new, cs, ho, hq, heff, h⟩
    · rw [h]
      exact .refused
    · exact .deployed ho hq heff h
  | scale u id body =>
    show CallEffect d rt w _ (scaleAgent d rt w u id body.direction body.count).2
    rcases scaleAgent_cases d rt w u id body.direction body.count with
      h | ⟨old, new, cs, ho, hq, heff, h⟩
    · rw [h]
      exact .refused
    · exact .scaled ho hq heff h
  | delete u id =>
    show CallEffect d rt w _ (deleteAgent rt w u id).2
    rcases deleteAgent_cases rt w u id with
      ⟨e, h⟩ | ⟨old, left, ho, ⟨e, hout, -, h⟩ | ⟨hout, -, h⟩⟩
    · rw [h]
      exact .refused
    · exact .removeFailed ho hout h
    · exact .removed ho hout h

/-! ## Calls to run the model with -/

/-- The config `{"replicas": n}` with an image, as the schema accepts it. -/
def imageConfig (n : Nat) (h : 1 ≤ n ∧ n ≤ 100) : AcceptedConfig where
  val := { replicas := n, image := some "nginx" }
  property := by
    refine ⟨{ replicas := some n, image := some "nginx" }, ?_⟩
    have hrange : checkReplicas (n : Int) = [] :=
      checkRange_eq_nil.mpr ⟨by exact_mod_cast h.1, by exact_mod_cast h.2⟩
    simp [DeployBody.validate, DeployBody.errors, DeployBody.errorsWith, DeployBody.maxErrors,
      DeployBody.build, hrange]

def oneReplica : AcceptedConfig := imageConfig 1 (by decide)

def fourReplicas : AcceptedConfig := imageConfig 4 (by decide)

/-- Create an agent and deploy it with `n` replicas. -/
def createWith (id : AgentId) (suffix : String) (n : Nat) (h : 1 ≤ n ∧ n ≤ 100) : Call :=
  .create freeUser.id { name := id, deploy := some (imageConfig n h) } id suffix.toList

def scaleBy (id : AgentId) (dir : ScaleDirection) : Call :=
  .scale freeUser.id id { direction := dir, count := 1, inRange := by decide }

/-- A running agent of the free account with one replica. -/
def oneReplicaAgent (id : AgentId) (autoScale : Bool) : Agent where
  id := id
  userId := freeUser.id
  slug := id
  name := id
  status := .running
  replicas := 1
  autoScale := autoScale

/-- The rows of two such agents. -/
def twoRunning (first second : Bool) : Table Agent Agent.id where
  rows := [oneReplicaAgent "a" first, oneReplicaAgent "b" second]
  nodup := by simp [oneReplicaAgent]

end Gateway
