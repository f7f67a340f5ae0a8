import Gateway.Site.Lifecycle

/-!
# What a step leaves alone

A step of the gateway writes the row of the agent it is about, the row it makes, or the rows a tick
has loaded. An id without a row, and a row that is none of these, stand as they are with their
containers.

* `Standing id o cs`: under the id the table holds `o`, a row or none, and its containers are `cs`.
* `Call.exec_stands`, `gatewayStep_stands`: what neither is drawn nor addressed nor loaded stands.
-/

namespace Gateway

open Lib

/-! ## Whom a step is about -/

/-- The id a call draws for a new agent. -/
def Call.drawsId : Call → Option AgentId
  | .create _ _ newId _ => some newId
  | _ => none

/-- The agent a call is about, if it is not a new one. -/
def Call.target : Call → Option AgentId
  | .create .. => none
  | .update _ id _ => some id
  | .deploy _ id _ => some id
  | .scale _ id _ => some id
  | .delete _ id => some id

/-- The id a step draws for a new agent. -/
def GatewayStep.drawsId : GatewayStep → Option AgentId
  | .request _ _ (.agents (.create _ draws)) => some draws.newId
  | _ => none

/-- The agent a step calls the service about. -/
def GatewayStep.target : GatewayStep → Option AgentId
  | .request _ _ (.agents (.update id _)) => some id
  | .request _ _ (.agents (.deploy id _)) => some id
  | .request _ _ (.agents (.scale id _)) => some id
  | .request _ _ (.agents (.delete id)) => some id
  | _ => none

/-- A request draws the id its call draws and is about the agent its call is about. -/
theorem ids_of_call (m : SiteSurroundings) (creds : Option String) {request : AgentsRequest}
    {u : UserId} {c : Call} (h : request.call? u = some c) :
    (GatewayStep.request m creds (.agents request)).drawsId = c.drawsId ∧
      (GatewayStep.request m creds (.agents request)).target = c.target := by
  cases request with
  | create body draws =>
    obtain rfl := Option.some.inj h
    exact ⟨rfl, rfl⟩
  | update agentId body =>
    obtain rfl := Option.some.inj h
    exact ⟨rfl, rfl⟩
  | delete agentId =>
    obtain rfl := Option.some.inj h
    exact ⟨rfl, rfl⟩
  | deploy agentId body =>
    obtain rfl := Option.some.inj h
    exact ⟨rfl, rfl⟩
  | scale agentId body =>
    obtain rfl := Option.some.inj h
    exact ⟨rfl, rfl⟩
  | _ => cases h

/-! ## Standing rows -/

/-- Under the id the table holds `o`, and its containers are `cs`. -/
structure Standing (id : AgentId) (o : Option Agent) (cs : List Container) (w : World) : Prop where
  row : w.db.agents.find? id = o
  containers : w.containers id = cs

section Calls

variable {w w' : World} {id : AgentId} {o : Option Agent} {cs : List Container}

theorem Standing.of_same (h : Standing id o cs w)
    (hsame : KeepsAgents w w') : Standing id o cs w' := by
  refine ⟨?_, ?_⟩
  · rw [hsame.agents]
    exact h.row
  · rw [hsame.containers]
    exact h.containers

/-- An id without a row is not that of a row. -/
theorem Standing.ne_of_found (h : Standing id none cs w) {a : Agent}
    (ha : w.db.agents.find? a.id = some a) : id ≠ a.id := by
  rintro rfl
  cases h.row.symm.trans ha

theorem Standing.rewrites {old new : Agent} {cs' : List Container} (h : Standing id o cs w)
    (hrw : Rewrites w w' old new cs') (hne : id ≠ old.id) : Standing id o cs w' := by
  refine ⟨?_, (hrw.containers_of_ne hne).trans h.containers⟩
  rw [hrw.agents, Table.find?_put_of_ne _ (by rw [hrw.id]; exact hne)]
  exact h.row

theorem Standing.inserts {new : Agent} (h : Standing id o cs w) (hins : Inserts w w' new)
    (hne : id ≠ new.id) : Standing id o cs w' := by
  refine ⟨(Table.find?_insert?_of_ne hins.agents hne).trans h.row, ?_⟩
  rw [hins.containers]
  exact h.containers

theorem Standing.removes {old : Agent} {left : List Container} (h : Standing id o cs w)
    (hrm : Removes w w' old left) (hne : id ≠ old.id) : Standing id o cs w' := by
  refine ⟨?_, ?_⟩
  · rw [hrm.agents, Table.find?_erase_of_ne _ hne]
    exact h.row
  · rw [hrm.containers, if_neg hne]
    exact h.containers

/-- **A call** neither fills an id it does not draw nor touches a row it is not about. -/
theorem Call.exec_stands (d : Deps) (rt : Runtime) (c : Call)
    (hdraws : c.drawsId = some id → o ≠ none) (htarget : c.target = some id → o = none)
    (h : Standing id o cs w) : Standing id o cs (c.exec d rt w) := by
  have heffect := c.exec_effect d rt w
  generalize c.exec d rt w = w' at heffect
  -- The row a call finds is that of the agent it is about.
  have hother : ∀ {u : UserId} {id' : AgentId} {old : Agent}, c.target = some id' →
      w.db.ownedAgent? u id' = some old → id ≠ old.id := by
    rintro u id' old habout ho rfl
    obtain ⟨hfound, -, rfl⟩ := Db.ownedAgent?_eq_some ho
    cases (htarget habout).symm.trans (h.row.symm.trans hfound)
  -- The id of a new row was free.
  have hfree : ∀ {new : Agent} {w₁ : World}, c.drawsId = some new.id → Inserts w w₁ new →
      id ≠ new.id := by
    rintro new w₁ hid hins rfl
    cases ho : o with
    | none => exact hdraws hid ho
    | some a =>
      have hrow := h.row.trans ho
      exact hins.fresh a (Table.mem_of_find? hrow) (Table.key_of_find? hrow)
  cases heffect with
  | refused => exact h
  | updated ho hrw => exact h.rewrites hrw (hother rfl ho)
  | deployed ho _ _ hrw => exact h.rewrites hrw (hother rfl ho)
  | scaled ho _ _ hrw => exact h.rewrites hrw (hother rfl ho)
  | removeFailed ho _ hrw => exact h.rewrites hrw (hother rfl ho)
  | removed ho _ hrm => exact h.removes hrm (hother rfl ho)
  | created _ hins => exact h.inserts hins (hfree (by rw [newAgent_id]; rfl) hins)
  | createdDeployed _ _ hins _ _ hrw =>
    have hne := hfree (by rw [newAgent_id]; rfl) hins
    exact (h.inserts hins hne).rewrites hrw hne

end Calls

section Steps

variable {d : GatewayDeps} {cfg : GatewaySettings} {site : Site} {id : AgentId}
  {o : Option Agent} {cs : List Container}

/-- **A step** leaves an id alone that it does not draw, that it is not about if it has a row, and
whose row a tick does not load. -/
theorem gatewayStep_stands (i : GatewayStep) (hdraws : i.drawsId = some id → o ≠ none)
    (htarget : i.target = some id → o = none) (hrest : ∀ a ∈ o, a.status ∉ tickStatuses)
    (h : Standing id o cs site.world) : Standing id o cs (gatewayStep d cfg site i).world := by
  have hstep := gatewayStep_agents d cfg site i
  generalize (gatewayStep d cfg site i).world = w' at hstep
  cases hstep with
  | kept hsame hno => exact h.of_same hsame
  | @called m creds request p c _ hguard hcall hsame =>
    obtain ⟨hid, habout⟩ := ids_of_call m creds hcall
    rw [hid] at hdraws
    rw [habout] at htarget
    exact (c.exec_stands d.toDeps m.runtime hdraws htarget h).of_same hsame
  | @ticked rt elapsed now flushFails =>
    refine tick_inv (P := Standing id o cs) (fun h => ⟨?_, ?_⟩)
      (fun _ _ old _ _ hold hmid _ _ hrw => hmid.rewrites hrw ?_) h
    · rw [flushRequests_agents]
      exact h.row
    · rw [flushRequests_containers]
      exact h.containers
    · rintro rfl
      have hloaded := hrest old (h.row.symm.trans (find?_of_loaded hold))
      exact hloaded (by simpa using (List.mem_filter.mp hold).2)

/-- A row that was not there has the id the step draws. -/
theorem drawsId_of_new {i : GatewayStep} {b : Agent}
    (hb : (gatewayStep d cfg site i).world.db.agents.find? b.id = some b)
    (hnew : site.world.db.agents.find? b.id = none) : i.drawsId = some b.id := by
  by_contra hne
  have hstands : Standing b.id none (site.world.containers b.id) (gatewayStep d cfg site i).world :=
    gatewayStep_stands i (fun h => absurd h hne) (fun _ => rfl) (by rintro a ⟨⟩) ⟨hnew, rfl⟩
  exact hstands.ne_of_found hb rfl

end Steps

end Gateway
