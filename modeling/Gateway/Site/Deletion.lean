import Gateway.Site.Frame
import Gateway.Site.Statements

/-!
# Deleted agents stay deleted

A deletion removes the containers, the row and, with the row, its access keys; usage already
recorded stays. Whatever requests and ticks follow it, those of its old owner included, nothing
brings the agent back, because its id is not drawn again.

* `served_ne_of_gone`, `readings_ne_of_gone`: an agent without a row has no visitors and no usage.
* **`deletion_final`**: after a deletion was answered, no run of later steps has the row or a key of
  it, starts a container for it, lets a visitor through to it or meters anything for it.

Out of scope: calls that overlap the deletion. A tick or a deploy that has loaded the row before may
start a container after the answer, and a tick may still meter the agent (`Agents/Orphans.lean`,
`Agents/TickRace.lean`).
-/

namespace Gateway

open Lib

section Steps

variable {d : GatewayDeps} {cfg : GatewaySettings} {site : Site} {id : AgentId}
  {cs : List Container}

/-- A deletion that is answered leaves no row. -/
theorem gone_of_deleted {m : SiteSurroundings} {creds : Option String}
    (h : (siteRequest d.toSiteDeps cfg.toSiteSettings m site creds
      (.agents (.delete id))).1.isOk = true) :
    (gatewayStep d cfg site (.request m creds (.agents (.delete id)))).world.db.agents.find? id =
      none := by
  simp only [gatewayStep]
  unfold siteRequest at h ⊢
  cases hguard : (SiteRequest.agents (.delete id)).guard.enforce d.toAuthDeps cfg.auth site m.now
    creds with
  | error e =>
    rw [hguard] at h
    cases h
  | ok p =>
    rw [hguard] at h
    have hanswer : (deleteAgent m.runtime site.world p.userId id).1.isOk = true := by
      cases hres : (deleteAgent m.runtime site.world p.userId id).1 with
      | ok _ => rfl
      | error e =>
        simp only [siteHandler, agentsHandler, hres] at h
        cases h
    show (deleteAgent m.runtime site.world p.userId id).2.db.agents.find? id = none
    rcases deleteAgent_cases m.runtime site.world p.userId id with
      ⟨e, he⟩ | ⟨old, left, hold, ⟨e, -, he, -⟩ | ⟨-, -, hrm⟩⟩
    · rw [he] at hanswer
      cases hanswer
    · rw [he] at hanswer
      cases hanswer
    · obtain ⟨-, -, rfl⟩ := Db.ownedAgent?_eq_some hold
      rw [hrm.agents]
      exact Table.find?_erase_self _ _

/-- No visitor is let through to an agent without a row. -/
theorem served_ne_of_gone (h : Standing id none cs site.world) (i : GatewayStep) :
    ∀ v ∈ served d cfg site i, v.agentId ≠ id := by
  intro v hv
  cases i with
  | visit env req =>
    rcases served_visit d cfg site env req with hnone | ⟨agent, owner, hadm, hone⟩
    · rw [hnone] at hv
      cases hv
    · rw [hone] at hv
      obtain rfl := List.mem_singleton.mp hv
      have hmem := (agentAndOwner_some hadm.found).1
      exact (h.ne_of_found (Table.find?_of_mem hmem)).symm
  | _ => cases hv

/-- Nothing is metered for an agent without a row. -/
theorem readings_ne_of_gone (h : Standing id none cs site.world) (i : GatewayStep) :
    ∀ x ∈ contributions (stepReadings d cfg site i), x.agent.id ≠ id := by
  intro x hx
  obtain ⟨⟨a, ha, hid, -⟩, -⟩ := mem_stepReadings hx
  rw [hid]
  exact (h.ne_of_found (Table.find?_of_mem ha)).symm

/-- **Deletion is final.** Once a deletion has been answered, in every serial run of later requests
and ticks in which the id is not drawn again: the agent has no row and no access keys, the
containers under its id are what the deletion left, no visitor is let through to it, and nothing is
metered for it. -/
theorem deletion_final {m : SiteSurroundings} {creds : Option String} {steps : List GatewayStep}
    (hok : Integrity site)
    (hdeleted : (siteRequest d.toSiteDeps cfg.toSiteSettings m site creds
      (.agents (.delete id))).1.isOk = true)
    (hdraws : ∀ i ∈ steps, i.drawsId ≠ some id) :
    let deleted := gatewayStep d cfg site (.request m creds (.agents (.delete id)))
    let after := run (gatewayStep d cfg) deleted steps
    after.world.db.agents.find? id = none ∧
      (∀ key ∈ after.world.db.accessKeys.rows, key.agentId ≠ id) ∧
      after.world.containers id = deleted.world.containers id ∧
      (∀ v ∈ emitted (gatewayStep d cfg) (served d cfg) deleted steps, v.agentId ≠ id) ∧
      ∀ x ∈ metered d cfg deleted steps, x.agent.id ≠ id := by
  intro deleted after
  have hstart : Standing id none (deleted.world.containers id) deleted.world :=
    ⟨gone_of_deleted hdeleted, rfl⟩
  have hnever : Along (gatewayStep d cfg) (fun _ i => i.drawsId ≠ some id) deleted steps :=
    along_of_forall steps deleted hdraws
  have hstep : ∀ site (i : GatewayStep), Standing id none (deleted.world.containers id) site.world →
      i.drawsId ≠ some id →
        Standing id none (deleted.world.containers id) (gatewayStep d cfg site i).world :=
    fun _ i h hi => gatewayStep_stands i (fun hid => absurd hid hi) (fun _ => rfl)
      (by rintro a ⟨⟩) h
  have hgone := run_inv
    (P := fun site => Standing id none (deleted.world.containers id) site.world)
    hstep steps hstart hnever
  have halong := along_inv
    (P := fun site => Standing id none (deleted.world.containers id) site.world)
    hstep steps hstart hnever
  have hintact : Integrity after := by
    refine run_preserves (P := Integrity) (fun _ i h => h.step i) steps ?_
    exact hok.step _
  refine ⟨hgone.row, fun key hkey hid => ?_, hgone.containers,
    forall_emitted (fun _ i h => served_ne_of_gone h i) steps halong,
    forall_emitted (fun _ i h => readings_ne_of_gone h i) steps halong⟩
  -- A key of the agent would refer to a row that is not there.
  obtain ⟨agent, hagent⟩ := hintact.agents.keys key hkey
  rw [hid] at hagent
  cases hagent.symm.trans hgone.row

end Steps

/-- The owner deletes the agent, and then deploys it. -/
theorem deletion_final_deploy :
    (run (gatewayStep .transparent {})
      (gatewayStep .transparent {} ownerWithAgent
        (.request quietSurroundings (some "agnt_k") (.agents (.delete "a"))))
      [.request quietSurroundings (some "agnt_k") (.agents (.deploy "a" none)),
        .tick .obliging none 0 false]).world.db.agents.find? "a" = none :=
  (deletion_final integrity_ownerWithAgent (by decide +kernel) (by simp [GatewayStep.drawsId])).1

end Gateway
