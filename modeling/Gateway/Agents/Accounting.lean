import Gateway.Agents.System

/-!
# Live containers and the rows that account for them

Quota, metering and the health check look at agents in an active status only; they are right as
long as no other agent holds containers. `Accounted` says so of a state.

The paths that leave the active statuses do not look at the containers: a deploy that fails, a
scale that fails with one of the two caught errors, and a tick that sees no containers or three
failures in a row set `failed`, `stopped` or `crashed` whatever is still running. `Settles` is the
condition that no step of a run does that to an agent that holds containers; everything else keeps
the rows in step with the runtime, also the refusals, the error `scale_agent` does not catch and
the removal that fails.

* `AccountedInv` is the invariant, with a step lemma per effect.
* **`accounted_run`**: along every run of steps that settle, every container is accounted for.
* **`failedScale_unaccounted`**: a refused scale up leaves two running containers nobody counts.
-/

namespace Gateway

open Lib

/-- Every container belongs to a stored agent in an active status: `current_usage` counts it and
the next tick loads it. -/
def Accounted (w : World) : Prop :=
  ∀ id, w.containers id ≠ [] → ∃ a, w.db.agents.find? id = some a ∧ a.status ∈ activeStatuses ∧
    a ∈ activeAgents w.db a.userId none ∧ a ∈ loadedAgents w.db

/-- The condition on a step: it does not give up an agent that holds containers. A deploy that
gets as far as starting containers succeeds, a scale raises neither of the errors that are caught,
and a health report shows containers and is not failing. -/
def Settles (d : Deps) (w : World) : ServiceStep → Prop
  | .call rt (.deploy u id config) => ∀ a ∈ w.db.ownedAgent? u id, w.containers id ≠ [] →
      deployQuota d w.db a (config.map Subtype.val) = .ok () →
      needsBuild (deployedRow d rt.draws a (config.map Subtype.val)) = false →
      ∀ msg left, startContainers d rt (deployedRow d rt.draws a (config.map Subtype.val))
        (w.containers id) ≠ (.error msg, left)
  | .call rt (.scale u id body) => ∀ a ∈ w.db.ownedAgent? u id, w.containers id ≠ [] →
      scaleQuota d w.db a body.direction body.count = .ok () →
      ∀ e, (rt.scale id body.direction body.count (w.containers id)).1 = .error e →
        ∃ msg, e = .other msg
  | .call _ _ => True
  | .tick rt _ _ _ => ∀ a ∈ loadedAgents w.db, w.containers a.id ≠ [] →
      ∀ health, rt.healthCheck a.id (w.containers a.id) = .ok health →
        health.liveReplicas ≠ 0 ∧ health.failing = false

/-! ## The invariant -/

/-- What holds between the steps of a run. -/
structure AccountedInv (w : World) : Prop where
  active : ∀ a ∈ w.db.agents.rows, w.containers a.id ≠ [] → a.status ∈ activeStatuses
  owned : ∀ id, w.db.agents.find? id = none → w.containers id = []

namespace AccountedInv

variable {d : Deps} {rt : Runtime} {w w' : World} {old new : Agent} {cs : List Container}

/-- The rewriting rule: only the rewritten agent has to be looked at. -/
theorem rewrites (hinv : AccountedInv w) (h : Rewrites w w' old new cs)
    (hnew : cs ≠ [] → new.status ∈ activeStatuses) : AccountedInv w' where
  active a ha hne := by
    rcases h.mem_rows ha with rfl | ⟨ha, hid⟩
    · rw [h.containers_self] at hne
      exact hnew hne
    · rw [h.containers_of_ne hid] at hne
      exact hinv.active a ha hne
  owned id hnone := by
    have hid : id ≠ old.id := by
      rintro rfl
      rw [← h.id, h.stored] at hnone
      exact absurd hnone (by simp)
    rw [h.agents, Table.find?_put_of_ne _ (by rw [h.id]; exact hid)] at hnone
    rw [h.containers_of_ne hid]
    exact hinv.owned id hnone

/-- A deploy ends in an active status, or the agent had and has no containers. -/
theorem deployed {deploy : Option DeployConfig} (hinv : AccountedInv w) (hrt : rt.Frames)
    (heff : DeployEffect d rt old deploy (w.containers old.id) new cs)
    (h : Rewrites w w' old new cs)
    (hsettles : w.containers old.id ≠ [] → needsBuild (deployedRow d rt.draws old deploy) = false →
      ∀ msg left, startContainers d rt (deployedRow d rt.draws old deploy) (w.containers old.id) ≠
        (.error msg, left)) :
    AccountedInv w' := by
  refine hinv.rewrites h fun hne => ?_
  cases heff with
  | buildRefused _ =>
    rw [deployedRow_status]
    exact hinv.active old (Table.mem_of_find? h.found) hne
  | failed hbuild hout =>
    have hleft : cs = w.containers old.id := by
      rcases startContainers_error hout with rfl | ⟨env, e, hdep⟩
      · rfl
      · have hframe := hrt.deploy_error _ _ e (congrArg Prod.fst hdep)
        rwa [hdep] at hframe
    exact absurd hout (hsettles (hleft ▸ hne) hbuild _ _)
  | running _ _ => exact List.mem_cons_self

/-- A scale that is not caught leaves `scaling`, one that succeeds leaves `running`. -/
theorem scaled {dir : ScaleDirection} {n : Nat} (hinv : AccountedInv w) (hrt : rt.Frames)
    (heff : ScaleEffect rt old dir n (w.containers old.id) new cs) (h : Rewrites w w' old new cs)
    (hsettles : w.containers old.id ≠ [] → ∀ e,
      (rt.scale old.id dir n (w.containers old.id)).1 = .error e → ∃ msg, e = .other msg) :
    AccountedInv w' := by
  refine hinv.rewrites h fun hne => ?_
  cases heff with
  | uncaught _ => exact List.mem_cons_of_mem _ List.mem_cons_self
  | @failed e _ hcaught hout =>
    have herr : (rt.scale old.id dir n (w.containers old.id)).1 = .error e :=
      congrArg Prod.fst hout
    have hframe := hrt.scale_error _ _ _ _ e herr
    rw [hout] at hframe
    obtain ⟨msg, hmsg⟩ := hsettles (hframe ▸ hne) e herr
    exact absurd hmsg (hcaught msg)
  | done _ => exact List.mem_cons_self

theorem inserted (hinv : AccountedInv w) (h : Inserts w w' new) : AccountedInv w' where
  active a ha hne := by
    rw [h.containers] at hne
    rcases h.mem_rows ha with rfl | ⟨ha, -⟩
    · exact absurd (hinv.owned _ (Table.find?_eq_none.mpr h.fresh)) hne
    · exact hinv.active a ha hne
  owned id hnone := by
    rw [h.containers]
    refine hinv.owned id ?_
    by_cases hid : id = new.id
    · rw [hid]
      exact Table.find?_eq_none.mpr h.fresh
    · rwa [Table.find?_insert?_of_ne h.agents hid] at hnone

theorem removed {left : List Container} (hinv : AccountedInv w) (h : Removes w w' old left)
    (hleft : left = []) : AccountedInv w' where
  active a ha hne := by
    rw [h.agents] at ha
    obtain ⟨ha, hid⟩ := Table.mem_erase.mp ha
    rw [h.containers, if_neg hid] at hne
    exact hinv.active a ha hne
  owned id hnone := by
    rw [h.containers]
    split_ifs with hid
    · exact hleft
    · refine hinv.owned id (Table.find?_eq_none.mpr fun a ha hk => ?_)
      rw [h.agents] at hnone
      exact Table.find?_eq_none.mp hnone a (Table.mem_erase.mpr ⟨ha, hk ▸ hid⟩) hk

/-- A turn that shows containers and no failure leaves an active status. -/
theorem turned (hinv : AccountedInv w) (heff : TickEffect rt old (w.containers old.id) new cs)
    (h : Rewrites w w' old new cs)
    (hsettles : w.containers old.id ≠ [] → ∀ health,
      rt.healthCheck old.id (w.containers old.id) = .ok health →
        health.liveReplicas ≠ 0 ∧ health.failing = false) : AccountedInv w' := by
  refine hinv.rewrites h fun hne => ?_
  cases heff with
  | unseen _ => exact hinv.active old (Table.mem_of_find? h.found) hne
  | seen hh =>
    obtain ⟨hlive, hok⟩ := hsettles hne _ hh
    show newStatus old.status _ ∈ activeStatuses
    unfold newStatus
    rw [if_neg hlive, if_neg (by rw [hok]; simp)]
    split_ifs
    · exact List.mem_cons_self
    · exact hinv.active old (Table.mem_of_find? h.found) hne
  | autoScaled _ hrun _ =>
    rw [hrun]
    exact List.mem_cons_self

/-- The two lists of active statuses are one. -/
theorem accounted (hinv : AccountedInv w) : Accounted w := by
  intro id hne
  cases hf : w.db.agents.find? id with
  | none => exact absurd (hinv.owned id hf) hne
  | some a =>
    have hmem := Table.mem_of_find? hf
    have hactive : a.status ∈ activeStatuses :=
      hinv.active a hmem (by rw [Table.key_of_find? hf]; exact hne)
    refine ⟨a, rfl, hactive, ?_, ?_⟩
    · exact List.mem_filter.mpr ⟨hmem, by simpa using hactive⟩
    · exact List.mem_filter.mpr ⟨hmem, decide_eq_true hactive⟩

end AccountedInv

/-! ## Runs -/

/-- **One step.** -/
theorem AccountedInv.step {d : Deps} {s : Settings} (w : World) (i : ServiceStep)
    (hinv : AccountedInv w) (hG : i.runtime.Frames ∧ Settles d w i) :
    AccountedInv (serviceStep d s w i) := by
  obtain ⟨hrt, hsettles⟩ := hG
  cases i with
  | call rt c =>
    show AccountedInv (c.exec d rt w)
    have heffect := Call.exec_effect d rt w c
    generalize c.exec d rt w = w' at heffect
    cases heffect with
    | refused => exact hinv
    | updated ho h =>
      obtain ⟨-, -, rfl⟩ := Db.ownedAgent?_eq_some ho
      have hactive := hinv.active _ (Table.mem_of_find? h.found)
      exact hinv.rewrites h hactive
    | deployed ho hq heff h =>
      obtain ⟨-, -, rfl⟩ := Db.ownedAgent?_eq_some ho
      exact hinv.deployed hrt heff h fun hne => hsettles _ ho hne hq
    | scaled ho hq heff h =>
      obtain ⟨-, -, rfl⟩ := Db.ownedAgent?_eq_some ho
      exact hinv.scaled hrt heff h fun hne => hsettles _ ho hne hq
    | removeFailed ho hout h =>
      obtain ⟨-, -, rfl⟩ := Db.ownedAgent?_eq_some ho
      refine hinv.rewrites h fun hne => hinv.active _ (Table.mem_of_find? h.found) ?_
      have hframe := hrt.remove_error _ _ _ (congrArg Prod.fst hout)
      rw [show (ServiceStep.call rt _).runtime = rt from rfl, hout] at hframe
      exact hframe ▸ hne
    | removed ho hout h =>
      obtain ⟨-, -, rfl⟩ := Db.ownedAgent?_eq_some ho
      have hframe := hrt.remove_ok _ _ (congrArg Prod.fst hout)
      rw [show (ServiceStep.call rt _).runtime = rt from rfl, hout] at hframe
      exact hinv.removed h hframe
    | created hq hins => exact hinv.inserted hins
    | @createdDeployed u body newId suffix w₁ w' new cs hdep hq hins hq₁ heff h =>
      -- The id is new, so there was nothing to give up.
      have hnone : w.containers newId = [] := by
        have hfresh := Table.find?_eq_none.mpr hins.fresh
        rw [newAgent_id] at hfresh
        exact hinv.owned newId hfresh
      have hself :
          w₁.containers (newAgent d rt.draws u body newId suffix).id = w.containers newId := by
        rw [hins.containers, newAgent_id]
      rw [← hself] at heff
      refine (hinv.inserted hins).deployed hrt heff h fun hne => ?_
      exact absurd (hself.trans hnone) hne
  | tick rt elapsed now flushFails =>
    show AccountedInv (tick d s rt elapsed now flushFails w).2
    refine tick_inv (fun h => ⟨?_, ?_⟩) (fun w₁ w₂ old new cs hold h hsame heff hrw => ?_) hinv
    · simpa using h.active
    · simpa using h.owned
    · refine h.turned heff hrw ?_
      rw [hsame]
      exact hsettles old hold

/-- **Every container stays accounted for along a run of steps that settle.** -/
theorem accounted_run (d : Deps) (s : Settings) (w : World) (hrows : w.db.agents.rows = [])
    (hnone : ∀ id, w.containers id = []) (steps : List ServiceStep)
    (hrt : ∀ i ∈ steps, i.runtime.Frames)
    (hsettles : Along (serviceStep d s) (Settles d) w steps) :
    Accounted (run (serviceStep d s) w steps) := by
  have hstart : AccountedInv w :=
    { active := fun a ha => absurd (hrows ▸ ha) List.not_mem_nil
      owned := fun id _ => hnone id }
  refine (run_inv (AccountedInv.step (d := d) (s := s)) steps hstart ?_).accounted
  exact Along.and steps (along_of_forall steps w hrt) hsettles

/-- A deploy and a tick that finds it healthy. -/
theorem accounted_deploy_tick :
    Accounted (run (serviceStep .transparent {}) freeWorld
      [.call .obliging (createWith "a" "0000aaaa" 2 (by decide)),
        .tick .obliging none 0 false]) := by
  refine accounted_run .transparent {} freeWorld rfl (fun _ => rfl) _ ?_ ⟨trivial, ?_, trivial⟩
  · intro i hi
    simp only [List.mem_cons, List.not_mem_nil, or_false] at hi
    rcases hi with rfl | rfl <;> exact Runtime.obliging_frames
  · intro a ha hne health hh
    obtain rfl : _ = health := Except.ok.inj hh
    refine ⟨?_, rfl⟩
    simpa [Health.liveReplicas] using hne

/-- **A refused scale leaves containers nobody counts.** Agent `a` runs two replicas; the runtime
refuses to scale it up, and the row goes to `failed` with both containers running. -/
theorem failedScale_unaccounted :
    ∃ steps : List ServiceStep, (∀ i ∈ steps, i.runtime.Frames) ∧
      freeWorld.db.agents.rows = [] ∧ (∀ id, freeWorld.containers id = []) ∧
      ¬ Accounted (run (serviceStep .transparent {}) freeWorld steps) := by
  refine ⟨[.call .obliging (createWith "a" "0000aaaa" 2 (by decide)),
    .call .scaleRefusing (scaleBy "a" .up)], ?_, rfl, fun _ => rfl, fun h => ?_⟩
  · intro i hi
    simp only [List.mem_cons, List.not_mem_nil, or_false] at hi
    rcases hi with rfl | rfl
    · exact Runtime.obliging_frames
    · exact Runtime.scaleRefusing_frames
  · obtain ⟨a, hf, hactive, -⟩ := h "a" (by decide +kernel)
    revert a
    decide +kernel

end Gateway
