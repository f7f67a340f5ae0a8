import Gateway.Lib.Paging
import Gateway.Lib.Trace
import Gateway.Site.Frame

/-!
# Listing agents page by page

`GET /v1/agents` counts a user's agents and then selects one page of them, newest first. A client
that wants them all asks for page after page until there is no next one, and the gateway goes on in
between: agents are deployed, patched, ticked over and created, by this user and by others. Steps
fall between the two statements of a request too.

Nothing but `created_at` orders the pages: which of two agents made at the same instant comes first
is up to each query (`ListedBefore ties`).

* `Listing`: what the pages are pages of, when no two agents listed were made at the same instant.
* `Listing.step`: it only grows at its front if its agents stay and new ones are newer.
* `pageStep`: the client's walk. `undisturbed_page`: a request left alone is `list_agents`.
* **`agentPages_complete`**: a client that goes on until there is no next page has seen every agent
  that was there when it began; and, if none is made meanwhile, each of them once and in order.

Out of scope: steps of the gateway are complete requests and ticks, none overlapping another. An
answer is the rows it shows; whether a row can be shown is `Agents/Display.lean`.
-/

namespace Gateway

open Lib

/-! ## The order -/

/-- What the listing goes by, and the id. -/
def Agent.stamp (a : Agent) : Instant × AgentId := (a.createdAt, a.id)

section Order

variable {ties : AgentId → Nat} {rows : List Agent}

instance totalListedBefore (ties : AgentId → Nat) : Std.Total (ListedBefore ties) where
  total a b := by
    unfold ListedBefore
    rcases lt_trichotomy a.createdAt b.createdAt with h | h | h
    · exact Or.inr (Or.inl h)
    · exact (Nat.le_total (ties a.id) (ties b.id)).imp (fun hle => Or.inr ⟨h, hle⟩)
        fun hle => Or.inr ⟨h.symm, hle⟩
    · exact Or.inl (Or.inl h)

instance transListedBefore (ties : AgentId → Nat) : IsTrans Agent (ListedBefore ties) where
  trans a b c := by
    rintro (hab | ⟨hab, hle⟩) (hbc | ⟨hbc, hle'⟩)
    · exact Or.inl (lt_trans hbc hab)
    · exact Or.inl (hbc ▸ hab)
    · exact Or.inl (hab ▸ hbc)
    · exact Or.inr ⟨hab.trans hbc, Nat.le_trans hle hle'⟩

/-- Rows made at different instants are listed by these, whatever the order among others. -/
theorem newest_sorted (ties : AgentId → Nat) (hdistinct : (rows.map Agent.createdAt).Nodup) :
    ((rows.insertionSort (ListedBefore ties)).map Agent.stamp).Pairwise fun x y => y.1 < x.1 := by
  have hsorted := List.pairwise_insertionSort (ListedBefore ties) rows
  have hperm := List.perm_insertionSort (ListedBefore ties) rows
  have hne := List.pairwise_map.mp ((hperm.map Agent.createdAt).nodup_iff.mpr hdistinct)
  refine List.pairwise_map.mpr ((hsorted.and hne).imp ?_)
  rintro a b ⟨hbefore, hdiffer⟩
  rcases hbefore with hlater | ⟨hsame, -⟩
  · exact hlater
  · exact absurd hsame hdiffer

end Order

/-! ## The listing -/

/-- The row is one of `u`'s with the tag, if one is asked for. -/
def isListed (u : UserId) (tag : Option String) (a : Agent) : Bool :=
  a.userId = u ∧ (truthy tag).all (· ∈ a.tags)

/-- `l` is the listing of `u`'s agents with the tag: the newest first, no two of one instant. -/
structure Listing (u : UserId) (tag : Option String) (db : Db) (l : List (Instant × AgentId)) :
    Prop where
  perm : l.Perm ((db.agentsMatching u none tag).map Agent.stamp)
  newest : l.Pairwise fun x y => y.1 < x.1

theorem mem_agentsMatching {db : Db} {u : UserId} {tag : Option String} {a : Agent} :
    a ∈ db.agentsMatching u none tag ↔ a ∈ db.agents.rows ∧ isListed u tag a = true := by
  unfold Db.agentsMatching Db.agentsOf isListed
  simp [truthy, and_comm]

theorem mem_stamps {db : Db} {u : UserId} {tag : Option String} {x : Instant × AgentId} :
    x ∈ (db.agentsMatching u none tag).map Agent.stamp ↔
      ∃ a ∈ db.agents.rows, isListed u tag a = true ∧ a.stamp = x := by
  rw [List.mem_map]
  simp only [mem_agentsMatching, and_assoc]

theorem nodup_agentsMatching (db : Db) (u : UserId) (tag : Option String) :
    ((db.agentsMatching u none tag).map Agent.stamp).Nodup := by
  have hids : ((db.agentsMatching u none tag).map Agent.id).Nodup :=
    db.agents.nodup.sublist ((List.filter_sublist.trans List.filter_sublist).map Agent.id)
  refine List.Nodup.of_map Prod.snd ?_
  rw [List.map_map]
  exact hids

namespace Listing

variable {u : UserId} {tag : Option String} {db : Db} {l : List (Instant × AgentId)}

/-- Rows made at different instants have a listing. -/
theorem of_distinct (hdistinct : ((db.agentsMatching u none tag).map Agent.createdAt).Nodup)
    (ties : AgentId → Nat) :
    Listing u tag db (((db.agentsMatching u none tag).insertionSort (ListedBefore ties)).map
      Agent.stamp) :=
  ⟨(List.perm_insertionSort _ _).map Agent.stamp, newest_sorted ties hdistinct⟩

theorem mem_iff (h : Listing u tag db l) {x : Instant × AgentId} :
    x ∈ l ↔ ∃ a ∈ db.agents.rows, isListed u tag a = true ∧ a.stamp = x :=
  h.perm.mem_iff.trans mem_stamps

/-- **Every query sorts the rows into the listing**, whatever it does with rows of one instant. -/
theorem sorted (h : Listing u tag db l) (ties : AgentId → Nat) :
    ((db.agentsMatching u none tag).insertionSort (ListedBefore ties)).map Agent.stamp = l := by
  have hdistinct : ((db.agentsMatching u none tag).map Agent.createdAt).Nodup := by
    have hinstants : (l.map Prod.fst).Nodup :=
      List.pairwise_map.mpr (h.newest.imp fun hlater => (ne_of_lt hlater).symm)
    have hperm := h.perm.map Prod.fst
    rw [List.map_map] at hperm
    exact hperm.nodup_iff.mp hinstants
  refine List.Perm.eq_of_pairwise (fun x y _ _ hxy hyx => ?_) (newest_sorted ties hdistinct)
    h.newest (((List.perm_insertionSort _ _).map Agent.stamp).trans h.perm.symm)
  exact absurd hxy (lt_asymm hyx)

/-- **A page of the endpoint is a page of the listing.** -/
theorem select (h : Listing u tag db l) (ties : AgentId → Nat) (q : PageQuery) :
    (selectAgents ties db u none tag q).map Agent.stamp = Paging.page q.pageSize q.page l := by
  unfold selectAgents Paging.page
  rw [List.map_take, List.map_drop, h.sorted ties]

theorem count (h : Listing u tag db l) : countAgents db u none tag = l.length := by
  rw [h.perm.length_eq, List.length_map]
  rfl

end Listing

/-! ## What a step does to it -/

section Steps

variable {d : GatewayDeps} {cfg : GatewaySettings} {site : Site} {u : UserId}
  {tag : Option String}

/-- No agent of `u`'s is deleted by the step. -/
def KeepsOwn (d : GatewayDeps) (cfg : GatewaySettings) (u : UserId) (site : Site)
    (i : GatewayStep) : Prop :=
  ∀ a ∈ site.world.db.agents.rows, a.userId = u →
    ((gatewayStep d cfg site i).world.db.agents.find? a.id).isSome

/-- An agent of `u`'s made by the step is newer than those there are. -/
def MakesNewer (d : GatewayDeps) (cfg : GatewaySettings) (u : UserId) (site : Site)
    (i : GatewayStep) : Prop :=
  ∀ b ∈ (gatewayStep d cfg site i).world.db.agents.rows, b.userId = u →
    (site.world.db.agents.find? b.id).isSome ∨
      ∀ a ∈ site.world.db.agents.rows, a.userId = u → a.createdAt < b.createdAt

/-- No agent of `u`'s is made by the step. -/
def MakesNone (d : GatewayDeps) (cfg : GatewaySettings) (u : UserId) (site : Site)
    (i : GatewayStep) : Prop :=
  ∀ b ∈ (gatewayStep d cfg site i).world.db.agents.rows, b.userId = u →
    (site.world.db.agents.find? b.id).isSome

instance decidableKeepsOwn (d : GatewayDeps) (cfg : GatewaySettings) (u : UserId) (site : Site)
    (i : GatewayStep) : Decidable (KeepsOwn d cfg u site i) :=
  inferInstanceAs (Decidable (∀ a ∈ _, _ → _))

instance decidableMakesNewer (d : GatewayDeps) (cfg : GatewaySettings) (u : UserId) (site : Site)
    (i : GatewayStep) : Decidable (MakesNewer d cfg u site i) :=
  inferInstanceAs (Decidable (∀ b ∈ _, _ → _))

instance decidableMakesNone (d : GatewayDeps) (cfg : GatewaySettings) (u : UserId) (site : Site)
    (i : GatewayStep) : Decidable (MakesNone d cfg u site i) :=
  inferInstanceAs (Decidable (∀ b ∈ _, _ → _))

/-- A row that stays is listed after exactly if it was before, at the same place. -/
theorem row_kept {i : GatewayStep} {a b : Agent} (ha : site.world.db.agents.find? a.id = some a)
    (hb : (gatewayStep d cfg site i).world.db.agents.find? a.id = some b) (tag : Option String) :
    b.stamp = a.stamp ∧ isListed u tag b = isListed u tag a := by
  rcases gatewayStep_row i ha with hgone | ⟨b', m, hb', hlives, -⟩
  · rw [hgone] at hb
    cases hb
  · obtain rfl := Option.some.inj (hb.symm.trans hb')
    unfold Agent.stamp isListed
    rw [hlives.identity.id, hlives.identity.userId, hlives.identity.tags,
      hlives.identity.createdAt]
    exact ⟨rfl, rfl⟩

/-- What is listed still is after a step that deletes none of them. -/
theorem Listing.stays {l : List (Instant × AgentId)} (h : Listing u tag site.world.db l)
    {i : GatewayStep} (hkeeps : KeepsOwn d cfg u site i) {x : Instant × AgentId} (hx : x ∈ l) :
    x ∈ ((gatewayStep d cfg site i).world.db.agentsMatching u none tag).map Agent.stamp := by
  obtain ⟨a, ha, hlisted, rfl⟩ := h.mem_iff.mp hx
  have howner : a.userId = u := (of_decide_eq_true hlisted).1
  obtain ⟨b, hb⟩ := Option.isSome_iff_exists.mp (hkeeps a ha howner)
  obtain ⟨hstamp, hsame⟩ := row_kept (u := u) (Table.find?_of_mem ha) hb tag
  exact mem_stamps.mpr ⟨b, Table.mem_of_find? hb, hsame.trans hlisted, hstamp⟩

/-- What is listed for the first time was just made. -/
theorem Listing.made {l : List (Instant × AgentId)} (h : Listing u tag site.world.db l)
    {i : GatewayStep} {x : Instant × AgentId}
    (hx : x ∈ ((gatewayStep d cfg site i).world.db.agentsMatching u none tag).map Agent.stamp)
    (hnot : x ∉ l) : ∃ b ∈ (gatewayStep d cfg site i).world.db.agents.rows,
      b.userId = u ∧ b.stamp = x ∧ site.world.db.agents.find? b.id = none := by
  obtain ⟨b, hb, hlisted, rfl⟩ := mem_stamps.mp hx
  refine ⟨b, hb, (of_decide_eq_true hlisted).1, rfl, ?_⟩
  cases hfound : site.world.db.agents.find? b.id with
  | none => rfl
  | some a =>
    have hid : a.id = b.id := Table.key_of_find? hfound
    have hafter := Table.find?_of_mem hb
    rw [← hid] at hafter hfound
    obtain ⟨hstamp, hsame⟩ := row_kept (u := u) hfound hafter tag
    exact absurd (h.mem_iff.mpr
      ⟨a, Table.mem_of_find? hfound, hsame.symm.trans hlisted, hstamp.symm⟩) hnot

/-- The step makes one agent at most. -/
theorem made_unique {i : GatewayStep} {b c : Agent}
    (hb : b ∈ (gatewayStep d cfg site i).world.db.agents.rows)
    (hc : c ∈ (gatewayStep d cfg site i).world.db.agents.rows)
    (hbnone : site.world.db.agents.find? b.id = none)
    (hcnone : site.world.db.agents.find? c.id = none) : b = c := by
  have hid := (drawsId_of_new (Table.find?_of_mem hb) hbnone).symm.trans
    (drawsId_of_new (Table.find?_of_mem hc) hcnone)
  exact Table.eq_of_key_eq _ hb hc (Option.some.inj hid)

/-- **The listing grows at its front**, if its agents stay and a new one is newer. -/
theorem Listing.step {l : List (Instant × AgentId)} (h : Listing u tag site.world.db l)
    {i : GatewayStep} (hkeeps : KeepsOwn d cfg u site i) (hnewer : MakesNewer d cfg u site i) :
    ∃ new, Listing u tag (gatewayStep d cfg site i).world.db (new ++ l) ∧
      (MakesNone d cfg u site i → new = []) := by
  have hnodup := nodup_agentsMatching (gatewayStep d cfg site i).world.db u tag
  have hstays := fun x (hx : x ∈ l) => h.stays hkeeps hx
  have hnew : ∀ x ∈ (((gatewayStep d cfg site i).world.db.agentsMatching u none tag).map
      Agent.stamp).filter (· ∉ l), ∃ b ∈ (gatewayStep d cfg site i).world.db.agents.rows,
        b.userId = u ∧ b.stamp = x ∧ site.world.db.agents.find? b.id = none :=
    fun x hx => h.made (List.mem_of_mem_filter hx) (of_decide_eq_true (List.mem_filter.mp hx).2)
  refine ⟨(((gatewayStep d cfg site i).world.db.agentsMatching u none tag).map
    Agent.stamp).filter (· ∉ l), ⟨?_, List.pairwise_append.mpr ⟨?_, h.newest, fun x hx y hy => ?_⟩⟩,
    fun hnone => List.eq_nil_iff_forall_not_mem.mpr fun x hx => ?_⟩
  · refine (List.perm_ext_iff_of_nodup ?_ hnodup).mpr fun x => ?_
    · refine List.nodup_append.mpr ⟨hnodup.filter (· ∉ l), ?_, fun x hx y hy hxy => ?_⟩
      · exact h.newest.imp fun hlater hsame => (ne_of_lt hlater).symm (congrArg Prod.fst hsame)
      · exact of_decide_eq_true (List.mem_filter.mp hx).2 (hxy ▸ hy)
    · rw [List.mem_append, List.mem_filter, decide_eq_true_eq]
      by_cases hxl : x ∈ l
      · exact ⟨fun _ => hstays x hxl, fun _ => Or.inr hxl⟩
      · exact ⟨fun hx => (hx.resolve_right hxl).1, fun hx => Or.inl ⟨hx, hxl⟩⟩
  · refine (hnodup.filter _).pairwise_of_forall_ne fun x hx y hy hne => absurd ?_ hne
    obtain ⟨b, hb, -, rfl, hbnone⟩ := hnew x hx
    obtain ⟨c, hc, -, rfl, hcnone⟩ := hnew y hy
    rw [made_unique hb hc hbnone hcnone]
  · obtain ⟨b, hb, howner, rfl, hbnone⟩ := hnew x hx
    obtain ⟨a, ha, hlisted, rfl⟩ := h.mem_iff.mp hy
    rcases hnewer b hb howner with hold | hlater
    · rw [hbnone] at hold
      cases hold
    · exact hlater a ha (of_decide_eq_true hlisted).1
  · obtain ⟨b, hb, howner, rfl, hbnone⟩ := hnew x hx
    have hold := hnone b hb howner
    rw [hbnone] at hold
    cases hold

end Steps

/-! ## The walk -/

/-- One answer of the endpoint: the agents of the page, and `has_next`. -/
structure PageAnswer where
  agents : List Agent
  hasNext : Bool

/-- A client's walk: the pages answered, and the count of the request in progress. -/
structure PageWalk where
  site : Site
  page : Nat := 0
  total : Option Nat := none
  answers : List PageAnswer := []

/-- What happens next: a step of the gateway, or a statement of the client's request. -/
inductive PageEvent where
  | gateway (i : GatewayStep)
  | count
  | select (ties : AgentId → Nat)

section Walk

variable (d : GatewayDeps) (cfg : GatewaySettings) (u : UserId) (tag : Option String) {size : Nat}
  (hsize : 1 ≤ size ∧ size ≤ 100)

/-- The query of the request for the page after `page`. -/
def nextQuery (page : Nat) : PageQuery := ⟨page + 1, size, Nat.le_add_left 1 page, hsize⟩

/-- One event. The request for the next page counts, and then selects and answers. -/
def pageStep (σ : PageWalk) : PageEvent → PageWalk
  | .gateway i => { σ with site := gatewayStep d cfg σ.site i }
  | .count => { σ with total := some (countAgents σ.site.world.db u none tag) }
  | .select ties =>
    match σ.total with
    | none => σ
    | some total =>
      { σ with
        page := σ.page + 1
        total := none
        answers := σ.answers ++
          [{ agents := selectAgents ties σ.site.world.db u none tag (nextQuery hsize σ.page)
             hasNext := (σ.page + 1) * size < total }] }

/-- **A request left alone is `list_agents`**, and its `has_next` the router's. -/
theorem undisturbed_page (σ : PageWalk) (ties : AgentId → Nat) :
    let out := listAgents ties σ.site.world.db u none tag (nextQuery hsize σ.page)
    (run (pageStep d cfg u tag hsize) σ [.count, .select ties]).answers =
      σ.answers ++ [{ agents := out.1, hasNext := (σ.page + 1) * size < out.2 }] := rfl

/-- What the walk is subject to: the user's agents stay and new ones are newer; and none is made
after the count of a request that will find no next page. -/
def PageGuard (size : Nat) (σ : PageWalk) : PageEvent → Prop
  | .gateway i =>
    KeepsOwn d cfg u σ.site i ∧ MakesNewer d cfg u σ.site i ∧
      ((∃ total ∈ σ.total, total ≤ (σ.page + 1) * size) → MakesNone d cfg u σ.site i)
  | _ => True

/-- No agent of `u`'s is made. -/
def NoneMade (σ : PageWalk) : PageEvent → Prop
  | .gateway i => MakesNone d cfg u σ.site i
  | _ => True

instance decidablePageGuard (size : Nat) (σ : PageWalk) :
    ∀ e, Decidable (PageGuard d cfg u size σ e)
  | .gateway i => inferInstanceAs (Decidable (KeepsOwn d cfg u σ.site i ∧ _ ∧ (_ → _)))
  | .count => inferInstanceAs (Decidable True)
  | .select _ => inferInstanceAs (Decidable True)

instance decidableNoneMade (σ : PageWalk) : ∀ e, Decidable (NoneMade d cfg u σ e)
  | .gateway i => inferInstanceAs (Decidable (MakesNone d cfg u σ.site i))
  | .count => inferInstanceAs (Decidable True)
  | .select _ => inferInstanceAs (Decidable True)

end Walk

section Complete

variable {d : GatewayDeps} {cfg : GatewaySettings} {site : Site} {u : UserId}
  {tag : Option String} {size : Nat} {hsize : 1 ≤ size ∧ size ≤ 100}
  {start now : List (Instant × AgentId)} {σ : PageWalk}

/-- The stamps of the agents on the pages. -/
def PageWalk.pages (σ : PageWalk) : List (List (Instant × AgentId)) :=
  σ.answers.map fun answer => answer.agents.map Agent.stamp

/-- The walk covers what was listed at the start; a count that found the end is still right about
it; and a walk that found the end has seen everything. -/
structure PageInv (u : UserId) (tag : Option String) (size : Nat)
    (start now : List (Instant × AgentId)) (σ : PageWalk) : Prop where
  listing : Listing u tag σ.site.world.db now
  covers : Paging.Covers size σ.page start now σ.pages
  counted : ∀ total ∈ σ.total, total ≤ (σ.page + 1) * size → now.length ≤ (σ.page + 1) * size
  ended : (∃ answer ∈ σ.answers, answer.hasNext = false) →
    ∀ x ∈ start, ∃ seen ∈ σ.pages, x ∈ seen

/-- **One event.** -/
theorem PageInv.step (h : PageInv u tag size start now σ) {e : PageEvent}
    (hguard : PageGuard d cfg u size σ e) :
    ∃ now', PageInv u tag size start now' (pageStep d cfg u tag hsize σ e) := by
  cases e with
  | gateway i =>
    obtain ⟨hkeeps, hnewer, hnone⟩ := hguard
    obtain ⟨new, hlisting, hnil⟩ := h.listing.step hkeeps hnewer
    refine ⟨new ++ now, hlisting, h.covers.grows new, fun total htotal hle => ?_, h.ended⟩
    rw [hnil (hnone ⟨total, htotal, hle⟩)]
    exact h.counted total htotal hle
  | count =>
    refine ⟨now, h.listing, h.covers, fun total htotal hle => ?_, h.ended⟩
    obtain rfl := Option.mem_some_iff.mp htotal
    rwa [h.listing.count] at hle
  | select ties =>
    cases htotal : σ.total with
    | none =>
      simp only [pageStep, htotal]
      exact ⟨now, h⟩
    | some total =>
      simp only [pageStep, htotal]
      have hselect : (selectAgents ties σ.site.world.db u none tag (nextQuery hsize σ.page)).map
          Agent.stamp = Paging.page size (σ.page + 1) now := h.listing.select ties _
      have hcovers := h.covers.page
      rw [← hselect] at hcovers
      have hpages : ∀ more : PageAnswer, (σ.answers ++ [more]).map
          (fun answer => answer.agents.map Agent.stamp) =
            σ.pages ++ [more.agents.map Agent.stamp] := fun _ => List.map_append
      refine ⟨now, h.listing, ?_, (fun _ htotal => by cases htotal), fun hended x hx => ?_⟩
      · rw [PageWalk.pages, hpages]
        exact hcovers
      · rw [PageWalk.pages, hpages]
        obtain ⟨answer, hanswer, hlast⟩ := hended
        rcases List.mem_append.mp hanswer with hold | hnew
        · obtain ⟨seen, hseen, hmem⟩ := h.ended ⟨answer, hold, hlast⟩ x hx
          exact ⟨seen, List.mem_append_left _ hseen, hmem⟩
        · obtain rfl := List.mem_singleton.mp hnew
          have hle : total ≤ (σ.page + 1) * size := not_lt.mp (of_decide_eq_false hlast)
          exact hcovers.all (h.counted total htotal hle) hx

/-- The listing is as it was at the start, and the pages are its beginning. -/
structure SameInv (u : UserId) (tag : Option String) (size : Nat)
    (start : List (Instant × AgentId)) (σ : PageWalk) : Prop where
  listing : Listing u tag σ.site.world.db start
  pages : σ.pages.flatten = start.take (σ.page * size)
  counted : ∀ total ∈ σ.total, total = start.length
  ended : (∃ answer ∈ σ.answers, answer.hasNext = false) → start.length ≤ σ.page * size

/-- **One event that makes no agent of the user's.** -/
theorem SameInv.step (h : SameInv u tag size start σ) {e : PageEvent}
    (hguard : PageGuard d cfg u size σ e) (hnone : NoneMade d cfg u σ e) :
    SameInv u tag size start (pageStep d cfg u tag hsize σ e) := by
  cases e with
  | gateway i =>
    obtain ⟨new, hlisting, hnil⟩ := h.listing.step hguard.1 hguard.2.1
    rw [hnil hnone] at hlisting
    exact ⟨hlisting, h.pages, h.counted, h.ended⟩
  | count =>
    refine ⟨h.listing, h.pages, fun total htotal => ?_, h.ended⟩
    obtain rfl := Option.mem_some_iff.mp htotal
    exact h.listing.count
  | select ties =>
    cases htotal : σ.total with
    | none =>
      simp only [pageStep, htotal]
      exact h
    | some total =>
      have hmore : σ.page * size ≤ (σ.page + 1) * size :=
        Nat.mul_le_mul_right size (Nat.le_add_right σ.page 1)
      have hselect : (selectAgents ties σ.site.world.db u none tag (nextQuery hsize σ.page)).map
          Agent.stamp = Paging.page size (σ.page + 1) start := h.listing.select ties _
      simp only [pageStep, htotal]
      refine ⟨h.listing, ?_, (fun _ htotal => by cases htotal), fun hended => ?_⟩
      · rw [← Paging.take_append_page, ← h.pages, ← hselect]
        simp [PageWalk.pages]
      · obtain ⟨answer, hanswer, hlast⟩ := hended
        rcases List.mem_append.mp hanswer with hold | hnew
        · exact (h.ended ⟨answer, hold, hlast⟩).trans hmore
        · obtain rfl := List.mem_singleton.mp hnew
          rw [← h.counted total htotal]
          exact not_lt.mp (of_decide_eq_false hlast)

/-- **Nobody is skipped.** A client asks for page after page of `u`'s agents, made at different
instants, until one answer has no next page. The gateway goes on between its statements: `u`'s
agents stay, new ones are newer than those there are, and none is made after the count that finds
the end. Then every agent listed when it began is on some page; and if none of `u`'s is made at
all, the pages are the listing: every agent once, newest first. -/
theorem agentPages_complete {events : List PageEvent}
    (hdistinct : ((site.world.db.agentsMatching u none tag).map Agent.createdAt).Nodup)
    (hguard : Along (pageStep d cfg u tag hsize) (PageGuard d cfg u size) { site := site } events)
    (hends : ∃ answer ∈ (run (pageStep d cfg u tag hsize) { site := site } events).answers,
      answer.hasNext = false) :
    (∀ a ∈ site.world.db.agentsMatching u none tag,
        ∃ answer ∈ (run (pageStep d cfg u tag hsize) { site := site } events).answers,
          ∃ b ∈ answer.agents, b.id = a.id) ∧
      (Along (pageStep d cfg u tag hsize) (NoneMade d cfg u) { site := site } events →
        ∀ ties, (run (pageStep d cfg u tag hsize) { site := site } events).answers.flatMap
            (fun answer => answer.agents.map Agent.id) =
          ((site.world.db.agentsMatching u none tag).insertionSort (ListedBefore ties)).map
            Agent.id) := by
  have hlisting := Listing.of_distinct hdistinct
  constructor
  · intro a ha
    obtain ⟨now, hinv⟩ := run_inv (P := fun σ => ∃ now, PageInv u tag size _ now σ)
      (fun σ e ⟨now, h⟩ hguard => h.step hguard) events
      ⟨_, hlisting fun _ => 0, Paging.Covers.begin size _, (fun _ h => by cases h),
        fun ⟨_, h, _⟩ => by cases h⟩ hguard
    obtain ⟨seen, hseen, hmem⟩ := hinv.ended hends a.stamp
      ((hlisting fun _ => 0).mem_iff.mpr
        ⟨a, (mem_agentsMatching.mp ha).1, (mem_agentsMatching.mp ha).2, rfl⟩)
    obtain ⟨answer, hanswer, rfl⟩ := List.mem_map.mp hseen
    obtain ⟨b, hb, hstamp⟩ := List.mem_map.mp hmem
    exact ⟨answer, hanswer, b, hb, congrArg Prod.snd hstamp⟩
  · intro hnone ties
    have hinv := run_inv (P := SameInv u tag size _)
      (fun _ _ h (hboth : PageGuard d cfg u size _ _ ∧ NoneMade d cfg u _ _) =>
        h.step hboth.1 hboth.2)
      events ⟨hlisting ties, by simp [PageWalk.pages], (fun _ h => by cases h),
        fun ⟨_, h, _⟩ => by cases h⟩ (Along.and events hguard hnone)
    have hall := hinv.pages
    rw [List.take_of_length_le (hinv.ended hends)] at hall
    have hids := congrArg (List.map Prod.snd) hall
    simpa [PageWalk.pages, List.map_flatten, List.flatMap, Agent.stamp, Function.comp_def]
      using hids

end Complete

/-- The owner of `ownerWithAgent` makes an agent. -/
def ownerCreates (newId : AgentId) (suffix : String) (keyId : KeyId)
    (now : Instant) : GatewayStep :=
  .request { quietSurroundings with runtime := { Runtime.obliging with draws := { now := now } } }
    (some "agnt_k") (.agents (.create { name := "bot" } ⟨newId, suffix.toList, keyId, suffix⟩))

/-- Two agents, the second made at `now`. -/
def twoListed (now : Instant) : Site :=
  gatewayStep .transparent {} ownerWithAgent (ownerCreates "b" "bbbbbb" 5 now)

/-- Pages of one; a third agent is made after the first, and one is deployed within the third. -/
def threePages : List PageEvent :=
  [.count, .select fun _ => 0, .gateway (ownerCreates "c" "cccccc" 6 2), .count,
    .select fun _ => 0, .count,
    .gateway (.request quietSurroundings (some "agnt_k") (.agents (.deploy "a" none))),
    .select fun _ => 0]

/-- Pages of one, with a deploy within the second and none made. -/
def twoPages : List PageEvent :=
  [.count, .select fun _ => 0, .count,
    .gateway (.request quietSurroundings (some "agnt_k") (.agents (.deploy "a" none))),
    .select fun _ => 0]

theorem pagesOfOne : 1 ≤ 1 ∧ 1 ≤ 100 := by decide

/-- With the third agent the second page repeats one, and the third has the last. Without it the
two pages are the listing. -/
theorem agentPages_complete_three :
    ((∃ answer ∈ (run (pageStep .transparent {} 1 none pagesOfOne)
          { site := twoListed 1 } threePages).answers, ∃ b ∈ answer.agents, b.id = "a") ∧
        (run (pageStep .transparent {} 1 none pagesOfOne)
          { site := twoListed 1 } threePages).answers.flatMap
            (fun answer => answer.agents.map Agent.id) = ["b", "b", "a"]) ∧
      (run (pageStep .transparent {} 1 none pagesOfOne)
        { site := twoListed 1 } twoPages).answers.flatMap
          (fun answer => answer.agents.map Agent.id) = ["b", "a"] := by
  have hguard : Along (pageStep .transparent {} 1 none pagesOfOne)
      (PageGuard .transparent {} 1 1) { site := twoListed 1 } threePages := by decide +kernel
  have hguard' : Along (pageStep .transparent {} 1 none pagesOfOne)
      (PageGuard .transparent {} 1 1) { site := twoListed 1 } twoPages := by decide +kernel
  have hnone : Along (pageStep .transparent {} 1 none pagesOfOne)
      (NoneMade .transparent {} 1) { site := twoListed 1 } twoPages := by decide +kernel
  refine ⟨⟨?_, by decide +kernel⟩, ?_⟩
  · exact (agentPages_complete (by decide +kernel) hguard (by decide +kernel)).1 freeAgent
      (by decide +kernel)
  · exact ((agentPages_complete (by decide +kernel) hguard' (by decide +kernel)).2 hnone
      fun _ => 0).trans (by decide +kernel)

/-- Of two agents made at one instant, one may be on both pages and the other on none. -/
example : (run (pageStep .transparent {} 1 none pagesOfOne) { site := twoListed 0 }
    [.count, .select fun id => if id = "a" then 0 else 1, .count,
      .select fun id => if id = "b" then 0 else 1]).answers.flatMap
        (fun answer => answer.agents.map Agent.id) = ["a", "a"] := by
  decide +kernel

end Gateway
