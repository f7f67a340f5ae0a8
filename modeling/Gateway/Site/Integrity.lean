import Gateway.Lib.Constraints
import Gateway.Site.Steps

/-!
# The tables stay in order

What the rest of the code takes for granted of its tables: emails, Stripe customers, slugs, key
hashes and invite codes are unique, so that a lookup by one of them has one answer; an agent has
its owner, a key its agent or user, and a usage row its user, so that following a reference does
not fail; every plan is one `limits_for` knows, and no invite is used more often than it may be.

* `AccountsOk`, `AgentsOk`, `CredentialsOk`: the constraints of three groups of tables.
* **`integrity_run`**: every step of the whole gateway keeps them, and so does every run. Usage
  rows are the delicate part: the tick writes them for the owners of the rows it loaded, and the
  flush only for the users it has just found, since nothing else ties a count in memory to an
  account.

Out of scope: overlapping requests; there the constraints of the database refuse what a step here
finds refused by its own checks.
-/

namespace Gateway

open Lib

/-- The `users` table. -/
structure AccountsOk (users : Table User User.id) : Prop where
  emails : UniqueOn users fun u => some u.email
  customers : UniqueOn users User.stripeCustomerId
  plans : ∀ u ∈ users.rows, u.plan = defaultPlan ∨ u.plan = paidPlan

/-- The agents, their keys and their usage. -/
structure AgentsOk (w : World) : Prop where
  owners : References w.db.agents Agent.userId w.db.users
  slugs : UniqueOn w.db.agents fun a => some a.slug
  keys : References w.db.accessKeys AgentAccessKey.agentId w.db.agents
  keyHashes : UniqueOn w.db.accessKeys fun k => some k.keyHash
  usage : References w.db.usageHours UsageHour.userId w.db.users

/-- The API keys and the invites. -/
structure CredentialsOk (site : Site) : Prop where
  holders : References site.apiKeys ApiKey.userId site.world.db.users
  apiKeyHashes : UniqueOn site.apiKeys fun k => some k.keyHash
  inviteCodes : UniqueOn site.invites fun i => some i.codeHash
  uses : ∀ i ∈ site.invites.rows, i.useCount ≤ i.maxUses

/-- The tables are in order. -/
structure Integrity (site : Site) : Prop where
  accounts : AccountsOk site.world.db.users
  agents : AgentsOk site.world
  credentials : CredentialsOk site

/-! ## The accounts -/

section Accounts

variable {users users' : Table User User.id} {user user' : User}

/-- A committed row has a Stripe customer of its own. -/
theorem saveUser_free (h : saveUser users user = .ok users') : ∀ v ∈ users.rows, v.id ≠ user.id →
    user.stripeCustomerId.isSome → user.stripeCustomerId ≠ v.stripeCustomerId := by
  unfold saveUser at h
  split at h
  · cases h
  · rename_i hfree
    exact fun v hv hne hsome hsame => hfree ⟨hsome, v, hv, hne, hsame.symm⟩

/-- A row is overwritten by one with the same email and a plan that is known. -/
theorem AccountsOk.put (hok : AccountsOk users) (user' : User)
    (huser : users.find? user'.id = some user)
    (hemail : user'.email = user.email) (hplan : user'.plan = defaultPlan ∨ user'.plan = paidPlan)
    (hcustomers : UniqueOn (users.put user') User.stripeCustomerId) :
    AccountsOk (users.put user') where
  emails := hok.emails.put_same huser (congrArg some hemail)
  customers := hcustomers
  plans u hu := by
    rcases Table.mem_put hu with rfl | ⟨hu, -⟩
    · exact hplan
    · exact hok.plans u hu

/-- An update of an account writes a plan that is known. -/
theorem updatedUser_plan {body : AdminUserUpdate}
    (h : user.plan = defaultPlan ∨ user.plan = paidPlan) :
    (updatedUser user body).plan = defaultPlan ∨ (updatedUser user body).plan = paidPlan := by
  show body.plan.getD user.plan = _ ∨ body.plan.getD user.plan = _
  cases hp : body.plan with
  | none => exact h
  | some p => exact body.known p hp

variable {d : GatewayDeps} {cfg : GatewaySettings} {site : Site} {i : GatewayStep}

/-- **One step** keeps the accounts in order. -/
theorem AccountsOk.step (hok : AccountsOk site.world.db.users)
    (heffect : UsersEffect d cfg site i users') : AccountsOk users' := by
  cases heffect with
  | kept => exact hok
  | @registered r users' hemail hins =>
    refine ⟨hok.emails.insert? hins fun y hy _ hsame => hemail ?_,
      hok.customers.insert? hins fun y hy hsome => ?_, fun u hu => ?_⟩
    · have hemails : r.email = y.email := Option.some.inj hsame
      rw [hemails]
      exact List.mem_map_of_mem hy
    · cases hsome
    · rw [(Table.insert?_eq_some hins).1] at hu
      rcases List.mem_append.mp hu with hu | hu
      · exact hok.plans u hu
      · obtain rfl := List.mem_singleton.mp hu
        exact Or.inl rfl
  | @patched m creds userId body p caller user hguard hcaller hadmin huser =>
    obtain rfl := Table.key_of_find? huser
    exact hok.put (updatedUser user body) huser rfl
      (updatedUser_plan (hok.plans user (Table.mem_of_find? huser)))
      (hok.customers.put_same (r := updatedUser user body) huser rfl)
  | @customer m creds user customerId users' huser hsave =>
    have hfree := saveUser_free hsave
    obtain rfl := saveUser_ok hsave
    exact hok.put { user with stripeCustomerId := some customerId } huser rfl
      (hok.plans user (Table.mem_of_find? huser)) (hok.customers.put hfree)
  | billed hsecret hverified hloads hresolve happly =>
    rcases applyEvent_billed happly with rfl | ⟨user, user', -, hmem, hbilled, hsave⟩
    · exact hok
    · have hfree := saveUser_free hsave
      obtain rfl := saveUser_ok hsave
      have huser := hbilled.access.id.symm ▸ Table.find?_of_mem hmem
      refine hok.put user' huser hbilled.email ?_ (hok.customers.put hfree)
      rcases hbilled.known with hsame | hknown
      · rw [hsame]
        exact hok.plans user hmem
      · exact hknown
  | @scripted email role user huser hemail =>
    have hrow := Table.find?_of_mem huser
    exact hok.put { user with role := role } hrow rfl (hok.plans user huser)
      (hok.customers.put_same (r := { user with role := role }) (o := user) hrow rfl)

/-- No step loses an account. -/
theorem UsersEffect.keepsKeys (heffect : UsersEffect d cfg site i users') :
    KeepsKeys site.world.db.users users' := by
  cases heffect with
  | kept => exact .refl _
  | registered hemail hins => exact .insert? hins
  | patched hguard hcaller hadmin huser => exact .put _ _
  | customer huser hsave =>
    obtain rfl := saveUser_ok hsave
    exact .put _ _
  | billed hsecret hverified hloads hresolve happly =>
    rcases applyEvent_billed happly with rfl | ⟨user, user', -, -, -, hsave⟩
    · exact .refl _
    · obtain rfl := saveUser_ok hsave
      exact .put _ _
  | scripted huser hemail => exact .put _ _

end Accounts

/-! ## The agents -/

section Agents

variable {d : Deps} {w w' : World} {old new : Agent} {cs left : List Container}

/-- Only the tables matter. -/
theorem AgentsOk.of_eq (hok : AgentsOk w) (hdb : w'.db = w.db) : AgentsOk w' where
  owners := hdb ▸ hok.owners
  slugs := hdb ▸ hok.slugs
  keys := hdb ▸ hok.keys
  keyHashes := hdb ▸ hok.keyHashes
  usage := hdb ▸ hok.usage

/-- A row is rewritten; it keeps its slug and its owner. -/
theorem AgentsOk.rewrites (hok : AgentsOk w) (hrw : Rewrites w w' old new cs)
    (husage : References w'.db.usageHours UsageHour.userId w.db.users) : AgentsOk w' := by
  have hfound : w.db.agents.find? new.id = some old := hrw.id ▸ hrw.found
  exact
    { owners := by
        rw [hrw.agents, hrw.users]
        exact hok.owners.put hfound hrw.owner
      slugs := by
        rw [hrw.agents]
        exact hok.slugs.put_same hfound (congrArg some hrw.slug)
      keys := by
        rw [hrw.agents, hrw.accessKeys]
        exact hok.keys.of_keepsKeys (.put _ _)
      keyHashes := by
        rw [hrw.accessKeys]
        exact hok.keyHashes
      usage := by
        rw [hrw.users]
        exact husage }

/-- A row is inserted whose owner the quota check has found. -/
theorem AgentsOk.inserts (hok : AgentsOk w) (hins : Inserts w w' new)
    (howner : ∃ owner, w.db.users.find? new.userId = some owner)
    (husage : w'.db.usageHours = w.db.usageHours) : AgentsOk w' where
  owners := by
    rw [hins.users]
    exact hok.owners.insert? hins.agents howner
  slugs := hok.slugs.insert? hins.agents fun a ha _ hsame =>
    hins.slug a ha (Option.some.inj hsame).symm
  keys := by
    rw [hins.accessKeys]
    exact hok.keys.of_keepsKeys (.insert? hins.agents)
  keyHashes := by
    rw [hins.accessKeys]
    exact hok.keyHashes
  usage := by
    rw [husage, hins.users]
    exact hok.usage

/-- A row goes with its keys; its usage stays. -/
theorem AgentsOk.removes (hok : AgentsOk w) (hrm : Removes w w' old left)
    (husage : w'.db.usageHours = w.db.usageHours) : AgentsOk w' where
  owners := by
    rw [hrm.agents, hrm.users]
    exact hok.owners.of_subset fun a ha => (Table.mem_erase.mp ha).1
  slugs := by
    rw [hrm.agents]
    exact hok.slugs.of_subset fun a ha => (Table.mem_erase.mp ha).1
  keys := by
    rw [hrm.agents, hrm.accessKeys]
    exact hok.keys.cascade old.id
  keyHashes := by
    rw [hrm.accessKeys]
    exact hok.keyHashes.of_subset fun k hk => List.mem_of_mem_filter hk
  usage := by
    rw [husage, hrm.users]
    exact hok.usage

/-- The calls of the service do not touch the usage. -/
theorem deployAgent_usageHours (d : Deps) (rt : Runtime) (w : World) (u : UserId) (id : AgentId)
    (deploy : Option DeployConfig) :
    (deployAgent d rt w u id deploy).2.db.usageHours = w.db.usageHours := by
  unfold deployAgent
  cases w.db.ownedAgent? u id with
  | none => rfl
  | some agent =>
    simp only
    cases deployQuota d w.db agent deploy with
    | error e => rfl
    | ok _ =>
      simp only
      split_ifs
      · cases deploy <;> rfl
      · split
        · cases deploy <;> rfl
        · cases deploy <;> rfl

theorem Call.exec_usageHours (d : Deps) (rt : Runtime) (w : World) (c : Call) :
    (c.exec d rt w).db.usageHours = w.db.usageHours := by
  cases c with
  | create u body newId suffix =>
    show (createAgent d rt w u body newId suffix).2.db.usageHours = _
    unfold createAgent
    cases createQuota d w.db u body with
    | error e => rfl
    | ok _ =>
      simp only
      cases hi : insertAgent? w (newAgent d rt.draws u body newId suffix) with
      | none => rfl
      | some w₁ =>
        have hsame : w₁.db.usageHours = w.db.usageHours := by
          unfold insertAgent? at hi
          split at hi
          · cases hi
          · obtain ⟨t, -, rfl⟩ := Option.map_eq_some_iff.mp hi
            rfl
        cases body.deploy with
        | none => exact hsame
        | some c => exact (deployAgent_usageHours d rt w₁ u _ none).trans hsame
  | update u id body =>
    show (updateAgent w u id body).2.db.usageHours = _
    unfold updateAgent
    cases w.db.ownedAgent? u id <;> rfl
  | deploy u id deploy => exact deployAgent_usageHours d rt w u id (deploy.map Subtype.val)
  | scale u id body =>
    show (scaleAgent d rt w u id body.direction body.count).2.db.usageHours = _
    unfold scaleAgent
    cases w.db.ownedAgent? u id with
    | none => rfl
    | some agent =>
      simp only
      cases scaleQuota d w.db agent body.direction body.count with
      | error e => rfl
      | ok _ =>
        simp only [rt.getContainers_eq]
        split <;> rfl
  | delete u id =>
    show (deleteAgent rt w u id).2.db.usageHours = _
    unfold deleteAgent
    cases w.db.ownedAgent? u id with
    | none => rfl
    | some agent =>
      simp only
      split <;> rfl

/-- A call of the service. -/
theorem AgentsOk.call (hok : AgentsOk w) (rt : Runtime) (c : Call) : AgentsOk (c.exec d rt w) := by
  have husage := c.exec_usageHours d rt w
  have heffect := c.exec_effect d rt w
  generalize c.exec d rt w = w' at husage heffect
  have hrefs : References w'.db.usageHours UsageHour.userId w.db.users := husage ▸ hok.usage
  cases heffect with
  | refused => exact hok
  | updated _ hrw => exact hok.rewrites hrw hrefs
  | deployed _ _ _ hrw => exact hok.rewrites hrw hrefs
  | scaled _ _ _ hrw => exact hok.rewrites hrw hrefs
  | removeFailed _ _ hrw => exact hok.rewrites hrw hrefs
  | removed _ _ hrm => exact hok.removes hrm husage
  | created hq hins =>
    exact hok.inserts hins (by rw [newAgent_userId]; exact owner_of_createQuota hq) husage
  | @createdDeployed u body newId suffix w₁ _ _ _ _ hq hins _ _ hrw =>
    -- The row between the insertion and the deploy has the tables of the start otherwise.
    have hmid : AgentsOk { w₁ with db := { w₁.db with usageHours := w.db.usageHours } } :=
      hok.inserts { hins with } (by rw [newAgent_userId]; exact owner_of_createQuota hq) rfl
    refine AgentsOk.rewrites (w := { w₁ with db := { w₁.db with usageHours := w.db.usageHours } })
      hmid { hrw with } ?_
    show References w'.db.usageHours UsageHour.userId w₁.db.users
    rw [hins.users]
    exact hrefs

/-- **One write** of a request. -/
theorem AgentsOk.write {u : UserId} (hok : AgentsOk w) (hwrite : AgentsWrite d u w w') :
    AgentsOk w' := by
  cases hwrite with
  | call rt c hu => exact hok.call rt c
  | @mints key _ hins =>
    unfold insertAccessKey? at hins
    split at hins
    · cases hins
    · rename_i hfree
      obtain ⟨t, ht, rfl⟩ := Option.map_eq_some_iff.mp hins
      rw [not_or] at hfree
      refine ⟨hok.owners, hok.slugs, hok.keys.insert? ht ?_,
        hok.keyHashes.insert? ht fun k hk _ hsame => hfree.2 ?_, hok.usage⟩
      · exact Option.ne_none_iff_exists'.mp fun hnone => hfree.1 (by rw [hnone]; rfl)
      · rw [Option.some.inj hsame]
        exact List.mem_map_of_mem hk
  | drops keyId =>
    exact ⟨hok.owners, hok.slugs, hok.keys.of_subset fun k hk => (Table.mem_erase.mp hk).1,
      hok.keyHashes.of_subset fun k hk => (Table.mem_erase.mp hk).1, hok.usage⟩

/-- Usage is recorded for an agent whose owner is there. -/
theorem references_record {usage : UsageHours} {users : Table User User.id} {a : Agent}
    (h : References usage UsageHour.userId users)
    (howner : ∃ owner, users.find? a.userId = some owner) (n : Nat) (seconds : ℚ) (now : Instant) :
    References (record usage a n seconds now) UsageHour.userId users := by
  unfold Gateway.record
  split_ifs
  · exact h
  · exact Table.forall_upsert h howner fun o ho => ho

/-- A turn records usage for the agent whose turn it is, at most. -/
theorem tickAgent_usage (d : Deps) (rt : Runtime) (seconds : ℚ) (now : Instant) (w : World)
    (a : Agent) {users : Table User User.id}
    (h : References w.db.usageHours UsageHour.userId users)
    (howner : ∃ owner, users.find? a.userId = some owner) :
    References (tickAgent d rt seconds now w a).2.db.usageHours UsageHour.userId users := by
  unfold tickAgent
  simp only [World.logCall_containers]
  cases rt.healthCheck a.id (w.containers a.id) with
  | error e => exact h
  | ok health =>
    have hmetered : ∀ w₁ : World, w₁.db.usageHours = w.db.usageHours →
        References (meter w₁ (observe a health) health.liveReplicas seconds now).db.usageHours
          UsageHour.userId users := by
      intro w₁ hsame
      unfold meter
      split_ifs
      · show References (Gateway.record w₁.db.usageHours _ _ _ _) _ _
        rw [hsame]
        exact references_record h howner _ seconds now
      · rw [hsame]
        exact h
    have hseen := hmetered (if observe a health = a then w.logCall (.healthCheck a.id)
      else (w.logCall (.healthCheck a.id)).saveAgent (observe a health)) (by split_ifs <;> rfl)
    simp only
    generalize meter _ (observe a health) _ seconds now = w₁ at hseen ⊢
    split_ifs
    · cases hasHeadroomForReplica d w₁.db (observe a health) with
      | error e => exact hseen
      | ok room => cases room <;> exact hseen
    · exact hseen

theorem tickAgents_usage (d : Deps) (rt : Runtime) (seconds : ℚ) (now : Instant)
    {users : Table User User.id} :
    ∀ (rest : List Agent) (w : World), References w.db.usageHours UsageHour.userId users →
      (∀ a ∈ rest, ∃ owner, users.find? a.userId = some owner) →
      References (tickAgents d rt seconds now rest w).2.db.usageHours UsageHour.userId users := by
  intro rest
  induction rest with
  | nil =>
    intro w h _
    exact h
  | cons a rest ih =>
    intro w h howners
    have hturn := tickAgent_usage d rt seconds now w a h (howners a List.mem_cons_self)
    unfold tickAgents
    generalize tickAgent d rt seconds now w a = out at hturn
    obtain ⟨res, w'⟩ := out
    cases res with
    | error e => exact hturn
    | ok _ => exact ih w' hturn fun b hb => howners b (List.mem_cons_of_mem a hb)

/-- A flush writes usage for users it has found. -/
theorem flushRequests_usage (hok : AgentsOk w) (flushFails : Bool) :
    References (flushRequests w flushFails).db.usageHours UsageHour.userId w.db.users := by
  -- The entries are written one after the other, each for a user that is there.
  have hcommit : ∀ (entries : Counter RequestKey) (usage : UsageHours),
      References usage UsageHour.userId w.db.users →
      (∀ e ∈ entries, ∃ owner, w.db.users.find? e.1.userId = some owner) →
      References (commitRequests usage entries) UsageHour.userId w.db.users := by
    intro entries
    induction entries with
    | nil => exact fun usage h _ => h
    | cons e entries ih =>
      intro usage h hfound
      refine ih (addRequests usage e.1 e.2) ?_ fun x hx => hfound x (List.mem_cons_of_mem e hx)
      exact Table.forall_upsert h (hfound e List.mem_cons_self) fun o ho => ho
  unfold flushRequests
  split_ifs
  · exact hok.usage
  · exact hok.usage
  · refine hcommit _ _ hok.usage fun e he => ?_
    obtain ⟨hmem, hkept⟩ := List.mem_filter.mp he
    exact Option.isSome_iff_exists.mp ((mem_existingUsers hmem).mp (by simpa using hkept))

/-- **A tick**. -/
theorem AgentsOk.tick (hok : AgentsOk w) (s : Settings) (rt : Runtime) (elapsed : Option ℚ)
    (now : Instant) (flushFails : Bool) :
    AgentsOk (tick d s rt elapsed now flushFails w).2 := by
  have husers := tick_users d s rt elapsed now flushFails w
  have husage : References (Gateway.tick d s rt elapsed now flushFails w).2.db.usageHours
      UsageHour.userId w.db.users := by
    unfold Gateway.tick
    refine tickAgents_usage d rt _ now _ _ (flushRequests_usage hok flushFails) fun a ha => ?_
    rw [loadedAgents_flushRequests] at ha
    exact hok.owners a (List.mem_of_mem_filter ha)
  -- The other tables change as the turns rewrite rows, whatever they do to the usage.
  have hrest : AgentsOk { (Gateway.tick d s rt elapsed now flushFails w).2 with
      db := { (Gateway.tick d s rt elapsed now flushFails w).2.db with
        usageHours := w.db.usageHours } } := by
    refine tick_inv (P := fun w' => AgentsOk { w' with
      db := { w'.db with usageHours := w.db.usageHours } }) (fun h => ?_)
      (fun w₁ w₂ old new cs _ h _ _ hrw => ?_) hok
    · have hsame : { (flushRequests w flushFails).db with usageHours := w.db.usageHours } =
          w.db := by
        unfold flushRequests
        split_ifs <;> rfl
      exact hok.of_eq hsame
    · refine AgentsOk.rewrites (w := { w₁ with db := { w₁.db with usageHours := w.db.usageHours } })
        h { hrw with } ?_
      exact h.usage
  exact ⟨hrest.owners, hrest.slugs, hrest.keys, hrest.keyHashes, by rw [husers]; exact husage⟩

end Agents

/-! ## The credentials -/

section Credentials

variable {d : GatewayDeps} {cfg : GatewaySettings} {site site' : Site}

/-- The keys and invites stay as they are, and so do the accounts' keys. -/
theorem CredentialsOk.of_eq (hok : CredentialsOk site)
    (hkeep : KeepsKeys site.world.db.users site'.world.db.users)
    (hkeys : site'.apiKeys = site.apiKeys) (hinvites : site'.invites = site.invites) :
    CredentialsOk site' where
  holders := by
    rw [hkeys]
    exact hok.holders.of_keepsKeys hkeep
  apiKeyHashes := hkeys ▸ hok.apiKeyHashes
  inviteCodes := hinvites ▸ hok.inviteCodes
  uses := hinvites ▸ hok.uses

/-- The invites are overwritten at a row that keeps its code. -/
theorem CredentialsOk.putInvite (hok : CredentialsOk site) {old : Invite} (new : Invite)
    (hold : site.invites.find? new.id = some old) (hcode : new.codeHash = old.codeHash)
    (huses : new.useCount ≤ new.maxUses) :
    CredentialsOk { site with invites := site.invites.put new } where
  holders := hok.holders
  apiKeyHashes := hok.apiKeyHashes
  inviteCodes := hok.inviteCodes.put_same hold (congrArg some hcode)
  uses i hi := by
    rcases Table.mem_put hi with rfl | ⟨hi, -⟩
    · exact huses
    · exact hok.uses i hi

theorem CredentialsOk.createApiKey (hok : CredentialsOk site) (u : UserId) (label : String)
    (scopes : List String) (keyId : ApiKeyId) (rawKey : String) :
    CredentialsOk (createApiKey d.toAuthDeps site u label scopes keyId rawKey).2 := by
  unfold Gateway.createApiKey
  simp only
  cases hins : insertApiKey? site (newApiKey d.toAuthDeps u label scopes keyId rawKey) with
  | none => exact hok
  | some site' =>
    unfold insertApiKey? at hins
    split at hins
    · cases hins
    · rename_i hfree
      obtain ⟨t, ht, rfl⟩ := Option.map_eq_some_iff.mp hins
      rw [not_or] at hfree
      refine ⟨hok.holders.insert? ht ?_, hok.apiKeyHashes.insert? ht fun k hk _ hsame => hfree.2 ?_,
        hok.inviteCodes, hok.uses⟩
      · exact Option.ne_none_iff_exists'.mp fun hnone => hfree.1 (by rw [hnone]; rfl)
      · rw [Option.some.inj hsame]
        exact List.mem_map_of_mem hk

theorem CredentialsOk.revokeApiKey (hok : CredentialsOk site) (now : Instant) (u : UserId)
    (keyId : ApiKeyId) : CredentialsOk (revokeApiKey site now u keyId).2 := by
  unfold Gateway.revokeApiKey
  split
  · exact hok
  · rename_i key hfound
    have hkey := (Option.filter_eq_some_iff.mp hfound).1
    obtain rfl := Table.key_of_find? hkey
    split_ifs
    · exact ⟨hok.holders.put (o := key) hkey rfl, hok.apiKeyHashes.put_same (o := key) hkey rfl,
        hok.inviteCodes, hok.uses⟩
    · exact hok

theorem CredentialsOk.createInvite (hok : CredentialsOk site) (now : Instant) (u : UserId)
    (note : String) (maxUses : Nat) (days : Option Nat) (newId : InviteId) (token : String) :
    CredentialsOk (createInvite d.toAuthDeps site now u note maxUses days newId token).2 := by
  unfold Gateway.createInvite
  simp only
  cases hins :
    insertInvite? site (newInvite d.toAuthDeps now u note maxUses days newId token).1 with
  | none => exact hok
  | some site' =>
    unfold insertInvite? at hins
    split at hins
    · cases hins
    · rename_i hfree
      obtain ⟨t, ht, rfl⟩ := Option.map_eq_some_iff.mp hins
      refine ⟨hok.holders, hok.apiKeyHashes, hok.inviteCodes.insert? ht fun i hi _ hsame =>
        hfree ?_, fun i hi => ?_⟩
      · rw [Option.some.inj hsame]
        exact List.mem_map_of_mem hi
      · rw [(Table.insert?_eq_some ht).1] at hi
        rcases List.mem_append.mp hi with hi | hi
        · exact hok.uses i hi
        · obtain rfl := List.mem_singleton.mp hi
          exact Nat.zero_le _

theorem CredentialsOk.revokeInvite (hok : CredentialsOk site) (now : Instant)
    (inviteId : InviteId) : CredentialsOk (revokeInvite site now inviteId).2 := by
  unfold Gateway.revokeInvite
  split
  · exact hok
  · rename_i invite hinvite
    obtain rfl := Table.key_of_find? hinvite
    split_ifs
    · exact hok.putInvite { invite with revokedAt := some now } hinvite rfl
        (hok.uses invite (Table.mem_of_find? hinvite))
    · exact hok

/-- A registration takes a use that is there. -/
theorem CredentialsOk.registrationInvites (hok : CredentialsOk site) {now : Instant}
    {code : Option String} {invites : Table Invite Invite.id}
    (h : registrationInvites d.toAuthDeps cfg.auth site now code = .ok invites) :
    CredentialsOk { site with invites := invites } := by
  unfold Gateway.registrationInvites at h
  split at h
  · split at h
    · cases h
    · split at h
      · cases h
      · split at h
        · cases h
        · rename_i claimed hclaim
          obtain rfl := Except.ok.inj h
          unfold claimInvite at hclaim
          split at hclaim
          · cases hclaim
          · rename_i invite hfound
            have hrow := Table.find?_of_mem (List.mem_of_find?_eq_some hfound)
            split at hclaim
            · rename_i hactive
              obtain rfl := Except.ok.inj hclaim
              have hroom := (Invite.status_eq_active.mp hactive).2.2
              exact hok.putInvite { invite with useCount := invite.useCount + 1 }
                hrow rfl hroom
            · cases hclaim
  · obtain rfl := Except.ok.inj h
    exact hok

/-- What only the accounts change in. -/
def OnlyUsers (site site' : Site) : Prop := ∃ users, site' = site.withUsers users

theorem OnlyUsers.refl (site : Site) : OnlyUsers site site := ⟨site.world.db.users, rfl⟩

theorem webhook_onlyUsers (retrieve : StripeClient) (payload signature : String) :
    OnlyUsers site (webhook d cfg retrieve site payload signature).2 := by
  unfold webhook
  split
  · exact .refl site
  · split_ifs
    · split
      · exact .refl site
      · split
        · exact .refl site
        · exact ⟨_, rfl⟩
    · exact .refl site

theorem setRole_onlyUsers (email : String) (role : Role) :
    OnlyUsers site (setRole site email role).2 := by
  unfold setRole
  split
  · exact .refl site
  · exact ⟨_, rfl⟩

theorem CredentialsOk.of_onlyUsers (hok : CredentialsOk site) {site' : Site}
    (hkeep : KeepsKeys site.world.db.users site'.world.db.users) (h : OnlyUsers site site') :
    CredentialsOk site' := by
  obtain ⟨users, rfl⟩ := h
  exact hok.of_eq hkeep rfl rfl

theorem siteRequest_credentials (hok : CredentialsOk site) (m : SiteSurroundings)
    (creds : Option String) (req : SiteRequest) :
    CredentialsOk (siteRequest d.toSiteDeps cfg.toSiteSettings m site creds req).2 := by
  -- A request that leaves the keys and the invites.
  have hsame : ∀ site', gatewayStep d cfg site (.request m creds req) = site' →
      site'.apiKeys = site.apiKeys → site'.invites = site.invites → CredentialsOk site' := by
    rintro site' rfl hkeys hinvites
    exact hok.of_eq (gatewayStep_users d cfg site _).keepsKeys hkeys hinvites
  unfold gatewayStep siteRequest at hsame
  unfold siteRequest
  simp only at hsame
  cases hguard : req.guard.enforce d.toAuthDeps cfg.auth site m.now creds with
  | error e => exact hok
  | ok p =>
    rw [hguard] at hsame
    simp only at hsame ⊢
    cases req with
    | createKey body keyId rawKey =>
      simp only [siteHandler]
      cases callerRow site p with
      | error e => exact hok
      | ok user => exact hok.createApiKey user.id body.label body.scopes keyId rawKey
    | deleteKey keyId => exact hok.revokeApiKey m.now p.userId keyId
    | createInvite body newId token =>
      exact hok.createInvite m.now p.userId _ body.maxUses body.expiresInDays newId token
    | revokeInvite inviteId => exact hok.revokeInvite m.now inviteId
    | updateUser userId body =>
      refine hsame _ rfl (updateUser_apiKeys site p.userId userId body) ?_
      simp only [siteHandler]
      unfold updateUser
      split
      · rfl
      · split_ifs <;> rfl
    | checkout =>
      obtain ⟨users, hout⟩ : OnlyUsers site
          (siteHandler d.toSiteDeps cfg.toSiteSettings m site p .checkout).2 := by
        simp only [siteHandler, withStripe, checkout]
        split_ifs
        · split
          · exact .refl site
          · exact ⟨_, rfl⟩
        · exact .refl site
      exact hsame _ rfl (by rw [hout]; rfl) (by rw [hout]; rfl)
    | portal =>
      simp only [siteHandler, withStripe]
      split_ifs
      · exact hok
      · exact hok
    | agents request => exact hsame _ rfl rfl rfl
    | _ => exact hok

end Credentials

/-! ## Runs -/

section Runs

variable {d : GatewayDeps} {cfg : GatewaySettings} {site : Site}

/-- The accounts change, the rest of the database does not. -/
theorem AgentsOk.withUsers (hok : AgentsOk site.world) {users : Table User User.id}
    (hkeep : KeepsKeys site.world.db.users users) : AgentsOk (site.withUsers users).world :=
  ⟨hok.owners.of_keepsKeys hkeep, hok.slugs, hok.keys, hok.keyHashes, hok.usage.of_keepsKeys hkeep⟩

/-- **One step**: the agents as the writes of a request or the turns of a tick leave them, or only
the accounts changed. -/
theorem AgentsOk.step (hok : AgentsOk site.world) (i : GatewayStep) :
    AgentsOk (gatewayStep d cfg site i).world := by
  by_cases htouch : i.touchesAgents = false
  · rw [gatewayStep_world htouch]
    exact hok.withUsers (gatewayStep_users d cfg site i).keepsKeys
  cases i with
  | request m creds req =>
    cases req with
    | agents request =>
      simp only [gatewayStep, siteRequest]
      cases (SiteRequest.agents request).guard.enforce d.toAuthDeps cfg.auth site m.now creds with
      | error e => exact hok
      | ok p =>
        exact agentsHandler_inv (P := AgentsOk) d.toApiDeps cfg.gateway m.toSurroundings p.userId
          request (fun _ _ hwrite h => h.write hwrite) hok
    | _ => exact absurd rfl htouch
  | visit env req => exact hok.of_eq (route_frame d.toDeps cfg.gateway env site.world req).1
  | tick rt elapsed now flushFails => exact hok.tick cfg.gateway rt elapsed now flushFails
  | _ => exact absurd rfl htouch

/-- A registration. -/
theorem siteRegister_credentials (hok : CredentialsOk site) (r : SignUp) :
    CredentialsOk (siteRegister d.toAuthDeps cfg.auth site r).2 := by
  unfold siteRegister registerUser
  split_ifs with hclosed hemail
  · exact hok
  · exact hok
  · cases hinvites : registrationInvites d.toAuthDeps cfg.auth site r.now r.inviteCode with
    | error e => exact hok
    | ok invites =>
      have hclaimed := hok.registrationInvites hinvites
      simp only
      cases hins : insertUser? site (newUser r.email r.name r.newId)
          (d.hashPassword r.salt r.password) with
      | none => exact hok
      | some site' =>
        unfold insertUser? at hins
        split at hins
        · cases hins
        · obtain ⟨t, ht, rfl⟩ := Option.map_eq_some_iff.mp hins
          exact hclaimed.of_eq (.insert? ht) rfl rfl

/-- **One step** of the gateway keeps the credentials in order. -/
theorem CredentialsOk.step (hok : CredentialsOk site) (i : GatewayStep) :
    CredentialsOk (gatewayStep d cfg site i) := by
  have hkeep := (gatewayStep_users d cfg site i).keepsKeys
  cases i with
  | request m creds req => exact siteRequest_credentials hok m creds req
  | register r => exact siteRegister_credentials hok r
  | login email password => exact hok
  | webhook retrieve payload signature =>
    exact hok.of_onlyUsers hkeep (webhook_onlyUsers retrieve payload signature)
  | visit env req => exact hok.of_eq hkeep rfl rfl
  | tick rt elapsed now flushFails => exact hok.of_eq hkeep rfl rfl
  | setRole email role => exact hok.of_onlyUsers hkeep (setRole_onlyUsers email role)

/-- **One step** of the gateway keeps the tables in order. -/
theorem Integrity.step (hok : Integrity site) (i : GatewayStep) :
    Integrity (gatewayStep d cfg site i) :=
  ⟨hok.accounts.step (gatewayStep_users d cfg site i), hok.agents.step i, hok.credentials.step i⟩

end Runs

/-- **The tables stay in order** in every run of the whole gateway, whatever is requested, delivered
and drawn: unique columns are unique, references lead somewhere, plans are known and no invite is
overspent. -/
theorem integrity_run (d : GatewayDeps) (cfg : GatewaySettings) (site : Site)
    (hok : Integrity site) (steps : List GatewayStep) :
    Integrity (run (gatewayStep d cfg) site steps) :=
  run_preserves (P := Integrity) (fun _ i h => h.step i) steps hok

/-- The tables of an account with a key and an agent are in order. -/
theorem integrity_ownerWithAgent : Integrity ownerWithAgent where
  accounts :=
    ⟨by unfold UniqueOn; decide +kernel, by unfold UniqueOn; decide +kernel, by decide +kernel⟩
  agents := by
    refine ⟨fun a ha => ?_, by unfold UniqueOn; decide +kernel, ?_, ?_, ?_⟩
    · obtain rfl := List.mem_singleton.mp ha
      exact ⟨_, rfl⟩
    · rintro k ⟨⟩
    · rintro k ⟨⟩
    · rintro k ⟨⟩
  credentials := by
    refine ⟨fun k hk => ?_, by unfold UniqueOn; decide +kernel, ?_, ?_⟩
    · obtain rfl := List.mem_singleton.mp hk
      exact ⟨_, rfl⟩
    · rintro k ⟨⟩
    · rintro k ⟨⟩

/-- Someone signs up under the owner's address; the owner deploys the agent and makes a key for it;
the scheduler looks. -/
def busySteps : List GatewayStep :=
  [.register ⟨1, "owner@example.com", "battery staple", "Again", none, 2, ""⟩,
    .request quietSurroundings (some "agnt_k") (.agents (.deploy "a" (some oneReplica))),
    .request quietSurroundings (some "agnt_k") (.agents (.createAccessKey "a" "ci" 7 "t")),
    .tick .obliging none 0 false]

/-- There is still one account of that address; the agent has a key and a usage row. -/
theorem integrity_run_busy :
    Integrity (run (gatewayStep .transparent {}) ownerWithAgent busySteps) ∧
      (run (gatewayStep .transparent {}) ownerWithAgent busySteps).world.db.users.rows.length = 1 ∧
      (run (gatewayStep .transparent {}) ownerWithAgent
        busySteps).world.db.accessKeys.rows.map AgentAccessKey.agentId = ["a"] ∧
      (run (gatewayStep .transparent {}) ownerWithAgent
        busySteps).world.db.usageHours.rows.map UsageHour.userId = [1] :=
  ⟨integrity_run .transparent {} ownerWithAgent integrity_ownerWithAgent busySteps,
    by decide +kernel, by decide +kernel, by decide +kernel⟩

end Gateway
