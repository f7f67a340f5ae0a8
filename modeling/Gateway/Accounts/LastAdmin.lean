import Gateway.Accounts.Viewers

/-!
# The last admin

`update_user` forbids an admin to demote or deactivate one account only, their own. That is enough
to keep the platform from losing its last admin: whoever sends an accepted request is an active
admin at that moment, and the request leaves that account one. Registrations add an account,
logging in reads, and a billing webhook writes the plan and the Stripe columns of a row but neither
its role nor `is_active`.

* `Guard.enforce_admin`: the caller behind an admin's guard is the row of an active admin.
* `updateUser_hasAdmin`: the caller's row survives the update.
* **`lastAdmin_remains`**: along every run of these requests there is an active admin, if there was
  one at the start.
-/

namespace Gateway

open Lib

/-- An active admin. -/
def User.isActiveAdmin (user : User) : Prop := user.isActive = true ∧ user.role = .admin

instance decidableIsActiveAdmin (user : User) : Decidable user.isActiveAdmin :=
  inferInstanceAs (Decidable (_ ∧ _))

/-- Some account is active with role admin. -/
def HasAdmin (users : Table User User.id) : Prop := ∃ user ∈ users.rows, user.isActiveAdmin

/-! ## Requests -/

/-- A request that can touch accounts, with what it draws. -/
inductive AccountStep where
  | patchUser (surroundings : SiteSurroundings) (creds : Option String) (userId : UserId)
      (body : AdminUserUpdate)
  | register (now : Instant) (email password name : String) (inviteCode : Option String)
      (newId : UserId) (salt : String)
  | login (email password : String)
  | webhook (delivery : Delivery)

/-- `webhook`: the event is applied to the `users` table. -/
def siteWebhook (site : Site) (delivery : Delivery) : Site :=
  { site with
    world := { site.world with
      db := { site.world.db with users := delivered site.world.db.users delivery } } }

/-- `POST /v1/auth/login` reads the account; the token it answers is not stored. -/
def siteLogin (d : AuthDeps) (site : Site)
    (email password : String) : Except ApiError User × Site :=
  (authenticateUser d site email password, site)

/-- One request. -/
def accountStep (d : SiteDeps) (cfg : SiteSettings) (site : Site) : AccountStep → Site
  | .patchUser m creds userId body => (siteRequest d cfg m site creds (.updateUser userId body)).2
  | .register now email password name inviteCode newId salt =>
    (registerUser d.toAuthDeps cfg.auth site now email password name inviteCode newId salt).2
  | .login email password => (siteLogin d.toAuthDeps site email password).2
  | .webhook delivery => siteWebhook site delivery

/-! ## The caller of an admin's request -/

section Caller

variable {d : AuthDeps} {a : AuthSettings} {site : Site} {now : Instant} {creds : Option String}
  {p : Principal}

/-- A principal is read off the row of an active account. -/
def Principal.ReadOff (p : Principal) (users : Table User User.id) : Prop :=
  ∃ user, users.find? p.userId = some user ∧ user.isActive = true ∧ user.role = p.role

theorem loadPrincipal_readOff {users : Table User User.id} {u : UserId} {method : AuthMethod}
    {message : String} (h : loadPrincipal users u method message = .ok p) : p.ReadOff users := by
  have hid := loadPrincipal_userId h
  unfold loadPrincipal at h
  cases hf : users.find? u with
  | none =>
    rw [hf] at h
    cases h
  | some user =>
    rw [hf] at h
    simp only at h
    split at h
    · rename_i hactive
      obtain rfl := Except.ok.inj h
      exact ⟨user, hid ▸ hf, hactive, rfl⟩
    · cases h

theorem getCurrentPrincipal_readOff (h : getCurrentPrincipal d a site now creds = .ok p) :
    p.ReadOff site.world.db.users := by
  unfold getCurrentPrincipal at h
  cases hb : bearer creds with
  | error e =>
    rw [hb] at h
    cases h
  | ok token =>
    rw [hb] at h
    simp only at h
    split at h
    · unfold authenticateApiKey at h
      split at h
      · cases h
      · split at h
        · exact loadPrincipal_readOff h
        · cases h
    · unfold authenticateJwt at h
      split at h
      · cases h
      · split at h
        · cases h
        · exact loadPrincipal_readOff h

/-- **The caller behind an admin's guard is an active admin.** -/
theorem Guard.enforce_admin (h : requireAdmin.enforce d a site now creds = .ok p) :
    ∃ user, site.world.db.users.find? p.userId = some user ∧ user.isActiveAdmin := by
  obtain ⟨hcurrent, hcan⟩ := Guard.enforce_ok h
  obtain ⟨user, hf, hactive, hrole⟩ := getCurrentPrincipal_readOff hcurrent
  refine ⟨user, hf, hactive, ?_⟩
  have hadmin := hcan .admin false rfl
  rw [← hrole] at hadmin
  exact d.can_admin user.role hadmin

end Caller

/-! ## What each request leaves -/

/-- An update that `update_user` accepts leaves the caller an active admin. -/
theorem updatedUser_isActiveAdmin {user : User} {body : AdminUserUpdate} (h : user.isActiveAdmin)
    (hok : ¬ (body.role.any (· ≠ .admin) ∨ body.isActive = some false)) :
    (updatedUser user body).isActiveAdmin := by
  obtain ⟨hactive, hrole⟩ := h
  rw [not_or] at hok
  constructor
  · show body.isActive.getD user.isActive = true
    cases hb : body.isActive with
    | none => exact hactive
    | some b =>
      cases b with
      | true => rfl
      | false => exact absurd hb hok.2
  · show body.role.getD user.role = .admin
    cases hb : body.role with
    | none => exact hrole
    | some r =>
      rw [hb] at hok
      simpa using hok.1

/-- **The caller of an update survives it.** -/
theorem updateUser_hasAdmin {site : Site} {caller : User} (userId : UserId) (body : AdminUserUpdate)
    (hf : site.world.db.users.find? caller.id = some caller) (hcaller : caller.isActiveAdmin) :
    HasAdmin (updateUser site caller.id userId body).2.world.db.users := by
  have hmem := Table.mem_of_find? hf
  unfold updateUser
  cases ht : site.world.db.users.find? userId with
  | none => exact ⟨caller, hmem, hcaller⟩
  | some target =>
    simp only
    split_ifs with hself
    · exact ⟨caller, hmem, hcaller⟩
    · refine Table.exists_mem_put hmem hcaller fun hkey => ?_
      -- The row that is overwritten is the caller's own.
      have htarget : target = caller :=
        site.world.db.users.eq_of_key_eq (Table.mem_of_find? ht) hmem hkey.symm
      subst htarget
      exact updatedUser_isActiveAdmin hcaller fun hbad => hself ⟨rfl, hbad⟩

theorem patchUser_hasAdmin {d : SiteDeps} {cfg : SiteSettings} {m : SiteSurroundings} {site : Site}
    {creds : Option String} {userId : UserId} {body : AdminUserUpdate}
    (h : HasAdmin site.world.db.users) :
    HasAdmin (siteRequest d cfg m site creds (.updateUser userId body)).2.world.db.users := by
  unfold siteRequest
  cases hguard : (SiteRequest.updateUser userId body).guard.enforce d.toAuthDeps cfg.auth site m.now
      creds with
  | error e => exact h
  | ok p =>
    obtain ⟨caller, hf, hcaller⟩ := Guard.enforce_admin hguard
    have hid : caller.id = p.userId := Table.key_of_find? hf
    show HasAdmin (updateUser site p.userId userId body).2.world.db.users
    rw [← hid] at hf ⊢
    exact updateUser_hasAdmin userId body hf hcaller

/-- A registration adds a row and keeps the others. -/
theorem registerUser_mem {d : AuthDeps} {a : AuthSettings} {site : Site} {now : Instant}
    {email password name : String} {inviteCode : Option String} {newId : UserId} {salt : String}
    {user : User} (h : user ∈ site.world.db.users.rows) :
    user ∈ (registerUser d a site now email password name inviteCode newId
      salt).2.world.db.users.rows := by
  unfold registerUser
  split_ifs
  · exact h
  · exact h
  · cases registrationInvites d a site now inviteCode with
    | error e => exact h
    | ok invites =>
      simp only
      cases hi : insertUser? site (newUser email name newId) (d.hashPassword salt password) with
      | none => exact h
      | some site' =>
        unfold insertUser? at hi
        split at hi
        · cases hi
        · obtain ⟨t, ht, rfl⟩ := Option.map_eq_some_iff.mp hi
          show user ∈ t.rows
          rw [(Table.insert?_eq_some ht).1]
          exact List.mem_append_left _ h

/-- What a billing event writes of a row: neither the role nor `is_active`. -/
structure KeepsAccess (user user' : User) : Prop where
  id : user'.id = user.id
  isActive : user'.isActive = user.isActive
  role : user'.role = user.role

theorem KeepsAccess.isActiveAdmin {user user' : User} (h : KeepsAccess user user')
    (hadmin : user.isActiveAdmin) : user'.isActiveAdmin :=
  ⟨h.isActive.trans hadmin.1, h.role.trans hadmin.2⟩

theorem checkedOut_keepsAccess (user : User) (obj : StripeObject) :
    KeepsAccess user (checkedOut user obj) := by
  unfold checkedOut
  simp only
  split_ifs <;> exact ⟨rfl, rfl, rfl⟩

theorem synced_keepsAccess (user : User) (obj : StripeObject) (status : Option String) :
    KeepsAccess user (synced user obj status) := ⟨rfl, rfl, rfl⟩

/-- The user an event is about has a row. -/
theorem findUser_mem {users : Table User User.id} {text customer : Option String} {user : User}
    (h : findUser users text customer = some user) : user ∈ users.rows := by
  unfold findUser at h
  split at h
  · rename_i found hfound
    obtain rfl := Option.some.inj h
    obtain ⟨t, -, ht⟩ := Option.bind_eq_some_iff.mp hfound
    obtain ⟨u, -, hu⟩ := Option.bind_eq_some_iff.mp ht
    exact Table.mem_of_find? hu
  · obtain ⟨c, -, hc⟩ := Option.bind_eq_some_iff.mp h
    exact List.mem_of_find?_eq_some hc

/-- Writing back a row that keeps its access leaves the admins. -/
theorem HasAdmin.put {users : Table User User.id} (h : HasAdmin users) {user user' : User}
    (hmem : user ∈ users.rows) (hkeep : KeepsAccess user user') : HasAdmin (users.put user') := by
  obtain ⟨admin, hadmin, hrole⟩ := h
  refine Table.exists_mem_put hadmin hrole fun hkey => ?_
  have hsame : admin = user := users.eq_of_key_eq hadmin hmem (hkey.trans hkeep.id)
  subst hsame
  exact hkeep.isActiveAdmin hrole

/-- **Everything applying an event can do**: nothing, or the write of a row that keeps its access.
-/
theorem applyEvent_cases {users users' : Table User User.id} {type : EventType}
    {obj : StripeObject} (h : applyEvent users type obj = .ok users') :
    users' = users ∨ ∃ user user', user ∈ users.rows ∧ KeepsAccess user user' ∧
      users' = users.put user' := by
  unfold applyEvent at h
  split at h
  · exact Or.inl (Except.ok.inj h).symm
  · split at h
    · exact Or.inl (Except.ok.inj h).symm
    · rename_i user hfound
      split at h
      · exact Or.inr ⟨user, _, findUser_mem hfound, checkedOut_keepsAccess user obj, saveUser_ok h⟩
      · exact Or.inl (Except.ok.inj h).symm
  · split at h
    · exact Or.inl (Except.ok.inj h).symm
    · rename_i user hfound
      split at h
      · exact Or.inl (Except.ok.inj h).symm
      · exact Or.inr ⟨user, _, findUser_mem hfound, synced_keepsAccess user obj _, saveUser_ok h⟩

theorem delivered_hasAdmin {users : Table User User.id} (delivery : Delivery)
    (h : HasAdmin users) : HasAdmin (delivered users delivery) := by
  unfold delivered
  split
  · rename_i users' hok
    unfold handleEvent at hok
    split at hok
    · cases hok
    · rcases applyEvent_cases hok with rfl | ⟨user, user', hmem, hkeep, rfl⟩
      · exact h
      · exact h.put hmem hkeep
  · exact h

/-! ## Runs -/

/-- **One request.** -/
theorem accountStep_hasAdmin (d : SiteDeps) (cfg : SiteSettings) (site : Site) (i : AccountStep)
    (h : HasAdmin site.world.db.users) : HasAdmin (accountStep d cfg site i).world.db.users := by
  cases i with
  | patchUser m creds userId body => exact patchUser_hasAdmin h
  | register now email password name inviteCode newId salt =>
    obtain ⟨admin, hadmin, hrole⟩ := h
    exact ⟨admin, registerUser_mem hadmin, hrole⟩
  | login email password => exact h
  | webhook delivery => exact delivered_hasAdmin delivery h

/-- **The platform never loses its last admin.** After every sequence of updates by whoever is an
active admin at that moment, registrations, logins and billing webhooks, some account is active with
role admin if one was at the start. -/
theorem lastAdmin_remains (d : SiteDeps) (cfg : SiteSettings) (site : Site)
    (h : HasAdmin site.world.db.users) (steps : List AccountStep) :
    HasAdmin (run (accountStep d cfg) site steps).world.db.users :=
  run_preserves (P := fun site : Site => HasAdmin site.world.db.users)
    (accountStep_hasAdmin d cfg) steps h

/-- Two admins, each with an API key. -/
def twoAdmins : Site where
  world :=
    { db :=
        { users :=
            { rows :=
                [{ freeUser with role := .admin },
                  { id := 2, email := "second@example.com", name := "Second", role := .admin }]
              nodup := by decide } } }
  apiKeys :=
    { rows :=
        [{ id := 1, userId := 1, label := "first", keyPrefix := "agnt_a", keyHash := "agnt_a" },
          { id := 2, userId := 2, label := "second", keyPrefix := "agnt_g", keyHash := "agnt_g" }]
      nodup := by decide }

/-- An update without a plan names no unknown one. -/
theorem known_of_no_plan : ∀ p ∈ (none : Option String), p = defaultPlan ∨ p = paidPlan := by
  rintro p ⟨⟩

/-- The first demotes the second, and then the second tries to deactivate the first. -/
def demoteEachOther : List AccountStep :=
  [.patchUser quietSurroundings (some "agnt_a") 2
      { role := some .viewer, known := known_of_no_plan },
    .patchUser quietSurroundings (some "agnt_g") 1
      { isActive := some false, known := known_of_no_plan }]

/-- The first of them wins, and stays. -/
theorem lastAdmin_remains_demoted :
    HasAdmin (run (accountStep .transparent {}) twoAdmins demoteEachOther).world.db.users ∧
      (run (accountStep .transparent {}) twoAdmins demoteEachOther).world.db.users.rows.map
        (fun user => (user.id, user.role, user.isActive)) =
        [(1, .admin, true), (2, .viewer, true)] := by
  refine ⟨lastAdmin_remains .transparent {} twoAdmins ?_ demoteEachOther, by decide +kernel⟩
  exact ⟨{ freeUser with role := .admin }, List.mem_cons_self, rfl, rfl⟩

end Gateway
