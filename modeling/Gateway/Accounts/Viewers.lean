import Gateway.Accounts.Api
import Gateway.Accounts.Authority
import Gateway.Agents.Isolation

/-!
# Viewers are read-only

The README: minting and revoking API keys need `developer`, and `viewer` is read-only. Every
endpoint that writes asks for the role, except `DELETE /v1/api-keys/{id}`, which asks only for a
principal.

* `Guard.enforce_ok`: whoever a guard lets in is the current principal, with the role it asks for.
* **`viewer_read_only`**: a viewer's request leaves every table and the containers as they were
  exactly when it does not delete an active key of the viewer's own.
-/

namespace Gateway

open Lib

/-- The tables and the containers are the same. -/
structure SameTables (site site' : Site) : Prop where
  users : site'.world.db.users = site.world.db.users
  passwordHash : site'.passwordHash = site.passwordHash
  agents : site'.world.db.agents = site.world.db.agents
  accessKeys : site'.world.db.accessKeys = site.world.db.accessKeys
  apiKeys : site'.apiKeys = site.apiKeys
  invites : site'.invites = site.invites
  usageHours : site'.world.db.usageHours = site.world.db.usageHours
  containers : site'.world.containers = site.world.containers

theorem SameTables.refl (site : Site) : SameTables site site :=
  ⟨rfl, rfl, rfl, rfl, rfl, rfl, rfl, rfl⟩

/-! ## Whom a guard lets in -/

section Admit

variable {d : AuthDeps} {a : AuthSettings} {site : Site} {now : Instant} {creds : Option String}
  {p q : Principal}

theorem requireJwtPrincipal_ok (h : requireJwtPrincipal d a site now creds = .ok p) :
    getCurrentPrincipal d a site now creds = .ok p := by
  unfold requireJwtPrincipal at h
  unfold getCurrentPrincipal
  cases hb : bearer creds with
  | error e =>
    rw [hb] at h
    cases h
  | ok token =>
    rw [hb] at h
    by_cases hk : isApiKey a token = true
    · simp only [hk, if_true] at h
      cases h
    · simp only [hk] at h ⊢
      exact h

/-- **A guard lets in the current principal**, with the role it asks for. -/
theorem Guard.enforce_ok {g : Guard} (h : g.enforce d a site now creds = .ok p) :
    getCurrentPrincipal d a site now creds = .ok p ∧
      ∀ minimum jwtOnly, g = .role minimum jwtOnly → d.can p.role minimum = true := by
  cases g with
  | currentPrincipal => exact ⟨h, fun _ _ hg => by cases hg⟩
  | role minimum jwtOnly =>
    unfold Guard.enforce requireRole at h
    cases hbase : (if jwtOnly then requireJwtPrincipal d a site now creds
        else getCurrentPrincipal d a site now creds) with
    | error e =>
      simp only [hbase] at h
      cases h
    | ok base =>
      simp only [hbase] at h
      obtain ⟨rfl, hcan⟩ := checkRole_ok.mp h
      refine ⟨?_, fun _ _ hg => by cases hg; exact hcan⟩
      cases jwtOnly with
      | true => exact requireJwtPrincipal_ok hbase
      | false => exact hbase

/-- A guard that asks for more than a viewer has refuses a viewer. -/
theorem Guard.enforce_viewer {g : Guard} {minimum : Role} {jwtOnly : Bool}
    (hp : getCurrentPrincipal d a site now creds = .ok p) (hrole : p.role = .viewer)
    (hg : g = .role minimum jwtOnly) (hmin : minimum ≠ .viewer) :
    ∃ e, g.enforce d a site now creds = .error e := by
  cases hadm : g.enforce d a site now creds with
  | error e => exact ⟨e, rfl⟩
  | ok q =>
    obtain ⟨hq, hcan⟩ := Guard.enforce_ok hadm
    obtain rfl := Except.ok.inj (hp.symm.trans hq)
    have hcan := hcan minimum jwtOnly hg
    rw [hrole] at hcan
    exact absurd (d.can_viewer minimum hcan) hmin

end Admit

/-! ## What a viewer can reach -/

section Viewer

variable {d : SiteDeps} {cfg : SiteSettings} {m : SiteSurroundings} {site : Site}
  {creds : Option String} {p : Principal}

/-- A request refused at the door changes nothing. -/
theorem siteRequest_refused {req : SiteRequest} {minimum : Role} {jwtOnly : Bool}
    (hp : getCurrentPrincipal d.toAuthDeps cfg.auth site m.now creds = .ok p)
    (hrole : p.role = .viewer) (hg : req.guard = .role minimum jwtOnly) (hmin : minimum ≠ .viewer) :
    (siteRequest d cfg m site creds req).2 = site := by
  obtain ⟨e, he⟩ := Guard.enforce_viewer hp hrole hg hmin
  unfold siteRequest
  rw [he]

/-- A request of the current principal, where no role is asked for. -/
theorem siteRequest_current {req : SiteRequest}
    (hp : getCurrentPrincipal d.toAuthDeps cfg.auth site m.now creds = .ok p)
    (hg : req.guard = .currentPrincipal) :
    siteRequest d cfg m site creds req = siteHandler d cfg m site p req := by
  unfold siteRequest
  rw [hg]
  unfold Guard.enforce
  rw [hp]

/-- The agents endpoints that ask for no role only read. -/
theorem agentsHandler_reads {d : ApiDeps} {s : Settings} {m : Surroundings} {w : World} {u : UserId}
    {req : AgentsRequest} (hg : req.guard = .currentPrincipal) :
    (agentsHandler d s m w u req).2 = w := by
  cases req <;> first | rfl | exact Guard.noConfusion hg

/-- What a guard of the agents asks for. -/
theorem AgentsRequest.guard_cases (req : AgentsRequest) :
    req.guard = .currentPrincipal ∨ req.guard = .role .operator false := by
  cases req <;> first | exact .inl rfl | exact .inr rfl

/-- Deleting a key writes exactly when it is an active key of the caller. -/
theorem revokeApiKey_same (site : Site) (now : Instant) (u : UserId) (keyId : ApiKeyId) :
    SameTables site (revokeApiKey site now u keyId).2 ↔
      ¬ ∃ key, site.apiKeys.find? keyId = some key ∧ key.userId = u ∧ key.isActive now = true := by
  unfold revokeApiKey
  cases hf : (site.apiKeys.find? keyId).filter fun k => k.userId = u with
  | none =>
    refine iff_of_true (.refl site) ?_
    rintro ⟨key, hk, hu, -⟩
    rw [hk, Option.filter_some, if_pos (decide_eq_true hu)] at hf
    cases hf
  | some key =>
    obtain ⟨hk, hu⟩ := Option.filter_eq_some_iff.mp hf
    simp only
    by_cases hact : key.isActive now = true
    · rw [if_pos hact]
      refine iff_of_false (fun hsame => ?_) (not_not.mpr ⟨key, hk, of_decide_eq_true hu, hact⟩)
      have hid : key.id = keyId := Table.key_of_find? hk
      have hput : (site.apiKeys.put { key with revokedAt := some now }).find? key.id =
          some { key with revokedAt := some now } :=
        Table.find?_put_self (r := { key with revokedAt := some now }) (hid ▸ hk)
      have happ : site.apiKeys.put { key with revokedAt := some now } = site.apiKeys :=
        hsame.apiKeys
      rw [happ, hid, hk] at hput
      have hrevoked : key.revokedAt = some now :=
        congrArg ApiKey.revokedAt (Option.some.inj hput)
      simp [ApiKey.isActive, hrevoked] at hact
    · rw [if_neg hact]
      refine iff_of_true (.refl site) ?_
      rintro ⟨key', hk', -, hact'⟩
      obtain rfl := Option.some.inj (hk.symm.trans hk')
      exact hact hact'

/-- The request deletes an active API key of `u`. -/
def DeletesOwnKey (site : Site) (now : Instant) (u : UserId) (req : SiteRequest) : Prop :=
  ∃ keyId key, req = .deleteKey keyId ∧ site.apiKeys.find? keyId = some key ∧ key.userId = u ∧
    key.isActive now = true

theorem sameTables_iff_of_eq {site' : Site} {req : SiteRequest} {now : Instant} {u : UserId}
    (hout : site' = site) (hne : ∀ keyId, req ≠ .deleteKey keyId) :
    SameTables site site' ↔ ¬ DeletesOwnKey site now u req := by
  subst hout
  refine iff_of_true (.refl _) ?_
  rintro ⟨keyId, key, hreq, -⟩
  exact hne keyId hreq

end Viewer

/-- **When viewers are read-only.** In every state, a request to any endpoint that authenticates its
caller, by a token or a key of an account whose current role is viewer, leaves every table and the
containers as they were, if and only if it does not delete an active API key of the viewer's own. -/
theorem viewer_read_only (d : SiteDeps) (cfg : SiteSettings) (m : SiteSurroundings) (site : Site)
    (creds : Option String) (req : SiteRequest) (p : Principal)
    (hp : getCurrentPrincipal d.toAuthDeps cfg.auth site m.now creds = .ok p)
    (hrole : p.role = .viewer) :
    SameTables site (siteRequest d cfg m site creds req).2 ↔
      ¬ DeletesOwnKey site m.now p.userId req := by
  -- every endpoint but one is settled by what its guard asks for
  have hrefused : ∀ {minimum : Role} {jwtOnly : Bool}, req.guard = .role minimum jwtOnly →
      minimum ≠ .viewer → (siteRequest d cfg m site creds req).2 = site :=
    siteRequest_refused hp hrole
  have hread : req.guard = .currentPrincipal →
      (siteRequest d cfg m site creds req).2 = (siteHandler d cfg m site p req).2 :=
    fun hg => congrArg Prod.snd (siteRequest_current hp hg)
  cases req with
  | agents request =>
    refine sameTables_iff_of_eq ?_ (by simp)
    rcases request.guard_cases with hg | hg
    · have hsite : { site with world := (agentsHandler d.toApiDeps cfg.gateway m.toSurroundings
          site.world p.userId request).2 } = site := by
        rw [agentsHandler_reads hg]
      exact (hread hg).trans hsite
    · exact hrefused hg (by decide)
  | deleteKey keyId =>
    rw [hread rfl]
    refine (revokeApiKey_same site m.now p.userId keyId).trans (not_congr ?_)
    constructor
    · rintro ⟨key, hkey⟩
      exact ⟨keyId, key, rfl, hkey⟩
    · rintro ⟨_, key, ⟨⟩, hkey⟩
      exact ⟨key, hkey⟩
  | listKeys => exact sameTables_iff_of_eq (hread rfl) (by simp)
  | usage => exact sameTables_iff_of_eq (hread rfl) (by simp)
  | billingStatus => exact sameTables_iff_of_eq (hread rfl) (by simp)
  | me => exact sameTables_iff_of_eq (hread rfl) (by simp)
  | createKey body keyId rawKey => exact sameTables_iff_of_eq (hrefused rfl (by decide)) (by simp)
  | checkout => exact sameTables_iff_of_eq (hrefused rfl (by decide)) (by simp)
  | portal => exact sameTables_iff_of_eq (hrefused rfl (by decide)) (by simp)
  | createInvite body newId token =>
    exact sameTables_iff_of_eq (hrefused rfl (by decide)) (by simp)
  | listInvites => exact sameTables_iff_of_eq (hrefused rfl (by decide)) (by simp)
  | revokeInvite inviteId => exact sameTables_iff_of_eq (hrefused rfl (by decide)) (by simp)
  | listUsers => exact sameTables_iff_of_eq (hrefused rfl (by decide)) (by simp)
  | updateUser userId body => exact sameTables_iff_of_eq (hrefused rfl (by decide)) (by simp)

/-! ## A viewer with a key -/

/-- A choice of the imported functions to run the model with. -/
def SiteDeps.transparent : SiteDeps :=
  { AuthDeps.transparent, ApiDeps.transparent with
    round4 := Rounding.halfEven (1 / 10000) (by norm_num) }

/-- Surroundings in which nothing fails, three microseconds after the epoch. -/
def quietSurroundings : SiteSurroundings where
  runtime := .obliging
  reads := .silent
  now := 3
  stripe :=
    { createCustomer := fun _ => .ok "cus_1"
      createSession := fun _ => .ok "/checkout"
      createPortal := fun _ _ => .ok "/portal" }

/-- The gateway after an account that holds a key was made a viewer. -/
def viewerSite : Site :=
  (run (authorityStep .transparent {}) (History.start freeWorld (fun _ => "quiet river") .empty)
    demotion).site

/-- That account as its key authenticates it. -/
def viewerByKey : Principal where
  userId := 1
  email := "owner@example.com"
  role := .viewer
  authMethod := .apiKey 7

/-- A viewer revokes the key she authenticates with: `api_keys` changes. -/
theorem viewer_deletes_key :
    getCurrentPrincipal SiteDeps.transparent.toAuthDeps {} viewerSite 3 (some "agnt_k") =
        .ok viewerByKey ∧
      viewerByKey.role = .viewer ∧
      ¬ SameTables viewerSite (siteRequest .transparent {} quietSurroundings viewerSite
        (some "agnt_k") (.deleteKey 7)).2 := by
  refine ⟨rfl, rfl, fun hsame => ?_⟩
  have hkeys := congrArg (fun t => t.rows.map ApiKey.revokedAt) hsame.apiKeys
  exact absurd hkeys (by decide)

/-- Any other request of hers, say to delete an agent, leaves everything as it was. -/
theorem viewer_read_only_delete_agent :
    getCurrentPrincipal SiteDeps.transparent.toAuthDeps {} viewerSite 3 (some "agnt_k") =
        .ok viewerByKey ∧
      SameTables viewerSite (siteRequest .transparent {} quietSurroundings viewerSite
        (some "agnt_k") (.agents (.delete "a1"))).2 := by
  refine ⟨rfl, (viewer_read_only .transparent {} quietSurroundings viewerSite (some "agnt_k")
    (.agents (.delete "a1")) viewerByKey rfl rfl).mpr ?_⟩
  rintro ⟨keyId, key, hreq, -⟩
  cases hreq

end Gateway
