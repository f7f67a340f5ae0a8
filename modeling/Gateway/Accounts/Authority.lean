import Gateway.Accounts.Model
import Gateway.Lib.Log
import Gateway.Lib.Trace

/-!
# Authority follows the current account (`security/dependencies.py`)

Any sequence of `register`, `login`, `create_api_key`, `revoke_api_key` and `update_user`, by any
callers. A `History` is the gateway with a log of the credentials it handed out and withdrew; the
log is ghost state, no function of the gateway reads it.

* `History.Ok` ties the rows of `api_keys` to the log: every minted key has its row, active exactly
  while no revocation of it was logged since, and every row was minted.
* **`authority_follows_account`**: `require_role` admits a token as a user exactly when the log
  says it is an unexpired token or an unrevoked key of that user and the user's current row is
  active with a sufficient role.

PyJWT and the strings minted by `agntspark_core` come in through `JwtContract` and the hypotheses on
the keys drawn in the run.
-/

namespace Gateway

open Lib

/-! ## Operations and the credentials they hand out -/

/-- An operation on accounts and credentials, with the random parts it draws. -/
inductive AuthorityOp where
  | register (email password name : String) (inviteCode : Option String) (newId : UserId)
      (salt jti : String)
  | login (email password jti : String)
  | createApiKey (userId : UserId) (label : String) (scopes : List String) (keyId : ApiKeyId)
      (rawKey : String)
  | revokeApiKey (userId : UserId) (keyId : ApiKeyId)
  | updateUser (principal userId : UserId) (body : AdminUserUpdate)

/-- An operation and the clock it reads. -/
structure AuthorityStep where
  now : Instant
  op : AuthorityOp

/-- The raw key an operation draws. -/
def AuthorityOp.drawn : AuthorityOp → Option String
  | .createApiKey _ _ _ _ rawKey => some rawKey
  | _ => none

/-- A credential handed out or withdrawn. -/
inductive AuthorityEvent where
  | issued (token : String) (userId : UserId) (at_ : Instant)
  | minted (rawKey : String) (userId : UserId) (keyId : ApiKeyId)
  | revoked (keyId : ApiKeyId)
  deriving DecidableEq, Repr

/-- `_token_response`: the token a caller who registered or logged in receives. -/
def tokenResponse (d : AuthDeps) (a : AuthSettings) (user : User) (now : Instant) (jti : String) :
    AuthorityEvent :=
  .issued (createAccessToken d a user now jti).1 user.id now

/-- What an operation hands out or withdraws, and the gateway it leaves. -/
def authorityAct (d : AuthDeps) (a : AuthSettings) (site : Site) (i : AuthorityStep) :
    Option AuthorityEvent × Site :=
  match i.op with
  | .register email password name inviteCode newId salt jti =>
    match registerUser d a site i.now email password name inviteCode newId salt with
    | (.error _, site) => (none, site)
    | (.ok user, site) => (some (tokenResponse d a user i.now jti), site)
  | .login email password jti =>
    match authenticateUser d site email password with
    | .error _ => (none, site)
    | .ok user => (some (tokenResponse d a user i.now jti), site)
  | .createApiKey userId label scopes keyId rawKey =>
    match createApiKey d site userId label scopes keyId rawKey with
    | (.error _, site) => (none, site)
    | (.ok (key, rawKey), site) => (some (.minted rawKey key.userId key.id), site)
  | .revokeApiKey userId keyId =>
    match revokeApiKey site i.now userId keyId with
    | (.error _, site) => (none, site)
    | (.ok _, site) => (some (.revoked keyId), site)
  | .updateUser principal userId body => (none, (updateUser site principal userId body).2)

/-- The gateway and the log of its credentials, oldest first. -/
structure History where
  site : Site
  log : List AuthorityEvent := []

/-- A gateway that has minted no key and issued no token yet, with any accounts and invites. -/
def History.start (world : World) (passwordHash : UserId → String)
    (invites : Table Invite Invite.id) : History where
  site :=
    { world := world
      passwordHash := passwordHash
      invites := invites }

/-- One operation. -/
def authorityStep (d : AuthDeps) (a : AuthSettings) (h : History) (i : AuthorityStep) :
    History where
  site := (authorityAct d a h.site i).2
  log := h.log ++ (authorityAct d a h.site i).1.toList

/-! ## What the log says of a token -/

/-- When a token issued at an instant expires. -/
def expiry (a : AuthSettings) (at_ : Instant) : Instant :=
  toSeconds (at_ + a.jwtExpireMinutes * 60 * 1000000) * 1000000

/-- `t` is an unexpired token issued for `u`. -/
def JwtHeld (a : AuthSettings) (log : List AuthorityEvent) (now : Instant) (t : String)
    (u : UserId) : Prop :=
  ∃ at_, .issued t u at_ ∈ log ∧ now < expiry a at_

/-- `t` is a key minted for `u` and not revoked since. -/
def KeyHeld (log : List AuthorityEvent) (t : String) (u : UserId) : Prop :=
  ∃ before k after, log = before ++ .minted t u k :: after ∧ .revoked k ∉ after

/-- What the gateway relies on in PyJWT: the signature of a token it encoded verifies to the
payload, and a token is not empty and not in the format of a key. -/
structure JwtContract (d : AuthDeps) (a : AuthSettings) : Prop where
  verify_encode : ∀ c, d.verifyJwt (d.encodeJwt c) = some c
  encode_ne_empty : ∀ c, d.encodeJwt c ≠ ""
  encode_not_key : ∀ c, isApiKey a (d.encodeJwt c) = false

/-! ## One operation -/

section Step

variable {d : AuthDeps} {a : AuthSettings}

theorem registerUser_apiKeys (d : AuthDeps) (a : AuthSettings) (site : Site) (now : Instant)
    (email password name : String) (code : Option String) (newId : UserId) (salt : String) :
    (registerUser d a site now email password name code newId salt).2.apiKeys = site.apiKeys := by
  unfold registerUser
  split_ifs
  · rfl
  · rfl
  · cases registrationInvites d a site now code with
    | error e => rfl
    | ok invites =>
      cases hins : insertUser? site (newUser email name newId) (d.hashPassword salt password) with
      | none => simp only [hins]
      | some site' =>
        simp only [hins]
        unfold insertUser? at hins
        split_ifs at hins
        obtain ⟨t, -, rfl⟩ := Option.map_eq_some_iff.mp hins
        rfl

theorem updateUser_apiKeys (site : Site) (principal userId : UserId) (body : AdminUserUpdate) :
    (updateUser site principal userId body).2.apiKeys = site.apiKeys := by
  unfold updateUser
  cases site.world.db.users.find? userId with
  | none => rfl
  | some user =>
    simp only
    split_ifs <;> rfl

theorem createApiKey_ok {site site' : Site} {userId : UserId} {label : String}
    {scopes : List String} {keyId : ApiKeyId} {rawKey : String} {out : ApiKey × String}
    (h : createApiKey d site userId label scopes keyId rawKey = (.ok out, site')) :
    out = (newApiKey d userId label scopes keyId rawKey, rawKey) ∧
      d.sha256 rawKey ∉ site.apiKeys.rows.map ApiKey.keyHash ∧
      site.apiKeys.insert? (newApiKey d userId label scopes keyId rawKey) = some site'.apiKeys := by
  unfold createApiKey at h
  cases hins : insertApiKey? site (newApiKey d userId label scopes keyId rawKey) with
  | none =>
    simp only [hins] at h
    cases (Prod.ext_iff.mp h).1
  | some site₁ =>
    simp only [hins] at h
    obtain ⟨hout, rfl⟩ := Prod.ext_iff.mp h
    unfold insertApiKey? at hins
    split_ifs at hins with hfree
    obtain ⟨t, ht, rfl⟩ := Option.map_eq_some_iff.mp hins
    exact ⟨(Except.ok.inj hout).symm, fun hm => hfree (.inr hm), ht⟩

theorem revokeApiKey_ok {site site' : Site} {now : Instant} {userId : UserId} {keyId : ApiKeyId}
    (h : revokeApiKey site now userId keyId = (.ok (), site')) :
    ∃ key, site.apiKeys.find? keyId = some key ∧ key.userId = userId ∧
      site'.apiKeys = site.apiKeys.put { key with revokedAt := some now } := by
  unfold revokeApiKey at h
  cases hf : (site.apiKeys.find? keyId).filter fun k => k.userId = userId with
  | none =>
    simp only [hf] at h
    cases (Prod.ext_iff.mp h).1
  | some key =>
    simp only [hf] at h
    obtain ⟨hk, hu⟩ := Option.filter_eq_some_iff.mp hf
    split_ifs at h with hact
    · obtain ⟨-, rfl⟩ := Prod.ext_iff.mp h
      exact ⟨key, hk, by simpa using hu, rfl⟩
    · cases (Prod.ext_iff.mp h).1

/-- A failed creation or revocation changes nothing. -/
theorem createApiKey_error {site site' : Site} {userId : UserId} {label : String}
    {scopes : List String} {keyId : ApiKeyId} {rawKey : String} {e : ApiError}
    (h : createApiKey d site userId label scopes keyId rawKey = (.error e, site')) :
    site' = site := by
  unfold createApiKey at h
  cases hins : insertApiKey? site (newApiKey d userId label scopes keyId rawKey) with
  | none =>
    simp only [hins] at h
    exact (Prod.ext_iff.mp h).2.symm
  | some site₁ =>
    simp only [hins] at h
    cases (Prod.ext_iff.mp h).1

theorem revokeApiKey_error {site site' : Site} {now : Instant} {userId : UserId}
    {keyId : ApiKeyId} {e : ApiError}
    (h : revokeApiKey site now userId keyId = (.error e, site')) : site' = site := by
  unfold revokeApiKey at h
  cases hf : (site.apiKeys.find? keyId).filter fun k => k.userId = userId with
  | none =>
    simp only [hf] at h
    exact (Prod.ext_iff.mp h).2.symm
  | some key =>
    simp only [hf] at h
    split_ifs at h
    · cases (Prod.ext_iff.mp h).1
    · exact (Prod.ext_iff.mp h).2.symm

/-- **What an operation can do** to the keys and the log: nothing, issue a token, mint a key under a
free id and a free hash, or revoke the key of a row. -/
theorem authorityAct_cases (d : AuthDeps) (a : AuthSettings) (site : Site) (i : AuthorityStep) :
    (∀ e ∈ (authorityAct d a site i).1, ∃ user jti, e = tokenResponse d a user i.now jti) ∧
        (authorityAct d a site i).2.apiKeys = site.apiKeys ∨
      (∃ key raw, (authorityAct d a site i).1 = some (.minted raw key.userId key.id) ∧
        i.op.drawn = some raw ∧ key.keyHash = d.sha256 raw ∧ key.expiresAt = none ∧
        key.revokedAt = none ∧ d.sha256 raw ∉ site.apiKeys.rows.map ApiKey.keyHash ∧
        site.apiKeys.insert? key = some (authorityAct d a site i).2.apiKeys) ∨
      ∃ key, (authorityAct d a site i).1 = some (.revoked key.id) ∧
        site.apiKeys.find? key.id = some key ∧
        (authorityAct d a site i).2.apiKeys =
          site.apiKeys.put { key with revokedAt := some i.now } := by
  obtain ⟨now, op⟩ := i
  cases op with
  | register email password name code newId salt jti =>
    left
    have hkeys := registerUser_apiKeys d a site now email password name code newId salt
    unfold authorityAct
    simp only
    generalize registerUser d a site now email password name code newId salt = out at hkeys
    obtain ⟨_ | user, site'⟩ := out
    · exact ⟨fun e he => absurd he (by simp), hkeys⟩
    · refine ⟨fun e he => ⟨user, jti, ?_⟩, hkeys⟩
      simpa using he.symm
  | login email password jti =>
    left
    unfold authorityAct
    simp only
    cases authenticateUser d site email password with
    | error e => exact ⟨fun e he => absurd he (by simp), rfl⟩
    | ok user =>
      refine ⟨fun e he => ⟨user, jti, ?_⟩, rfl⟩
      simpa using he.symm
  | createApiKey userId label scopes keyId rawKey =>
    cases hout : createApiKey d site userId label scopes keyId rawKey with
    | mk res site' =>
      unfold authorityAct
      simp only [hout]
      cases res with
      | error e =>
        left
        rw [createApiKey_error hout]
        exact ⟨fun e he => absurd he (by simp), rfl⟩
      | ok out =>
        right; left
        obtain ⟨rfl, hhash, hins⟩ := createApiKey_ok hout
        exact ⟨_, rawKey, rfl, rfl, rfl, rfl, rfl, hhash, hins⟩
  | revokeApiKey userId keyId =>
    cases hout : revokeApiKey site now userId keyId with
    | mk res site' =>
      unfold authorityAct
      simp only [hout]
      cases res with
      | error e =>
        left
        rw [revokeApiKey_error hout]
        exact ⟨fun e he => absurd he (by simp), rfl⟩
      | ok _ =>
        right; right
        obtain ⟨key, hf, -, hput⟩ := revokeApiKey_ok hout
        obtain rfl : key.id = keyId := Table.key_of_find? hf
        exact ⟨key, rfl, hf, hput⟩
  | updateUser principal userId body =>
    left
    exact ⟨fun e he => absurd he (by simp [authorityAct]), updateUser_apiKeys ..⟩

end Step

/-! ## The keys and the log -/

/-- What ties a history to its log, when its operations read no clock past `now` and drew keys that
meet `Q`. -/
structure History.Ok (d : AuthDeps) (a : AuthSettings) (now : Instant) (Q : String → Prop)
    (h : History) : Prop where
  issued : ∀ token u at_, .issued token u at_ ∈ h.log →
    at_ ≤ now ∧ ∃ user jti, user.id = u ∧ token = d.encodeJwt (accessClaims a user at_ jti)
  minted : ∀ before raw u k after, h.log = before ++ .minted raw u k :: after →
    Q raw ∧ ∃ key, h.site.apiKeys.find? k = some key ∧ key.userId = u ∧
      key.keyHash = d.sha256 raw ∧ key.expiresAt = none ∧
      (key.revokedAt = none ↔ .revoked k ∉ after)
  rows : ∀ key ∈ h.site.apiKeys.rows, ∃ raw, .minted raw key.userId key.id ∈ h.log
  hashes : ∀ x ∈ h.site.apiKeys.rows, ∀ y ∈ h.site.apiKeys.rows, x.keyHash = y.keyHash → x = y

section Run

variable {d : AuthDeps} {a : AuthSettings} {now : Instant} {Q : String → Prop} {h : History}

theorem History.Ok.start (world : World) (passwordHash : UserId → String)
    (invites : Table Invite Invite.id) :
    (History.start world passwordHash invites).Ok d a now Q where
  issued _ _ _ he := absurd he List.not_mem_nil
  minted before raw u k after hs := absurd hs.symm (by simp [History.start])
  rows _ hk := absurd hk List.not_mem_nil
  hashes _ hx := absurd hx List.not_mem_nil

/-- A token issued no later than `now`. -/
theorem History.Ok.issue (hok : h.Ok d a now Q) {site : Site}
    (hkeys : site.apiKeys = h.site.apiKeys) {user : User} {at_ : Instant} {jti : String}
    (hat : at_ ≤ now) :
    History.Ok d a now Q ⟨site, h.log ++ [tokenResponse d a user at_ jti]⟩ where
  issued token u t he := by
    rcases List.mem_append.mp he with he | he
    · exact hok.issued token u t he
    · obtain ⟨rfl, rfl, rfl⟩ := AuthorityEvent.issued.inj (List.mem_singleton.mp he)
      exact ⟨hat, user, jti, rfl, rfl⟩
  minted before raw u k after hs := by
    rcases split_concat hs with ⟨-, -, hm⟩ | ⟨rest, rfl, hl⟩
    · cases hm
    · obtain ⟨hQ, key, hf, hu, hh, hx, hr⟩ := hok.minted before raw u k rest hl
      refine ⟨hQ, key, hkeys ▸ hf, hu, hh, hx, hr.trans ?_⟩
      simp [tokenResponse]
  rows key hk := by
    obtain ⟨raw, hm⟩ := hok.rows key (hkeys ▸ hk)
    exact ⟨raw, List.mem_append_left _ hm⟩
  hashes x hx y hy := hok.hashes x (hkeys ▸ hx) y (hkeys ▸ hy)

/-- A key minted under a free id with a hash no row has. -/
theorem History.Ok.mint (hok : h.Ok d a now Q) {site : Site} {key : ApiKey} {raw : String}
    (hQ : Q raw) (hhash : key.keyHash = d.sha256 raw) (hexp : key.expiresAt = none)
    (hrev : key.revokedAt = none) (hfree : d.sha256 raw ∉ h.site.apiKeys.rows.map ApiKey.keyHash)
    (hins : h.site.apiKeys.insert? key = some site.apiKeys) :
    History.Ok d a now Q ⟨site, h.log ++ [.minted raw key.userId key.id]⟩ where
  issued token u t he := by
    rcases List.mem_append.mp he with he | he
    · exact hok.issued token u t he
    · cases List.mem_singleton.mp he
  minted before raw' u k after hs := by
    rcases split_concat hs with ⟨-, rfl, hm⟩ | ⟨rest, rfl, hl⟩
    · obtain ⟨rfl, rfl, rfl⟩ := AuthorityEvent.minted.inj hm
      refine ⟨hQ, key, Table.find?_insert?_self hins, rfl, hhash, hexp, ?_⟩
      simp [hrev]
    · obtain ⟨hQ', old, hf, hu, hh, hx, hr⟩ := hok.minted before raw' u k rest hl
      have hne : k ≠ key.id := by
        rintro rfl
        exact (Table.insert?_eq_some hins).2 old (Table.mem_of_find? hf) (Table.key_of_find? hf)
      refine ⟨hQ', old, (Table.find?_insert?_of_ne hins hne).trans hf, hu, hh, hx, hr.trans ?_⟩
      simp
  rows x hx := by
    have hx : x ∈ h.site.apiKeys.rows ++ [key] := (Table.insert?_eq_some hins).1 ▸ hx
    rcases List.mem_append.mp hx with hx | hx
    · obtain ⟨raw', hm⟩ := hok.rows x hx
      exact ⟨raw', List.mem_append_left _ hm⟩
    · obtain rfl := List.mem_singleton.mp hx
      exact ⟨raw, by simp⟩
  hashes x hx y hy hxy := by
    have hnew : ∀ z ∈ h.site.apiKeys.rows, z.keyHash ≠ key.keyHash := fun z hz hzk =>
      hfree (List.mem_map.mpr ⟨z, hz, hzk.trans hhash⟩)
    have hx : x ∈ h.site.apiKeys.rows ++ [key] := (Table.insert?_eq_some hins).1 ▸ hx
    have hy : y ∈ h.site.apiKeys.rows ++ [key] := (Table.insert?_eq_some hins).1 ▸ hy
    rcases List.mem_append.mp hx with hx | hx <;> rcases List.mem_append.mp hy with hy | hy
    · exact hok.hashes x hx y hy hxy
    · rw [List.mem_singleton.mp hy] at hxy
      exact absurd hxy (hnew x hx)
    · rw [List.mem_singleton.mp hx] at hxy
      exact absurd hxy.symm (hnew y hy)
    · rw [List.mem_singleton.mp hx, List.mem_singleton.mp hy]

/-- A revocation of the key of a row. -/
theorem History.Ok.revoke (hok : h.Ok d a now Q) {site : Site} {key : ApiKey} {at_ : Instant}
    (hf : h.site.apiKeys.find? key.id = some key)
    (hput : site.apiKeys = h.site.apiKeys.put { key with revokedAt := some at_ }) :
    History.Ok d a now Q ⟨site, h.log ++ [.revoked key.id]⟩ where
  issued token u t he := by
    rcases List.mem_append.mp he with he | he
    · exact hok.issued token u t he
    · cases List.mem_singleton.mp he
  minted before raw u k after hs := by
    rcases split_concat hs with ⟨-, -, hm⟩ | ⟨rest, rfl, hl⟩
    · cases hm
    · obtain ⟨hQ, old, hold, hu, hh, hx, hr⟩ := hok.minted before raw u k rest hl
      by_cases hk : k = key.id
      · subst hk
        obtain rfl := Option.some.inj (hf.symm.trans hold)
        refine ⟨hQ, { key with revokedAt := some at_ }, ?_, hu, hh, hx, by simp⟩
        show site.apiKeys.find? key.id = _
        rw [hput]
        exact Table.find?_put_self (r := { key with revokedAt := some at_ }) hf
      · refine ⟨hQ, old, ?_, hu, hh, hx, hr.trans ?_⟩
        · show site.apiKeys.find? k = _
          rw [hput, ← hold]
          exact Table.find?_put_of_ne _ hk
        · simp [hk]
  rows x hx := by
    have hx : x ∈ (h.site.apiKeys.put { key with revokedAt := some at_ }).rows := hput ▸ hx
    have hlogged : ∀ z ∈ h.site.apiKeys.rows, ∃ raw,
        .minted raw z.userId z.id ∈ h.log ++ [.revoked key.id] := fun z hz => by
      obtain ⟨raw, hm⟩ := hok.rows z hz
      exact ⟨raw, List.mem_append_left _ hm⟩
    rcases Table.mem_put hx with rfl | ⟨hx, -⟩
    · exact hlogged key (Table.mem_of_find? hf)
    · exact hlogged x hx
  hashes x hx y hy hxy := by
    have hx : x ∈ (h.site.apiKeys.put { key with revokedAt := some at_ }).rows := hput ▸ hx
    have hy : y ∈ (h.site.apiKeys.put { key with revokedAt := some at_ }).rows := hput ▸ hy
    have hkey : ∀ z ∈ h.site.apiKeys.rows, z.keyHash = key.keyHash → z = key := fun z hz hzk =>
      hok.hashes z hz key (Table.mem_of_find? hf) hzk
    rcases Table.mem_put hx with rfl | ⟨hx, hxk⟩ <;> rcases Table.mem_put hy with rfl | ⟨hy, hyk⟩
    · rfl
    · exact absurd (congrArg ApiKey.id (hkey y hy hxy.symm)) hyk
    · exact absurd (congrArg ApiKey.id (hkey x hx hxy)) hxk
    · exact hok.hashes x hx y hy hxy

/-- Each operation keeps the log true to the keys. -/
theorem authorityStep_ok (hok : h.Ok d a now Q) {i : AuthorityStep} (hnow : i.now ≤ now)
    (hQ : ∀ raw ∈ i.op.drawn, Q raw) : (authorityStep d a h i).Ok d a now Q := by
  unfold authorityStep
  rcases authorityAct_cases d a h.site i with
    ⟨hlog, hkeys⟩ | ⟨key, raw, he, hdrawn, hhash, hexp, hrev, hfree, hins⟩ | ⟨key, he, hf, hput⟩
  · cases he : (authorityAct d a h.site i).1 with
    | none =>
      have hsame : h.log ++ (none : Option AuthorityEvent).toList = h.log := List.append_nil _
      rw [hsame]
      refine ⟨hok.issued, ?_, ?_, ?_⟩
      · simpa only [hkeys] using hok.minted
      · simpa only [hkeys] using hok.rows
      · simpa only [hkeys] using hok.hashes
    | some e =>
      obtain ⟨user, jti, rfl⟩ := hlog e he
      exact hok.issue hkeys hnow
  · rw [he]
    exact hok.mint (hQ raw hdrawn) hhash hexp hrev hfree hins
  · rw [he]
    exact hok.revoke hf hput

theorem authority_run_ok (world : World) (passwordHash : UserId → String)
    (invites : Table Invite Invite.id) {steps : List AuthorityStep}
    (hnow : ∀ i ∈ steps, i.now ≤ now) (hQ : ∀ i ∈ steps, ∀ raw ∈ i.op.drawn, Q raw) :
    (run (authorityStep d a) (History.start world passwordHash invites) steps).Ok d a now Q :=
  run_inv (P := History.Ok d a now Q) (G := fun _ i => i.now ≤ now ∧ ∀ raw ∈ i.op.drawn, Q raw)
    (fun _ _ hok hi => authorityStep_ok hok hi.1 hi.2) steps (History.Ok.start ..)
    (along_of_forall steps _ fun i hi => ⟨hnow i hi, hQ i hi⟩)

end Run

/-! ## Who is admitted -/

/-- The current row of `u` is active, with a role that can do `r`. -/
def CurrentlyCan (d : Deps) (users : Table User User.id) (u : UserId) (r : Role) : Prop :=
  ∃ user, users.find? u = some user ∧ user.isActive = true ∧ d.can user.role r = true

/-- An authentication answers `u`, with a role that can do `r`. -/
def AnswersAs (d : Deps) (res : Except ApiError Principal) (u : UserId) (r : Role) : Prop :=
  ∃ p, res = .ok p ∧ p.userId = u ∧ d.can p.role r = true

section Admission

variable {d : AuthDeps} {a : AuthSettings} {now : Instant} {Q : String → Prop} {h : History}
  {t : String} {u : UserId} {r : Role}

theorem answersAs_error (e : ApiError) : ¬ AnswersAs d.toDeps (.error e) u r := by
  rintro ⟨p, hp, -⟩
  cases hp

/-- Both authentications end in the current row of the account. -/
theorem loadPrincipal_answersAs (users : Table User User.id) (v : UserId) (method : AuthMethod)
    (message : String) :
    AnswersAs d.toDeps (loadPrincipal users v method message) u r ↔
      v = u ∧ CurrentlyCan d.toDeps users u r := by
  unfold loadPrincipal
  cases hf : users.find? v with
  | none =>
    refine iff_of_false (answersAs_error _) ?_
    rintro ⟨rfl, user, hu, -⟩
    rw [hf] at hu
    cases hu
  | some user =>
    have hid : user.id = v := Table.key_of_find? hf
    simp only
    split_ifs with hact
    · constructor
      · rintro ⟨p, hp, rfl, hcan⟩
        obtain rfl := Except.ok.inj hp
        exact ⟨hid.symm, user, hid ▸ hf, hact, hcan⟩
      · rintro ⟨rfl, user', hu, -, hcan⟩
        obtain rfl := Option.some.inj (hf.symm.trans hu)
        exact ⟨_, rfl, hid, hcan⟩
    · refine iff_of_false (answersAs_error _) ?_
      rintro ⟨rfl, user', hu, hact', -⟩
      obtain rfl := Option.some.inj (hf.symm.trans hu)
      exact hact hact'

theorem checkRole_ok {p q : Principal} :
    checkRole d.toDeps r p = .ok q ↔ q = p ∧ d.can p.role r = true := by
  unfold checkRole
  split_ifs with hcan
  · simp [hcan, eq_comm]
  · simp [hcan]

/-- The payload says for whom a token is and when it expires. -/
theorem accessClaims_inj {user user' : User} {at_ at_' : Instant} {jti jti' : String}
    (he : accessClaims a user at_ jti = accessClaims a user' at_' jti') :
    user.id = user'.id ∧ expiry a at_ = expiry a at_' := by
  unfold accessClaims at he
  simp only [Claims.mk.injEq, Option.some.injEq] at he
  obtain ⟨hsub, -, -, -, -, hexp, -⟩ := he
  refine ⟨?_, congrArg (· * 1000000) hexp⟩
  have hparse := congrArg Uuid.parse hsub
  rw [Uuid.parse_format, Uuid.parse_format] at hparse
  exact Option.some.inj hparse

/-- `jwt.decode` accepts the payload of a token issued in the past until it expires. -/
theorem accessClaims_valid {user : User} {at_ : Instant} {jti : String} (hat : at_ ≤ now) :
    (accessClaims a user at_ jti).valid now = true ↔ now < expiry a at_ := by
  have hiat : toSeconds at_ * 1000000 ≤ now :=
    le_trans (Int.ediv_mul_le at_ (by decide)) hat
  simp [Claims.valid, accessClaims, expiry, hiat]

/-- For whom an issued token is good, and until when. -/
theorem jwtHeld_iff (hjwt : JwtContract d a) (hok : h.Ok d a now Q) {v : UserId} {at_ : Instant}
    (he : .issued t v at_ ∈ h.log) :
    JwtHeld a h.log now t u ↔ v = u ∧ now < expiry a at_ := by
  constructor
  · rintro ⟨at_', he', hnow⟩
    obtain ⟨-, user, jti, rfl, ht⟩ := hok.issued t v at_ he
    obtain ⟨-, user', jti', rfl, ht'⟩ := hok.issued t u at_' he'
    have hpayload : some (accessClaims a user at_ jti) = some (accessClaims a user' at_' jti') := by
      rw [← hjwt.verify_encode, ← hjwt.verify_encode, ← ht, ← ht']
    obtain ⟨hid, hexp⟩ := accessClaims_inj (Option.some.inj hpayload)
    exact ⟨hid, hexp ▸ hnow⟩
  · rintro ⟨rfl, hnow⟩
    exact ⟨at_, he, hnow⟩

theorem JwtHeld.encoded (hok : h.Ok d a now Q) (hheld : JwtHeld a h.log now t u) :
    ∃ c, t = d.encodeJwt c := by
  obtain ⟨at_, he, -⟩ := hheld
  obtain ⟨-, user, jti, -, ht⟩ := hok.issued t u at_ he
  exact ⟨_, ht⟩

theorem authenticateJwt_of_verify {site : Site} {c : Claims} {v : UserId}
    (hv : d.verifyJwt t = some c) (hsub : c.sub = some (Uuid.format v)) :
    AnswersAs d.toDeps (authenticateJwt d site now t) u r ↔
      c.valid now = true ∧ v = u ∧ CurrentlyCan d.toDeps site.world.db.users u r := by
  unfold authenticateJwt decodeAccessToken
  rw [hv]
  by_cases hvalid : c.valid now = true
  · simp only [hvalid, if_true, hsub, Option.bind_some, Uuid.parse_format, true_and]
    exact loadPrincipal_answersAs ..
  · simp only [if_neg hvalid]
    exact iff_of_false (answersAs_error _) fun hr => hvalid hr.1

/-- **The JWT path**: the issued token names the account, whose row decides. -/
theorem authenticateJwt_answersAs (hjwt : JwtContract d a) (hok : h.Ok d a now Q)
    (hforge : ∀ c, d.verifyJwt t = some c → ∃ v at_, .issued t v at_ ∈ h.log) :
    AnswersAs d.toDeps (authenticateJwt d h.site now t) u r ↔
      JwtHeld a h.log now t u ∧ CurrentlyCan d.toDeps h.site.world.db.users u r := by
  cases hv : d.verifyJwt t with
  | none =>
    have herror : authenticateJwt d h.site now t =
        .error (.authentication "Invalid or expired token.") := by
      unfold authenticateJwt decodeAccessToken
      rw [hv]
    rw [herror]
    refine iff_of_false (answersAs_error _) fun hheld => ?_
    obtain ⟨c, rfl⟩ := hheld.1.encoded hok
    rw [hjwt.verify_encode] at hv
    cases hv
  | some c =>
    obtain ⟨v, at_, he⟩ := hforge c hv
    rw [jwtHeld_iff hjwt hok he]
    obtain ⟨hat, user, jti, rfl, rfl⟩ := hok.issued t v at_ he
    obtain rfl := Option.some.inj ((hjwt.verify_encode _).symm.trans hv)
    rw [authenticateJwt_of_verify hv rfl, accessClaims_valid hat]
    tauto

/-- For whom the key of a row is good. -/
theorem keyHeld_iff (hok : h.Ok d a now Q)
    (hsha : ∀ raw, Q raw → d.sha256 raw = d.sha256 t → raw = t)
    {key : ApiKey} (hkey : key ∈ h.site.apiKeys.rows) (hhash : key.keyHash = d.sha256 t) :
    KeyHeld h.log t u ↔ key.userId = u ∧ key.isActive now = true := by
  constructor
  · rintro ⟨before, k, after, hlog, hsince⟩
    obtain ⟨-, found, hf, hu, hh, hx, hr⟩ := hok.minted before t u k after hlog
    obtain rfl := hok.hashes found (Table.mem_of_find? hf) key hkey (hh.trans hhash.symm)
    exact ⟨hu, by simp [ApiKey.isActive, hx, hr.mpr hsince]⟩
  · rintro ⟨rfl, hact⟩
    obtain ⟨raw, hm⟩ := hok.rows key hkey
    obtain ⟨before, after, hlog⟩ := List.append_of_mem hm
    obtain ⟨hQ, found, hf, -, hh, -, hr⟩ := hok.minted before raw key.userId key.id after hlog
    obtain rfl := Option.some.inj ((Table.find?_of_mem hkey).symm.trans hf)
    obtain rfl := hsha raw hQ (hh.symm.trans hhash)
    refine ⟨before, key.id, after, hlog, hr.mp ?_⟩
    unfold ApiKey.isActive at hact
    exact Option.isNone_iff_eq_none.mp (Bool.and_eq_true_iff.mp hact).1

/-- **The key path**: the hash finds the minted key, whose account's row decides. -/
theorem authenticateApiKey_answersAs (hok : h.Ok d a now Q)
    (hsha : ∀ raw, Q raw → d.sha256 raw = d.sha256 t → raw = t) :
    AnswersAs d.toDeps (authenticateApiKey d h.site now t) u r ↔
      KeyHeld h.log t u ∧ CurrentlyCan d.toDeps h.site.world.db.users u r := by
  unfold authenticateApiKey
  cases hf : h.site.apiKeys.rows.find? fun k => k.keyHash = d.sha256 t with
  | none =>
    refine iff_of_false (answersAs_error _) ?_
    rintro ⟨⟨before, k, after, hlog, -⟩, -⟩
    obtain ⟨-, key, hk, -, hh, -⟩ := hok.minted before t u k after hlog
    exact List.find?_eq_none.mp hf key (Table.mem_of_find? hk) (decide_eq_true hh)
  | some key =>
    have hhash : key.keyHash = d.sha256 t := by simpa using List.find?_some hf
    rw [keyHeld_iff hok hsha (List.mem_of_find?_eq_some hf) hhash]
    simp only
    split_ifs with hact
    · simp only [hact, and_true]
      exact loadPrincipal_answersAs ..
    · exact iff_of_false (answersAs_error _) fun hr => hact hr.1.2

theorem isApiKey_empty (a : AuthSettings) : isApiKey a "" = false := by
  unfold isApiKey
  rw [String.toList_append]
  cases a.apiKeyPrefix.toList <;> rfl

/-- What `require_role` checks once the request has a token. -/
theorem requireRole_answers {site : Site} {jwtOnly : Bool} (ht : t ≠ "") :
    (∃ p, requireRole d a r jwtOnly site now (some t) = .ok p ∧ p.userId = u) ↔
      AnswersAs d.toDeps (if isApiKey a t then
          if jwtOnly then
            .error (.authentication "This action requires a logged-in session, not an API key.")
          else authenticateApiKey d site now t
        else authenticateJwt d site now t) u r := by
  have hbase : (if jwtOnly then requireJwtPrincipal d a site now (some t)
      else getCurrentPrincipal d a site now (some t)) =
        if isApiKey a t then
          if jwtOnly then
            .error (.authentication "This action requires a logged-in session, not an API key.")
          else authenticateApiKey d site now t
        else authenticateJwt d site now t := by
    unfold requireJwtPrincipal getCurrentPrincipal bearer
    rw [truthy_some ht]
    cases jwtOnly <;> rfl
  unfold requireRole
  rw [hbase]
  generalize (if isApiKey a t then _ else _ : Except ApiError Principal) = res
  cases res with
  | error e => exact iff_of_false (by simp) (answersAs_error e)
  | ok p =>
    constructor
    · rintro ⟨q, hq, hu⟩
      obtain ⟨rfl, hcan⟩ := checkRole_ok.mp hq
      exact ⟨q, rfl, hu, hcan⟩
    · rintro ⟨q, hq, hu, hcan⟩
      obtain rfl := Except.ok.inj hq
      exact ⟨p, checkRole_ok.mpr ⟨rfl, hcan⟩, hu⟩

end Admission

/-- **Authority follows the current account.** After any run of the operations and at any later
instant, `require_role(r)` and `require_role(r, jwt_only=True)` admit a token as `u` exactly when
it is an unexpired token issued for `u` or, unless `jwt_only`, a key minted for `u` and not revoked
since, and the row of `u` is active now with a role that can do `r`; and a minted key is never
admitted where `jwt_only` is set. Keys drawn in the run are in the format of keys and their hashes
tell them from the token, and the token is no forgery. -/
theorem authority_follows_account (d : AuthDeps) (a : AuthSettings) (hjwt : JwtContract d a)
    (world : World) (passwordHash : UserId → String) (invites : Table Invite Invite.id)
    (steps : List AuthorityStep) (now : Instant) (t : String)
    (hclock : ∀ i ∈ steps, i.now ≤ now)
    (hkeys : ∀ i ∈ steps, ∀ raw ∈ i.op.drawn, isApiKey a raw = true)
    (hsha : ∀ i ∈ steps, ∀ raw ∈ i.op.drawn, d.sha256 raw = d.sha256 t → raw = t)
    (hforge : ∀ c, d.verifyJwt t = some c → ∃ v at_, .issued t v at_ ∈
      (run (authorityStep d a) (History.start world passwordHash invites) steps).log)
    (r : Role) (jwtOnly : Bool) (u : UserId) :
    let h := run (authorityStep d a) (History.start world passwordHash invites) steps
    ((∃ p, requireRole d a r jwtOnly h.site now (some t) = .ok p ∧ p.userId = u) ↔
      (JwtHeld a h.log now t u ∨ jwtOnly = false ∧ KeyHeld h.log t u) ∧
        ∃ user, h.site.world.db.users.find? u = some user ∧ user.isActive = true ∧
          d.can user.role r = true) ∧
    (∀ v k, .minted t v k ∈ h.log → ∀ p, requireRole d a r true h.site now (some t) ≠ .ok p) := by
  intro h
  have hok : h.Ok d a now fun raw =>
      isApiKey a raw = true ∧ (d.sha256 raw = d.sha256 t → raw = t) :=
    authority_run_ok world passwordHash invites hclock fun i hi raw hraw =>
      ⟨hkeys i hi raw hraw, hsha i hi raw hraw⟩
  -- the two kinds of credential are told apart by their first characters
  have hjwtFormat : ∀ v, JwtHeld a h.log now t v → t ≠ "" ∧ isApiKey a t = false := by
    intro v hheld
    obtain ⟨c, rfl⟩ := hheld.encoded hok
    exact ⟨hjwt.encode_ne_empty c, hjwt.encode_not_key c⟩
  have hkeyFormat : ∀ v k, .minted t v k ∈ h.log → t ≠ "" ∧ isApiKey a t = true := by
    intro v k hm
    obtain ⟨before, after, hlog⟩ := List.append_of_mem hm
    have hkey := (hok.minted before t v k after hlog).1.1
    refine ⟨?_, hkey⟩
    rintro rfl
    rw [isApiKey_empty] at hkey
    cases hkey
  have hheldFormat : KeyHeld h.log t u → t ≠ "" ∧ isApiKey a t = true := by
    rintro ⟨before, k, after, hlog, -⟩
    exact hkeyFormat u k (hlog ▸ by simp)
  constructor
  · by_cases ht : t = ""
    · have hnone : requireRole d a r jwtOnly h.site now (some t) =
          .error (.authentication "Missing Authorization header.") := by
        rw [ht]
        cases jwtOnly <;> rfl
      rw [hnone]
      refine iff_of_false (by simp) ?_
      rintro ⟨hheld | ⟨-, hheld⟩, -⟩
      · exact (hjwtFormat u hheld).1 ht
      · exact (hheldFormat hheld).1 ht
    rw [requireRole_answers ht]
    cases hk : isApiKey a t with
    | true =>
      have hnot : ¬ JwtHeld a h.log now t u := fun hheld => by
        rw [(hjwtFormat u hheld).2] at hk
        cases hk
      cases jwtOnly with
      | true => exact iff_of_false (answersAs_error _) fun hr => by simp [hnot] at hr
      | false =>
        simp only [if_true, Bool.false_eq_true, if_false, hnot, true_and, false_or]
        exact authenticateApiKey_answersAs hok fun raw hraw => hraw.2
    | false =>
      have hnot : ¬ KeyHeld h.log t u := fun hheld => by
        rw [(hheldFormat hheld).2] at hk
        cases hk
      simp only [Bool.false_eq_true, if_false, hnot, and_false, or_false]
      exact authenticateJwt_answersAs hjwt hok hforge
  · intro v k hm p hp
    obtain ⟨ht, hkey⟩ := hkeyFormat v k hm
    have hans := (requireRole_answers (r := r) (u := p.userId) ht).mp ⟨p, hp, rfl⟩
    rw [if_pos hkey] at hans
    exact answersAs_error _ hans

/-! ## A run -/

theorem JwtContract.transparent : JwtContract .transparent {} where
  verify_encode c := by simp [AuthDeps.transparent]
  encode_ne_empty c := by simp [AuthDeps.transparent]
  encode_not_key c := by
    unfold isApiKey AuthDeps.transparent
    rw [String.toList_ofList]
    rfl

/-- An account logs in, mints a key and is demoted to viewer by another. -/
def demotion : List AuthorityStep :=
  [⟨0, .login "owner@example.com" "quiet river" "j0"⟩,
    ⟨1, .createApiKey 1 "ci" [] 7 "agnt_k"⟩,
    ⟨2, .updateUser 2 1
      { role := some .viewer
        known := by simp }⟩]

/-- The key minted by an operator is worth what a viewer is from the next request on. -/
theorem authority_follows_account_demoted :
    let h := run (authorityStep .transparent {})
      (History.start freeWorld (fun _ => "quiet river") .empty) demotion
    (∃ p, requireRole .transparent {} .viewer false h.site 3 (some "agnt_k") = .ok p ∧
        p.userId = 1) ∧
      ¬ ∃ p, requireRole .transparent {} .operator false h.site 3 (some "agnt_k") = .ok p ∧
        p.userId = 1 := by
  have henter := fun r => (authority_follows_account .transparent {} JwtContract.transparent
    freeWorld (fun _ => "quiet river") .empty demotion 3 "agnt_k" (by decide)
    (by simp only [demotion, List.forall_mem_cons]; decide)
    (fun _ _ _ _ hsha => hsha)
    (fun c hc => absurd hc (by simp [AuthDeps.transparent])) r false 1).1
  constructor
  · exact (henter .viewer).mpr
      ⟨.inr ⟨rfl, [tokenResponse .transparent {} freeUser 0 "j0"], 7, [], rfl, List.not_mem_nil⟩,
        _, rfl, rfl, rfl⟩
  · intro hop
    obtain ⟨-, user, huser, -, hcan⟩ := (henter .operator).mp hop
    obtain rfl := Option.some.inj huser
    exact absurd hcan (by decide)

end Gateway
