import Mathlib.Logic.Equiv.List
import Gateway.Billing.Model

/-!
# Accounts, credentials, invites

The rows of `api_keys` and `invites`, the bearer authentication of `security/dependencies.py` and
the services that create, change and withdraw authority: `auth_service`, `api_key_service`,
`invite_service` and the admin's `update_user`. `Site` is the gateway with these tables.

PyJWT under the gateway's secret and bcrypt are parameters (`AuthDeps`): `verifyJwt` checks the
signature of a token and returns its claims, and `decodeAccessToken` then checks the claims as
`jwt.decode` does. The random parts of tokens, keys and codes are arguments, and so is the clock.
-/

namespace Gateway

open Lib

/-! ## Rows -/

/-- The primary key of `api_keys`, a UUID. -/
abbrev ApiKeyId := BitVec 128

/-- The primary key of `invites`, a UUID. -/
abbrev InviteId := BitVec 128

/-- A row of `api_keys`; `last_used_at` and `project_id` are never written. -/
structure ApiKey where
  id : ApiKeyId
  userId : UserId
  label : String
  keyPrefix : String
  keyHash : String
  scopes : List String := []
  revokedAt : Option Instant := none
  expiresAt : Option Instant := none
  deriving DecidableEq, Repr

/-- `ApiKey.is_active`. -/
def ApiKey.isActive (k : ApiKey) (now : Instant) : Bool :=
  k.revokedAt.isNone && k.expiresAt.all fun at_ => now < at_

/-- A row of `invites`. -/
structure Invite where
  id : InviteId
  codeHash : String
  codePrefix : String
  note : String := ""
  createdBy : Option UserId := none
  maxUses : Nat := 1
  useCount : Nat := 0
  expiresAt : Option Instant := none
  revokedAt : Option Instant := none
  deriving DecidableEq, Repr

/-- What `Invite.status` answers. -/
inductive InviteStatus where
  | revoked
  | expired
  | used
  | active
  deriving DecidableEq, Repr

/-- `Invite.status`. -/
def Invite.status (i : Invite) (now : Instant) : InviteStatus :=
  if i.revokedAt.isSome then .revoked
  else if i.expiresAt.any fun at_ => at_ ≤ now then .expired
  else if i.maxUses ≤ i.useCount then .used
  else .active

theorem Invite.status_eq_active {i : Invite} {now : Instant} :
    i.status now = .active ↔
      i.revokedAt = none ∧ (∀ t ∈ i.expiresAt, now < t) ∧ i.useCount < i.maxUses := by
  unfold Invite.status
  cases i.revokedAt with
  | some t => simp
  | none =>
    cases i.expiresAt with
    | none => by_cases hu : i.useCount < i.maxUses <;> simp [hu, Nat.not_lt.mp, Nat.not_le.mpr]
    | some t =>
      by_cases ht : t ≤ now
      · simp [ht]
      · by_cases hu : i.useCount < i.maxUses <;>
          simp [hu, ht, not_le.mp ht, Nat.not_lt.mp, Nat.not_le.mpr]

/-- The gateway with its account tables. -/
structure Site where
  world : World := {}
  passwordHash : UserId → String := fun _ => ""
  apiKeys : Table ApiKey ApiKey.id := .empty
  invites : Table Invite Invite.id := .empty

/-! ## Imported functions and settings -/

/-- The payload of a token; a missing claim is `none`. Times are whole seconds. -/
structure Claims where
  sub : Option String := none
  email : Option String := none
  role : Option Role := none
  iss : Option String := none
  iat : Option Int := none
  exp : Option Int := none
  jti : Option String := none
  deriving DecidableEq, Repr

/-- The functions the account services import: PyJWT under the gateway's secret, bcrypt and
`str.strip`. -/
structure AuthDeps extends Deps where
  encodeJwt : Claims → String
  verifyJwt : String → Option Claims
  hashPassword : (salt password : String) → String
  verifyPassword : (password hash : String) → Bool
  strip : String → String

section Transparent

/-- A payload as a tuple. -/
def Claims.fields : Claims ≃ Option String × Option String × Option Role × Option String ×
    Option Int × Option Int × Option String where
  toFun c := (c.sub, c.email, c.role, c.iss, c.iat, c.exp, c.jti)
  invFun | (sub, email, role, iss, iat, exp, jti) => ⟨sub, email, role, iss, iat, exp, jti⟩
  left_inv _ := rfl
  right_inv _ := rfl

/-- The role of a level. -/
def Role.ofLevel : Nat → Role
  | 0 => .viewer
  | 1 => .operator
  | _ => .admin

instance charEncodable : Encodable Char := .ofLeftInverse Char.toNat Char.ofNat Char.ofNat_toNat

instance stringEncodable : Encodable String :=
  .ofLeftInverse String.toList String.ofList fun _ => String.ofList_toList

instance roleEncodable : Encodable Role :=
  .ofLeftInverse Role.level Role.ofLevel fun r => by cases r <;> rfl

instance claimsEncodable : Encodable Claims := .ofEquiv _ Claims.fields

/-- A choice of the imported functions to run the model with: a token spells the number of its
payload, and passwords are stored as they are. -/
def AuthDeps.transparent : AuthDeps where
  toDeps := Deps.transparent
  encodeJwt c := String.ofList ('e' :: List.replicate (Encodable.encode c) '.')
  verifyJwt t :=
    match t.toList with
    | 'e' :: rest => Encodable.decode rest.length
    | _ => none
  hashPassword _ password := password
  verifyPassword password hash := password = hash
  strip := id

end Transparent

/-- `registration_mode`. -/
inductive RegistrationMode where
  | opened
  | invite
  | closed
  deriving DecidableEq, Repr

/-- The settings the account services read. -/
structure AuthSettings where
  apiKeyPrefix : String := "agnt"
  jwtExpireMinutes : Nat := 60
  registrationMode : RegistrationMode := .opened
  deriving DecidableEq, Repr

/-! ## Errors -/

/-- What an endpoint raises. -/
inductive ApiError where
  | service (error : GatewayError)
  | authorisation (userId : UserId) (action : String)
  | apiKeyNotFound (keyId : ApiKeyId)
  | userNotFound (userId : UserId)
  | inviteNotFound (inviteId : InviteId)
  | emailAlreadyRegistered (email : String)
  | registrationClosed
  | invalidInvite
  | billingNotConfigured
  | billing (error : BillingError)
  deriving DecidableEq, Repr

/-- `AuthenticationError(message)`. -/
def ApiError.authentication (message : String) : ApiError := .service (.authentication message)

/-! ## Tokens (`security/jwt.py`) -/

/-- `ISSUER`. -/
def issuer : String := "agntspark-gateway"

/-- A microsecond instant in whole seconds, as PyJWT writes a `datetime`. -/
def toSeconds (t : Instant) : Int := t / 1000000

/-- The payload `create_access_token` signs. -/
def accessClaims (a : AuthSettings) (user : User) (now : Instant) (jti : String) : Claims where
  sub := some (Uuid.format user.id)
  email := some user.email
  role := some user.role
  iss := some issuer
  iat := some (toSeconds now)
  exp := some (toSeconds (now + a.jwtExpireMinutes * 60 * 1000000))
  jti := some jti

/-- `create_access_token`: the token and its lifetime in seconds. -/
def createAccessToken (d : AuthDeps) (a : AuthSettings) (user : User) (now : Instant)
    (jti : String) : String × Nat :=
  (d.encodeJwt (accessClaims a user now jti), a.jwtExpireMinutes * 60)

/-- What `jwt.decode` checks of the claims: not issued in the future, not expired, our issuer. -/
def Claims.valid (c : Claims) (now : Instant) : Bool :=
  c.iat.all (fun t => t * 1000000 ≤ now) && c.exp.all (fun t => now < t * 1000000) &&
    c.iss = some issuer

/-- `decode_access_token`. -/
def decodeAccessToken (d : AuthDeps) (now : Instant) (token : String) : Except ApiError Claims :=
  match d.verifyJwt token with
  | none => .error (.authentication "Invalid or expired token.")
  | some c =>
    if c.valid now then .ok c else .error (.authentication "Invalid or expired token.")

/-! ## Principals (`security/dependencies.py`) -/

/-- `auth_method`, with the `api_key_id` of a key. -/
inductive AuthMethod where
  | jwt
  | apiKey (id : ApiKeyId)
  deriving DecidableEq, Repr

/-- `Principal`. -/
structure Principal where
  userId : UserId
  email : String
  role : Role
  authMethod : AuthMethod
  deriving DecidableEq, Repr

/-- The end of both authentications: the account's row is loaded and decides. -/
def loadPrincipal (users : Table User User.id) (userId : UserId) (method : AuthMethod)
    (message : String) : Except ApiError Principal :=
  match users.find? userId with
  | none => .error (.authentication message)
  | some user =>
    if user.isActive then
      .ok
        { userId := user.id
          email := user.email
          role := user.role
          authMethod := method }
    else .error (.authentication message)

/-- `_authenticate_api_key`. -/
def authenticateApiKey (d : AuthDeps) (site : Site) (now : Instant) (token : String) :
    Except ApiError Principal :=
  match site.apiKeys.rows.find? fun k => k.keyHash = d.sha256 token with
  | none => .error (.authentication "Invalid or revoked API key.")
  | some key =>
    if key.isActive now then
      loadPrincipal site.world.db.users key.userId (.apiKey key.id) "Invalid or revoked API key."
    else .error (.authentication "Invalid or revoked API key.")

/-- `_authenticate_jwt`. -/
def authenticateJwt (d : AuthDeps) (site : Site) (now : Instant) (token : String) :
    Except ApiError Principal :=
  match decodeAccessToken d now token with
  | .error e => .error e
  | .ok payload =>
    match payload.sub.bind Uuid.parse with
    | none => .error (.authentication "Invalid token payload.")
    | some userId =>
      loadPrincipal site.world.db.users userId .jwt "Invalid or expired token."

/-- `token.startswith(f"{settings.api_key_prefix}_")`. -/
def isApiKey (a : AuthSettings) (token : String) : Bool :=
  (a.apiKeyPrefix ++ "_").toList.isPrefixOf token.toList

/-- The bearer token of a request, unless it is missing or empty. -/
def bearer (creds : Option String) : Except ApiError String :=
  match truthy creds with
  | none => .error (.authentication "Missing Authorization header.")
  | some token => .ok token

/-- `get_current_principal`. -/
def getCurrentPrincipal (d : AuthDeps) (a : AuthSettings) (site : Site) (now : Instant)
    (creds : Option String) : Except ApiError Principal :=
  match bearer creds with
  | .error e => .error e
  | .ok token =>
    if isApiKey a token then authenticateApiKey d site now token
    else authenticateJwt d site now token

/-- `require_jwt_principal`. -/
def requireJwtPrincipal (d : AuthDeps) (a : AuthSettings) (site : Site) (now : Instant)
    (creds : Option String) : Except ApiError Principal :=
  match bearer creds with
  | .error e => .error e
  | .ok token =>
    if isApiKey a token then
      .error (.authentication "This action requires a logged-in session, not an API key.")
    else authenticateJwt d site now token

/-- `Role.name`. -/
def Role.name : Role → String
  | .viewer => "VIEWER"
  | .operator => "OPERATOR"
  | .admin => "ADMIN"

/-- The check of `require_role` on a principal. -/
def checkRole (d : Deps) (minimum : Role) (p : Principal) : Except ApiError Principal :=
  if d.can p.role minimum then .ok p
  else .error (.authorisation p.userId ("require_role(" ++ minimum.name ++ ")"))

/-- `require_role(minimum, jwt_only=…)`. -/
def requireRole (d : AuthDeps) (a : AuthSettings) (minimum : Role) (jwtOnly : Bool) (site : Site)
    (now : Instant) (creds : Option String) : Except ApiError Principal :=
  match if jwtOnly then requireJwtPrincipal d a site now creds
    else getCurrentPrincipal d a site now creds with
  | .error e => .error e
  | .ok p => checkRole d.toDeps minimum p

/-- The dependency an endpoint names. -/
inductive Guard where
  | currentPrincipal
  | role (minimum : Role) (jwtOnly : Bool)
  deriving DecidableEq, Repr

/-- Whom a guard lets in. -/
def Guard.enforce (g : Guard) (d : AuthDeps) (a : AuthSettings) (site : Site) (now : Instant)
    (creds : Option String) : Except ApiError Principal :=
  match g with
  | .currentPrincipal => getCurrentPrincipal d a site now creds
  | .role minimum jwtOnly => requireRole d a minimum jwtOnly site now creds

/-- What a guard asks of a caller who has been authenticated. -/
def Guard.check (g : Guard) (d : Deps) (p : Principal) : Except ApiError Principal :=
  match g with
  | .currentPrincipal => .ok p
  | .role minimum _ => checkRole d minimum p

theorem loadPrincipal_userId {users : Table User User.id} {u : UserId} {method : AuthMethod}
    {message : String} {p : Principal} (h : loadPrincipal users u method message = .ok p) :
    p.userId = u := by
  unfold loadPrincipal at h
  cases hf : users.find? u with
  | none =>
    rw [hf] at h
    cases h
  | some user =>
    rw [hf] at h
    simp only at h
    split at h
    · obtain rfl := Except.ok.inj h
      show user.id = u
      exact Table.key_of_find? hf
    · cases h

theorem Guard.check_ok {g : Guard} {d : Deps} {p q : Principal} (h : g.check d p = .ok q) :
    q = p := by
  cases g with
  | currentPrincipal => exact (Except.ok.inj h).symm
  | role minimum _ =>
    unfold Guard.check checkRole at h
    simp only at h
    split at h
    · exact (Except.ok.inj h).symm
    · cases h

/-! ## Registering and logging in (`services/auth_service.py`) -/

/-- The row `register_user` adds. -/
def newUser (email name : String) (newId : UserId) : User where
  id := newId
  email := email
  name := name
  role := .operator

/-- Insert a row of `users`: the primary key and the unique email must be free. -/
def insertUser? (site : Site) (user : User) (hash : String) : Option Site :=
  if user.email ∈ site.world.db.users.rows.map User.email then none
  else
    (site.world.db.users.insert? user).map fun t =>
      { site with
        world := { site.world with db := { site.world.db with users := t } }
        passwordHash := fun u => if u = user.id then hash else site.passwordHash u }

/-- `_hash_code`. -/
def hashCode (d : AuthDeps) (code : String) : String := d.sha256 code

/-- `claim_invite`: the claimed row, not yet committed. -/
def claimInvite (d : AuthDeps) (invites : Table Invite Invite.id) (now : Instant) (code : String) :
    Except ApiError Invite :=
  match invites.rows.find? fun i => i.codeHash = hashCode d (d.strip code) with
  | none => .error .invalidInvite
  | some invite =>
    if invite.status now = .active then .ok { invite with useCount := invite.useCount + 1 }
    else .error .invalidInvite

/-- The invites a registration will commit: in the mode `invite` it takes a code and one use. -/
def registrationInvites (d : AuthDeps) (a : AuthSettings) (site : Site) (now : Instant)
    (inviteCode : Option String) : Except ApiError (Table Invite Invite.id) :=
  if a.registrationMode = .invite then
    match truthy inviteCode with
    | none => .error .invalidInvite
    | some code =>
      if d.strip code = "" then .error .invalidInvite
      else
        match claimInvite d site.invites now code with
        | .error e => .error e
        | .ok invite => .ok (site.invites.put invite)
  else .ok site.invites

/-- `register_user`: the use of the invite is committed together with the account. -/
def registerUser (d : AuthDeps) (a : AuthSettings) (site : Site) (now : Instant)
    (email password name : String) (inviteCode : Option String) (newId : UserId) (salt : String) :
    Except ApiError User × Site :=
  if a.registrationMode = .closed then (.error .registrationClosed, site)
  else if email ∈ site.world.db.users.rows.map User.email then
    (.error (.emailAlreadyRegistered email), site)
  else
    match registrationInvites d a site now inviteCode with
    | .error e => (.error e, site)
    | .ok invites =>
      let user := newUser email name newId
      match insertUser? site user (d.hashPassword salt password) with
      | none => (.error (.service .integrity), site)
      | some site => (.ok user, { site with invites := invites })

/-- `authenticate_user`. -/
def authenticateUser (d : AuthDeps) (site : Site) (email password : String) :
    Except ApiError User :=
  match site.world.db.users.rows.find? fun u => u.email = email with
  | none => .error (.authentication "Invalid email or password.")
  | some user =>
    if user.isActive && d.verifyPassword password (site.passwordHash user.id) then .ok user
    else .error (.authentication "Invalid email or password.")

/-! ## API keys (`services/api_key_service.py`) -/

/-- The row `create_api_key` adds for a minted raw key. -/
def newApiKey (d : AuthDeps) (userId : UserId) (label : String) (scopes : List String)
    (keyId : ApiKeyId) (rawKey : String) : ApiKey where
  id := keyId
  userId := userId
  label := label
  keyPrefix := String.ofList (rawKey.toList.take 12)
  keyHash := d.sha256 rawKey
  scopes := scopes

/-- Insert a row of `api_keys`: the user exists, the primary key and the unique hash are free. -/
def insertApiKey? (site : Site) (key : ApiKey) : Option Site :=
  if (site.world.db.users.find? key.userId).isNone ∨
      key.keyHash ∈ site.apiKeys.rows.map ApiKey.keyHash then
    none
  else (site.apiKeys.insert? key).map fun t => { site with apiKeys := t }

/-- `create_api_key`: the stored key and the raw key, which is never stored. -/
def createApiKey (d : AuthDeps) (site : Site) (userId : UserId) (label : String)
    (scopes : List String) (keyId : ApiKeyId) (rawKey : String) :
    Except ApiError (ApiKey × String) × Site :=
  let key := newApiKey d userId label scopes keyId rawKey
  match insertApiKey? site key with
  | none => (.error (.service .integrity), site)
  | some site => (.ok (key, rawKey), site)

/-- `list_api_keys`: the newest first. -/
def listApiKeys (site : Site) (userId : UserId) : List ApiKey :=
  (site.apiKeys.rows.filter fun k => k.userId = userId ∧ k.revokedAt = none).reverse

/-- `revoke_api_key`. -/
def revokeApiKey (site : Site) (now : Instant) (userId : UserId) (keyId : ApiKeyId) :
    Except ApiError Unit × Site :=
  match (site.apiKeys.find? keyId).filter fun k => k.userId = userId with
  | none => (.error (.apiKeyNotFound keyId), site)
  | some key =>
    if key.isActive now then
      (.ok (), { site with apiKeys := site.apiKeys.put { key with revokedAt := some now } })
    else (.error (.apiKeyNotFound keyId), site)

/-! ## Invites (`services/invite_service.py`) -/

/-- `INVITE_PREFIX`. -/
def inviteStart : String := "inv_"

/-- A day in microseconds. -/
def dayMicros : Int := 86400 * 1000000

/-- The row `create_invite` adds, and the raw code it returns. -/
def newInvite (d : AuthDeps) (now : Instant) (createdBy : UserId) (note : String) (maxUses : Nat)
    (expiresInDays : Option Nat) (newId : InviteId) (token : String) : Invite × String :=
  let rawCode := inviteStart ++ token
  ({ id := newId
     codeHash := hashCode d rawCode
     codePrefix := String.ofList (rawCode.toList.take 10)
     note := note
     createdBy := some createdBy
     maxUses := maxUses
     expiresAt := (expiresInDays.filter (· ≠ 0)).map fun days => now + days * dayMicros },
    rawCode)

/-- Insert a row of `invites`: the primary key and the unique hash are free. -/
def insertInvite? (site : Site) (invite : Invite) : Option Site :=
  if invite.codeHash ∈ site.invites.rows.map Invite.codeHash then none
  else (site.invites.insert? invite).map fun t => { site with invites := t }

/-- `create_invite`. -/
def createInvite (d : AuthDeps) (site : Site) (now : Instant) (createdBy : UserId) (note : String)
    (maxUses : Nat) (expiresInDays : Option Nat) (newId : InviteId) (token : String) :
    Except ApiError (Invite × String) × Site :=
  let invite := newInvite d now createdBy note maxUses expiresInDays newId token
  match insertInvite? site invite.1 with
  | none => (.error (.service .integrity), site)
  | some site => (.ok invite, site)

/-- `revoke_invite`. -/
def revokeInvite (site : Site) (now : Instant) (inviteId : InviteId) :
    Except ApiError Unit × Site :=
  match site.invites.find? inviteId with
  | none => (.error (.inviteNotFound inviteId), site)
  | some invite =>
    if invite.revokedAt = none then
      (.ok (), { site with invites := site.invites.put { invite with revokedAt := some now } })
    else (.ok (), site)

/-! ## The admin's `update_user` (`routers/admin.py`) -/

/-- `AdminUserUpdate`; the plan is one of `PLANS`. -/
structure AdminUserUpdate where
  role : Option Role := none
  plan : Option String := none
  isActive : Option Bool := none
  known : ∀ p ∈ plan, p = defaultPlan ∨ p = paidPlan

/-- The row `update_user` leaves. -/
def updatedUser (user : User) (body : AdminUserUpdate) : User :=
  { user with
    role := body.role.getD user.role
    plan := body.plan.getD user.plan
    isActive := body.isActive.getD user.isActive }

/-- `update_user`: an admin cannot demote or deactivate their own account. -/
def updateUser (site : Site) (principal userId : UserId) (body : AdminUserUpdate) :
    Except ApiError User × Site :=
  match site.world.db.users.find? userId with
  | none => (.error (.userNotFound userId), site)
  | some user =>
    if user.id = principal ∧ (body.role.any (· ≠ .admin) ∨ body.isActive = some false) then
      (.error (.authorisation principal "change own admin access"), site)
    else
      let user := updatedUser user body
      (.ok user,
        { site with
          world := { site.world with
            db := { site.world.db with users := site.world.db.users.put user } } })

end Gateway
