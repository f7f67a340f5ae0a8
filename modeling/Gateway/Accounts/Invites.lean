import Gateway.Accounts.Model
import Gateway.Lib.Locks
import Gateway.Lib.Log
import Gateway.Lib.Trace

/-!
# Invites under concurrent sign-ups (`services/invite_service.py`, `services/auth_service.py`)

Transactions of `register_user` (in the mode `invite`), `create_invite` and `revoke_invite`, in any
interleaving of their statements. A transaction is where it is between two awaits and the row it
holds; what it has written is invisible to the others until its commit, when it is applied to the
committed tables. The row lock of `SELECT … FOR UPDATE`, and of an `UPDATE`, is read off the place
(`Txn.holds`): whatever ends a transaction releases it. Waiting for a lock, or for an unfinished
insert of the same unique value, is a step that changes nothing. A commit writes the columns the
session changed: a registration `use_count`, a revocation `revoked_at`.

The flush of a registration is one step: the invite's `UPDATE` needs no more than the lock it has
and shows to nobody. The final `refresh`, which only reads, is left out. The log of locks taken and
commits made is ghost state.

* `register_alone`: undisturbed, a registration does what `registerUser` does.
* `txnStep_effect`: everything a step can do; the invariant and the frame facts are read off it.
* `Signups.Ok`: whoever holds the lock of an invite has read its committed row.
* **`invites_never_overspent`**: uses equal accounts and stay within `max_uses`, a registration
  that fails leaves the invites as they were, and an account's invite was neither revoked nor
  expired when its registration took the lock.
-/

namespace Gateway

open Lib

/-! ## Transactions -/

/-- What `register_user` is called with, and the id and salt it draws. -/
structure Registration where
  email : String
  password : String
  name : String
  inviteCode : Option String
  newId : UserId
  salt : String
  deriving DecidableEq, Repr

/-- What `create_invite` is called with, and the id and token it draws. -/
structure InviteCreation where
  createdBy : UserId
  note : String
  maxUses : Nat
  expiresInDays : Option Nat
  newId : InviteId
  token : String
  deriving DecidableEq, Repr

/-- What ends a transaction early: an exception of the service, or a statement or commit that the
database did not execute. -/
inductive TxnError where
  | api (error : ApiError)
  | database
  deriving DecidableEq, Repr

/-- Where `register_user` is, with the row of the invite it read under the lock. -/
inductive RegisterPc where
  | start
  | looking (codeHash : String)
  | waiting (codeHash : String) (id : InviteId)
  | locked (row : Invite)
  | claimed (row : Invite)
  | inserted (row : Invite)
  | done
  | failed (error : TxnError)
  deriving DecidableEq, Repr

/-- Where `create_invite` is. -/
inductive CreatePc where
  | start
  | inserted (invite : Invite)
  | done
  | failed (error : TxnError)
  deriving DecidableEq, Repr

/-- Where `revoke_invite` is, with the instant it will write. -/
inductive RevokePc where
  | start
  | found
  | writing (at_ : Instant)
  | updated (at_ : Instant)
  | done
  | failed (error : TxnError)
  deriving DecidableEq, Repr

/-- A transaction. -/
inductive Txn where
  | register (req : Registration) (pc : RegisterPc)
  | create (req : InviteCreation) (pc : CreatePc)
  | revoke (id : InviteId) (pc : RevokePc)
  deriving DecidableEq, Repr

/-- The invite whose row lock a transaction holds. -/
def Txn.holds : Txn → Option InviteId
  | .register _ (.locked row) => some row.id
  | .register _ (.claimed row) => some row.id
  | .register _ (.inserted row) => some row.id
  | .revoke id (.updated _) => some id
  | _ => none

/-- A statement or commit fails: what was not committed is rolled back. -/
def Txn.abort : Txn → Txn
  | .register req .done => .register req .done
  | .register req (.failed e) => .register req (.failed e)
  | .register req _ => .register req (.failed .database)
  | .create req .done => .create req .done
  | .create req (.failed e) => .create req (.failed e)
  | .create req _ => .create req (.failed .database)
  | .revoke id .done => .revoke id .done
  | .revoke id (.failed e) => .revoke id (.failed e)
  | .revoke id _ => .revoke id (.failed .database)

/-- The transaction has inserted, not yet committed, an account with this email or id. -/
def Txn.insertsAccount (email : String) (id : UserId) : Txn → Bool
  | .register req (.inserted _) => req.email = email ∨ req.newId = id
  | _ => false

/-- The transaction has inserted, not yet committed, an invite with this code or id. -/
def Txn.insertsInvite (codeHash : String) (id : InviteId) : Txn → Bool
  | .create _ (.inserted invite) => invite.codeHash = codeHash ∨ invite.id = id
  | _ => false

/-! ## The state -/

/-- What the ghost log notes: a registration obtained a row lock, a revocation was committed, an
account was. -/
inductive SignupEvent where
  | locked (txn : Nat) (invite : InviteId) (at_ : Instant)
  | revoked (invite : InviteId)
  | registered (txn : Nat) (user : UserId) (invite : InviteId)
  deriving DecidableEq, Repr

/-- The committed tables, the clock, the transactions and the log. -/
structure Signups where
  site : Site
  clock : Instant
  txns : List Txn := []
  log : List SignupEvent := []

/-- A gateway with any accounts that has not created an invite yet. -/
def Signups.opening (world : World) (passwordHash : UserId → String) (clock : Instant) :
    Signups where
  site :=
    { world := world
      passwordHash := passwordHash }
  clock := clock

/-- Transaction `i` moves on. -/
def Signups.goto (σ : Signups) (i : Nat) (t : Txn) : Signups := { σ with txns := σ.txns.set i t }

/-- An unfinished transaction other than `i` is in the way of an insert. -/
def Signups.awaitsInsert (σ : Signups) (i : Nat) (inserts : Txn → Bool) : Bool :=
  σ.txns.zipIdx.any fun t => t.2 ≠ i ∧ inserts t.1

/-! ## Steps -/

section Steps

variable (d : AuthDeps) (σ : Signups) (i : Nat)

/-- The next step of `register_user`. -/
def registerStep (req : Registration) : RegisterPc → Signups
  | .start =>
    if req.email ∈ σ.site.world.db.users.rows.map User.email then
      σ.goto i (.register req (.failed (.api (.emailAlreadyRegistered req.email))))
    else
      match truthy req.inviteCode with
      | none => σ.goto i (.register req (.failed (.api .invalidInvite)))
      | some code =>
        if d.strip code = "" then σ.goto i (.register req (.failed (.api .invalidInvite)))
        else σ.goto i (.register req (.looking (hashCode d (d.strip code))))
  | .looking codeHash =>
    -- the statement's snapshot: an invite committed later is not found
    match σ.site.invites.rows.find? fun x => x.codeHash = codeHash with
    | none => σ.goto i (.register req (.failed (.api .invalidInvite)))
    | some invite => σ.goto i (.register req (.waiting codeHash invite.id))
  | .waiting codeHash id =>
    if heldByOther Txn.holds σ.txns i id then σ
    else
      -- the lock is free: the row is read again as it is committed now
      match (σ.site.invites.find? id).filter fun x => x.codeHash = codeHash with
      | none => σ.goto i (.register req (.failed (.api .invalidInvite)))
      | some row =>
        { σ.goto i (.register req (.locked row)) with
          log := σ.log ++ [.locked i row.id σ.clock] }
  | .locked row =>
    if row.status σ.clock = .active then σ.goto i (.register req (.claimed row))
    else σ.goto i (.register req (.failed (.api .invalidInvite)))
  | .claimed row =>
    if σ.awaitsInsert i (Txn.insertsAccount req.email req.newId) then σ
    else
      match insertUser? σ.site (newUser req.email req.name req.newId)
          (d.hashPassword req.salt req.password) with
      | none => σ.goto i (.register req (.failed (.api (.service .integrity))))
      | some _ => σ.goto i (.register req (.inserted row))
  | .inserted row =>
    match σ.site.invites.find? row.id, insertUser? σ.site (newUser req.email req.name req.newId)
        (d.hashPassword req.salt req.password) with
    | some stored, some site =>
      { σ.goto i (.register req .done) with
        site := { site with
          invites := site.invites.put { stored with useCount := row.useCount + 1 } }
        log := σ.log ++ [.registered i req.newId row.id] }
    | _, _ => σ.goto i (.register req (.failed .database))
  | .done => σ
  | .failed _ => σ

/-- The next step of `create_invite`. -/
def createStep (req : InviteCreation) : CreatePc → Signups
  | .start =>
    let invite := (newInvite d σ.clock req.createdBy req.note req.maxUses req.expiresInDays
      req.newId req.token).1
    if σ.awaitsInsert i (Txn.insertsInvite invite.codeHash invite.id) then σ
    else
      match insertInvite? σ.site invite with
      | none => σ.goto i (.create req (.failed (.api (.service .integrity))))
      | some _ => σ.goto i (.create req (.inserted invite))
  | .inserted invite =>
    match insertInvite? σ.site invite with
    | none => σ.goto i (.create req (.failed .database))
    | some site => { σ.goto i (.create req .done) with site := site }
  | .done => σ
  | .failed _ => σ

/-- The next step of `revoke_invite`: the row is read without a lock, the `UPDATE` takes it. -/
def revokeStep (id : InviteId) : RevokePc → Signups
  | .start =>
    match σ.site.invites.find? id with
    | none => σ.goto i (.revoke id (.failed (.api (.inviteNotFound id))))
    | some invite =>
      if invite.revokedAt = none then σ.goto i (.revoke id .found)
      else σ.goto i (.revoke id .done)
  | .found => σ.goto i (.revoke id (.writing σ.clock))
  | .writing at_ =>
    if heldByOther Txn.holds σ.txns i id then σ else σ.goto i (.revoke id (.updated at_))
  | .updated at_ =>
    match σ.site.invites.find? id with
    | none => σ.goto i (.revoke id (.failed .database))
    | some stored =>
      { σ.goto i (.revoke id .done) with
        site := { σ.site with
          invites := σ.site.invites.put { stored with revokedAt := some at_ } }
        log := σ.log ++ [.revoked id] }
  | .done => σ
  | .failed _ => σ

/-- The next step of a transaction. -/
def txnStep : Txn → Signups
  | .register req pc => registerStep d σ i req pc
  | .create req pc => createStep d σ i req pc
  | .revoke id pc => revokeStep σ i id pc

end Steps

/-- A call that opens a transaction. -/
inductive SignupCall where
  | register (req : Registration)
  | create (req : InviteCreation)
  | revoke (id : InviteId)
  deriving DecidableEq, Repr

/-- The transaction of a call. -/
def SignupCall.txn : SignupCall → Txn
  | .register req => .register req .start
  | .create req => .create req .start
  | .revoke id => .revoke id .start

/-- What happens next: a call, time passing, a step of a transaction, or its failure. -/
inductive SignupMove where
  | call (call : SignupCall)
  | wait (micros : Nat)
  | advance (i : Nat)
  | abort (i : Nat)
  deriving DecidableEq, Repr

/-- One move. -/
def signupStep (d : AuthDeps) (σ : Signups) : SignupMove → Signups
  | .call call => { σ with txns := σ.txns ++ [call.txn] }
  | .wait micros => { σ with clock := σ.clock + micros }
  | .advance i =>
    match σ.txns[i]? with
    | none => σ
    | some t => txnStep d σ i t
  | .abort i =>
    match σ.txns[i]? with
    | none => σ
    | some t => σ.goto i t.abort

/-! ## The invariant -/

/-- The accounts created with an invite, oldest first. -/
def accountsWith (k : InviteId) (log : List SignupEvent) : List UserId :=
  log.filterMap fun
    | .registered _ u k' => if k' = k then some u else none
    | _ => none

/-- The accounts created. -/
def accountsOf (log : List SignupEvent) : List UserId :=
  log.filterMap fun
    | .registered _ u _ => some u
    | _ => none

/-- Transaction `i` has not obtained a row lock for a registration. -/
def NeverLocked (σ : Signups) (i : Nat) : Prop := ∀ k at_, .locked i k at_ ∉ σ.log

/-- Transaction `i` holds the lock of an invite and `row` is its committed row; when it took the
lock, a revocation that `row` does not show had not been committed. -/
structure Holding (σ : Signups) (i : Nat) (row : Invite) : Prop where
  stored : σ.site.invites.find? row.id = some row
  logged : ∃ at_, .locked i row.id at_ ∈ σ.log
  since : ∀ before k at_ after, σ.log = before ++ .locked i k at_ :: after →
    k = row.id ∧ at_ ≤ σ.clock ∧ (row.revokedAt = none → .revoked row.id ∉ before)

/-- The row was active when it was checked. -/
structure Usable (σ : Signups) (i : Nat) (row : Invite) : Prop where
  left : row.useCount < row.maxUses
  unrevoked : row.revokedAt = none
  unexpired : ∀ k at_, .locked i k at_ ∈ σ.log → ∀ t ∈ row.expiresAt, at_ < t

/-- What holds of a transaction, by where it is. -/
def TxnOk (σ : Signups) (i : Nat) : Txn → Prop
  | .register _ .start => NeverLocked σ i
  | .register _ (.looking _) => NeverLocked σ i
  | .register _ (.waiting _ _) => NeverLocked σ i
  | .register _ (.locked row) => Holding σ i row
  | .register _ (.claimed row) => Holding σ i row ∧ Usable σ i row
  | .register _ (.inserted row) => Holding σ i row ∧ Usable σ i row
  | .create _ (.inserted invite) => invite.useCount = 0
  | _ => True

/-- The registration `i` created its account with invite `k`, which was neither revoked nor expired
when it obtained the row lock. -/
structure Admitted (σ : Signups) (i : Nat) (k : InviteId) : Prop where
  logged : ∃ at_, .locked i k at_ ∈ σ.log
  since : ∀ before k' at_ after, σ.log = before ++ .locked i k' at_ :: after →
    k' = k ∧ .revoked k ∉ before ∧
      ∀ inv, σ.site.invites.find? k = some inv → ∀ t ∈ inv.expiresAt, at_ < t

/-- What holds in every reached state; `ids` are the accounts there were at the start. -/
structure Signups.Ok (ids : List UserId) (σ : Signups) : Prop where
  exclusive : Exclusive Txn.holds σ.txns
  txn : ∀ i t, σ.txns[i]? = some t → TxnOk σ i t
  fresh : ∀ i k at_, .locked i k at_ ∈ σ.log → i < σ.txns.length
  uses : ∀ k inv, σ.site.invites.find? k = some inv →
    inv.useCount = (accountsWith k σ.log).length ∧ inv.useCount ≤ inv.maxUses
  known : ∀ i u k, .registered i u k ∈ σ.log → ∃ inv, σ.site.invites.find? k = some inv
  revoked : ∀ k, .revoked k ∈ σ.log →
    ∃ inv, σ.site.invites.find? k = some inv ∧ inv.revokedAt ≠ none
  registered : ∀ i u k, .registered i u k ∈ σ.log → Admitted σ i k
  accounts : σ.site.world.db.users.rows.map User.id = ids ++ accountsOf σ.log

section Frame

variable {σ σ' : Signups} {es : List SignupEvent} {i : Nat} {t : Txn}

theorem NeverLocked.frame (h : NeverLocked σ i) (hlog : σ'.log = σ.log ++ es)
    (hes : ∀ k at_, .locked i k at_ ∉ es) : NeverLocked σ' i := by
  intro k at_ hm
  rw [hlog] at hm
  rcases List.mem_append.mp hm with hm | hm
  · exact h k at_ hm
  · exact hes k at_ hm

theorem Holding.frame {row : Invite} (h : Holding σ i row) (hlog : σ'.log = σ.log ++ es)
    (hes : ∀ k at_, .locked i k at_ ∉ es) (hclock : σ.clock ≤ σ'.clock)
    (hrow : ∀ inv, σ.site.invites.find? row.id = some inv →
      σ'.site.invites.find? row.id = some inv) : Holding σ' i row where
  stored := hrow row h.stored
  logged := by
    obtain ⟨at_, hm⟩ := h.logged
    exact ⟨at_, hlog ▸ List.mem_append_left _ hm⟩
  since before k at_ after hs := by
    obtain ⟨rest, -, hl⟩ := split_append (hlog ▸ hs) (hes k at_)
    obtain ⟨hk, hat, hrev⟩ := h.since before k at_ rest hl
    exact ⟨hk, le_trans hat hclock, hrev⟩

theorem Usable.frame {row : Invite} (h : Usable σ i row) (hlog : σ'.log = σ.log ++ es)
    (hes : ∀ k at_, .locked i k at_ ∉ es) : Usable σ' i row where
  left := h.left
  unrevoked := h.unrevoked
  unexpired k at_ hm := by
    rw [hlog] at hm
    rcases List.mem_append.mp hm with hm | hm
    · exact h.unexpired k at_ hm
    · exact absurd hm (hes k at_)

/-- What others do leaves a transaction as it was, if its row is not written and it takes no lock.
-/
theorem TxnOk.frame (h : TxnOk σ i t) (hlog : σ'.log = σ.log ++ es)
    (hes : ∀ k at_, .locked i k at_ ∉ es) (hclock : σ.clock ≤ σ'.clock)
    (hrow : ∀ k, t.holds = some k → ∀ inv, σ.site.invites.find? k = some inv →
      σ'.site.invites.find? k = some inv) :
    TxnOk σ' i t := by
  cases t with
  | create req pc => cases pc <;> exact h
  | revoke id pc => cases pc <;> exact h
  | register req pc =>
    cases pc with
    | start => exact NeverLocked.frame h hlog hes
    | looking codeHash => exact NeverLocked.frame h hlog hes
    | waiting codeHash id => exact NeverLocked.frame h hlog hes
    | locked row => exact Holding.frame h hlog hes hclock (hrow row.id rfl)
    | claimed row =>
      exact ⟨Holding.frame h.1 hlog hes hclock (hrow row.id rfl), h.2.frame hlog hes⟩
    | inserted row =>
      exact ⟨Holding.frame h.1 hlog hes hclock (hrow row.id rfl), h.2.frame hlog hes⟩
    | done => exact h
    | failed e => exact h

/-- The same when nothing is logged. -/
theorem TxnOk.frame_quiet (h : TxnOk σ i t) (hlog : σ'.log = σ.log) (hclock : σ.clock ≤ σ'.clock)
    (hrow : ∀ k, t.holds = some k → ∀ inv, σ.site.invites.find? k = some inv →
      σ'.site.invites.find? k = some inv) :
    TxnOk σ' i t :=
  h.frame (hlog.trans (List.append_nil _).symm) (fun _ _ => List.not_mem_nil) hclock hrow

/-- An admission stays one: its lock was before what is new, and no invite changes its expiry. -/
theorem Admitted.frame {k : InviteId} (h : Admitted σ i k) (hlog : σ'.log = σ.log ++ es)
    (hes : ∀ k at_, .locked i k at_ ∉ es)
    (hrow : ∀ inv', σ'.site.invites.find? k = some inv' →
      ∃ inv, σ.site.invites.find? k = some inv ∧ inv.expiresAt = inv'.expiresAt) :
    Admitted σ' i k where
  logged := by
    obtain ⟨at_, hm⟩ := h.logged
    exact ⟨at_, hlog ▸ List.mem_append_left _ hm⟩
  since before k' at_ after hs := by
    obtain ⟨rest, -, hl⟩ := split_append (hlog ▸ hs) (hes k' at_)
    obtain ⟨hk, hrev, hexp⟩ := h.since before k' at_ rest hl
    refine ⟨hk, hrev, fun inv' hf => ?_⟩
    obtain ⟨inv, hf', he⟩ := hrow inv' hf
    exact he ▸ hexp inv hf'

end Frame

/-! ## What a step does -/

/-- The call a transaction is of. -/
def Txn.call : Txn → SignupCall
  | .register req _ => .register req
  | .create req _ => .create req
  | .revoke id _ => .revoke id

/-- **Everything a step of transaction `i` can do.** It stays, because it waits or is over; it goes
on to a place without a lock; or it is one of the steps that take, use or give up one. -/
inductive TxnEffect (d : AuthDeps) (σ : Signups) (i : Nat) : Txn → Signups → Prop
  | stays {t : Txn} : TxnEffect d σ i t σ
  | goes {t t' : Txn} (hcall : t'.call = t.call) (hfree : t'.holds = none)
      (hsafe : TxnOk σ i t → TxnOk σ i t') : TxnEffect d σ i t (σ.goto i t')
  | locks {req : Registration} {codeHash : String} {id : InviteId} {row : Invite}
      (hfree : heldByOther Txn.holds σ.txns i id = false)
      (hrow : σ.site.invites.find? id = some row) :
      TxnEffect d σ i (.register req (.waiting codeHash id))
        { σ.goto i (.register req (.locked row)) with
          log := σ.log ++ [.locked i row.id σ.clock] }
  | claims {req : Registration} {row : Invite} (hactive : row.status σ.clock = .active) :
      TxnEffect d σ i (.register req (.locked row)) (σ.goto i (.register req (.claimed row)))
  | inserts {req : Registration} {row : Invite} :
      TxnEffect d σ i (.register req (.claimed row)) (σ.goto i (.register req (.inserted row)))
  | registers {req : Registration} {row stored : Invite} {site : Site}
      (hstored : σ.site.invites.find? row.id = some stored)
      (hins : insertUser? σ.site (newUser req.email req.name req.newId)
        (d.hashPassword req.salt req.password) = some site) :
      TxnEffect d σ i (.register req (.inserted row))
        { σ.goto i (.register req .done) with
          site := { site with
            invites := site.invites.put { stored with useCount := row.useCount + 1 } }
          log := σ.log ++ [.registered i req.newId row.id] }
  | creates {req : InviteCreation} {invite : Invite} {site : Site}
      (hins : insertInvite? σ.site invite = some site) :
      TxnEffect d σ i (.create req (.inserted invite))
        { σ.goto i (.create req .done) with site := site }
  | updates {id : InviteId} {at_ : Instant} (hfree : heldByOther Txn.holds σ.txns i id = false) :
      TxnEffect d σ i (.revoke id (.writing at_)) (σ.goto i (.revoke id (.updated at_)))
  | revokes {id : InviteId} {at_ : Instant} {stored : Invite}
      (hstored : σ.site.invites.find? id = some stored) :
      TxnEffect d σ i (.revoke id (.updated at_))
        { σ.goto i (.revoke id .done) with
          site := { σ.site with
            invites := σ.site.invites.put { stored with revokedAt := some at_ } }
          log := σ.log ++ [.revoked id] }

section Effect

variable (d : AuthDeps) (σ : Signups) (i : Nat)

theorem registerStep_effect (req : Registration) (pc : RegisterPc) :
    TxnEffect d σ i (.register req pc) (registerStep d σ i req pc) := by
  have hfails : ∀ e, TxnEffect d σ i (.register req pc) (σ.goto i (.register req (.failed e))) :=
    fun e => .goes rfl rfl fun _ => trivial
  unfold registerStep
  cases pc with
  | start =>
    simp only
    split_ifs
    · exact hfails _
    · cases truthy req.inviteCode with
      | none => exact hfails _
      | some code =>
        simp only
        split_ifs
        · exact hfails _
        · exact .goes rfl rfl id
  | looking codeHash =>
    simp only
    cases σ.site.invites.rows.find? fun x => x.codeHash = codeHash with
    | none => exact hfails _
    | some invite => exact .goes rfl rfl id
  | waiting codeHash id =>
    simp only
    split_ifs with hheld
    · exact .stays
    · cases hrow : (σ.site.invites.find? id).filter fun x => x.codeHash = codeHash with
      | none => exact hfails _
      | some row =>
        exact .locks (Bool.eq_false_of_not_eq_true hheld) (Option.filter_eq_some_iff.mp hrow).1
  | locked row =>
    simp only
    split_ifs with hactive
    · exact .claims hactive
    · exact hfails _
  | claimed row =>
    simp only
    split_ifs
    · exact .stays
    · cases insertUser? σ.site (newUser req.email req.name req.newId)
        (d.hashPassword req.salt req.password) with
      | none => exact hfails _
      | some site => exact .inserts
  | inserted row =>
    simp only
    cases hstored : σ.site.invites.find? row.id with
    | none => exact hfails _
    | some stored =>
      cases hins : insertUser? σ.site (newUser req.email req.name req.newId)
        (d.hashPassword req.salt req.password) with
      | none => exact hfails _
      | some site => exact .registers hstored hins
  | done => exact .stays
  | failed e => exact .stays

theorem createStep_effect (req : InviteCreation) (pc : CreatePc) :
    TxnEffect d σ i (.create req pc) (createStep d σ i req pc) := by
  unfold createStep
  cases pc with
  | start =>
    simp only
    split_ifs
    · exact .stays
    · split
      · exact .goes rfl rfl fun _ => trivial
      -- a new invite has no uses
      · exact .goes rfl rfl fun _ => rfl
  | inserted invite =>
    simp only
    cases hins : insertInvite? σ.site invite with
    | none => exact .goes rfl rfl fun _ => trivial
    | some site => exact .creates hins
  | done => exact .stays
  | failed e => exact .stays

theorem revokeStep_effect (id : InviteId) (pc : RevokePc) :
    TxnEffect d σ i (.revoke id pc) (revokeStep σ i id pc) := by
  unfold revokeStep
  cases pc with
  | start =>
    simp only
    cases σ.site.invites.find? id with
    | none => exact .goes rfl rfl fun _ => trivial
    | some invite =>
      simp only
      split_ifs
      · exact .goes rfl rfl fun _ => trivial
      · exact .goes rfl rfl fun _ => trivial
  | found => exact .goes rfl rfl fun _ => trivial
  | writing at_ =>
    simp only
    split_ifs with hheld
    · exact .stays
    · exact .updates (Bool.eq_false_of_not_eq_true hheld)
  | updated at_ =>
    simp only
    cases hstored : σ.site.invites.find? id with
    | none => exact .goes rfl rfl fun _ => trivial
    | some stored => exact .revokes hstored
  | done => exact .stays
  | failed e => exact .stays

theorem txnStep_effect (t : Txn) : TxnEffect d σ i t (txnStep d σ i t) := by
  cases t with
  | register req pc => exact registerStep_effect d σ i req pc
  | create req pc => exact createStep_effect d σ i req pc
  | revoke id pc => exact revokeStep_effect d σ i id pc

end Effect

/-! ## One move -/

/-- Every invite is still there, with its expiry, and revoked if it was. -/
def KeepsInvites (σ σ' : Signups) : Prop :=
  ∀ k inv, σ.site.invites.find? k = some inv → ∃ inv', σ'.site.invites.find? k = some inv' ∧
    inv'.expiresAt = inv.expiresAt ∧ (inv.revokedAt ≠ none → inv'.revokedAt ≠ none)

/-- What a step of transaction `i` does to the shared state: it moves on to `t`, logs `es`, and of
the invites that others hold it writes none. -/
structure Signups.Moves (σ : Signups) (i : Nat) (t : Txn) (es : List SignupEvent) (σ' : Signups) :
    Prop where
  txns : σ'.txns = σ.txns.set i t
  log : σ'.log = σ.log ++ es
  clock : σ'.clock = σ.clock
  locks : ∀ j k at_, .locked j k at_ ∈ es → j = i ∧ NeverLocked σ i
  takes : ∀ k, t.holds = some k → ∀ (j : Nat) x, σ.txns[j]? = some x → x.holds = some k → j = i
  rows : ∀ (j : Nat) x k, j ≠ i → σ.txns[j]? = some x → x.holds = some k →
    ∀ inv, σ.site.invites.find? k = some inv → σ'.site.invites.find? k = some inv
  keeps : KeepsInvites σ σ'

section Step

variable {ids : List UserId} {σ σ' : Signups} {i : Nat} {t t' : Txn} {es : List SignupEvent}

/-- **The rule for a step**: what is left to show is about the transaction that moved, the counts
and the events it logged. -/
theorem Signups.Ok.step (hok : σ.Ok ids) (hi : σ.txns[i]? = some t) (hm : σ.Moves i t' es σ')
    (htxn : TxnOk σ' i t')
    (huses : ∀ k inv, σ'.site.invites.find? k = some inv →
      inv.useCount = (accountsWith k σ'.log).length ∧ inv.useCount ≤ inv.maxUses)
    (hreg : ∀ j u k, .registered j u k ∈ es →
      (∃ inv, σ'.site.invites.find? k = some inv) ∧ Admitted σ' j k)
    (hrev : ∀ k, .revoked k ∈ es → ∃ inv, σ'.site.invites.find? k = some inv ∧ inv.revokedAt ≠ none)
    (hacc : σ'.site.world.db.users.rows.map User.id = ids ++ accountsOf σ'.log) :
    σ'.Ok ids where
  exclusive := by
    rw [hm.txns]
    exact hok.exclusive.set hm.takes
  txn j x hj := by
    rw [hm.txns, List.getElem?_set] at hj
    split at hj
    · rename_i hij
      subst hij
      split at hj
      · obtain rfl := Option.some.inj hj
        exact htxn
      · cases hj
    · rename_i hij
      refine (hok.txn j x hj).frame hm.log ?_ (le_of_eq hm.clock.symm) ?_
      · intro k at_ he
        exact hij (hm.locks j k at_ he).1.symm
      · exact fun k hk => hm.rows j x k (fun e => hij e.symm) hj hk
  fresh j k at_ hj := by
    rw [hm.txns, List.length_set]
    rw [hm.log] at hj
    rcases List.mem_append.mp hj with hj | hj
    · exact hok.fresh j k at_ hj
    · rw [(hm.locks j k at_ hj).1]
      exact (List.getElem?_eq_some_iff.mp hi).1
  uses := huses
  known j u k hj := by
    rw [hm.log] at hj
    rcases List.mem_append.mp hj with hj | hj
    · obtain ⟨inv, hf⟩ := hok.known j u k hj
      obtain ⟨inv', hf', -⟩ := hm.keeps k inv hf
      exact ⟨inv', hf'⟩
    · exact (hreg j u k hj).1
  revoked k hk := by
    rw [hm.log] at hk
    rcases List.mem_append.mp hk with hk | hk
    · obtain ⟨inv, hf, hr⟩ := hok.revoked k hk
      obtain ⟨inv', hf', -, hr'⟩ := hm.keeps k inv hf
      exact ⟨inv', hf', hr' hr⟩
    · exact hrev k hk
  registered j u k hj := by
    rw [hm.log] at hj
    rcases List.mem_append.mp hj with hj | hj
    · have hadm := hok.registered j u k hj
      obtain ⟨inv, hf⟩ := hok.known j u k hj
      obtain ⟨inv₁, hf₁, he₁, -⟩ := hm.keeps k inv hf
      refine hadm.frame hm.log ?_ fun inv' hf' => ?_
      · intro k' at_ he
        obtain ⟨rfl, hnever⟩ := hm.locks j k' at_ he
        obtain ⟨at_', hm'⟩ := hadm.logged
        exact hnever k at_' hm'
      · obtain rfl := Option.some.inj (hf₁.symm.trans hf')
        exact ⟨inv, hf, he₁.symm⟩
    · exact (hreg j u k hj).2
  accounts := hacc

theorem KeepsInvites.of_eq (h : σ'.site.invites = σ.site.invites) : KeepsInvites σ σ' := by
  intro k inv hf
  exact ⟨inv, by rw [h]; exact hf, rfl, id⟩

/-- A step that only moves the transaction. -/
theorem Signups.Ok.goto (hok : σ.Ok ids) (hi : σ.txns[i]? = some t)
    (htakes : ∀ k, t'.holds = some k → ∀ (j : Nat) x, σ.txns[j]? = some x → x.holds = some k →
      j = i)
    (htxn : TxnOk σ i t') : (σ.goto i t').Ok ids := by
  have hm : σ.Moves i t' [] (σ.goto i t') :=
    { txns := rfl
      log := (List.append_nil _).symm
      clock := rfl
      locks := fun _ _ _ he => absurd he List.not_mem_nil
      takes := htakes
      rows := fun _ _ _ _ _ _ _ hf => hf
      keeps := KeepsInvites.of_eq rfl }
  refine hok.step hi hm ?_ hok.uses (fun _ _ _ he => absurd he List.not_mem_nil)
    (fun _ he => absurd he List.not_mem_nil) hok.accounts
  exact htxn.frame_quiet rfl (le_refl _) fun _ _ _ hf => hf

/-- A step to a place without a lock. -/
theorem Signups.Ok.goto_free (hok : σ.Ok ids) (hi : σ.txns[i]? = some t) (hholds : t'.holds = none)
    (htxn : TxnOk σ i t') : (σ.goto i t').Ok ids := by
  refine hok.goto hi (fun k hk => ?_) htxn
  rw [hholds] at hk
  cases hk

/-- A step that keeps the lock the transaction has. -/
theorem Signups.Ok.goto_holding (hok : σ.Ok ids) (hi : σ.txns[i]? = some t)
    (hholds : t'.holds = t.holds) (htxn : TxnOk σ i t') : (σ.goto i t').Ok ids := by
  refine hok.goto hi (fun k hk j x hj hx => ?_) htxn
  exact hok.exclusive j i x t k hj hi hx (hholds ▸ hk)

theorem abort_ok (hok : σ.Ok ids) (hi : σ.txns[i]? = some t) : (σ.goto i t.abort).Ok ids := by
  have hfree : t.abort.holds = none := by
    rcases t with ⟨req, pc⟩ | ⟨req, pc⟩ | ⟨id, pc⟩ <;> cases pc <;> rfl
  refine hok.goto_free hi hfree ?_
  rcases t with ⟨req, pc⟩ | ⟨req, pc⟩ | ⟨id, pc⟩ <;> cases pc <;> trivial

/-- A registration obtains the row lock of an invite and reads its row. -/
theorem lock_ok {req : Registration} {codeHash : String} {id : InviteId} {row : Invite}
    (hok : σ.Ok ids) (hi : σ.txns[i]? = some (.register req (.waiting codeHash id)))
    (hfree : heldByOther Txn.holds σ.txns i id = false)
    (hrow : σ.site.invites.find? id = some row) :
    Signups.Ok ids { σ.goto i (.register req (.locked row)) with
      log := σ.log ++ [.locked i row.id σ.clock] } := by
  obtain rfl : row.id = id := Table.key_of_find? hrow
  have hnever : NeverLocked σ i := hok.txn i _ hi
  have hm : σ.Moves i (.register req (.locked row)) [.locked i row.id σ.clock]
      { σ.goto i (.register req (.locked row)) with
        log := σ.log ++ [.locked i row.id σ.clock] } :=
    { txns := rfl
      log := rfl
      clock := rfl
      locks := by
        intro j k at_ he
        obtain ⟨rfl, -, -⟩ := SignupEvent.locked.inj (List.mem_singleton.mp he)
        exact ⟨rfl, hnever⟩
      takes := by
        intro k hk j x hj hx
        obtain rfl := Option.some.inj hk
        exact heldByOther_eq_false hfree hj hx
      rows := fun _ _ _ _ _ _ _ hf => hf
      keeps := KeepsInvites.of_eq rfl }
  refine hok.step hi hm ⟨hrow, ⟨σ.clock, by simp⟩, ?_⟩ ?_ ?_ ?_ ?_
  · intro before k at_ after hs
    rcases split_concat hs with ⟨rfl, -, he⟩ | ⟨rest, -, hl⟩
    · obtain ⟨-, rfl, rfl⟩ := SignupEvent.locked.inj he
      refine ⟨rfl, le_refl _, fun hnone hrev => ?_⟩
      obtain ⟨inv, hf, hne⟩ := hok.revoked row.id hrev
      obtain rfl := Option.some.inj (hrow.symm.trans hf)
      exact hne hnone
    · refine absurd ?_ (hnever k at_)
      rw [hl]
      simp
  · intro k inv hf
    have hsame : accountsWith k (σ.log ++ [.locked i row.id σ.clock]) = accountsWith k σ.log := by
      simp [accountsWith]
    simp only [hsame]
    exact hok.uses k inv hf
  · intro j u k he
    cases List.mem_singleton.mp he
  · intro k he
    cases List.mem_singleton.mp he
  · have hsame : accountsOf (σ.log ++ [.locked i row.id σ.clock]) = accountsOf σ.log := by
      simp [accountsOf]
    rw [hsame]
    exact hok.accounts

/-- A commit that writes the row whose lock the transaction holds. -/
theorem write_moves {inv : Invite} (new : Invite) (site : Site) (hok : σ.Ok ids)
    (hi : σ.txns[i]? = some t) (hholds : t.holds = some new.id) (hfree : t'.holds = none)
    (hes : ∀ j k at_, .locked j k at_ ∉ es) (hsite : site.invites = σ.site.invites.put new)
    (hf : σ.site.invites.find? new.id = some inv) (hexp : new.expiresAt = inv.expiresAt)
    (hrev : inv.revokedAt ≠ none → new.revokedAt ≠ none) :
    σ.Moves i t' es { σ.goto i t' with site := site, log := σ.log ++ es } where
  txns := rfl
  log := rfl
  clock := rfl
  locks j k at_ he := absurd he (hes j k at_)
  takes k hk := by
    rw [hfree] at hk
    cases hk
  rows j x k hij hj hx old hold := by
    have hk : k ≠ new.id := by
      rintro rfl
      exact hij (hok.exclusive j i x t new.id hj hi hx hholds)
    show site.invites.find? k = some old
    rw [hsite, Table.find?_put_of_ne _ hk, hold]
  keeps k old hk := by
    show ∃ inv', site.invites.find? k = some inv' ∧ _
    rw [hsite]
    by_cases hkn : k = new.id
    · subst hkn
      obtain rfl := Option.some.inj (hf.symm.trans hk)
      exact ⟨new, Table.find?_put_self hf, hexp, hrev⟩
    · exact ⟨old, (Table.find?_put_of_ne _ hkn).trans hk, rfl, fun hne => hne⟩

theorem insertUser?_eq_some {site site' : Site} {user : User} {hash : String}
    (h : insertUser? site user hash = some site') :
    site'.invites = site.invites ∧
      site'.world.db.users.rows = site.world.db.users.rows ++ [user] := by
  unfold insertUser? at h
  split_ifs at h
  obtain ⟨table, hins, rfl⟩ := Option.map_eq_some_iff.mp h
  exact ⟨rfl, (Table.insert?_eq_some hins).1⟩

theorem accountsWith_append (k : InviteId) (log es : List SignupEvent) :
    accountsWith k (log ++ es) = accountsWith k log ++ accountsWith k es := List.filterMap_append

/-- **A registration commits**: the account, and one use more of the row it has held since it read
it. -/
theorem registered_ok {req : Registration} {row : Invite} {site : Site} (hok : σ.Ok ids)
    (hi : σ.txns[i]? = some (.register req (.inserted row)))
    (hinvites : site.invites = σ.site.invites)
    (husers : site.world.db.users.rows.map User.id =
      σ.site.world.db.users.rows.map User.id ++ [req.newId]) :
    Signups.Ok ids { σ.goto i (.register req .done) with
      site := { site with invites := site.invites.put { row with useCount := row.useCount + 1 } }
      log := σ.log ++ [.registered i req.newId row.id] } := by
  obtain ⟨hhold, husable⟩ : Holding σ i row ∧ Usable σ i row := hok.txn i _ hi
  have hput : σ.site.invites.find? row.id = some row := hhold.stored
  have hfound : (site.invites.put { row with useCount := row.useCount + 1 }).find? row.id =
      some { row with useCount := row.useCount + 1 } := by
    rw [hinvites]
    exact Table.find?_put_self (r := { row with useCount := row.useCount + 1 }) hput
  have hm : σ.Moves i (.register req .done) [.registered i req.newId row.id] _ :=
    write_moves { row with useCount := row.useCount + 1 }
      { site with invites := site.invites.put { row with useCount := row.useCount + 1 } }
      hok hi rfl rfl (by simp) (by rw [hinvites]) hput rfl (fun hne => hne)
  refine hok.step hi hm trivial ?_ ?_ ?_ ?_
  · intro k inv hf
    rw [accountsWith_append]
    by_cases hk : k = row.id
    · subst hk
      obtain rfl := Option.some.inj (hfound.symm.trans hf)
      obtain ⟨hcount, -⟩ := hok.uses row.id row hput
      have hone : accountsWith row.id [.registered i req.newId row.id] = [req.newId] := by
        simp [accountsWith]
      rw [hone, List.length_append, ← hcount]
      exact ⟨rfl, husable.left⟩
    · have hne : row.id ≠ k := fun e => hk e.symm
      have hnone : accountsWith k [.registered i req.newId row.id] = [] := by
        simp [accountsWith, hne]
      rw [hnone, List.append_nil]
      refine hok.uses k inv ?_
      rw [← hf]
      show _ = (site.invites.put _).find? k
      rw [hinvites]
      exact (Table.find?_put_of_ne σ.site.invites
        (r := { row with useCount := row.useCount + 1 }) hk).symm
  · intro j u k he
    obtain ⟨rfl, rfl, rfl⟩ := SignupEvent.registered.inj (List.mem_singleton.mp he)
    refine ⟨⟨_, hfound⟩, ?_, ?_⟩
    · obtain ⟨at_, hlocked⟩ := hhold.logged
      exact ⟨at_, List.mem_append_left _ hlocked⟩
    · intro before k at_ after hs
      obtain ⟨rest, -, hl⟩ := split_append hs (by simp)
      obtain ⟨hk, -, hrev⟩ := hhold.since before k at_ rest hl
      refine ⟨hk, hrev husable.unrevoked, fun inv hf => ?_⟩
      obtain rfl := Option.some.inj (hfound.symm.trans hf)
      refine husable.unexpired k at_ ?_
      rw [hl]
      simp
  · intro k he
    cases List.mem_singleton.mp he
  · have hone : accountsOf (σ.log ++ [.registered i req.newId row.id]) =
        accountsOf σ.log ++ [req.newId] := by
      simp [accountsOf]
    show site.world.db.users.rows.map User.id = _
    rw [husers, hok.accounts, hone, List.append_assoc]

/-- A revocation commits: the row keeps its uses. -/
theorem revoked_ok {id : InviteId} {at_ : Instant} {stored : Invite} (hok : σ.Ok ids)
    (hi : σ.txns[i]? = some (.revoke id (.updated at_)))
    (hf : σ.site.invites.find? id = some stored) :
    Signups.Ok ids { σ.goto i (.revoke id .done) with
      site := { σ.site with
        invites := σ.site.invites.put { stored with revokedAt := some at_ } }
      log := σ.log ++ [.revoked id] } := by
  obtain rfl : stored.id = id := Table.key_of_find? hf
  have hfound : (σ.site.invites.put { stored with revokedAt := some at_ }).find? stored.id =
      some { stored with revokedAt := some at_ } :=
    Table.find?_put_self (r := { stored with revokedAt := some at_ }) hf
  have hm : σ.Moves i (.revoke stored.id .done) [.revoked stored.id] _ :=
    write_moves { stored with revokedAt := some at_ }
      { σ.site with invites := σ.site.invites.put { stored with revokedAt := some at_ } }
      hok hi rfl rfl (by simp) rfl hf rfl (by simp)
  refine hok.step hi hm trivial ?_ ?_ ?_ ?_
  · intro k inv hk
    have hnone : accountsWith k [.revoked stored.id] = [] := rfl
    rw [accountsWith_append, hnone, List.append_nil]
    by_cases hks : k = stored.id
    · subst hks
      obtain rfl := Option.some.inj (hfound.symm.trans hk)
      exact hok.uses stored.id stored hf
    · refine hok.uses k inv ?_
      rw [← hk]
      exact (Table.find?_put_of_ne σ.site.invites
        (r := { stored with revokedAt := some at_ }) hks).symm
  · intro j u k he
    cases List.mem_singleton.mp he
  · intro k he
    obtain rfl := SignupEvent.revoked.inj (List.mem_singleton.mp he)
    exact ⟨_, hfound, by simp⟩
  · have hsame : accountsOf (σ.log ++ [.revoked stored.id]) = accountsOf σ.log := by
      simp [accountsOf]
    rw [hsame]
    exact hok.accounts

/-- A new invite commits: it has no uses, and nobody registered with its id before. -/
theorem created_ok {req : InviteCreation} {invite : Invite} {site : Site} (hok : σ.Ok ids)
    (hi : σ.txns[i]? = some (.create req (.inserted invite)))
    (hins : insertInvite? σ.site invite = some site) :
    Signups.Ok ids { σ.goto i (.create req .done) with site := site } := by
  have hzero : invite.useCount = 0 := hok.txn i _ hi
  unfold insertInvite? at hins
  split_ifs at hins
  obtain ⟨table, htable, rfl⟩ := Option.map_eq_some_iff.mp hins
  have hold : ∀ k inv, σ.site.invites.find? k = some inv → table.find? k = some inv := by
    intro k inv hf
    have hk : k ≠ invite.id := by
      rintro rfl
      exact (Table.insert?_eq_some htable).2 inv (Table.mem_of_find? hf) (Table.key_of_find? hf)
    rw [Table.find?_insert?_of_ne htable hk, hf]
  have hm : σ.Moves i (.create req .done) []
      { σ.goto i (.create req .done) with site := { σ.site with invites := table } } :=
    { txns := rfl
      log := (List.append_nil _).symm
      clock := rfl
      locks := fun _ _ _ he => absurd he List.not_mem_nil
      takes := fun _ hk => by cases hk
      rows := fun _ _ k _ _ _ inv hf => hold k inv hf
      keeps := fun k inv hf => ⟨inv, hold k inv hf, rfl, fun hne => hne⟩ }
  refine hok.step hi hm trivial ?_ (fun _ _ _ he => absurd he List.not_mem_nil)
    (fun _ he => absurd he List.not_mem_nil) hok.accounts
  intro k inv hf
  by_cases hk : k = invite.id
  · subst hk
    obtain rfl := Option.some.inj ((Table.find?_insert?_self htable).symm.trans hf)
    have hnone : accountsWith invite.id σ.log = [] := by
      refine List.filterMap_eq_nil_iff.mpr fun e he => ?_
      cases e with
      | locked j k at_ => rfl
      | revoked k => rfl
      | registered j u k =>
        obtain ⟨old, hold⟩ := hok.known j u k he
        have hne : k ≠ invite.id := by
          rintro rfl
          exact (Table.insert?_eq_some htable).2 old (Table.mem_of_find? hold)
            (Table.key_of_find? hold)
        exact if_neg hne
    show invite.useCount = (accountsWith invite.id σ.log).length ∧ _
    rw [hnone, hzero]
    exact ⟨rfl, Nat.zero_le _⟩
  · exact hok.uses k inv ((Table.find?_insert?_of_ne htable hk).symm.trans hf)

variable {d : AuthDeps}

theorem txnStep_ok (hok : σ.Ok ids) (hi : σ.txns[i]? = some t) : (txnStep d σ i t).Ok ids := by
  have hhere : TxnOk σ i t := hok.txn i t hi
  have heffect := txnStep_effect d σ i t
  generalize txnStep d σ i t = σ' at heffect ⊢
  cases heffect with
  | stays => exact hok
  | goes _ hfree hsafe => exact hok.goto_free hi hfree (hsafe hhere)
  | locks hfree hrow => exact lock_ok hok hi hfree hrow
  | @claims _ row hactive =>
    obtain ⟨hrev, hexp, hleft⟩ := Invite.status_eq_active.mp hactive
    have hhold : Holding σ i row := hhere
    refine hok.goto_holding hi rfl ⟨hhold, hleft, hrev, fun k at_ hm x hx => ?_⟩
    -- the status was read at the clock, which is not before the lock
    obtain ⟨before, after, hlog⟩ := List.append_of_mem hm
    exact lt_of_le_of_lt (hhold.since before k at_ after hlog).2.1 (hexp x hx)
  | inserts => exact hok.goto_holding hi rfl hhere
  | registers hstored hins =>
    obtain rfl := Option.some.inj (hhere.1.stored.symm.trans hstored)
    obtain ⟨hinvites, husers⟩ := insertUser?_eq_some hins
    refine registered_ok hok hi hinvites ?_
    rw [husers, List.map_append]
    rfl
  | creates hins => exact created_ok hok hi hins
  | updates hfree =>
    refine hok.goto hi (fun k hk j x hj hx => ?_) trivial
    obtain rfl := Option.some.inj hk
    exact heldByOther_eq_false hfree hj hx
  | revokes hstored => exact revoked_ok hok hi hstored

/-- A new transaction has taken no lock. -/
theorem call_ok (hok : σ.Ok ids) (call : SignupCall) :
    Signups.Ok ids { σ with txns := σ.txns ++ [call.txn] } where
  exclusive := hok.exclusive.append (by cases call <;> rfl)
  txn j x hj := by
    rw [List.getElem?_append] at hj
    split at hj
    · exact (hok.txn j x hj).frame_quiet rfl (le_refl _) fun _ _ _ hf => hf
    · rename_i hlen
      have hnever : NeverLocked σ j := fun k at_ hm => hlen (hok.fresh j k at_ hm)
      obtain rfl := List.mem_singleton.mp (List.mem_of_getElem? hj)
      cases call with
      | register req => exact hnever
      | create req => trivial
      | revoke id => trivial
  fresh j k at_ hm := by
    rw [List.length_append]
    exact Nat.lt_add_right _ (hok.fresh j k at_ hm)
  uses := hok.uses
  known := hok.known
  revoked := hok.revoked
  registered j u k hm := ⟨(hok.registered j u k hm).logged, (hok.registered j u k hm).since⟩
  accounts := hok.accounts

/-- Time passes. -/
theorem wait_ok (hok : σ.Ok ids) (micros : Nat) :
    Signups.Ok ids { σ with clock := σ.clock + micros } where
  exclusive := hok.exclusive
  txn j x hj := by
    refine (hok.txn j x hj).frame_quiet rfl ?_ fun _ _ _ hf => hf
    exact le_add_of_nonneg_right (Int.natCast_nonneg micros)
  fresh := hok.fresh
  uses := hok.uses
  known := hok.known
  revoked := hok.revoked
  registered j u k hm := ⟨(hok.registered j u k hm).logged, (hok.registered j u k hm).since⟩
  accounts := hok.accounts

/-- **Every move keeps the invariant.** -/
theorem signupStep_ok (hok : σ.Ok ids) (m : SignupMove) : (signupStep d σ m).Ok ids := by
  unfold signupStep
  cases m with
  | call call => exact call_ok hok call
  | wait micros => exact wait_ok hok micros
  | advance i =>
    simp only
    cases hi : σ.txns[i]? with
    | none => exact hok
    | some t => exact txnStep_ok hok hi
  | abort i =>
    simp only
    cases hi : σ.txns[i]? with
    | none => exact hok
    | some t => exact abort_ok hok hi

theorem signups_run_ok (world : World) (passwordHash : UserId → String) (clock : Instant)
    (moves : List SignupMove) :
    (run (signupStep d) (Signups.opening world passwordHash clock) moves).Ok
      (world.db.users.rows.map User.id) := by
  refine run_preserves (P := Signups.Ok (world.db.users.rows.map User.id))
    (fun σ m hok => signupStep_ok hok m) moves ?_
  exact
    { exclusive := exclusive_nil
      txn := fun i t hi => absurd hi (by simp [Signups.opening])
      fresh := fun _ _ _ hm => absurd hm List.not_mem_nil
      uses := fun k inv hf => absurd hf (by simp [Signups.opening, Table.find?, Table.empty])
      known := fun _ _ _ hm => absurd hm List.not_mem_nil
      revoked := fun _ hm => absurd hm List.not_mem_nil
      registered := fun _ _ _ hm => absurd hm List.not_mem_nil
      accounts := (List.append_nil _).symm }

end Step

/-! ## Registrations that fail -/

section Failure

variable {d : AuthDeps} {σ : Signups} {i j : Nat} {t : Txn} {req : Registration}

/-- A step of a transaction moves it on, and no other. -/
theorem txnStep_txns (hi : σ.txns[i]? = some t) :
    ∃ t', (txnStep d σ i t).txns = σ.txns.set i t' ∧ t'.call = t.call := by
  have heffect := txnStep_effect d σ i t
  generalize txnStep d σ i t = σ' at heffect ⊢
  cases heffect with
  | stays =>
    refine ⟨t, ?_, rfl⟩
    obtain ⟨hlt, rfl⟩ := List.getElem?_eq_some_iff.mp hi
    exact (List.set_getElem_self hlt).symm
  | goes hcall => exact ⟨_, rfl, hcall⟩
  | locks => exact ⟨_, rfl, rfl⟩
  | claims => exact ⟨_, rfl, rfl⟩
  | inserts => exact ⟨_, rfl, rfl⟩
  | registers => exact ⟨_, rfl, rfl⟩
  | creates => exact ⟨_, rfl, rfl⟩
  | updates => exact ⟨_, rfl, rfl⟩
  | revokes => exact ⟨_, rfl, rfl⟩

/-- The move is a step or the failure of transaction `i`. -/
def SignupMove.Of (i : Nat) (m : SignupMove) : Prop := m = .advance i ∨ m = .abort i

/-- A transaction that is there stays one of its call, and only its own moves move it. -/
theorem signupStep_txn (hi : σ.txns[i]? = some t) (m : SignupMove) :
    ∃ t', (signupStep d σ m).txns[i]? = some t' ∧ t'.call = t.call ∧ (¬ m.Of i → t' = t) := by
  have hset : ∀ {j : Nat} {x x' : Txn}, σ.txns[j]? = some x → x'.call = x.call →
      ∃ t', (σ.txns.set j x')[i]? = some t' ∧ t'.call = t.call ∧ (j ≠ i → t' = t) := by
    intro j x x' hj hcall
    by_cases hji : j = i
    · subst hji
      obtain rfl := Option.some.inj (hi.symm.trans hj)
      have hlt := (List.getElem?_eq_some_iff.mp hi).1
      exact ⟨x', by rw [List.getElem?_set_self hlt], hcall, fun hne => absurd rfl hne⟩
    · exact ⟨t, by rw [List.getElem?_set_ne hji, hi], rfl, fun _ => rfl⟩
  unfold signupStep
  cases m with
  | call call =>
    refine ⟨t, ?_, rfl, fun _ => rfl⟩
    simp only
    rw [List.getElem?_append_left (List.getElem?_eq_some_iff.mp hi).1, hi]
  | wait micros => exact ⟨t, hi, rfl, fun _ => rfl⟩
  | advance j =>
    simp only
    cases hj : σ.txns[j]? with
    | none => exact ⟨t, hi, rfl, fun _ => rfl⟩
    | some x =>
      obtain ⟨x', hx', hcall⟩ := txnStep_txns (d := d) hj
      obtain ⟨t', ht', hc, hother⟩ := hset hj hcall
      refine ⟨t', by simp only [hx']; exact ht', hc, fun hof => hother ?_⟩
      rintro rfl
      exact hof (.inl rfl)
  | abort j =>
    simp only
    cases hj : σ.txns[j]? with
    | none => exact ⟨t, hi, rfl, fun _ => rfl⟩
    | some x =>
      have hcall : x.abort.call = x.call := by
        rcases x with ⟨req, pc⟩ | ⟨req, pc⟩ | ⟨id, pc⟩ <;> cases pc <;> rfl
      obtain ⟨t', ht', hc, hother⟩ := hset hj hcall
      refine ⟨t', ht', hc, fun hof => hother ?_⟩
      rintro rfl
      exact hof (.inr rfl)

/-- A registration that is done stays done. -/
theorem signupStep_done (hi : σ.txns[i]? = some (.register req .done)) (m : SignupMove) :
    (signupStep d σ m).txns[i]? = some (.register req .done) := by
  by_cases hof : m.Of i
  · rcases hof with rfl | rfl
    · unfold signupStep
      simp only [hi]
      exact hi
    · unfold signupStep
      simp only [hi]
      exact List.getElem?_set_self (List.getElem?_eq_some_iff.mp hi).1
  · obtain ⟨t', ht', -, hsame⟩ := signupStep_txn (d := d) hi m
    rw [ht', hsame hof]

/-- **Only the commit of a registration writes an invite**, and it ends the registration. -/
theorem register_invites {pc : RegisterPc} (hi : σ.txns[i]? = some (.register req pc))
    {m : SignupMove} (hof : m.Of i) :
    (signupStep d σ m).site.invites = σ.site.invites ∨
      (signupStep d σ m).txns[i]? = some (.register req .done) := by
  unfold signupStep
  rcases hof with rfl | rfl
  · simp only [hi]
    have heffect := txnStep_effect d σ i (.register req pc)
    generalize txnStep d σ i (.register req pc) = σ' at heffect ⊢
    cases heffect with
    | stays => exact .inl rfl
    | goes => exact .inl rfl
    | locks => exact .inl rfl
    | claims => exact .inl rfl
    | inserts => exact .inl rfl
    | registers => exact .inr (List.getElem?_set_self (List.getElem?_eq_some_iff.mp hi).1)
  · simp only [hi]
    exact .inl rfl

/-- Nothing a failing registration did changed the invites. -/
theorem failed_leaves_invites {σ₀ : Signups} {before after : List SignupMove} {m : SignupMove}
    {e : TxnError} (hof : m.Of i)
    (hend : (run (signupStep d) σ₀ (before ++ m :: after)).txns[i]? =
      some (.register req (.failed e))) :
    (run (signupStep d) σ₀ (before ++ [m])).site.invites =
      (run (signupStep d) σ₀ before).site.invites := by
  rw [run_append, run_cons] at hend
  rw [run_append, run_cons, run_nil]
  generalize run (signupStep d) σ₀ before = σ at hend ⊢
  cases hi : σ.txns[i]? with
  | none =>
    have hstay : signupStep d σ m = σ := by
      rcases hof with rfl | rfl <;> simp only [signupStep, hi]
    rw [hstay]
  | some t =>
    obtain ⟨t₁, ht₁, hcall₁, -⟩ := signupStep_txn (d := d) hi m
    obtain ⟨t₂, ht₂, hcall₂⟩ := run_preserves
      (P := fun σ : Signups => ∃ t', σ.txns[i]? = some t' ∧ t'.call = t.call)
      (fun σ m hx => by
        obtain ⟨x, hx, hxt⟩ := hx
        obtain ⟨x', hx', hcall, -⟩ := signupStep_txn (d := d) hx m
        exact ⟨x', hx', hcall.trans hxt⟩) after ⟨t₁, ht₁, hcall₁⟩
    obtain rfl := Option.some.inj (ht₂.symm.trans hend)
    cases t with
    | create req' pc => cases hcall₂
    | revoke id pc => cases hcall₂
    | register req' pc =>
      obtain rfl : req = req' := SignupCall.register.inj hcall₂
      rcases register_invites (d := d) hi hof with hsame | hdone
      · exact hsame
      · have hstays := run_preserves
          (P := fun σ : Signups => σ.txns[i]? = some (.register req .done))
          (fun σ m hx => signupStep_done (d := d) hx m) after hdone
        cases Option.some.inj (hstays.symm.trans hend)

end Failure

/-! ## A registration alone -/

section Alone

variable {d : AuthDeps} {a : AuthSettings}

/-- The place a registration that answers `res` ends at. -/
def RegisterPc.ofResult : Except ApiError User → RegisterPc
  | .ok _ => .done
  | .error e => .failed (.api e)

/-- A pool of one registration. -/
def Signups.solo (site : Site) (clock : Instant) (log : List SignupEvent) (req : Registration)
    (pc : RegisterPc) : Signups where
  site := site
  clock := clock
  txns := [.register req pc]
  log := log

/-- `n` steps of the one registration. -/
def advances (n : Nat) : List SignupMove := List.replicate n (.advance 0)

variable {site : Site} {clock : Instant} {log : List SignupEvent} {req : Registration}

theorem solo_advances (n : Nat) (pc : RegisterPc) :
    run (signupStep d) (.solo site clock log req pc) (advances (n + 1)) =
      run (signupStep d) (registerStep d (.solo site clock log req pc) 0 req pc) (advances n) := rfl

theorem solo_failed (n : Nat) (e : TxnError) :
    run (signupStep d) (.solo site clock log req (.failed e)) (advances n) =
      .solo site clock log req (.failed e) := by
  induction n with
  | zero => rfl
  | succ n ih => exact ih

theorem solo_taken (h : req.email ∈ site.world.db.users.rows.map User.email) :
    registerStep d (.solo site clock log req .start) 0 req .start =
      .solo site clock log req (.failed (.api (.emailAlreadyRegistered req.email))) := if_pos h

/-- The first step, once the email is free: what is left is to look for the code, if there is one.
-/
theorem solo_free (h : req.email ∉ site.world.db.users.rows.map User.email) :
    registerStep d (.solo site clock log req .start) 0 req .start =
      .solo site clock log req
        (match truthy req.inviteCode with
          | none => .failed (.api .invalidInvite)
          | some code =>
            if d.strip code = "" then .failed (.api .invalidInvite)
            else .looking (hashCode d (d.strip code))) := by
  refine (if_neg h).trans ?_
  cases truthy req.inviteCode with
  | none => rfl
  | some code =>
    simp only
    split_ifs <;> rfl

/-- The lock is free, and the row is as the statement found it. -/
theorem solo_looking {codeHash : String} {row : Invite}
    (h : (site.invites.rows.find? fun x => x.codeHash = codeHash) = some row) (n : Nat) :
    run (signupStep d) (.solo site clock log req (.looking codeHash)) (advances (n + 2)) =
      run (signupStep d) (.solo site clock (log ++ [.locked 0 row.id clock]) req (.locked row))
        (advances n) := by
  have hhash : row.codeHash = codeHash := by simpa using List.find?_some h
  have hstored : site.invites.find? row.id = some row :=
    Table.find?_of_mem (List.mem_of_find?_eq_some h)
  have hlooked : registerStep d (.solo site clock log req (.looking codeHash)) 0 req
      (.looking codeHash) = .solo site clock log req (.waiting codeHash row.id) := by
    unfold registerStep Signups.solo
    simp only [h]
    rfl
  have hlocked : registerStep d (.solo site clock log req (.waiting codeHash row.id)) 0 req
      (.waiting codeHash row.id) =
        .solo site clock (log ++ [.locked 0 row.id clock]) req (.locked row) := by
    have hheld : heldByOther Txn.holds [.register req (.waiting codeHash row.id)] 0 row.id =
        false := by
      simp [heldByOther]
    unfold registerStep Signups.solo
    simp only [hheld, Bool.false_eq_true, if_false, hstored, Option.filter_some, hhash, decide_true,
      if_true]
    rfl
  rw [solo_advances, hlooked, solo_advances, hlocked]

/-- The two steps after the claim: the account is inserted and committed with the use. -/
theorem solo_claimed {row : Invite} (h : site.invites.find? row.id = some row) :
    run (signupStep d) (.solo site clock log req (.claimed row)) (advances 2) =
      match insertUser? site (newUser req.email req.name req.newId)
          (d.hashPassword req.salt req.password) with
      | none => .solo site clock log req (.failed (.api (.service .integrity)))
      | some site' =>
        .solo { site' with
            invites := site'.invites.put { row with useCount := row.useCount + 1 } }
          clock (log ++ [.registered 0 req.newId row.id]) req .done := by
  have hawaits : ∀ inserts, (Signups.solo site clock log req (.claimed row)).awaitsInsert 0
      inserts = false := by
    intro inserts
    simp [Signups.awaitsInsert, Signups.solo]
  rw [solo_advances]
  cases hins : insertUser? site (newUser req.email req.name req.newId)
    (d.hashPassword req.salt req.password) with
  | none =>
    have hstep : registerStep d (.solo site clock log req (.claimed row)) 0 req (.claimed row) =
        .solo site clock log req (.failed (.api (.service .integrity))) := by
      unfold registerStep
      simp only [hawaits, Bool.false_eq_true, if_false]
      unfold Signups.solo
      simp only [hins]
      rfl
    rw [hstep, solo_failed]
  | some site' =>
    have hstep : registerStep d (.solo site clock log req (.claimed row)) 0 req (.claimed row) =
        .solo site clock log req (.inserted row) := by
      unfold registerStep
      simp only [hawaits, Bool.false_eq_true, if_false]
      unfold Signups.solo
      simp only [hins]
      rfl
    rw [hstep, solo_advances]
    unfold registerStep Signups.solo
    simp only [h, hins]
    rfl

/-- **Undisturbed, a registration does what `registerUser` does.** -/
theorem register_alone (hmode : a.registrationMode = .invite) (site : Site) (clock : Instant)
    (log : List SignupEvent) (req : Registration) :
    let out := registerUser d a site clock req.email req.password req.name req.inviteCode req.newId
      req.salt
    let σ := run (signupStep d) (.solo site clock log req .start) (advances 6)
    σ.site = out.2 ∧ σ.txns = [.register req (.ofResult out.1)] := by
  have hopen : ¬ a.registrationMode = .closed := by rw [hmode]; decide
  unfold registerUser registrationInvites claimInvite
  simp only [if_neg hopen, if_pos hmode]
  rw [solo_advances]
  by_cases hemail : req.email ∈ site.world.db.users.rows.map User.email
  · rw [if_pos hemail, solo_taken hemail, solo_failed]
    exact ⟨rfl, rfl⟩
  rw [if_neg hemail, solo_free hemail]
  cases truthy req.inviteCode with
  | none =>
    simp only [solo_failed]
    exact ⟨rfl, rfl⟩
  | some code =>
    by_cases hstrip : d.strip code = ""
    · simp only [if_pos hstrip, solo_failed]
      exact ⟨rfl, rfl⟩
    simp only [if_neg hstrip]
    cases hfind : site.invites.rows.find? fun x => x.codeHash = hashCode d (d.strip code) with
    | none =>
      have hlooked : registerStep d (.solo site clock log req
          (.looking (hashCode d (d.strip code)))) 0 req (.looking (hashCode d (d.strip code))) =
            .solo site clock log req (.failed (.api .invalidInvite)) := by
        unfold registerStep Signups.solo
        simp only [hfind]
        rfl
      rw [solo_advances, hlooked, solo_failed]
      exact ⟨rfl, rfl⟩
    | some row =>
      have hstored : site.invites.find? row.id = some row :=
        Table.find?_of_mem (List.mem_of_find?_eq_some hfind)
      rw [solo_looking hfind, solo_advances]
      by_cases hactive : row.status clock = .active
      · have hclaimed : registerStep d (.solo site clock (log ++ [.locked 0 row.id clock]) req
            (.locked row)) 0 req (.locked row) =
              .solo site clock (log ++ [.locked 0 row.id clock]) req (.claimed row) :=
          if_pos hactive
        rw [hclaimed, solo_claimed hstored]
        simp only [if_pos hactive]
        cases hins : insertUser? site (newUser req.email req.name req.newId)
          (d.hashPassword req.salt req.password) with
        | none => exact ⟨rfl, rfl⟩
        | some site' =>
          simp only [(insertUser?_eq_some hins).1]
          exact ⟨rfl, rfl⟩
      · have hrefused : registerStep d (.solo site clock (log ++ [.locked 0 row.id clock]) req
            (.locked row)) 0 req (.locked row) =
              .solo site clock (log ++ [.locked 0 row.id clock]) req
                (.failed (.api .invalidInvite)) :=
          if_neg hactive
        rw [hrefused, solo_failed]
        simp only [if_neg hactive]
        exact ⟨rfl, rfl⟩

end Alone

/-! ## The result -/

/-- **Invites are never overspent or burned.** After any moves of any number of registrations,
creations and revocations of invites, with any failures:
the uses of each invite are as many as the accounts created with it, at most `max_uses`, and the
accounts created are exactly those the log says;
no step of a registration that ended in an error changed an invite;
and an account's registration took the row lock of its invite before a revocation of it was
committed and before it expired. -/
theorem invites_never_overspent (d : AuthDeps) (world : World) (passwordHash : UserId → String)
    (clock : Instant) (moves : List SignupMove) :
    let start := Signups.opening world passwordHash clock
    let σ := run (signupStep d) start moves
    (∀ k inv, σ.site.invites.find? k = some inv →
      inv.useCount = (accountsWith k σ.log).length ∧ inv.useCount ≤ inv.maxUses) ∧
    σ.site.world.db.users.rows.map User.id =
      world.db.users.rows.map User.id ++ accountsOf σ.log ∧
    (∀ before m after i req e, moves = before ++ m :: after → SignupMove.Of i m →
      σ.txns[i]? = some (.register req (.failed e)) →
      (run (signupStep d) start (before ++ [m])).site.invites =
        (run (signupStep d) start before).site.invites) ∧
    (∀ i u k, .registered i u k ∈ σ.log →
      (∃ at_, .locked i k at_ ∈ σ.log) ∧
      ∀ before k' at_ after, σ.log = before ++ .locked i k' at_ :: after →
        k' = k ∧ .revoked k ∉ before ∧
          ∀ inv, σ.site.invites.find? k = some inv → ∀ t ∈ inv.expiresAt, at_ < t) := by
  intro start σ
  have hok : σ.Ok (world.db.users.rows.map User.id) :=
    signups_run_ok world passwordHash clock moves
  refine ⟨hok.uses, hok.accounts, ?_, fun i u k hm => ?_⟩
  · rintro before m after i req e hmoves hof hend
    have hend : (run (signupStep d) start (before ++ m :: after)).txns[i]? =
        some (.register req (.failed e)) := hmoves ▸ hend
    exact failed_leaves_invites hof hend
  · exact ⟨(hok.registered i u k hm).logged, (hok.registered i u k hm).since⟩

/-- Two sign-ups with the one code of a single-use invite. -/
def lastUse : List SignupMove :=
  let signUp (email : String) (id : UserId) : SignupMove :=
    .call (.register
      { email := email
        password := "battery 99"
        name := "G"
        inviteCode := some "inv_t"
        newId := id
        salt := "" })
  [.call (.create
      { createdBy := 1
        note := ""
        maxUses := 1
        expiresInDays := some 14
        newId := 9
        token := "t" }),
    .advance 0, .advance 0, signUp "g@example.com" 5, signUp "h@example.com" 6, .advance 1,
    .advance 2, .advance 1, .advance 2, .advance 1,
    -- the first has the lock, the second waits for it
    .advance 2, .advance 1, .advance 1, .advance 1, .advance 2, .advance 2]

example :
    let σ := run (signupStep .transparent) (.opening freeWorld (fun _ => "") 0) lastUse
    σ.site.invites.rows.map Invite.useCount = [1] ∧
      σ.txns.drop 2 = [.register
        { email := "h@example.com"
          password := "battery 99"
          name := "G"
          inviteCode := some "inv_t"
          newId := 6
          salt := "" } (.failed (.api .invalidInvite))] := by
  decide +kernel

end Gateway
