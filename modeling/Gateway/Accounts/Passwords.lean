import Gateway.Accounts.Model
import Gateway.Lib.Utf8

/-!
# Which passwords log in

The schemas bound a password to 72 characters. bcrypt reads the first 72 bytes of its UTF-8
encoding, and a character has up to four.

* `Bcrypt`: what is assumed of the library, the behaviour of its releases 4.x.
* `registerUser_ok`, `authenticateUser_registered`: a registration that is let through succeeds
  whatever the password is, and the new account is then logged in with what bcrypt takes for it.
* `only_itself_iff`: which texts share their first 72 bytes with no other one of at most 72
  characters.
* **`login_iff_same_password`**: after a registration with `p`, only `p` logs in, if and only if `p`
  has fewer than 72 bytes, or 72 bytes and 72 characters.
* **`two_passwords_log_in`**: a password of 37 characters for which another one works.
-/

namespace Gateway

open Lib

/-- `RegisterRequest` accepts the password. -/
def RegisterAccepts (password : String) : Prop := 8 ≤ password.length ∧ password.length ≤ 72

/-- `LoginRequest` accepts the password. -/
def LoginAccepts (password : String) : Prop := 1 ≤ password.length ∧ password.length ≤ 72

/-- What bcrypt reads of a password. -/
def bcryptInput (password : String) : List UInt8 := (utf8 password.toList).take 72

/-- bcrypt accepts a password for a hash iff it reads the same of both. -/
def Bcrypt (d : AuthDeps) : Prop :=
  ∀ salt p q, d.verifyPassword q (d.hashPassword salt p) = true ↔ bcryptInput q = bcryptInput p

/-! ## The first 72 bytes -/

section Prefix

variable {p q : List Char}

/-- A short text is determined by its bytes. -/
theorem eq_of_take_eq_of_short (hp : (utf8 p).length < 72)
    (h : (utf8 q).take 72 = (utf8 p).take 72) : q = p := by
  rw [List.take_of_length_le (Nat.le_of_lt hp)] at h
  have hlen := congrArg List.length h
  rw [List.length_take] at hlen
  rw [List.take_of_length_le (by omega)] at h
  exact utf8_injective h

/-- So is one of 72 characters of one byte each, among the texts of at most 72 characters. -/
theorem eq_of_take_eq_of_ascii (hp : (utf8 p).length = 72) (hchars : p.length = 72)
    (hq : q.length ≤ 72) (h : (utf8 q).take 72 = (utf8 p).take 72) : q = p := by
  rw [List.take_of_length_le (Nat.le_of_eq hp)] at h
  have hstart : p <+: q := prefix_of_utf8_prefix (h ▸ List.take_prefix 72 (utf8 q))
  exact (hstart.eq_of_length_le (by omega)).symm

/-- A text of 72 bytes can be continued. -/
theorem take_utf8_append (hp : (utf8 p).length = 72) (cs : List Char) :
    (utf8 (p ++ cs)).take 72 = (utf8 p).take 72 := by
  rw [utf8_append, List.take_append_of_le_length (Nat.le_of_eq hp.symm)]

/-- A text of more than 72 bytes can be changed in its last one. -/
theorem exists_take_eq_of_long (hp : 72 < (utf8 p).length) :
    ∃ q : List Char, q ≠ p ∧ q.length = p.length ∧ (utf8 q).take 72 = (utf8 p).take 72 := by
  have hne : p ≠ [] := by
    rintro rfl
    exact absurd hp (by decide)
  obtain ⟨q, hq, hlen, hsame⟩ := exists_same_but_last_byte hne
  have hfirst : ∀ bs : List UInt8, 72 ≤ bs.dropLast.length → bs.dropLast.take 72 = bs.take 72 := by
    intro bs hbs
    rw [List.length_dropLast] at hbs
    rw [List.dropLast_eq_take, List.take_take, Nat.min_eq_left hbs]
  have hlong : 72 ≤ (utf8 p).dropLast.length := by
    rw [List.length_dropLast]
    omega
  refine ⟨q, hq, hlen, ?_⟩
  rw [← hfirst _ hlong, ← hsame, hfirst _ (by rw [hsame]; exact hlong)]

/-- **Which texts share their first 72 bytes with no other one of at most 72 characters.** -/
theorem only_itself_iff (hpos : 1 ≤ p.length) (hp : p.length ≤ 72) :
    (∀ q : List Char, 1 ≤ q.length → q.length ≤ 72 →
      ((utf8 q).take 72 = (utf8 p).take 72 ↔ q = p)) ↔
      (utf8 p).length < 72 ∨ ((utf8 p).length = 72 ∧ p.length = 72) := by
  constructor
  · intro honly
    by_contra hnot
    rcases Nat.lt_trichotomy (utf8 p).length 72 with hlen | hlen | hlen
    · exact hnot (Or.inl hlen)
    · -- With a byte for each character there is no room for another one.
      have hroom : p.length < 72 := by
        rcases Nat.lt_or_eq_of_le hp with h | h
        · exact h
        · exact absurd (Or.inr ⟨hlen, h⟩) hnot
      have hsame := (honly (p ++ ['x']) (by simp) (by simpa using hroom)).mp
        (take_utf8_append hlen ['x'])
      exact absurd (congrArg List.length hsame) (by simp)
    · obtain ⟨q, hne, hqlen, hsame⟩ := exists_take_eq_of_long hlen
      exact hne ((honly q (by omega) (by omega)).mp hsame)
  · rintro (hlen | ⟨hlen, hchars⟩) q - hq
    · exact ⟨eq_of_take_eq_of_short hlen, fun h => h ▸ rfl⟩
    · exact ⟨eq_of_take_eq_of_ascii hlen hchars hq, fun h => h ▸ rfl⟩

end Prefix

/-! ## Registering and logging in -/

section Account

variable {d : AuthDeps} {a : AuthSettings} {site : Site} {now : Instant} {email name : String}
  {inviteCode : Option String} {invites : Table Invite Invite.id} {newId : UserId}

/-- A registration that is let through succeeds whatever the password is. -/
theorem registerUser_ok (hopen : a.registrationMode ≠ .closed)
    (hemail : email ∉ site.world.db.users.rows.map User.email)
    (hinvites : registrationInvites d a site now inviteCode = .ok invites)
    (hid : newId ∉ site.world.db.users.rows.map User.id) (name password salt : String) :
    ∃ site', registerUser d a site now email password name inviteCode newId salt =
        (.ok (newUser email name newId), site') ∧
      site'.world.db.users.rows = site.world.db.users.rows ++ [newUser email name newId] ∧
      site'.passwordHash newId = d.hashPassword salt password := by
  have hfree : ∀ x ∈ site.world.db.users.rows, x.id ≠ (newUser email name newId).id :=
    fun x hx heq => hid (List.mem_map.mpr ⟨x, hx, heq⟩)
  obtain ⟨t, ht⟩ := Table.insert?_of_forall_ne hfree
  unfold registerUser
  rw [if_neg hopen, if_neg hemail, hinvites]
  simp only [insertUser?]
  have hfree' : (newUser email name newId).email ∉ site.world.db.users.rows.map User.email := hemail
  rw [if_neg hfree', ht]
  exact ⟨_, rfl, (Table.insert?_eq_some ht).1, if_pos rfl⟩

/-- The new account is logged in with what its hash accepts. -/
theorem authenticateUser_registered {users : List User} {site : Site} {password : String}
    (hrows : site.world.db.users.rows = users ++ [newUser email name newId])
    (hemail : email ∉ users.map User.email) :
    authenticateUser d site email password = .ok (newUser email name newId) ↔
      d.verifyPassword password (site.passwordHash newId) = true := by
  have hfind : site.world.db.users.rows.find? (fun u => u.email = email) =
      some (newUser email name newId) := by
    rw [hrows, List.find?_append]
    have hnone : users.find? (fun u => u.email = email) = none := by
      refine List.find?_eq_none.mpr fun u hu heq => hemail ?_
      exact List.mem_map.mpr ⟨u, hu, by simpa using heq⟩
    rw [hnone]
    simp [newUser]
  unfold authenticateUser
  rw [hfind]
  have hactive : (newUser email name newId).isActive = true := rfl
  simp only [hactive, Bool.true_and]
  by_cases hv : d.verifyPassword password (site.passwordHash newId) = true
  · simp [newUser, hv]
  · simp [newUser, hv]

/-- **Only the right password logs in, if it has fewer than 72 bytes or 72 of one character each.**
Where registration is open to the email, it succeeds with every password `p` that `RegisterRequest`
accepts; and among the passwords that `LoginRequest` accepts exactly `p` logs in, if and only if `p`
has fewer than 72 bytes, or exactly 72 bytes and 72 characters. -/
theorem login_iff_same_password (hbcrypt : Bcrypt d) (hopen : a.registrationMode ≠ .closed)
    (hemail : email ∉ site.world.db.users.rows.map User.email)
    (hinvites : registrationInvites d a site now inviteCode = .ok invites)
    (hid : newId ∉ site.world.db.users.rows.map User.id) (salt : String) {p : String}
    (hp : RegisterAccepts p) :
    ∃ user site', registerUser d a site now email p name inviteCode newId salt = (.ok user, site') ∧
      ((∀ q, LoginAccepts q → (authenticateUser d site' email q = .ok user ↔ q = p)) ↔
        (utf8 p.toList).length < 72 ∨ ((utf8 p.toList).length = 72 ∧ p.length = 72)) := by
  obtain ⟨site', hreg, hrows, hhash⟩ := registerUser_ok hopen hemail hinvites hid name p salt
  refine ⟨_, site', hreg, ?_⟩
  have hlogin : ∀ q, authenticateUser d site' email q = .ok (newUser email name newId) ↔
      bcryptInput q = bcryptInput p := fun q => by
    rw [authenticateUser_registered hrows hemail, hhash, hbcrypt]
  have htext : (∀ q, LoginAccepts q →
      (authenticateUser d site' email q = .ok (newUser email name newId) ↔ q = p)) ↔
      ∀ q : List Char, 1 ≤ q.length → q.length ≤ 72 →
        ((utf8 q).take 72 = (utf8 p.toList).take 72 ↔ q = p.toList) := by
    constructor
    · intro h q hpos hlen
      have hq := h (String.ofList q) ⟨by simpa using hpos, by simpa using hlen⟩
      rw [hlogin, ← String.toList_inj] at hq
      unfold bcryptInput at hq
      rw [String.toList_ofList] at hq
      exact hq
    · intro h q hq
      rw [hlogin, ← String.toList_inj]
      exact h q.toList hq.1 hq.2
  have hpos : 1 ≤ p.toList.length := Nat.le_trans (by decide) hp.1
  rw [htext, only_itself_iff hpos hp.2]
  rfl

end Account

/-! ## Two passwords for one account -/

/-- bcrypt without its scrambling: the hash spells the bytes that were read. -/
def AuthDeps.truncating : AuthDeps :=
  { AuthDeps.transparent with
    hashPassword := fun _ password => String.ofList (latin1 (bcryptInput password))
    verifyPassword := fun password hash => String.ofList (latin1 (bcryptInput password)) = hash }

theorem bcrypt_truncating : Bcrypt AuthDeps.truncating := by
  intro salt p q
  simp only [AuthDeps.truncating, decide_eq_true_eq]
  constructor
  · intro h
    exact latin1_injective (String.ofList_injective h)
  · intro h
    rw [h]

/-- With a password of 13 characters no other one logs in. -/
theorem login_iff_same_password_short :
    RegisterAccepts "correct horse" ∧
      ∃ user site', registerUser AuthDeps.truncating {} { world := freeWorld } 0 "other@example.com"
          "correct horse" "Other" none 2 "salt" = (.ok user, site') ∧
        ∀ q, LoginAccepts q → (authenticateUser AuthDeps.truncating site' "other@example.com" q =
          .ok user ↔ q = "correct horse") := by
  have haccepted : RegisterAccepts "correct horse" := by
    unfold RegisterAccepts
    decide +kernel
  obtain ⟨user, site', hreg, hiff⟩ := @login_iff_same_password .truncating {}
    { world := freeWorld } 0 "other@example.com" "Other" none _ 2 bcrypt_truncating (by decide)
    (by decide +kernel) rfl (by decide +kernel) "salt" _ haccepted
  exact ⟨haccepted, user, site', hreg, hiff.mpr (Or.inl (by decide +kernel))⟩

/-- Thirty-six characters of two bytes each, then one that bcrypt does not read. -/
def accented (last : Char) : String := String.ofList (List.replicate 36 'é' ++ [last])

theorem length_accented (last : Char) : (accented last).length = 37 := by
  unfold accented
  rw [String.length_ofList]
  rfl

theorem bcryptInput_accented (last : Char) :
    bcryptInput (accented last) = utf8 (List.replicate 36 'é') := by
  have hlen : (utf8 (List.replicate 36 'é')).length = 72 := by decide +kernel
  unfold bcryptInput accented
  rw [String.toList_ofList, take_utf8_append hlen, List.take_of_length_le (Nat.le_of_eq hlen)]

/-- An account registered with a password of 37 characters is logged in with another one. -/
theorem two_passwords_log_in :
    Bcrypt .truncating ∧ RegisterAccepts (accented 'a') ∧ LoginAccepts (accented 'b') ∧
      accented 'b' ≠ accented 'a' ∧
      ∃ user site', registerUser .truncating {} { world := freeWorld } 0 "other@example.com"
          (accented 'a') "Other" none 2 "salt" = (.ok user, site') ∧
        authenticateUser .truncating site' "other@example.com" (accented 'b') = .ok user := by
  have hne : accented 'b' ≠ accented 'a' := by
    intro h
    exact absurd (String.ofList_injective h) (by decide)
  have hemail : "other@example.com" ∉ freeWorld.db.users.rows.map User.email := by decide +kernel
  have hid : 2 ∉ freeWorld.db.users.rows.map User.id := by decide +kernel
  obtain ⟨site', hreg, hrows, hhash⟩ := @registerUser_ok .truncating {} { world := freeWorld } 0
    "other@example.com" none _ 2 (by decide) hemail rfl hid "Other" (accented 'a') "salt"
  refine ⟨bcrypt_truncating, ?_, ?_, hne, _, site', hreg, ?_⟩
  · unfold RegisterAccepts
    rw [length_accented]
    decide
  · unfold LoginAccepts
    rw [length_accented]
    decide
  · rw [authenticateUser_registered hrows hemail, hhash, bcrypt_truncating, bcryptInput_accented,
      bcryptInput_accented]

end Gateway
