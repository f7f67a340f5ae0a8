import Gateway.Lib.Regex
import Gateway.Lib.Utf8
import Gateway.Lib.Uuid

/-!
# Request ids (`observability.py`)

`RequestContextMiddleware` takes the caller's `X-Request-ID` if `_VALID_REQUEST_ID` matches it,
draws a fresh id otherwise, and sends it in the response in place of any the application set.
Headers are raw bytes, as in an ASGI scope; an id is text in between, read as Latin-1 and written
as UTF-8.

* `sendWithId`, `requestContextMiddleware`: the messages the server gets for those the application
  sends.
* `SafeId`: 1 to 64 characters of `[A-Za-z0-9._-]`. The pattern ends in `$`, which also matches
  before a newline at the end.
* **`requestId_safe_iff`**: the response carries exactly one id, which is safe and is the caller's
  if that is safe, if and only if the caller's is not a safe one followed by a newline.
* **`requestId_newline`**: an id with a newline at its end is sent back as it came.
-/

namespace Gateway

open Lib

abbrev Bytes := List UInt8

/-- A raw header: name and value. -/
abbrev Header := Bytes × Bytes

/-- An ASGI scope, with `scope["state"]["request_id"]`. -/
structure Scope where
  type : String
  headers : List Header := []
  requestId : Option (List Char) := none

/-- An ASGI message; those without headers are told apart by their type. -/
inductive Message where
  | responseStart (status : Int) (headers : List Header)
  | other (type : String) (body : Bytes)
  deriving DecidableEq

/-- `REQUEST_ID_HEADER.encode()`. -/
def requestIdHeader : Bytes := utf8 "x-request-id".toList

/-- `[A-Za-z0-9._-]`. -/
def idChar (c : Char) : Bool :=
  ('A' ≤ c ∧ c ≤ 'Z') ∨ ('a' ≤ c ∧ c ≤ 'z') ∨ ('0' ≤ c ∧ c ≤ '9') ∨ c = '.' ∨ c = '_' ∨ c = '-'

/-- `_VALID_REQUEST_ID`. -/
def validRequestId : Regex := .anchored idChar 1 64

/-- The value of the first `x-request-id` header. -/
def firstRequestId (headers : List Header) : Option Bytes :=
  (headers.find? fun h => h.1 = requestIdHeader).map Prod.snd

/-- `request_id_for`, with the `uuid4()` it may draw. -/
def requestIdFor (scope : Scope) (fresh : BitVec 128) : List Char :=
  match firstRequestId scope.headers with
  | some value =>
    if validRequestId.isMatch (latin1 value) then latin1 value else Uuid.toHex 32 fresh.toNat
  | none => Uuid.toHex 32 fresh.toNat

/-- `send_with_id`: the message passed on. -/
def sendWithId (requestId : List Char) : Message → Message
  | .responseStart status headers =>
    .responseStart status
      (headers.filter (fun h => h.1 ≠ requestIdHeader) ++ [(requestIdHeader, utf8 requestId)])
  | .other type body => .other type body

/-- `RequestContextMiddleware`: the messages sent for those that the application sends. -/
def requestContextMiddleware (app : Scope → List Message) (fresh : BitVec 128) (scope : Scope) :
    List Message :=
  if scope.type = "http" then
    (app { scope with requestId := some (requestIdFor scope fresh) }).map
      (sendWithId (requestIdFor scope fresh))
  else app scope

/-! ## Safe ids -/

/-- 1 to 64 characters of `[A-Za-z0-9._-]`. -/
def SafeId (value : Bytes) : Prop :=
  1 ≤ value.length ∧ value.length ≤ 64 ∧ ∀ b ∈ value, idChar (Char.ofNat b.toNat)

/-- What a response should carry: one id, which is safe and is the caller's if that one is. -/
def CarriesId (request response : List Header) : Prop :=
  ∃ value, response.filter (fun h => h.1 = requestIdHeader) = [(requestIdHeader, value)] ∧
    SafeId value ∧ ∀ given, firstRequestId request = some given → SafeId given → value = given

/-- The characters of ids are ASCII. -/
theorem toNat_lt_of_idChar {c : Char} (h : idChar c) : c.toNat < 128 := by
  have hle : ∀ {d : Char}, c ≤ d → c.toNat ≤ d.toNat := fun hd => UInt32.le_iff_toNat_le.mp hd
  simp only [idChar, decide_eq_true_eq] at h
  rcases h with ⟨-, h⟩ | ⟨-, h⟩ | ⟨-, h⟩ | rfl | rfl | rfl
  · exact Nat.lt_of_le_of_lt (hle h) (by decide)
  · exact Nat.lt_of_le_of_lt (hle h) (by decide)
  · exact Nat.lt_of_le_of_lt (hle h) (by decide)
  · decide
  · decide
  · decide

/-- The text of a safe id. -/
theorem safeId_iff_text {value : Bytes} :
    SafeId value ↔
      1 ≤ (latin1 value).length ∧ (latin1 value).length ≤ 64 ∧ (latin1 value).all idChar := by
  unfold SafeId latin1
  rw [List.length_map, List.all_map, List.all_eq_true]
  rfl

/-- A safe text is a safe id when it is sent. -/
theorem safeId_utf8 {text : List Char} (hpos : 1 ≤ text.length) (hlen : text.length ≤ 64)
    (hall : text.all idChar) : SafeId (utf8 text) := by
  have hascii : ∀ c ∈ text, c.toNat < 128 :=
    fun c hc => toNat_lt_of_idChar (List.all_eq_true.mp hall c hc)
  rw [safeId_iff_text, latin1_utf8 hascii]
  exact ⟨hpos, hlen, hall⟩

/-- A drawn id is safe. -/
theorem safeId_fresh (fresh : BitVec 128) : SafeId (utf8 (Uuid.toHex 32 fresh.toNat)) := by
  have hdigit : ∀ n < 16, idChar (Uuid.hexChar n) := by decide
  have hhex : ∀ k n, (Uuid.toHex k n).all idChar := by
    intro k
    induction k with
    | zero => exact fun _ => rfl
    | succ k ih =>
      intro n
      rw [Uuid.toHex, List.all_append, ih]
      simp [hdigit (n % 16) (Nat.mod_lt n (by decide))]
  have hlen := Uuid.length_toHex 32 fresh.toNat
  exact safeId_utf8 (by omega) (by omega) (hhex 32 fresh.toNat)

theorem ascii_of_safeId {value : Bytes} (h : SafeId value) : ∀ b ∈ value, b.toNat < 128 := by
  intro b hb
  have hchar := toNat_lt_of_idChar (h.2.2 b hb)
  rw [toNat_latin1Char] at hchar
  exact hchar

/-- A newline is not a character of ids. -/
theorem not_safeId_newline (value : Bytes) : ¬ SafeId (value ++ [10]) := by
  rintro ⟨-, -, hall⟩
  exact absurd (hall 10 (by simp)) (by decide)

/-- **The pattern accepts safe ids, and safe ids followed by a newline.** -/
theorem validRequestId_iff {value : Bytes} :
    validRequestId.isMatch (latin1 value) ↔
      SafeId value ∨ ∃ body, value = body ++ [10] ∧ SafeId body := by
  unfold validRequestId
  rw [Regex.isMatch_anchored_iff]
  constructor
  · rintro ⟨body, hpos, hlen, hall, htext | htext⟩
    · subst htext
      exact Or.inl (safeId_iff_text.mpr ⟨hpos, hlen, hall⟩)
    · obtain ⟨front, back, rfl, rfl, hback⟩ := List.map_eq_append_iff.mp htext
      obtain ⟨b, rfl, hb⟩ := List.map_eq_singleton_iff.mp hback
      have hten : b = 10 := by
        have hnat := congrArg Char.toNat hb
        rw [toNat_latin1Char] at hnat
        exact UInt8.toNat_inj.mp hnat
      subst hten
      exact Or.inr ⟨front, rfl, safeId_iff_text.mpr ⟨hpos, hlen, hall⟩⟩
  · rintro (hsafe | ⟨body, rfl, hsafe⟩)
    · obtain ⟨hpos, hlen, hall⟩ := safeId_iff_text.mp hsafe
      exact ⟨latin1 value, hpos, hlen, hall, Or.inl rfl⟩
    · obtain ⟨hpos, hlen, hall⟩ := safeId_iff_text.mp hsafe
      exact ⟨latin1 body, hpos, hlen, hall, Or.inr (List.map_append ..)⟩

/-! ## What the response carries -/

/-- What the header of the response is made of. -/
theorem filter_sendWithId (requestId : List Char) {status : Int} {headers : List Header}
    {m : Message} (h : sendWithId requestId m = .responseStart status headers) :
    headers.filter (fun x => x.1 = requestIdHeader) = [(requestIdHeader, utf8 requestId)] := by
  cases m with
  | other type body => cases h
  | responseStart status' headers' =>
    obtain ⟨-, rfl⟩ := Message.responseStart.inj h
    rw [List.filter_append]
    have hnone : (headers'.filter fun x => x.1 ≠ requestIdHeader).filter
        (fun x => x.1 = requestIdHeader) = [] := by
      refine List.filter_eq_nil_iff.mpr fun x hx => ?_
      simpa using (List.mem_filter.mp hx).2
    rw [hnone]
    simp

/-- The id that is sent, by the caller's. -/
theorem utf8_requestIdFor (scope : Scope) (fresh : BitVec 128) :
    (∃ given, firstRequestId scope.headers = some given ∧
      (SafeId given ∨ ∃ body, given = body ++ [10] ∧ SafeId body) ∧
      utf8 (requestIdFor scope fresh) = given) ∨
    ((∀ given, firstRequestId scope.headers = some given →
      ¬ SafeId given ∧ ∀ body, given = body ++ [10] → ¬ SafeId body) ∧
      SafeId (utf8 (requestIdFor scope fresh))) := by
  unfold requestIdFor
  cases hfirst : firstRequestId scope.headers with
  | none => exact Or.inr ⟨fun given h => absurd h (by simp), safeId_fresh fresh⟩
  | some given =>
    by_cases hmatch : validRequestId.isMatch (latin1 given)
    · refine Or.inl ⟨given, rfl, validRequestId_iff.mp hmatch, ?_⟩
      simp only [hmatch, if_true]
      refine utf8_latin1 fun b hb => ?_
      rcases validRequestId_iff.mp hmatch with hsafe | ⟨body, rfl, hsafe⟩
      · exact ascii_of_safeId hsafe b hb
      · rcases List.mem_append.mp hb with hb | hb
        · exact ascii_of_safeId hsafe b hb
        · obtain rfl := List.mem_singleton.mp hb
          decide
    · refine Or.inr ⟨fun given' h => ?_, ?_⟩
      · obtain rfl := Option.some.inj h
        have hno := mt validRequestId_iff.mpr hmatch
        exact ⟨fun hs => hno (Or.inl hs), fun body hb hs => hno (Or.inr ⟨body, hb, hs⟩)⟩
      · simp only [hmatch]
        exact safeId_fresh fresh

/-- **Request ids are safe and unique in the response, but for a newline at the end.** Of every
response that an application starts to an `http` request: it carries exactly one id, which is safe
and is the caller's first if that is safe, if and only if the caller's first is not a safe id
followed by a newline. -/
theorem requestId_safe_iff {app : Scope → List Message} {fresh : BitVec 128} {scope : Scope}
    (hhttp : scope.type = "http") {status : Int} {headers : List Header}
    (hsent : .responseStart status headers ∈ requestContextMiddleware app fresh scope) :
    CarriesId scope.headers headers ↔
      ∀ body, firstRequestId scope.headers = some (body ++ [10]) → ¬ SafeId body := by
  unfold requestContextMiddleware at hsent
  rw [if_pos hhttp] at hsent
  obtain ⟨m, -, hm⟩ := List.mem_map.mp hsent
  have hfilter := filter_sendWithId (requestIdFor scope fresh) hm
  have hcarries : CarriesId scope.headers headers ↔
      SafeId (utf8 (requestIdFor scope fresh)) ∧
        ∀ given, firstRequestId scope.headers = some given → SafeId given →
          utf8 (requestIdFor scope fresh) = given := by
    unfold CarriesId
    rw [hfilter]
    constructor
    · rintro ⟨value, hvalue, hrest⟩
      obtain rfl : utf8 (requestIdFor scope fresh) = value := by simpa using hvalue
      exact hrest
    · exact fun h => ⟨_, rfl, h⟩
  rw [hcarries]
  rcases utf8_requestIdFor scope fresh with ⟨given, hfirst, hform, hvalue⟩ | ⟨hnone, hsafe⟩
  · rw [hvalue, hfirst]
    constructor
    · rintro ⟨hsafe, -⟩ body hbody
      obtain rfl := Option.some.inj hbody
      exact absurd hsafe (not_safeId_newline body)
    · intro hbody
      rcases hform with hsafe | ⟨body, rfl, hsafe⟩
      · exact ⟨hsafe, fun other h _ => Option.some.inj h⟩
      · exact absurd hsafe (hbody body rfl)
  · constructor
    · exact fun _ body hbody => (hnone _ hbody).2 body rfl
    · exact fun _ => ⟨hsafe, fun given h hs => absurd hs (hnone given h).1⟩

/-- An application that sets a request id of its own. -/
def respondsWithId (_ : Scope) : List Message :=
  [.responseStart 200 [(requestIdHeader, utf8 "mine".toList)], .other "http.response.body" []]

/-- A request with an `x-request-id`. -/
def requestWithId (value : String) : Scope where
  type := "http"
  headers := [(utf8 "host".toList, utf8 "gateway".toList), (requestIdHeader, utf8 value.toList)]

/-- The caller's id is kept and the application's dropped. -/
theorem requestId_safe_kept :
    .responseStart 200 [(requestIdHeader, utf8 "edge-abc.123".toList)] ∈
        requestContextMiddleware respondsWithId 0 (requestWithId "edge-abc.123") ∧
      CarriesId (requestWithId "edge-abc.123").headers
        [(requestIdHeader, utf8 "edge-abc.123".toList)] := by
  have hsent : .responseStart 200 [(requestIdHeader, utf8 "edge-abc.123".toList)] ∈
      requestContextMiddleware respondsWithId 0 (requestWithId "edge-abc.123") := by decide +kernel
  refine ⟨hsent, (requestId_safe_iff rfl hsent).mpr fun body hbody => ?_⟩
  have hfirst : firstRequestId (requestWithId "edge-abc.123").headers =
      some (utf8 "edge-abc.123".toList) := by decide +kernel
  rw [hfirst] at hbody
  have hlast := congrArg List.getLast? (Option.some.inj hbody)
  rw [List.getLast?_concat] at hlast
  exact absurd hlast (by decide +kernel)

/-- **An id with a newline at its end is sent back as it came.** -/
theorem requestId_newline :
    .responseStart 200 [(requestIdHeader, utf8 "abc\n".toList)] ∈
        requestContextMiddleware respondsWithId 0 (requestWithId "abc\n") ∧
      ¬ CarriesId (requestWithId "abc\n").headers [(requestIdHeader, utf8 "abc\n".toList)] := by
  refine ⟨by decide +kernel, ?_⟩
  rintro ⟨value, hvalue, hsafe, -⟩
  obtain rfl : utf8 "abc\n".toList = value := by simpa using hvalue
  have hbytes : utf8 "abc\n".toList = utf8 "abc".toList ++ [10] := by decide +kernel
  rw [hbytes] at hsafe
  exact not_safeId_newline _ hsafe

end Gateway
