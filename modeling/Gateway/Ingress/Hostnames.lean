import Gateway.Ingress.Route
import Mathlib.Data.Bool.AllAny
import Mathlib.Data.List.DropRight

/-!
# Public URLs and the lookup of hosts

`_new_slug` builds the label an agent is reached under and `_public_url` the address; the edge asks
`tls_ask` and `route` with whatever host the visitor sent, and `slug_from_host` reads the label
back.

* `newSlug_dnsLabel`: a new slug is a DNS label, whatever the name.
* `slugFromHost_of_variant`: any spelling of an agent's host (case, trailing dots, a port) leads
  back to its slug.
* `slugFromHost_eq_none`: a host that is not one label under the base domain leads nowhere.
* **`publicUrl_lookup`** puts them together with the table of agents.

Of `str.lower` only its action on ASCII text is used.
-/

namespace Gateway

open Lib

/-! ## Looking up an agent by host -/

/-- `_agent_for_host`. -/
def agentForHost (d : Deps) (s : Settings) (db : Db) (host : String) : Option Agent :=
  (slugFromHost d s host).bind fun slug => db.agents.rows.find? fun a => a.slug = slug

/-- `tls_ask`. -/
def tlsAsk (d : Deps) (s : Settings) (db : Db) (domain : String) : Response where
  status := if (agentForHost d s db domain).isSome then 200 else 404

/-- What stands after the scheme of an agent's URL. -/
def urlHost (url : String) : List Char := url.toList.drop "https://".length

/-! ## Shapes -/

/-- ASCII text. -/
def IsAscii (l : List Char) : Prop := ∀ c ∈ l, c.toNat < 128

/-- `str.lower` on ASCII text. -/
def Deps.LowersAscii (d : Deps) : Prop := ∀ l, IsAscii l → d.lower l = l.map Char.toLower

/-- The characters of a DNS label: `[a-z0-9-]`. -/
def isLabelChar (c : Char) : Bool := isSlugChar c || c == '-'

/-- At most 47 characters of `[a-z0-9-]`, the first and the last one of `[a-z0-9]`. -/
structure DnsLabel (l : List Char) : Prop where
  length_le : l.length ≤ 47
  chars : ∀ c ∈ l, isLabelChar c = true
  first : ∃ c, l.head? = some c ∧ isSlugChar c = true
  last : ∃ c, l.getLast? = some c ∧ isSlugChar c = true

/-- What `_new_slug` draws: six characters of `_SLUG_SUFFIX_ALPHABET`. -/
structure SlugSuffix (l : List Char) : Prop where
  length_eq : l.length = 6
  chars : ∀ c ∈ l, isSlugChar c = true

/-- The same text in another case. -/
def SameUpToCase (l l' : List Char) : Prop := l'.map Char.toLower = l.map Char.toLower

/-- A spelling of a host: another case, any number of trailing dots, and maybe a port. -/
inductive HostVariant (host : List Char) : List Char → Prop
  | bare {l : List Char} (hcase : SameUpToCase host l) (dots : Nat) :
      HostVariant host (l ++ List.replicate dots '.')
  | withPort {l : List Char} (hcase : SameUpToCase host l) (dots : Nat) (port : List Char) :
      HostVariant host (l ++ List.replicate dots '.' ++ ':' :: port)

/-- The host as `slug_from_host` compares it: without the port, the trailing dots and the case. -/
def comparedHost (d : Deps) (host : String) : List Char :=
  d.lower (rstrip '.' (host.toList.takeWhile (· ≠ ':')))

/-- The base domain as `slug_from_host` compares it. -/
def comparedBase (d : Deps) (base : String) : List Char := rstrip '.' (d.lower base.toList)

/-! ## Characters -/

theorem toLower_toNat (c : Char) :
    c.toLower.toNat = if 65 ≤ c.toNat ∧ c.toNat ≤ 90 then c.toNat + 32 else c.toNat := by
  unfold Char.toLower
  split_ifs with h h' h'
  · have hle : c.toNat ≤ 90 := h.2
    show (c.val + 32).toNat = _
    rw [UInt32.toNat_add]
    show (c.toNat + 32) % 2 ^ 32 = _
    omega
  · exact absurd h h'
  · exact absurd h' h
  · rfl

/-- Lower-casing neither makes nor unmakes a character that is no letter. -/
theorem toLower_eq_iff {c x : Char} (hx : x.toNat < 65) : c.toLower = x ↔ c = x := by
  rw [← Char.toNat_inj, ← Char.toNat_inj, toLower_toNat]
  split_ifs with h
  · omega
  · exact Iff.rfl

theorem toLower_ascii {c : Char} : c.toLower.toNat < 128 ↔ c.toNat < 128 := by
  rw [toLower_toNat]
  split_ifs with h
  · omega
  · exact Iff.rfl

theorem labelChar_cases {c : Char} (h : isLabelChar c = true) :
    (97 ≤ c.toNat ∧ c.toNat ≤ 122) ∨ (48 ≤ c.toNat ∧ c.toNat ≤ 57) ∨ c = '-' := by
  simp only [isLabelChar, isSlugChar, Bool.or_eq_true, Bool.and_eq_true, decide_eq_true_eq,
    beq_iff_eq, or_assoc] at h
  exact h

/-- The characters of a label are lower case. -/
theorem toLower_labelChar {c : Char} (h : isLabelChar c = true) : c.toLower = c := by
  rw [← Char.toNat_inj, toLower_toNat, if_neg]
  rcases labelChar_cases h with h | h | rfl
  · omega
  · omega
  · decide

theorem labelChar_ascii {c : Char} (h : isLabelChar c = true) : c.toNat < 128 := by
  rcases labelChar_cases h with h | h | rfl
  · omega
  · omega
  · decide

/-! ## Stripping -/

section Strip

variable {c : Char} {l : List Char}

theorem isPrefix_rstrip (c : Char) (l : List Char) : rstrip c l <+: l := List.rdropWhile_prefix _ l

theorem mem_of_mem_strip {x : Char} (h : x ∈ strip c l) : x ∈ l :=
  (List.dropWhile_sublist _).subset ((isPrefix_rstrip c _).subset h)

theorem length_strip_le (c : Char) (l : List Char) : (strip c l).length ≤ l.length :=
  (isPrefix_rstrip c _).length_le.trans (List.dropWhile_sublist _).length_le

/-- A stripped text does not start with the character. -/
theorem head?_strip {x : Char} (h : (strip c l).head? = some x) : x ≠ c := by
  obtain ⟨rest, hrest⟩ := isPrefix_rstrip c (l.dropWhile (· == c))
  have hhead : (l.dropWhile (· == c)).head? = some x := by
    rw [← hrest, List.head?_append]
    show (strip c l).head?.or rest.head? = some x
    rw [h]
    rfl
  have hnot := List.head?_dropWhile_not (· == c) l
  rw [hhead] at hnot
  simpa using hnot

/-- Trailing characters are stripped whatever stands before them. -/
theorem rstrip_append_replicate (c : Char) (l : List Char) (n : Nat) :
    rstrip c (l ++ List.replicate n c) = rstrip c l := by
  unfold rstrip
  rw [List.reverse_append, List.reverse_replicate,
    List.dropWhile_append_of_pos (by simp [List.mem_replicate])]

/-- What is stripped from the end of a text stays within its last part, if that has another
character. -/
theorem rstrip_append {l' : List Char} (h : rstrip c l' ≠ []) :
    rstrip c (l ++ l') = l ++ rstrip c l' := by
  unfold rstrip at h ⊢
  rw [List.reverse_append, List.dropWhile_append, if_neg (by simpa using h), List.reverse_append,
    List.reverse_reverse]

theorem rstrip_ne_nil (h : ∃ x ∈ l, x ≠ c) : rstrip c l ≠ [] := by
  obtain ⟨x, hx, hne⟩ := h
  intro he
  exact hne (by simpa using List.rdropWhile_eq_nil_iff.mp he x hx)

end Strip

/-! ## New slugs -/

theorem collapse_labelChar : ∀ (inRun : Bool) (l : List Char), ∀ c ∈ collapse inRun l,
    isLabelChar c = true
  | _, [] => by simp [collapse]
  | inRun, x :: xs => by
    intro c hc
    unfold collapse at hc
    split_ifs at hc with hx hrun
    · rcases List.mem_cons.mp hc with rfl | hc
      · simp [isLabelChar, hx]
      · exact collapse_labelChar false xs c hc
    · exact collapse_labelChar true xs c hc
    · rcases List.mem_cons.mp hc with rfl | hc
      · simp [isLabelChar]
      · exact collapse_labelChar true xs c hc

/-- The part of a slug that comes from the name. -/
theorem slugBase_shape (d : Deps) (name : String) :
    (slugBase d name).length ≤ 40 ∧ (∀ c ∈ slugBase d name, isLabelChar c = true) ∧
      ∃ c, (slugBase d name).head? = some c ∧ isSlugChar c = true := by
  unfold slugBase
  simp only
  split_ifs with hb
  · exact ⟨by decide, List.all_eq_true.mp (by decide), 'a', rfl, by decide⟩
  · have hchars : ∀ c ∈ strip '-' ((strip '-' (collapse false (d.lower name.toList))).take 40),
        isLabelChar c = true := fun c hc =>
      collapse_labelChar false _ c (mem_of_mem_strip (List.mem_of_mem_take (mem_of_mem_strip hc)))
    refine ⟨(length_strip_le _ _).trans (List.length_take_le _ _), hchars, ?_⟩
    obtain ⟨c, hc⟩ := Option.ne_none_iff_exists'.mp (mt List.head?_eq_none_iff.mp hb)
    refine ⟨c, hc, ?_⟩
    have hlabel := hchars c (List.mem_of_mem_head? hc)
    have hne := head?_strip hc
    simpa [isLabelChar, hne] using hlabel

/-- **A new slug is a DNS label**, whatever the name and the suffix drawn. -/
theorem newSlug_dnsLabel (d : Deps) (name : String) {suffix : List Char} (h : SlugSuffix suffix) :
    DnsLabel (newSlug d name suffix).toList := by
  obtain ⟨hlen, hchars, c, hhead, hc⟩ := slugBase_shape d name
  unfold newSlug
  rw [String.toList_ofList]
  refine ⟨?_, ?_, ⟨c, ?_, hc⟩, ?_⟩
  · rw [List.length_append, List.length_cons, h.length_eq]
    omega
  · intro x hx
    rcases List.mem_append.mp hx with hx | hx
    · exact hchars x hx
    · rcases List.mem_cons.mp hx with rfl | hx
      · decide
      · simp [isLabelChar, h.chars x hx]
  · rw [List.head?_append, hhead]
    rfl
  · have hne : suffix ≠ [] := List.ne_nil_of_length_eq_add_one h.length_eq
    refine ⟨suffix.getLast hne, ?_, h.chars _ (List.getLast_mem hne)⟩
    rw [List.getLast?_append_of_ne_nil _ (List.cons_ne_nil _ _), List.getLast?_cons_of_ne_nil hne,
      List.getLast?_eq_some_getLast]

/-! ## Hosts -/

section Host

variable {d : Deps} {s : Settings} {base host : String} {slug l : List Char}

/-- The base domains the lookup works for: ASCII, no port, not only dots. -/
structure BaseDomain (base : String) : Prop where
  ascii : IsAscii base.toList
  noPort : ':' ∉ base.toList
  notDots : ∃ c ∈ base.toList, c ≠ '.'

theorem BaseDomain.baseDomain? (h : BaseDomain base) (hs : s.agentBaseDomain = some base) :
    s.baseDomain? = some base := by
  have hne : base ≠ "" := by
    rintro rfl
    obtain ⟨c, hc, -⟩ := h.notDots
    exact absurd hc (by simp)
  unfold Settings.baseDomain?
  rw [hs, Option.filter_some, if_pos (by simpa using hne)]

/-- `slug_from_host` in terms of the two texts it compares. -/
theorem slugFromHost_eq (hs : s.baseDomain? = some base) :
    slugFromHost d s host =
      if ('.' :: comparedBase d base).isSuffixOf (comparedHost d host) then
        let slug := (comparedHost d host).take
          ((comparedHost d host).length - ('.' :: comparedBase d base).length)
        if slug = [] ∨ '.' ∈ slug then none else some (String.ofList slug)
      else none := by
  unfold slugFromHost
  rw [hs]
  rfl

/-- The slug is read off a host that is one label under the base domain. -/
theorem slugFromHost_of_compared (hs : s.baseDomain? = some base) (hne : slug ≠ [])
    (hdot : '.' ∉ slug) (h : comparedHost d host = slug ++ '.' :: comparedBase d base) :
    slugFromHost d s host = some (String.ofList slug) := by
  have htake : (slug ++ '.' :: comparedBase d base).take
      ((slug ++ '.' :: comparedBase d base).length - ('.' :: comparedBase d base).length) =
      slug := by
    rw [List.length_append, Nat.add_sub_cancel, List.take_left]
  rw [slugFromHost_eq hs, h, if_pos (by simp), htake]
  simp only
  rw [if_neg (by simp [hne, hdot])]

/-- **Any other host leads nowhere.** -/
theorem slugFromHost_eq_none (hs : s.baseDomain? = some base)
    (h : ¬ ∃ label, label ≠ [] ∧ '.' ∉ label ∧
      comparedHost d host = label ++ '.' :: comparedBase d base) :
    slugFromHost d s host = none := by
  rw [slugFromHost_eq hs]
  split
  · rename_i hsuffix
    obtain ⟨label, hlabel⟩ := List.isSuffixOf_iff_suffix.mp hsuffix
    simp only
    rw [if_pos]
    by_contra hgood
    rw [not_or, ← hlabel, List.length_append, Nat.add_sub_cancel, List.take_left] at hgood
    exact h ⟨label, hgood.1, hgood.2, hlabel.symm⟩
  · rfl

theorem SameUpToCase.mem_iff {l' : List Char} (h : SameUpToCase l l') {x : Char}
    (hx : x.toNat < 65) : x ∈ l' ↔ x ∈ l := by
  have hmap : ∀ m : List Char, x ∈ m.map Char.toLower ↔ x ∈ m := fun m => by
    rw [List.mem_map]
    constructor
    · rintro ⟨y, hy, he⟩
      exact (toLower_eq_iff hx).mp he ▸ hy
    · exact fun hm => ⟨x, hm, (toLower_eq_iff hx).mpr rfl⟩
  rw [← hmap l', h, hmap l]

theorem SameUpToCase.ascii {l' : List Char} (h : SameUpToCase l l') (hl : IsAscii l) :
    IsAscii l' := by
  intro c hc
  have hmem : c.toLower ∈ l.map Char.toLower := by
    rw [← h]
    exact List.mem_map_of_mem hc
  obtain ⟨y, hy, he⟩ := List.mem_map.mp hmem
  rw [← toLower_ascii, ← he, toLower_ascii]
  exact hl y hy

/-- Stripping dots and lower-casing commute. -/
theorem map_toLower_rstrip (l : List Char) :
    (rstrip '.' l).map Char.toLower = rstrip '.' (l.map Char.toLower) := by
  have hdot : ((· == '.') ∘ Char.toLower) = fun c : Char => c == '.' := by
    funext c
    simp only [Function.comp, Bool.beq_eq_decide_eq, decide_eq_decide]
    exact toLower_eq_iff (by decide)
  unfold rstrip
  conv_rhs => rw [← List.map_reverse, List.dropWhile_map, hdot]
  rw [List.map_reverse]

/-- The port of a spelling is cut off. -/
theorem HostVariant.takeWhile {v : List Char} (h : HostVariant l v) (hport : ':' ∉ l) :
    ∃ l' dots, SameUpToCase l l' ∧ v.takeWhile (· ≠ ':') = l' ++ List.replicate dots '.' := by
  have hfree : ∀ {l' : List Char} (dots : Nat), SameUpToCase l l' →
      ∀ c ∈ l' ++ List.replicate dots '.', decide (c ≠ ':') = true := by
    intro l' dots hcase c hc
    rw [decide_eq_true_iff]
    rintro rfl
    rcases List.mem_append.mp hc with hc | hc
    · exact hport ((hcase.mem_iff (by decide)).mp hc)
    · exact absurd (List.eq_of_mem_replicate hc) (by decide)
  cases h with
  | bare hcase dots => exact ⟨_, dots, hcase, List.takeWhile_eq_self_iff.mpr (hfree dots hcase)⟩
  | withPort hcase dots port =>
    refine ⟨_, dots, hcase, ?_⟩
    rw [List.takeWhile_append_of_pos (hfree dots hcase), List.takeWhile_cons_of_neg (by simp),
      List.append_nil]

/-- What is compared of a spelling of a host under the base domain. -/
theorem comparedHost_of_variant (hd : d.LowersAscii) (hb : BaseDomain base)
    (hslug : ∀ c ∈ slug, isLabelChar c = true)
    (h : HostVariant (slug ++ '.' :: base.toList) host.toList) :
    comparedHost d host = slug ++ '.' :: comparedBase d base := by
  have hascii : IsAscii (slug ++ '.' :: base.toList) := by
    intro c hc
    rcases List.mem_append.mp hc with hc | hc
    · exact labelChar_ascii (hslug c hc)
    · rcases List.mem_cons.mp hc with rfl | hc
      · decide
      · exact hb.ascii c hc
  have hport : ':' ∉ slug ++ '.' :: base.toList := by
    intro hc
    rcases List.mem_append.mp hc with hc | hc
    · exact absurd (hslug _ hc) (by decide)
    · rcases List.mem_cons.mp hc with he | hc
      · exact absurd he (by decide)
      · exact hb.noPort hc
  obtain ⟨l', dots, hcase, htake⟩ := h.takeWhile hport
  have hmap : (slug ++ '.' :: base.toList).map Char.toLower =
      (slug ++ ['.']) ++ base.toList.map Char.toLower := by
    rw [List.map_append, List.map_cons, List.append_assoc, List.singleton_append,
      List.map_congr_left fun c hc => toLower_labelChar (hslug c hc), List.map_id']
    rfl
  have hbase : rstrip '.' (base.toList.map Char.toLower) ≠ [] := by
    rw [← map_toLower_rstrip]
    exact fun he => rstrip_ne_nil hb.notDots (List.map_eq_nil_iff.mp he)
  have hl' : IsAscii (rstrip '.' l') := fun c hc =>
    hcase.ascii hascii c ((isPrefix_rstrip '.' l').subset hc)
  calc comparedHost d host
      = d.lower (rstrip '.' l') := by
        unfold comparedHost
        rw [htake, rstrip_append_replicate]
    _ = rstrip '.' (l'.map Char.toLower) := by rw [hd _ hl', map_toLower_rstrip]
    _ = (slug ++ ['.']) ++ rstrip '.' (base.toList.map Char.toLower) := by
        rw [hcase, hmap, rstrip_append hbase]
    _ = slug ++ '.' :: comparedBase d base := by
        unfold comparedBase
        rw [hd _ hb.ascii, List.append_assoc]
        rfl

theorem DnsLabel.ne_nil (h : DnsLabel slug) : slug ≠ [] := by
  rintro rfl
  obtain ⟨c, hc, -⟩ := h.first
  exact absurd hc (by simp)

theorem DnsLabel.no_dot (h : DnsLabel slug) : '.' ∉ slug := fun hc =>
  absurd (h.chars _ hc) (by decide)

/-- The host of an agent's URL. -/
theorem publicUrl_host (hs : s.baseDomain? = some base) (a : Agent) :
    ∃ url, publicUrl s a = some url ∧ urlHost url = a.slug.toList ++ '.' :: base.toList := by
  refine ⟨_, by rw [publicUrl, hs]; rfl, ?_⟩
  unfold urlHost
  simp only [String.toList_append, List.append_assoc]
  rfl

/-- **Every spelling of an agent's host leads back to its slug.** -/
theorem slugFromHost_of_variant (hd : d.LowersAscii) (hb : BaseDomain base)
    (hs : s.agentBaseDomain = some base) {name : String} (hslug : DnsLabel name.toList)
    (h : HostVariant (name.toList ++ '.' :: base.toList) host.toList) :
    slugFromHost d s host = some name := by
  rw [slugFromHost_of_compared (hb.baseDomain? hs) hslug.ne_nil hslug.no_dot
    (comparedHost_of_variant hd hb hslug.chars h), String.ofList_toList]

end Host

/-! ## The table of agents -/

/-- **Public URLs and the host lookup are inverse.** New slugs are DNS labels. Under a base domain
that is ASCII, without a port and not only dots, every spelling of the host of an agent's URL gives
the agent's slug, a certificate and the agent itself; a host that is not one label under the base
domain gives nothing. -/
theorem publicUrl_lookup (d : Deps) (hd : d.LowersAscii) :
    (∀ name suffix, SlugSuffix suffix → DnsLabel (newSlug d name suffix).toList) ∧
    ∀ (s : Settings) (base : String), s.agentBaseDomain = some base → BaseDomain base →
      (∀ db : Db, (db.agents.rows.map Agent.slug).Nodup →
        (∀ a ∈ db.agents.rows, DnsLabel a.slug.toList) →
        (∀ a ∈ db.agents.rows, ∃ owner, db.users.find? a.userId = some owner) →
        ∀ a ∈ db.agents.rows, ∃ url, publicUrl s a = some url ∧
          ∀ host : String, HostVariant (urlHost url) host.toList →
            slugFromHost d s host = some a.slug ∧ (tlsAsk d s db host).status = 200 ∧
              ∃ owner, agentAndOwner d s db host = some (a, owner)) ∧
      ∀ host : String, (¬ ∃ label, label ≠ [] ∧ '.' ∉ label ∧
          comparedHost d host = label ++ '.' :: comparedBase d base) →
        slugFromHost d s host = none := by
  refine ⟨fun name suffix h => newSlug_dnsLabel d name h, fun s base hs hb => ⟨?_, fun host h =>
    slugFromHost_eq_none (hb.baseDomain? hs) h⟩⟩
  intro db hnd hlabels howners a ha
  obtain ⟨url, hurl, hhost⟩ := publicUrl_host (hb.baseDomain? hs) a
  refine ⟨url, hurl, fun host hv => ?_⟩
  rw [hhost] at hv
  have hslug : slugFromHost d s host = some a.slug :=
    slugFromHost_of_variant hd hb hs (hlabels a ha) hv
  have hfind := find?_slug ha fun b hb => List.inj_on_of_nodup_map hnd hb ha
  obtain ⟨owner, howner⟩ := howners a ha
  refine ⟨hslug, ?_, owner, ?_⟩
  · unfold tlsAsk agentForHost
    rw [hslug, Option.bind_some, hfind]
    rfl
  · unfold agentAndOwner
    rw [hslug, Option.bind_some, hfind, Option.bind_some, howner]
    rfl

/-- A gateway with one agent, named with an umlaut and a space. -/
def botWorld : World :=
  (createAgent Deps.transparent .obliging freeWorld freeUser.id { name := "Mein Büro" } "agt_1"
    "x1y2z3".toList).2

/-- Its host in capitals, with a trailing dot and a port, finds it. -/
theorem publicUrl_lookup_bot :
    slugFromHost Deps.transparent edgeSettings "MEIN-B-RO-X1Y2Z3.Run.Example.COM.:443" =
        some "mein-b-ro-x1y2z3" ∧
      (tlsAsk Deps.transparent edgeSettings botWorld.db
        "MEIN-B-RO-X1Y2Z3.Run.Example.COM.:443").status = 200 := by
  obtain ⟨hnew, hlookup⟩ := publicUrl_lookup Deps.transparent fun _ _ => rfl
  have hrows : botWorld.db.agents.rows.map Agent.slug =
      [newSlug Deps.transparent "Mein Büro" "x1y2z3".toList] := by decide +kernel
  have hlabels : ∀ a ∈ botWorld.db.agents.rows, DnsLabel a.slug.toList := by
    intro a ha
    have hmem : a.slug ∈ botWorld.db.agents.rows.map Agent.slug := List.mem_map_of_mem ha
    rw [hrows, List.mem_singleton] at hmem
    rw [hmem]
    exact hnew _ _ ⟨by decide, List.all_eq_true.mp (by decide)⟩
  have hbase : BaseDomain "run.example.com" :=
    ⟨List.all_iff_forall_prop.mp (by decide), by decide, 'r', by decide, by decide⟩
  have howners : ∀ a ∈ botWorld.db.agents.rows, (botWorld.db.users.find? a.userId).isSome := by
    decide +kernel
  have hrow : ∃ a ∈ botWorld.db.agents.rows, a.slug = "mein-b-ro-x1y2z3" := by decide +kernel
  obtain ⟨a, ha, hslug⟩ := hrow
  obtain ⟨url, hurl, hhosts⟩ := (hlookup edgeSettings "run.example.com" rfl hbase).1 botWorld.db
    (by rw [hrows]; exact List.nodup_singleton _) hlabels
    (fun a ha => Option.isSome_iff_exists.mp (howners a ha)) a ha
  have hhost : urlHost url = "mein-b-ro-x1y2z3.run.example.com".toList := by
    have hsome : publicUrl edgeSettings a =
        some ("https://" ++ a.slug ++ "." ++ "run.example.com") := rfl
    rw [hsome, hslug] at hurl
    rw [← Option.some.inj hurl]
    decide
  obtain ⟨hs, htls, -⟩ := hhosts "MEIN-B-RO-X1Y2Z3.Run.Example.COM.:443" (by
    rw [hhost]
    exact .withPort (l := "MEIN-B-RO-X1Y2Z3.Run.Example.COM".toList)
      (by unfold SameUpToCase; decide) 1 "443".toList)
  exact ⟨hslug ▸ hs, htls⟩

end Gateway
