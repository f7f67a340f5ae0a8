import Mathlib.Data.List.Basic
import Mathlib.Data.Nat.Digits.Lemmas
import Mathlib.Tactic.NormNum

/-!
# UUIDs as text

`parse` is the constructor `uuid.UUID(text)`: the URN prefixes, surrounding braces and hyphens are
dropped, and what is left has to be 32 characters that `int(hex, 16)` reads. `format` is
`str(uuid)`, the digits in groups of 8, 4, 4, 4 and 12.

* **`parse_format`**: the text of a UUID is read back as that UUID.
-/

namespace Gateway.Lib.Uuid

/-! ## Digits -/

/-- The digit of a value below 16. -/
def hexChar (n : Nat) : Char := Char.ofNat (if n < 10 then 48 + n else 87 + n)

/-- The value of a digit of either case. -/
def hexValue? (c : Char) : Option Nat :=
  if '0' ≤ c ∧ c ≤ '9' then some (c.toNat - 48)
  else if 'a' ≤ c ∧ c ≤ 'f' then some (c.toNat - 87)
  else if 'A' ≤ c ∧ c ≤ 'F' then some (c.toNat - 55)
  else none

/-- The last `k` digits of `n`. -/
def toHex : Nat → Nat → List Char
  | 0, _ => []
  | k + 1, n => toHex k (n / 16) ++ [hexChar (n % 16)]

/-- The number a list of digit values stands for. -/
def ofDigits (ds : List Nat) : Nat := ds.foldl (fun n d => 16 * n + d) 0

/-! ## Text -/

/-- `str.replace(pat, "")` past the first `skip` characters, which belong to an occurrence already
found. -/
def removeFrom (pat : List Char) : Nat → List Char → List Char
  | _, [] => []
  | skip + 1, _ :: cs => removeFrom pat skip cs
  | 0, c :: cs =>
    if pat.isPrefixOf (c :: cs) then removeFrom pat (pat.length - 1) cs
    else c :: removeFrom pat 0 cs

/-- `str.replace(pat, "")`. -/
def remove (pat : String) (cs : List Char) : List Char := removeFrom pat.toList 0 cs

def isBrace (c : Char) : Bool := c = '{' || c = '}'

/-- `str.strip("{}")`. -/
def stripBraces (cs : List Char) : List Char :=
  ((cs.dropWhile isBrace).reverse.dropWhile isBrace).reverse

/-! ## `int(text, 16)` -/

/-- Where the decimal digits of the scripts of Unicode 15 begin, each ten in a row. -/
def decimalZeros : List Nat :=
  [0x660, 0x6F0, 0x7C0, 0x966, 0x9E6, 0xA66, 0xAE6, 0xB66, 0xBE6, 0xC66, 0xCE6, 0xD66, 0xDE6,
    0xE50, 0xED0, 0xF20, 0x1040, 0x1090, 0x17E0, 0x1810, 0x1946, 0x19D0, 0x1A80, 0x1A90, 0x1B50,
    0x1BB0, 0x1C40, 0x1C50, 0xA620, 0xA8D0, 0xA900, 0xA9D0, 0xA9F0, 0xAA50, 0xABF0, 0xFF10,
    0x104A0, 0x10D30, 0x11066, 0x110F0, 0x11136, 0x111D0, 0x112F0, 0x11450, 0x114D0, 0x11650,
    0x116C0, 0x11730, 0x118E0, 0x11950, 0x11C50, 0x11D50, 0x11DA0, 0x11F50, 0x16A60, 0x16AC0,
    0x16B50, 0x1D7CE, 0x1D7D8, 0x1D7E2, 0x1D7EC, 0x1D7F6, 0x1E140, 0x1E2F0, 0x1E4F0, 0x1E950,
    0x1FBF0]

/-- The whitespace of Unicode beyond ASCII. -/
def wideSpaces : List Nat :=
  [0x85, 0xA0, 0x1680, 0x2000, 0x2001, 0x2002, 0x2003, 0x2004, 0x2005, 0x2006, 0x2007, 0x2008,
    0x2009, 0x200A, 0x2028, 0x2029, 0x202F, 0x205F, 0x3000]

/-- A digit or space of any script as the ASCII one. What is neither becomes no digit. -/
def toAscii (c : Char) : Char :=
  if c.toNat < 127 then c
  else if c.toNat ∈ wideSpaces then ' '
  else match decimalZeros.find? fun start => start ≤ c.toNat ∧ c.toNat < start + 10 with
    | some start => Char.ofNat (48 + (c.toNat - start))
    | none => '?'

/-- The whitespace of ASCII. -/
def isSpace (c : Char) : Bool := c = ' ' ∨ 9 ≤ c.toNat ∧ c.toNat ≤ 13

def stripSpaces (cs : List Char) : List Char :=
  ((cs.dropWhile isSpace).reverse.dropWhile isSpace).reverse

/-- An underscore may stand after the prefix. -/
def dropUnderscore : List Char → List Char
  | '_' :: cs => cs
  | cs => cs

/-- A `0x` may stand before the digits. -/
def dropPrefix : List Char → List Char
  | '0' :: 'x' :: cs => dropUnderscore cs
  | '0' :: 'X' :: cs => dropUnderscore cs
  | cs => cs

/-- A plus sign may stand before it all; a minus sign cannot, being a hyphen. -/
def dropPlus : List Char → List Char
  | '+' :: cs => cs
  | cs => cs

/-- One digit or more, with at most one underscore between two of them. -/
def digits? : List Char → Option (List Nat)
  | [] => none
  | [c] => (hexValue? c).map ([·])
  | c :: '_' :: cs => (hexValue? c).bind fun d => (digits? cs).map (d :: ·)
  | c :: cs => (hexValue? c).bind fun d => (digits? cs).map (d :: ·)

/-- `int(text, 16)` of a text without a minus sign. -/
def int16 (cs : List Char) : Option Nat :=
  (digits? (dropPrefix (dropPlus (stripSpaces (cs.map toAscii))))).map ofDigits

/-- `uuid.UUID(text)`. -/
def parse (text : String) : Option (BitVec 128) :=
  let hex := (stripBraces (remove "uuid:" (remove "urn:" text.toList))).filter (· ≠ '-')
  if hex.length = 32 then (int16 hex).map (BitVec.ofNat 128) else none

/-- Digits in groups of 8, 4, 4, 4 and the rest. -/
def hyphenated (ds : List Char) : List Char :=
  ds.take 8 ++ '-' :: ((ds.drop 8).take 4 ++ '-' :: ((ds.drop 12).take 4 ++
    '-' :: ((ds.drop 16).take 4 ++ '-' :: ds.drop 20)))

/-- `str(uuid)`. -/
def format (u : BitVec 128) : String := String.ofList (hyphenated (toHex 32 u.toNat))

/-! ## Reading back -/

theorem hexValue?_hexChar : ∀ n < 16, hexValue? (hexChar n) = some n := by decide

theorem length_toHex : ∀ k n, (toHex k n).length = k
  | 0, _ => rfl
  | k + 1, n => by simp [toHex, length_toHex k]

/-- An ASCII character that is none of those `parse` looks for. -/
def isPlain (c : Char) : Bool :=
  c.toNat < 127 && !isSpace c && c ∉ ['-', '{', '}', 'u', '+', 'x', 'X', '_']

theorem hexChar_plain : ∀ n < 16, isPlain (hexChar n) = true := by decide

theorem toHex_plain : ∀ k n, ∀ c ∈ toHex k n, isPlain c = true
  | 0, _, _, h => absurd h List.not_mem_nil
  | k + 1, n, c, h => by
    rcases List.mem_append.mp h with h | h
    · exact toHex_plain k _ c h
    · rw [List.mem_singleton.mp h]
      exact hexChar_plain _ (Nat.mod_lt _ (by norm_num))

section Plain

variable {cs : List Char}

theorem map_toAscii (h : ∀ c ∈ cs, isPlain c = true) : cs.map toAscii = cs := by
  conv_rhs => rw [← List.map_id cs]
  refine List.map_congr_left fun c hc => ?_
  have hplain := h c hc
  simp only [isPlain, Bool.and_eq_true, decide_eq_true_eq] at hplain
  exact if_pos hplain.1.1

theorem dropWhile_of_false {p : Char → Bool} (h : ∀ c ∈ cs, p c = false) : cs.dropWhile p = cs := by
  cases cs with
  | nil => rfl
  | cons c cs => simp [List.dropWhile, h c List.mem_cons_self]

theorem stripSpaces_plain (h : ∀ c ∈ cs, isPlain c = true) : stripSpaces cs = cs := by
  have hspace : ∀ c ∈ cs, isSpace c = false := by
    intro c hc
    have hplain := h c hc
    simp only [isPlain, Bool.and_eq_true, Bool.not_eq_true'] at hplain
    exact hplain.1.2
  unfold stripSpaces
  rw [dropWhile_of_false hspace, dropWhile_of_false (by simpa using hspace), List.reverse_reverse]

theorem dropPlus_plain (h : ∀ c ∈ cs, isPlain c = true) : dropPlus cs = cs := by
  unfold dropPlus
  split
  · exact absurd (h '+' List.mem_cons_self) (by decide)
  · rfl

theorem dropPrefix_plain (h : ∀ c ∈ cs, isPlain c = true) : dropPrefix cs = cs := by
  unfold dropPrefix
  split
  · exact absurd (h 'x' (List.mem_cons_of_mem _ List.mem_cons_self)) (by decide)
  · exact absurd (h 'X' (List.mem_cons_of_mem _ List.mem_cons_self)) (by decide)
  · rfl

/-- Without underscores the digits are read one by one. -/
theorem digits?_plain (h : ∀ c ∈ cs, isPlain c = true) (hne : cs ≠ []) :
    digits? cs = cs.mapM hexValue? := by
  fun_induction digits? cs with
  | case1 => exact absurd rfl hne
  | case2 c => cases hv : hexValue? c <;> simp [hv]
  | case3 c cs ih => exact absurd (h '_' (List.mem_cons_of_mem _ List.mem_cons_self)) (by decide)
  | case4 c cs hsingle hunder ih =>
    have hcs : cs ≠ [] := fun e => hsingle e
    rw [ih (fun x hx => h x (List.mem_cons_of_mem c hx)) hcs]
    simp [Option.map_eq_bind]

/-- `int` reads plain characters as the digits they are. -/
theorem int16_plain (h : ∀ c ∈ cs, isPlain c = true) (hne : cs ≠ []) :
    int16 cs = (cs.mapM hexValue?).map ofDigits := by
  unfold int16
  rw [map_toAscii h, stripSpaces_plain h, dropPlus_plain h, dropPrefix_plain h,
    digits?_plain h hne]

end Plain

theorem ofDigits_append (ds : List Nat) (d : Nat) :
    ofDigits (ds ++ [d]) = 16 * ofDigits ds + d := by
  simp [ofDigits]

/-- The digits stand for the number modulo what they can hold. -/
theorem mapM_toHex : ∀ k n, ∃ ds, (toHex k n).mapM hexValue? = some ds ∧
    ofDigits ds = n % 16 ^ k
  | 0, n => ⟨[], rfl, by simp [ofDigits, Nat.mod_one]⟩
  | k + 1, n => by
    obtain ⟨ds, hm, hds⟩ := mapM_toHex k (n / 16)
    refine ⟨ds ++ [n % 16], ?_, ?_⟩
    · simp [toHex, List.mapM_append, hm, hexValue?_hexChar _ (Nat.mod_lt n (by norm_num))]
    · rw [ofDigits_append, hds, pow_succ, Nat.mul_comm (16 ^ k) 16, Nat.mod_mul]
      omega

theorem removeFrom_of_notMem {p : Char} (ps : List Char) :
    ∀ {cs : List Char}, p ∉ cs → removeFrom (p :: ps) 0 cs = cs
  | [], _ => rfl
  | c :: cs, h => by
    have hc : p ≠ c := fun e => h (e ▸ List.mem_cons_self)
    have hcs := removeFrom_of_notMem ps fun hm => h (List.mem_cons_of_mem c hm)
    simp [removeFrom, hc, hcs]

theorem stripBraces_of_notMem {cs : List Char} (h : ∀ c ∈ cs, isBrace c = false) :
    stripBraces cs = cs := by
  unfold stripBraces
  rw [dropWhile_of_false h, dropWhile_of_false (by simpa using h), List.reverse_reverse]

theorem mem_hyphenated {ds : List Char} {c : Char} (h : c ∈ hyphenated ds) : c = '-' ∨ c ∈ ds := by
  simp only [hyphenated, List.mem_append, List.mem_cons] at h
  rcases h with h | h | h | h | h | h | h | h | h
  · exact Or.inr (List.mem_of_mem_take h)
  · exact Or.inl h
  · exact Or.inr (List.mem_of_mem_drop (List.mem_of_mem_take h))
  · exact Or.inl h
  · exact Or.inr (List.mem_of_mem_drop (List.mem_of_mem_take h))
  · exact Or.inl h
  · exact Or.inr (List.mem_of_mem_drop (List.mem_of_mem_take h))
  · exact Or.inl h
  · exact Or.inr (List.mem_of_mem_drop h)

/-- The groups without their hyphens are the digits. -/
theorem filter_hyphenated {ds : List Char} (h : '-' ∉ ds) :
    (hyphenated ds).filter (· ≠ '-') = ds := by
  have hkeep : ∀ l : List Char, (∀ c ∈ l, c ∈ ds) → l.filter (· ≠ '-') = l := by
    intro l hl
    refine List.filter_eq_self.mpr fun c hc => ?_
    simp only [ne_eq, decide_not, Bool.not_eq_eq_eq_not, Bool.not_true, decide_eq_false_iff_not]
    rintro rfl
    exact h (hl _ hc)
  have hgroup : ∀ k, ds.drop k = (ds.drop k).take 4 ++ ds.drop (k + 4) := by
    intro k
    rw [← List.drop_drop, List.take_append_drop]
  simp only [hyphenated, List.filter_append, List.filter_cons, ne_eq, not_true_eq_false,
    decide_false, Bool.false_eq_true, if_false]
  have hmid : ∀ k, ∀ c ∈ (ds.drop k).take 4, c ∈ ds :=
    fun k c hc => List.mem_of_mem_drop (List.mem_of_mem_take hc)
  rw [hkeep _ fun c => List.mem_of_mem_take, hkeep _ (hmid 8), hkeep _ (hmid 12),
    hkeep _ (hmid 16), hkeep _ fun c => List.mem_of_mem_drop, ← hgroup 16, ← hgroup 12, ← hgroup 8,
    List.take_append_drop]

/-- **The text of a UUID is read back as that UUID.** -/
theorem parse_format (u : BitVec 128) : parse (format u) = some u := by
  have hplain := toHex_plain 32 u.toNat
  have hlen := length_toHex 32 u.toNat
  obtain ⟨values, hm, hvalue⟩ := mapM_toHex 32 u.toNat
  unfold format
  generalize toHex 32 u.toNat = ds at hplain hlen hm
  have hnot : ∀ {x : Char}, isPlain x = false → x ∉ ds := by
    intro x hx hmem
    rw [hplain x hmem] at hx
    cases hx
  have hchars : ∀ {x : Char}, isPlain x = false → x ≠ '-' → x ∉ hyphenated ds :=
    fun hx hne hmem => (mem_hyphenated hmem).elim hne (hnot hx)
  have hu : 'u' ∉ hyphenated ds := hchars (by decide) (by decide)
  have hremove : remove "uuid:" (remove "urn:" (hyphenated ds)) = hyphenated ds := by
    show removeFrom ('u' :: _) 0 (removeFrom ('u' :: _) 0 (hyphenated ds)) = _
    rw [removeFrom_of_notMem _ hu, removeFrom_of_notMem _ hu]
  have hstrip : stripBraces (hyphenated ds) = hyphenated ds := by
    refine stripBraces_of_notMem fun c hc => ?_
    by_contra hbrace
    simp only [isBrace, Bool.or_eq_true, decide_eq_true_eq, Bool.not_eq_false] at hbrace
    rcases hbrace with rfl | rfl
    · exact hchars (by decide) (by decide) hc
    · exact hchars (by decide) (by decide) hc
  have hfilter : (hyphenated ds).filter (· ≠ '-') = ds := filter_hyphenated (hnot (by decide))
  have hne : ds ≠ [] := by
    rintro rfl
    cases hlen
  have hlt : u.toNat < 16 ^ 32 := u.isLt
  unfold parse
  rw [String.toList_ofList, hremove, hstrip, hfilter]
  simp only [hlen, if_true, int16_plain hplain hne, hm, Option.map_some, hvalue]
  rw [Nat.mod_eq_of_lt hlt, BitVec.ofNat_toNat, BitVec.setWidth_eq]

-- A sign, a prefix, an underscore and a digit of another script.
example : parse "\x7b+0x_0000-0000-0000-0000-0000-0000-001٢\x7d" = some 18 := by decide +kernel

theorem format_ne_empty (u : BitVec 128) : format u ≠ "" := by
  intro he
  have hp := parse_format u
  rw [he] at hp
  have hempty : parse "" = none := by decide
  rw [hempty] at hp
  cases hp

end Gateway.Lib.Uuid
