import Mathlib.Data.List.Basic

/-!
# UTF-8 and Latin-1

Texts are lists of Unicode scalar values. `utf8` is `str.encode()`, `latin1` is
`bytes.decode("latin-1")`.

* `prefix_of_utf8_prefix`, `utf8_injective`: no character's bytes start those of another, so a text
  whose bytes start those of another text starts it.
* `utf8_latin1`, `latin1_utf8`: for ASCII the two are inverse.
* `exists_same_but_last_byte`: for every text there is another whose bytes differ in the last one
  only.
-/

namespace Gateway.Lib

/-- `str.encode()`. -/
def utf8 (cs : List Char) : List UInt8 := cs.flatMap String.utf8EncodeChar

/-- `bytes.decode("latin-1")`. -/
def latin1 (bs : List UInt8) : List Char := bs.map fun b => Char.ofNat b.toNat

@[simp] theorem utf8_nil : utf8 [] = [] := rfl

theorem utf8_cons (c : Char) (cs : List Char) :
    utf8 (c :: cs) = String.utf8EncodeChar c ++ utf8 cs := List.flatMap_cons

theorem utf8_append (xs ys : List Char) : utf8 (xs ++ ys) = utf8 xs ++ utf8 ys :=
  List.flatMap_append

/-- The bytes of a character are not the start of those of another. -/
theorem eq_of_encoded_append_eq {c c' : Char} {x y : List UInt8}
    (h : String.utf8EncodeChar c ++ x = String.utf8EncodeChar c' ++ y) : c = c' := by
  have hbytes := congrArg List.toByteArray h
  rw [List.toByteArray_append, List.toByteArray_append] at hbytes
  have hdecoded := congrArg (fun b => ByteArray.utf8DecodeChar? b 0) hbytes
  simp only [ByteArray.utf8DecodeChar?_utf8EncodeChar_append] at hdecoded
  exact Option.some.inj hdecoded

/-- **UTF-8 is prefix-free**: a text whose bytes start those of another is its start. -/
theorem prefix_of_utf8_prefix {xs ys : List Char} (h : utf8 xs <+: utf8 ys) : xs <+: ys := by
  induction xs generalizing ys with
  | nil => exact List.nil_prefix
  | cons c cs ih =>
    obtain ⟨rest, hrest⟩ := h
    rw [utf8_cons, List.append_assoc] at hrest
    cases ys with
    | nil =>
      have hnil := List.append_eq_nil_iff.mp hrest
      exact absurd hnil.1 String.utf8EncodeChar_ne_nil
    | cons d ds =>
      rw [utf8_cons] at hrest
      obtain rfl := eq_of_encoded_append_eq hrest
      have htail : utf8 cs <+: utf8 ds := ⟨rest, List.append_cancel_left hrest⟩
      exact List.cons_prefix_cons.mpr ⟨rfl, ih htail⟩

theorem utf8_injective {xs ys : List Char} (h : utf8 xs = utf8 ys) : xs = ys := by
  have hxy : xs <+: ys := prefix_of_utf8_prefix (h ▸ List.prefix_rfl)
  have hyx : ys <+: xs := prefix_of_utf8_prefix (h ▸ List.prefix_rfl)
  exact hxy.eq_of_length (Nat.le_antisymm hxy.length_le hyx.length_le)

theorem toNat_ofNat {n : Nat} (h : n.isValidChar) : (Char.ofNat n).toNat = n := by
  unfold Char.ofNat
  rw [dif_pos h]
  rfl

/-- The code point of a byte's Latin-1 character is the byte. -/
theorem toNat_latin1Char (b : UInt8) : (Char.ofNat b.toNat).toNat = b.toNat := by
  have hbound := b.toNat_lt
  exact toNat_ofNat (Or.inl (by omega))

/-- An ASCII character is its own byte. -/
theorem utf8EncodeChar_ascii {c : Char} (h : c.toNat < 128) :
    String.utf8EncodeChar c = [UInt8.ofNat c.toNat] := if_pos (Nat.le_of_lt_succ h)

/-- ASCII bytes survive a Latin-1 decoding. -/
theorem utf8_latin1 {bs : List UInt8} (h : ∀ b ∈ bs, b.toNat < 128) : utf8 (latin1 bs) = bs := by
  induction bs with
  | nil => rfl
  | cons b bs ih =>
    have hb : (Char.ofNat b.toNat).toNat < 128 := by
      rw [toNat_latin1Char]
      exact h b List.mem_cons_self
    rw [latin1, List.map_cons, utf8_cons, utf8EncodeChar_ascii hb, toNat_latin1Char,
      UInt8.ofNat_toNat]
    exact congrArg _ (ih fun x hx => h x (List.mem_cons_of_mem b hx))

/-- A byte is told from its Latin-1 character. -/
theorem latin1_injective {xs ys : List UInt8} (h : latin1 xs = latin1 ys) : xs = ys := by
  refine List.map_injective_iff.mpr (fun a b hab => ?_) h
  rw [← UInt8.toNat_inj, ← toNat_latin1Char a, ← toNat_latin1Char b, hab]

theorem latin1_utf8 {cs : List Char} (h : ∀ c ∈ cs, c.toNat < 128) : latin1 (utf8 cs) = cs := by
  induction cs with
  | nil => rfl
  | cons c cs ih =>
    have hc := h c List.mem_cons_self
    have hbyte : (UInt8.ofNat c.toNat).toNat = c.toNat := by
      rw [UInt8.toNat_ofNat']
      omega
    rw [utf8_cons, utf8EncodeChar_ascii hc, List.singleton_append, latin1, List.map_cons, hbyte,
      Char.ofNat_toNat]
    exact congrArg _ (ih fun x hx => h x (List.mem_cons_of_mem c hx))

/-! ## A character next to another -/

/-- The character whose code point differs in the last bit. -/
def sibling (c : Char) : Char := Char.ofNat (c.toNat / 2 * 2 + (1 - c.toNat % 2))

theorem toNat_sibling (c : Char) : (sibling c).toNat = c.toNat / 2 * 2 + (1 - c.toNat % 2) := by
  refine toNat_ofNat ?_
  -- The bounds of the scalar values are even, so none of them separates the two.
  have hvalid : c.toNat < 0xd800 ∨ 0xdfff < c.toNat ∧ c.toNat < 0x110000 := c.valid
  rcases hvalid with h | h
  · exact Or.inl (by omega)
  · exact Or.inr (by omega)

theorem sibling_ne (c : Char) : sibling c ≠ c := by
  intro h
  have hnat := congrArg Char.toNat h
  rw [toNat_sibling] at hnat
  omega

/-- The bytes of the two differ in the last one only. -/
theorem dropLast_encoded_sibling (c : Char) :
    (String.utf8EncodeChar (sibling c)).dropLast = (String.utf8EncodeChar c).dropLast := by
  have hval : (sibling c).val.toNat = c.val.toNat / 2 * 2 + (1 - c.val.toNat % 2) := toNat_sibling c
  -- The sizes change at even code points, and all bytes but the last are of the higher bits.
  have h1 : (sibling c).val.toNat ≤ 0x7f ↔ c.val.toNat ≤ 0x7f := by omega
  have h2 : (sibling c).val.toNat ≤ 0x7ff ↔ c.val.toNat ≤ 0x7ff := by omega
  have h3 : (sibling c).val.toNat ≤ 0xffff ↔ c.val.toNat ≤ 0xffff := by omega
  have h6 : (sibling c).val.toNat / 64 = c.val.toNat / 64 := by omega
  have h12 : (sibling c).val.toNat / 4096 = c.val.toNat / 4096 := by omega
  have h18 : (sibling c).val.toNat / 262144 = c.val.toNat / 262144 := by omega
  unfold String.utf8EncodeChar
  simp only [h1, h2, h3, h6, h12, h18]
  split_ifs
  · rfl
  · rfl
  · rfl
  · rfl

/-- For every text there is another whose bytes differ in the last one only. -/
theorem exists_same_but_last_byte {cs : List Char} (h : cs ≠ []) :
    ∃ cs' : List Char, cs' ≠ cs ∧ cs'.length = cs.length ∧
      (utf8 cs').dropLast = (utf8 cs).dropLast := by
  obtain ⟨xs, c, rfl⟩ := List.eq_nil_or_concat' cs |>.resolve_left h
  refine ⟨xs ++ [sibling c], fun heq => ?_, by simp, ?_⟩
  · have hlast := List.append_cancel_left heq
    exact sibling_ne c (List.cons.inj hlast).1
  · have hsplit : ∀ d : Char, (utf8 (xs ++ [d])).dropLast =
        utf8 xs ++ (String.utf8EncodeChar d).dropLast := fun d => by
      rw [utf8_append, utf8_cons, utf8_nil, List.append_nil,
        List.dropLast_append_of_ne_nil String.utf8EncodeChar_ne_nil]
    rw [hsplit, hsplit, dropLast_encoded_sibling]

end Gateway.Lib
