import Mathlib.Tactic.SplitIfs
import Mathlib.Tactic.TypeStar

/-!
# Dictionaries and counters

A dictionary is the list of its entries in insertion order: `get?` reads the entry of a key, `set`
overwrites it or appends one, and `get?_set` says what is read back. A list that is set entry by
entry is read through `last`: the last entry of a key counts. A counter is a dictionary of
counts: `add` raises one count, `update` adds another counter entry by entry. What is conserved when
counts move between counters is not a single entry but the `total` over all keys meeting a
predicate: `total_add` and `total_update` say how it moves, and `total_eq_zero_iff` that a total of
positive counts vanishes only when no key meets the predicate.
-/

namespace Gateway.Lib

/-- A dictionary: its entries in insertion order. -/
abbrev Dict (κ υ : Type*) := List (κ × υ)

namespace Dict

variable {κ υ : Type*} [DecidableEq κ]

/-- `d.get(k)`. -/
def get? : Dict κ υ → κ → Option υ
  | [], _ => none
  | (k', v) :: rest, k => if k' = k then some v else get? rest k

/-- `d[k] = v`. -/
def set : Dict κ υ → κ → υ → Dict κ υ
  | [], k, v => [(k, v)]
  | (k', v') :: rest, k, v => if k' = k then (k', v) :: rest else (k', v') :: set rest k v

/-- A key reads what was last set under it. -/
theorem get?_set (k : κ) (v : υ) (j : κ) :
    ∀ d : Dict κ υ, get? (set d k v) j = if k = j then some v else get? d j
  | [] => by simp [set, get?]
  | (k', v') :: rest => by
    unfold set
    split
    · rename_i hk
      subst hk
      simp only [get?]
      split_ifs <;> rfl
    · rename_i hk
      simp only [get?]
      rw [get?_set k v j rest]
      split_ifs with h1 h2
      · exact absurd (h1.trans h2.symm) hk
      · rfl
      · rfl
      · rfl

/-! ### Lists in which the last entry of a key counts -/

section Last

variable {α : Type*} (key : α → κ) (value : α → υ)

/-- The value of the last entry under `k`. -/
def last : List α → κ → Option υ
  | [], _ => none
  | e :: es, k => (last es k).or (if key e = k then some (value e) else none)

theorem last_append (l l' : List α) (k : κ) :
    last key value (l ++ l') k = (last key value l' k).or (last key value l k) := by
  induction l with
  | nil => simp [last]
  | cons e l ih =>
    rw [List.cons_append, last, last, ih, Option.or_assoc]

theorem last_eq_none_iff {l : List α} {k : κ} :
    last key value l k = none ↔ ∀ e ∈ l, key e ≠ k := by
  induction l with
  | nil => simp [last]
  | cons e l ih => simp [last, ih, and_comm]

/-- Only the entries under `k` matter. -/
theorem last_filter {p : α → Bool} {k : κ} {l : List α} (h : ∀ e ∈ l, key e = k → p e = true) :
    last key value (l.filter p) k = last key value l k := by
  induction l with
  | nil => rfl
  | cons e l ih =>
    have hl := ih fun x hx => h x (List.mem_cons_of_mem e hx)
    by_cases hp : p e = true
    · rw [List.filter_cons_of_pos hp, last, last, hl]
    · have hk : key e ≠ k := fun he => hp (h e List.mem_cons_self he)
      rw [List.filter_cons_of_neg hp, last, hl, if_neg hk, Option.or_none]

theorem last_map {β : Type*} (f : β → α) (l : List β) (k : κ) :
    last key value (l.map f) k = last (key ∘ f) (value ∘ f) l k := by
  induction l with
  | nil => rfl
  | cons e l ih =>
    rw [List.map_cons, last, last, ih]
    rfl

theorem last_of_split {l₁ l₂ : List α} {e : α} (h : ∀ x ∈ l₂, key x ≠ key e) :
    last key value (l₁ ++ e :: l₂) (key e) = some (value e) := by
  rw [last_append, last, (last_eq_none_iff key value).mpr h, if_pos rfl]
  rfl

/-- Two ways to read the entries agree on every key exactly when they agree on each entry that no
later one overrides. -/
theorem last_congr_iff (value' : α → υ) {l : List α} :
    (∀ k, last key value l k = last key value' l k) ↔
      ∀ l₁ e l₂, l = l₁ ++ e :: l₂ → (∀ x ∈ l₂, key x ≠ key e) → value e = value' e := by
  constructor
  · rintro h l₁ e l₂ rfl hlast
    have hk := h (key e)
    rw [last_of_split key value hlast, last_of_split key value' hlast] at hk
    exact Option.some.inj hk
  · intro h k
    induction l with
    | nil => rfl
    | cons e l ih =>
      have hrest := ih fun l₁ x l₂ hl => h (e :: l₁) x l₂ (by rw [hl, List.cons_append])
      rw [last, last, hrest]
      cases hk : last key value' l k with
      | some v => rfl
      | none =>
        have hno := (last_eq_none_iff key value').mp hk
        split_ifs with he
        · rw [h [] e l rfl fun x hx => he ▸ hno x hx]
        · rfl

/-- Setting the entries one by one leaves the last of each key. -/
theorem get?_foldl_set (k : κ) :
    ∀ (l : List α) (d : Dict κ υ), get? (l.foldl (fun d e => set d (key e) (value e)) d) k =
      (last key value l k).or (get? d k) := by
  intro l
  induction l with
  | nil =>
    intro _
    rfl
  | cons e l ih =>
    intro d
    rw [List.foldl_cons, ih, get?_set, last]
    cases last key value l k with
    | some v => rfl
    | none =>
      simp only [Option.none_or]
      split_ifs <;> rfl

end Last

end Dict

/-- A dictionary of counts. -/
abbrev Counter (κ : Type*) := Dict κ Nat

namespace Counter

variable {κ : Type*}

/-- The sum of the counts whose key meets `p`. -/
def total (p : κ → Bool) : Counter κ → Nat
  | [] => 0
  | e :: c => (if p e.1 then e.2 else 0) + total p c

/-- Every recorded count is positive. -/
def Positive (c : Counter κ) : Prop := ∀ e ∈ c, 0 < e.2

@[simp] theorem total_nil (p : κ → Bool) : total p ([] : Counter κ) = 0 := rfl

theorem total_cons (p : κ → Bool) (e : κ × Nat) (c : Counter κ) :
    total p (e :: c) = (if p e.1 then e.2 else 0) + total p c := rfl

theorem total_append (p : κ → Bool) (c d : Counter κ) :
    total p (c ++ d) = total p c + total p d := by
  induction c with
  | nil => simp
  | cons e c ih =>
    rw [List.cons_append, total_cons, total_cons, ih]
    omega

theorem total_congr {p q : κ → Bool} {c : Counter κ} (h : ∀ e ∈ c, p e.1 = q e.1) :
    total p c = total q c := by
  induction c with
  | nil => rfl
  | cons e c ih =>
    rw [total_cons, total_cons, h e List.mem_cons_self,
      ih fun x hx => h x (List.mem_cons_of_mem e hx)]

/-- The total of the entries that meet a condition. -/
theorem total_filter {p q r : κ → Bool} {c : Counter κ} (h : ∀ e ∈ c, q e.1 = r e.1) :
    total p (c.filter fun e => q e.1) = total (fun k => p k && r k) c := by
  induction c with
  | nil => rfl
  | cons e c ih =>
    have hrest := ih fun x hx => h x (List.mem_cons_of_mem e hx)
    have he := h e List.mem_cons_self
    rw [total_cons, ← hrest, ← he]
    by_cases hq : q e.1 = true
    · simp only [hq, List.filter_cons_of_pos, total_cons, Bool.and_true]
    · simp only [hq, Bool.false_eq_true, not_false_eq_true, List.filter_cons_of_neg, Bool.and_false,
        if_false, Nat.zero_add]

/-- A predicate and its complement split the total of the entries. -/
theorem total_filter_add (p q : κ → Bool) (c : Counter κ) :
    total p (c.filter fun e => q e.1) + total p (c.filter fun e => !q e.1) = total p c := by
  induction c with
  | nil => rfl
  | cons e c ih =>
    rw [total_cons]
    by_cases hq : q e.1 = true
    · simp only [hq, List.filter_cons_of_pos, Bool.not_true, Bool.false_eq_true,
        not_false_eq_true, List.filter_cons_of_neg, total_cons]
      omega
    · simp only [hq, not_false_eq_true, List.filter_cons_of_neg, Bool.not_false,
        List.filter_cons_of_pos, total_cons, Bool.false_eq_true]
      omega

theorem total_eq_zero_iff {p : κ → Bool} {c : Counter κ} (hpos : c.Positive) :
    total p c = 0 ↔ ∀ e ∈ c, p e.1 = false := by
  induction c with
  | nil => simp
  | cons e c ih =>
    have he := hpos e List.mem_cons_self
    have hc : Positive c := fun x hx => hpos x (List.mem_cons_of_mem e hx)
    rw [total_cons, List.forall_mem_cons, ← ih hc]
    by_cases h : p e.1 = true
    · simp only [h, if_true]
      constructor
      · intro h0
        omega
      · rintro ⟨h0, -⟩
        exact absurd h0 (by simp)
    · simp [h]

variable [DecidableEq κ]

/-- `counter[k] += n`. -/
def add : Counter κ → κ → Nat → Counter κ
  | [], k, n => [(k, n)]
  | (k', m) :: rest, k, n => if k' = k then (k', m + n) :: rest else (k', m) :: add rest k n

/-- `counter.update(other)`: the counts of `other` added one by one. -/
def update (c other : Counter κ) : Counter κ := other.foldl (fun c e => add c e.1 e.2) c

theorem total_add (p : κ → Bool) (k : κ) (n : Nat) :
    ∀ c : Counter κ, total p (add c k n) = total p c + if p k then n else 0
  | [] => by simp [add, total_cons]
  | (k', m) :: rest => by
    unfold add
    split
    · rename_i hk
      subst hk
      rw [total_cons, total_cons]
      by_cases h : p k' = true
      · simp only [h, if_true]
        omega
      · simp [h]
    · rw [total_cons, total_cons, total_add p k n rest]
      omega

theorem total_update (p : κ → Bool) :
    ∀ c other : Counter κ, total p (update c other) = total p c + total p other
  | _, [] => rfl
  | c, e :: other => by
    show total p (update (add c e.1 e.2) other) = _
    rw [total_update p (add c e.1 e.2) other, total_add, total_cons]
    omega

theorem Positive.add {k : κ} {n : Nat} (hn : 0 < n) :
    ∀ {c : Counter κ}, c.Positive → (Counter.add c k n).Positive
  | [], _ => by
    intro e he
    obtain rfl := List.mem_singleton.mp he
    exact hn
  | (k', m) :: rest, h => by
    have hm := h (k', m) List.mem_cons_self
    have hrest : Positive rest := fun x hx => h x (List.mem_cons_of_mem _ hx)
    unfold Counter.add
    split
    · intro e he
      rcases List.mem_cons.mp he with rfl | he
      · exact Nat.add_pos_left hm n
      · exact hrest e he
    · intro e he
      rcases List.mem_cons.mp he with rfl | he
      · exact hm
      · exact Positive.add hn hrest e he

theorem Positive.update {c other : Counter κ} (h : c.Positive) (ho : other.Positive) :
    (Counter.update c other).Positive := by
  induction other generalizing c with
  | nil => exact h
  | cons e other ih =>
    exact ih (Positive.add (ho e List.mem_cons_self) h)
      fun x hx => ho x (List.mem_cons_of_mem e hx)

/-- What holds of the keys of a counter and of the added key holds of the keys after. -/
theorem keys_add {P : κ → Prop} {k : κ} {n : Nat} (hk : P k) :
    ∀ {c : Counter κ}, (∀ e ∈ c, P e.1) → ∀ e ∈ Counter.add c k n, P e.1
  | [], _ => by
    intro e he
    obtain rfl := List.mem_singleton.mp he
    exact hk
  | (k', m) :: rest, h => by
    have hk' := h (k', m) List.mem_cons_self
    have hrest : ∀ e ∈ rest, P e.1 := fun x hx => h x (List.mem_cons_of_mem _ hx)
    unfold Counter.add
    split
    · intro e he
      rcases List.mem_cons.mp he with rfl | he
      · exact hk'
      · exact hrest e he
    · intro e he
      rcases List.mem_cons.mp he with rfl | he
      · exact hk'
      · exact keys_add hk hrest e he

theorem keys_update {P : κ → Prop} {c other : Counter κ} (h : ∀ e ∈ c, P e.1)
    (ho : ∀ e ∈ other, P e.1) : ∀ e ∈ Counter.update c other, P e.1 := by
  induction other generalizing c with
  | nil => exact h
  | cons x other ih =>
    exact ih (keys_add (ho x List.mem_cons_self) h) fun e he => ho e (List.mem_cons_of_mem x he)

end Counter

end Gateway.Lib
