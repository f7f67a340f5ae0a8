import Mathlib.Algebra.BigOperators.Group.List.Basic
import Mathlib.Data.List.Nodup
import Mathlib.Algebra.Order.BigOperators.Group.List

/-!
# Keyed tables

A table is a list of rows with distinct primary keys, in insertion order. The key is a function
of the row, so it cannot drift from the row it indexes, and distinctness is a field: no operation
can build a table with two rows under one key.

* `find?` reads a row by key, `put` overwrites the row with the same key (nothing when there is
  none), `insert?` adds a row unless its key is taken, `erase` removes a key.
* `total g` sums a measure `g` over the rows; `totalExcept k g` leaves out the row under `k`.
  The second is what an operation on row `k` cannot change: `total_eq_add` splits the total into
  the row's own measure and the rest, and `totalExcept_put`, `total_put`, `total_erase`,
  `total_insert?` say what each operation does to the two parts.
-/

namespace Gateway.Lib

/-- Rows with distinct keys, in insertion order. -/
structure Table (ρ : Type*) {κ : Type*} (key : ρ → κ) where
  rows : List ρ
  nodup : (rows.map key).Nodup

namespace Table

variable {ρ κ : Type*} {key : ρ → κ}

/-- The table without rows. -/
def empty : Table ρ key := ⟨[], List.nodup_nil⟩

/-- The rows meeting `p` (`DELETE … WHERE NOT p`). -/
def filter (t : Table ρ key) (p : ρ → Bool) : Table ρ key where
  rows := t.rows.filter p
  nodup := t.nodup.sublist (List.filter_sublist.map key)

/-- A key determines its row. -/
theorem eq_of_key_eq (t : Table ρ key) {x y : ρ} (hx : x ∈ t.rows) (hy : y ∈ t.rows)
    (h : key x = key y) : x = y :=
  List.inj_on_of_nodup_map t.nodup hx hy h

variable [DecidableEq κ]

/-- The row under `k`. -/
def find? (t : Table ρ key) (k : κ) : Option ρ := t.rows.find? fun r => key r = k

/-- Overwrite the row with the key of `r`. -/
def put (t : Table ρ key) (r : ρ) : Table ρ key where
  rows := t.rows.map fun x => if key x = key r then r else x
  nodup := by
    have h : (t.rows.map fun x => if key x = key r then r else x).map key = t.rows.map key := by
      rw [List.map_map]
      refine List.map_congr_left fun x _ => ?_
      simp only [Function.comp]
      split_ifs with hx
      · exact hx.symm
      · rfl
    rw [h]
    exact t.nodup

/-- Add `r`, unless its key is taken. -/
def insert? (t : Table ρ key) (r : ρ) : Option (Table ρ key) :=
  if h : key r ∈ t.rows.map key then none
  else some
    { rows := t.rows ++ [r]
      nodup := by
        rw [List.map_append, List.map_singleton]
        exact List.nodup_append.mpr ⟨t.nodup, List.nodup_singleton _, by
          rintro a ha b hb rfl
          exact h (List.mem_singleton.mp hb ▸ ha)⟩ }

/-- Insert `r`, or rewrite the row already under its key (`INSERT … ON CONFLICT DO UPDATE`). -/
def upsert (t : Table ρ key) (r : ρ) (merge : ρ → ρ) : Table ρ key :=
  match t.find? (key r) with
  | some o => t.put (merge o)
  | none => (t.insert? r).getD t

/-- Remove the row under `k`. -/
def erase (t : Table ρ key) (k : κ) : Table ρ key := t.filter fun r => key r ≠ k

/-! ## Rows after an operation -/

theorem mem_of_find? {t : Table ρ key} {k : κ} {r : ρ} (h : t.find? k = some r) : r ∈ t.rows :=
  List.mem_of_find?_eq_some h

theorem key_of_find? {t : Table ρ key} {k : κ} {r : ρ} (h : t.find? k = some r) : key r = k := by
  simpa using List.find?_some h

theorem find?_of_mem {t : Table ρ key} {r : ρ} (h : r ∈ t.rows) : t.find? (key r) = some r := by
  cases hf : t.find? (key r) with
  | none =>
    have hne := List.find?_eq_none.mp hf r h
    simp at hne
  | some x => rw [t.eq_of_key_eq (mem_of_find? hf) h (key_of_find? hf)]

theorem find?_eq_none {t : Table ρ key} {k : κ} :
    t.find? k = none ↔ ∀ r ∈ t.rows, key r ≠ k := by
  unfold find?
  simp

theorem mem_put {t : Table ρ key} {r x : ρ} (h : x ∈ (t.put r).rows) :
    x = r ∨ (x ∈ t.rows ∧ key x ≠ key r) := by
  obtain ⟨y, hy, rfl⟩ := List.mem_map.mp h
  split_ifs with hk
  · exact Or.inl rfl
  · exact Or.inr ⟨hy, hk⟩

theorem find?_put_self {t : Table ρ key} {r o : ρ} (h : t.find? (key r) = some o) :
    (t.put r).find? (key r) = some r := by
  have : r ∈ (t.put r).rows :=
    List.mem_map.mpr ⟨o, mem_of_find? h, if_pos (key_of_find? h)⟩
  exact find?_of_mem this

theorem find?_put_of_ne (t : Table ρ key) {r : ρ} {k : κ} (hk : k ≠ key r) :
    (t.put r).find? k = t.find? k := by
  unfold find? put
  rw [List.find?_map]
  induction t.rows with
  | nil => rfl
  | cons x xs ih =>
    simp only [List.find?_cons, Function.comp]
    by_cases hx : key x = key r
    · have h1 : key r ≠ k := fun e => hk e.symm
      have h2 : key x ≠ k := fun e => h1 (hx ▸ e)
      simpa [hx, h1, h2] using ih
    · by_cases h2 : key x = k
      · simp [h2, fun e : k = key r => hk e]
      · simpa [hx, h2] using ih

/-- A row with a property leaves one behind when a row is overwritten, unless it is the one
overwritten and the new row lacks it. -/
theorem exists_mem_put {t : Table ρ key} {r x : ρ} {P : ρ → Prop} (hx : x ∈ t.rows) (h : P x)
    (hr : key x = key r → P r) : ∃ y ∈ (t.put r).rows, P y := by
  refine ⟨if key x = key r then r else x, List.mem_map_of_mem hx, ?_⟩
  split_ifs with hk
  · exact hr hk
  · exact h

/-- The row under `k` is there and has the property. -/
def Has (t : Table ρ key) (k : κ) (Q : ρ → Prop) : Prop := ∃ r, t.find? k = some r ∧ Q r

/-- A property that appears with the overwriting of a row is the new row's. -/
theorem has_of_put {t : Table ρ key} {r o : ρ} {k : κ} {Q : ρ → Prop}
    (h : (t.put r).Has k Q) (hnot : ¬ t.Has k Q) (ho : t.find? (key r) = some o) :
    key r = k ∧ Q r ∧ ¬ Q o := by
  obtain ⟨x, hx, hQ⟩ := h
  by_cases hk : k = key r
  · subst hk
    obtain rfl := Option.some.inj ((find?_put_self ho).symm.trans hx)
    exact ⟨rfl, hQ, fun hQo => hnot ⟨o, ho, hQo⟩⟩
  · rw [find?_put_of_ne t hk] at hx
    exact absurd ⟨x, hx, hQ⟩ hnot

/-- Only the last of two writes to one row counts. -/
theorem put_put (t : Table ρ key) {r s : ρ} (h : key r = key s) : (t.put r).put s = t.put s := by
  unfold put
  congr 1
  rw [List.map_map]
  refine List.map_congr_left fun x _ => ?_
  simp only [Function.comp]
  by_cases hx : key x = key s
  · simp [hx, h]
  · simp [hx, h]

/-- Writing back the row that is there changes nothing. -/
theorem put_of_find? {t : Table ρ key} {r : ρ} (h : t.find? (key r) = some r) : t.put r = t := by
  have hrows : (t.rows.map fun x => if key x = key r then r else x) = t.rows := by
    conv_rhs => rw [← List.map_id t.rows]
    refine List.map_congr_left fun x hx => ?_
    split_ifs with hk
    · exact t.eq_of_key_eq (mem_of_find? h) hx hk.symm
    · rfl
  cases t
  unfold put
  congr 1

theorem insert?_eq_some {t t' : Table ρ key} {r : ρ} (h : t.insert? r = some t') :
    t'.rows = t.rows ++ [r] ∧ ∀ x ∈ t.rows, key x ≠ key r := by
  unfold insert? at h
  split at h
  · exact absurd h (by simp)
  · rename_i hk
    obtain rfl := Option.some.inj h
    exact ⟨rfl, fun x hx e => hk (e ▸ List.mem_map_of_mem hx)⟩

theorem find?_insert?_self {t t' : Table ρ key} {r : ρ} (h : t.insert? r = some t') :
    t'.find? (key r) = some r :=
  find?_of_mem (by rw [(insert?_eq_some h).1]; exact List.mem_append_right _ List.mem_cons_self)

theorem insert?_of_forall_ne {t : Table ρ key} {r : ρ} (h : ∀ x ∈ t.rows, key x ≠ key r) :
    ∃ t', t.insert? r = some t' := by
  unfold insert?
  split
  · rename_i hk
    obtain ⟨x, hx, e⟩ := List.mem_map.mp hk
    exact absurd e (h x hx)
  · exact ⟨_, rfl⟩

theorem find?_insert?_of_ne {t t' : Table ρ key} {r : ρ} (h : t.insert? r = some t') {k : κ}
    (hk : k ≠ key r) : t'.find? k = t.find? k := by
  unfold find?
  rw [(insert?_eq_some h).1, List.find?_append]
  simp [Ne.symm hk]

/-- A property that appears with the insertion of a row is the new row's. -/
theorem has_of_insert? {t t' : Table ρ key} {r : ρ} {k : κ} {Q : ρ → Prop}
    (h : t'.Has k Q) (hnot : ¬ t.Has k Q) (hins : t.insert? r = some t') : key r = k ∧ Q r := by
  obtain ⟨x, hx, hQ⟩ := h
  by_cases hk : k = key r
  · subst hk
    obtain rfl := Option.some.inj ((find?_insert?_self hins).symm.trans hx)
    exact ⟨rfl, hQ⟩
  · rw [find?_insert?_of_ne hins hk] at hx
    exact absurd ⟨x, hx, hQ⟩ hnot

/-- What an upsert reads back: the merged or inserted row under its key, the old row elsewhere. -/
theorem find?_upsert (t : Table ρ key) (r : ρ) {merge : ρ → ρ}
    (hmerge : ∀ o, key (merge o) = key o) (k : κ) :
    (t.upsert r merge).find? k =
      if k = key r then some ((t.find? (key r)).elim r merge) else t.find? k := by
  unfold upsert
  cases ho : t.find? (key r) with
  | some o =>
    have hkey : key (merge o) = key r := (hmerge o).trans (key_of_find? ho)
    simp only
    split_ifs with hk
    · rw [hk, ← hkey]
      exact find?_put_self (by rw [hkey]; exact ho)
    · exact find?_put_of_ne t (by rw [hkey]; exact hk)
  | none =>
    obtain ⟨t', ht'⟩ := insert?_of_forall_ne (find?_eq_none.mp ho)
    simp only [ht', Option.getD_some]
    split_ifs with hk
    · rw [hk]
      exact find?_insert?_self ht'
    · exact find?_insert?_of_ne ht' hk

/-- What all rows meet, the inserted row does and merging keeps, all rows meet after an upsert. -/
theorem forall_upsert {t : Table ρ key} {r : ρ} {merge : ρ → ρ} {P : ρ → Prop}
    (h : ∀ x ∈ t.rows, P x) (hr : P r) (hmerge : ∀ o, P o → P (merge o)) :
    ∀ x ∈ (t.upsert r merge).rows, P x := by
  intro x hx
  unfold upsert at hx
  cases ho : t.find? (key r) with
  | some o =>
    rw [ho] at hx
    rcases mem_put hx with rfl | ⟨hx, -⟩
    · exact hmerge o (h o (mem_of_find? ho))
    · exact h x hx
  | none =>
    obtain ⟨t', ht'⟩ := insert?_of_forall_ne (find?_eq_none.mp ho)
    rw [ho] at hx
    simp only [ht', Option.getD_some] at hx
    rw [(insert?_eq_some ht').1, List.mem_append, List.mem_singleton] at hx
    rcases hx with hx | rfl
    · exact h x hx
    · exact hr

theorem mem_erase {t : Table ρ key} {k : κ} {x : ρ} :
    x ∈ (t.erase k).rows ↔ x ∈ t.rows ∧ key x ≠ k := by
  unfold erase filter
  simp

theorem find?_erase_self (t : Table ρ key) (k : κ) : (t.erase k).find? k = none :=
  find?_eq_none.mpr fun _ hx => (mem_erase.mp hx).2

theorem find?_erase_of_ne (t : Table ρ key) {k k' : κ} (h : k' ≠ k) :
    (t.erase k).find? k' = t.find? k' := by
  cases hf : t.find? k' with
  | none => exact find?_eq_none.mpr fun x hx => find?_eq_none.mp hf x (mem_erase.mp hx).1
  | some r =>
    have hk := key_of_find? hf
    have hmem : r ∈ (t.erase k).rows := mem_erase.mpr ⟨mem_of_find? hf, by rw [hk]; exact h⟩
    rw [← hk]
    exact find?_of_mem hmem

/-! ## Filtered rows -/

/-- A row read by key and kept if it meets `p` is the one under that key among those meeting `p`. -/
theorem filter_find? (t : Table ρ key) (p : ρ → Bool) (k : κ) :
    (t.find? k).filter p = (t.rows.filter p).find? fun r => key r = k := by
  unfold find?
  obtain ⟨rows, hnd⟩ := t
  simp only
  induction rows with
  | nil => rfl
  | cons x xs ih =>
    rw [List.map_cons, List.nodup_cons] at hnd
    by_cases hx : key x = k
    · have hrest : (xs.filter p).find? (fun r => key r = k) = none := by
        rw [List.find?_eq_none]
        intro y hy hyk
        refine hnd.1 (List.mem_map.mpr ⟨y, List.mem_of_mem_filter hy, ?_⟩)
        rw [of_decide_eq_true hyk, hx]
      cases hp : p x <;> simp [hx, hp, hrest]
    · cases hp : p x <;> simpa [hx, hp] using ih hnd.2

/-- Rewriting a row without moving it in or out of `p`. -/
theorem filter_put {t : Table ρ key} {r o : ρ} {p : ρ → Bool} (ho : t.find? (key r) = some o)
    (hp : p o = p r) :
    (t.put r).rows.filter p = (t.rows.filter p).map fun x => if key x = key r then r else x := by
  unfold put
  rw [List.filter_map]
  congr 1
  refine List.filter_congr fun x hx => ?_
  simp only [Function.comp]
  split_ifs with hk
  · rw [t.eq_of_key_eq hx (mem_of_find? ho) (hk.trans (key_of_find? ho).symm), hp]
  · rfl

/-- Rewriting a row outside `p`. -/
theorem filter_put_of_false {t : Table ρ key} {r o : ρ} {p : ρ → Bool}
    (ho : t.find? (key r) = some o) (hold : p o = false) (hnew : p r = false) :
    (t.put r).rows.filter p = t.rows.filter p := by
  rw [filter_put ho (hold.trans hnew.symm)]
  conv_rhs => rw [← List.map_id (t.rows.filter p)]
  refine List.map_congr_left fun x hx => if_neg fun hk => ?_
  obtain ⟨hx, hpx⟩ := List.mem_filter.mp hx
  rw [t.eq_of_key_eq hx (mem_of_find? ho) (hk.trans (key_of_find? ho).symm), hold] at hpx
  exact absurd hpx Bool.false_ne_true

/-! ## Totals -/

section Total

variable {M : Type*} [AddCommMonoid M]

/-- The sum of a measure over the rows. -/
def total (g : ρ → M) (t : Table ρ key) : M := (t.rows.map g).sum

/-- The sum over the rows other than the one under `k`. -/
def totalExcept (k : κ) (g : ρ → M) (t : Table ρ key) : M :=
  t.total fun r => if key r = k then 0 else g r

omit [DecidableEq κ] in
/-- A filtered sum is the total of the measure that is zero outside the filter. -/
theorem total_ite (p : ρ → Bool) (g : ρ → M) (t : Table ρ key) :
    ((t.rows.filter p).map g).sum = t.total fun r => if p r then g r else 0 := by
  unfold total
  induction t.rows with
  | nil => rfl
  | cons x xs ih =>
    by_cases hx : p x = true
    · simp [hx, ih]
    · simp [hx, ih]

omit [DecidableEq κ] in
theorem total_congr {g g' : ρ → M} {t : Table ρ key} (h : ∀ r ∈ t.rows, g r = g' r) :
    t.total g = t.total g' := by
  unfold total
  rw [List.map_congr_left h]

/-- The total is the row under `k` and the rest. -/
theorem total_eq_add {t : Table ρ key} {k : κ} {r : ρ} (g : ρ → M) (h : t.find? k = some r) :
    t.total g = t.totalExcept k g + g r := by
  have hr := mem_of_find? h
  have hk := key_of_find? h
  clear h
  obtain ⟨rows, hnd⟩ := t
  simp only [totalExcept, total] at hr ⊢
  induction rows with
  | nil => exact absurd hr List.not_mem_nil
  | cons x xs ih =>
    simp only [List.map_cons, List.nodup_cons, List.sum_cons] at hnd ⊢
    rcases List.mem_cons.mp hr with rfl | hxs
    · have hrest : (xs.map fun y => if key y = k then 0 else g y) = xs.map g := by
        refine List.map_congr_left fun y hy => if_neg fun e => hnd.1 ?_
        rw [hk, ← e]
        exact List.mem_map_of_mem hy
      rw [hrest, if_pos hk, zero_add, add_comm]
    · have hne : key x ≠ k := fun e => hnd.1 (by rw [e, ← hk]; exact List.mem_map_of_mem hxs)
      rw [if_neg hne, ih hnd.2 hxs, add_assoc]

/-- The total over the rows of one key is that row's. -/
theorem total_ite_key {t : Table ρ key} {r : ρ} (g : ρ → M) (hr : r ∈ t.rows) :
    (t.total fun x => if key x = key r then g x else 0) = g r := by
  rw [total_eq_add _ (find?_of_mem hr), if_pos rfl]
  have hrest : t.totalExcept (key r) (fun x => if key x = key r then g x else 0) = 0 := by
    unfold totalExcept total
    refine List.sum_eq_zero fun y hy => ?_
    obtain ⟨x, -, rfl⟩ := List.mem_map.mp hy
    by_cases hx : key x = key r
    · exact if_pos hx
    · exact (if_neg hx).trans (if_neg hx)
  rw [hrest, zero_add]

theorem totalExcept_put (t : Table ρ key) (r : ρ) (g : ρ → M) :
    (t.put r).totalExcept (key r) g = t.totalExcept (key r) g := by
  unfold totalExcept total put
  rw [List.map_map]
  refine congrArg List.sum (List.map_congr_left fun x _ => ?_)
  simp only [Function.comp]
  by_cases hx : key x = key r <;> simp [hx]

/-- After a `put`, the total is the rest of the old table and the new row. -/
theorem total_put {t : Table ρ key} {r o : ρ} (g : ρ → M) (h : t.find? (key r) = some o) :
    (t.put r).total g = t.totalExcept (key r) g + g r := by
  rw [total_eq_add g (find?_put_self h), totalExcept_put]

theorem total_insert? {t t' : Table ρ key} {r : ρ} (g : ρ → M) (h : t.insert? r = some t') :
    t'.total g = t.total g + g r := by
  unfold total
  rw [(insert?_eq_some h).1, List.map_append, List.sum_append]
  simp

/-- An upsert that adds the measure of `r` to the row it merges with adds it to the total. -/
theorem total_upsert (t : Table ρ key) (r : ρ) {merge : ρ → ρ} (g : ρ → M)
    (hkey : ∀ o, key (merge o) = key o) (hg : ∀ o, key o = key r → g (merge o) = g o + g r) :
    (t.upsert r merge).total g = t.total g + g r := by
  unfold upsert
  cases ho : t.find? (key r) with
  | some o =>
    have hko := key_of_find? ho
    have hmerged : key (merge o) = key r := (hkey o).trans hko
    simp only
    rw [total_put (o := o) g (by rw [hmerged]; exact ho), hmerged, hg o hko, ← add_assoc,
      ← total_eq_add g ho]
  | none =>
    obtain ⟨t', ht'⟩ := insert?_of_forall_ne (find?_eq_none.mp ho)
    simp only [ht', Option.getD_some]
    exact total_insert? g ht'

theorem total_erase (t : Table ρ key) (k : κ) (g : ρ → M) :
    (t.erase k).total g = t.totalExcept k g := by
  unfold totalExcept erase filter
  rw [total, total_ite]
  refine total_congr fun r _ => ?_
  by_cases hr : key r = k <;> simp [hr]

end Total

section Order

variable {M : Type*} [AddCommMonoid M] [PartialOrder M] [IsOrderedAddMonoid M]

/-- Leaving a row out does not raise the total of a non-negative measure. -/
theorem totalExcept_le {t : Table ρ key} {g : ρ → M} (h : ∀ r ∈ t.rows, 0 ≤ g r) (k : κ) :
    t.totalExcept k g ≤ t.total g := by
  unfold totalExcept total
  refine List.sum_le_sum fun r hr => ?_
  split_ifs
  · exact h r hr
  · exact le_refl _

end Order

end Table

end Gateway.Lib
