import Gateway.Lib.Table

/-!
# Unique columns and foreign keys

The two constraints a schema puts on its tables besides primary keys, as properties of `Table`s,
and what each write needs to keep them. `UniqueOn t col`: two rows with the same value of `col` are
the same row, a missing value (`none`) being equal to nothing. `References t fk parents`: every row
of `t` has its parent. `KeepsKeys` says that no key of a table is lost, which is all the rows that
refer to it need.
-/

namespace Gateway.Lib

variable {ρ κ β : Type*} {key : ρ → κ}

/-! ## Unique columns -/

/-- A unique column; `none` is a missing value. -/
def UniqueOn (t : Table ρ key) (col : ρ → Option β) : Prop :=
  ∀ x ∈ t.rows, ∀ y ∈ t.rows, (col x).isSome → col x = col y → key x = key y

namespace UniqueOn

variable {t t' : Table ρ key} {col : ρ → Option β} {r o : ρ}

/-- Fewer rows. -/
theorem of_subset (h : UniqueOn t col) (hsub : ∀ x ∈ t'.rows, x ∈ t.rows) : UniqueOn t' col :=
  fun x hx y hy => h x (hsub x hx) y (hsub y hy)

variable [DecidableEq κ]

/-- A row whose value no other row has is overwritten. -/
theorem put (h : UniqueOn t col)
    (hfree : ∀ y ∈ t.rows, key y ≠ key r → (col r).isSome → col r ≠ col y) :
    UniqueOn (t.put r) col := by
  intro x hx y hy hsome hsame
  rcases Table.mem_put hx with rfl | ⟨hxt, hxr⟩
  · rcases Table.mem_put hy with rfl | ⟨hyt, hyr⟩
    · rfl
    · exact absurd hsame (hfree y hyt hyr hsome)
  · rcases Table.mem_put hy with rfl | ⟨hyt, -⟩
    · exact absurd hsame.symm (hfree x hxt hxr (hsame ▸ hsome))
    · exact h x hxt y hyt hsome hsame

/-- A row is overwritten by one with the same value. -/
theorem put_same (h : UniqueOn t col) (ho : t.find? (key r) = some o) (hcol : col r = col o) :
    UniqueOn (t.put r) col := by
  refine h.put fun y hy hne hsome hsame => hne ?_
  rw [hcol] at hsome hsame
  have hkey := h o (Table.mem_of_find? ho) y hy hsome hsame
  exact hkey.symm.trans (Table.key_of_find? ho)

/-- A row with a new value is inserted. -/
theorem insert? (h : UniqueOn t col) (hins : t.insert? r = some t')
    (hfree : ∀ y ∈ t.rows, (col r).isSome → col r ≠ col y) : UniqueOn t' col := by
  intro x hx y hy hsome hsame
  rw [(Table.insert?_eq_some hins).1] at hx hy
  rcases List.mem_append.mp hx with hxt | hxr
  · rcases List.mem_append.mp hy with hyt | hyr
    · exact h x hxt y hyt hsome hsame
    · obtain rfl := List.mem_singleton.mp hyr
      exact absurd hsame.symm (hfree x hxt (hsame ▸ hsome))
  · obtain rfl := List.mem_singleton.mp hxr
    rcases List.mem_append.mp hy with hyt | hyr
    · exact absurd hsame (hfree y hyt hsome)
    · exact congrArg key (List.mem_singleton.mp hyr).symm

end UniqueOn

/-! ## Foreign keys -/

variable {ρ' κ' : Type*} {key' : ρ' → κ'} [DecidableEq κ] [DecidableEq κ']

/-- Every row has its parent. -/
def References (t : Table ρ key) (fk : ρ → κ') (parents : Table ρ' key') : Prop :=
  ∀ x ∈ t.rows, ∃ p, parents.find? (fk x) = some p

/-- No key is lost. -/
def KeepsKeys (t t' : Table ρ key) : Prop :=
  ∀ k r, t.find? k = some r → ∃ r', t'.find? k = some r'

namespace KeepsKeys

variable {t t' : Table ρ key} {r : ρ}

theorem refl (t : Table ρ key) : KeepsKeys t t := fun _ r h => ⟨r, h⟩

theorem put (t : Table ρ key) (r : ρ) : KeepsKeys t (t.put r) := by
  intro k o ho
  by_cases hk : k = key r
  · subst hk
    exact ⟨r, Table.find?_put_self ho⟩
  · exact ⟨o, (Table.find?_put_of_ne t hk).trans ho⟩

theorem insert? (hins : t.insert? r = some t') : KeepsKeys t t' := by
  intro k o ho
  by_cases hk : k = key r
  · subst hk
    exact ⟨r, Table.find?_insert?_self hins⟩
  · exact ⟨o, (Table.find?_insert?_of_ne hins hk).trans ho⟩

end KeepsKeys

namespace References

variable {t t' : Table ρ key} {fk : ρ → κ'} {parents parents' : Table ρ' key'} {r o : ρ}

omit [DecidableEq κ] in
/-- The parents change but stay. -/
theorem of_keepsKeys (h : References t fk parents) (hkeep : KeepsKeys parents parents') :
    References t fk parents' := by
  intro x hx
  obtain ⟨p, hp⟩ := h x hx
  exact hkeep (fk x) p hp

omit [DecidableEq κ] in
/-- Fewer rows. -/
theorem of_subset (h : References t fk parents) (hsub : ∀ x ∈ t'.rows, x ∈ t.rows) :
    References t' fk parents := fun x hx => h x (hsub x hx)

/-- A row is overwritten by one with the same parent. -/
theorem put (h : References t fk parents) (ho : t.find? (key r) = some o) (hfk : fk r = fk o) :
    References (t.put r) fk parents := by
  intro x hx
  rcases Table.mem_put hx with rfl | ⟨hx, -⟩
  · rw [hfk]
    exact h o (Table.mem_of_find? ho)
  · exact h x hx

/-- A row is inserted whose parent is there. -/
theorem insert? (h : References t fk parents) (hins : t.insert? r = some t')
    (hparent : ∃ p, parents.find? (fk r) = some p) : References t' fk parents := by
  intro x hx
  rw [(Table.insert?_eq_some hins).1] at hx
  rcases List.mem_append.mp hx with hx | hx
  · exact h x hx
  · obtain rfl := List.mem_singleton.mp hx
    exact hparent

omit [DecidableEq κ] in
/-- A parent goes with the rows that refer to it (`ON DELETE CASCADE`). -/
theorem cascade (h : References t fk parents) (k : κ') :
    References (t.filter fun x => fk x ≠ k) fk (parents.erase k) := by
  intro x hx
  obtain ⟨hx, hne⟩ := List.mem_filter.mp hx
  obtain ⟨p, hp⟩ := h x hx
  exact ⟨p, (Table.find?_erase_of_ne parents (by simpa using hne)).trans hp⟩

end References

end Gateway.Lib
