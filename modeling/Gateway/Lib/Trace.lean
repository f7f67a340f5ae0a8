import Mathlib.Tactic.TypeStar

/-!
# Runs of a deterministic step function, and what holds along them

A system is a step function `σ → ι → σ`; whatever its environment decides (the answer of a
remote call, which task runs next, a random choice) is part of the step's input `ι`, so a run is
just the list of inputs. `Along G s is` says that every step of the run meets `G` in the state it
is taken from, and `run_inv` is the rule every safety result of the development goes through: what
the start has and each step meeting `G` preserves, every reached state has.
-/

namespace Gateway.Lib

variable {σ ι : Type*} (step : σ → ι → σ)

/-- The state after the steps `is`, taken in order from `s`. -/
def run (s : σ) (is : List ι) : σ := is.foldl step s

@[simp] theorem run_nil (s : σ) : run step s [] = s := rfl

@[simp] theorem run_cons (s : σ) (i : ι) (is : List ι) :
    run step s (i :: is) = run step (step s i) is := rfl

theorem run_append (s : σ) (is js : List ι) :
    run step s (is ++ js) = run step (run step s is) js := List.foldl_append ..

/-- Every step of the run from `s` meets `G` in the state it is taken from. -/
def Along (G : σ → ι → Prop) : σ → List ι → Prop
  | _, [] => True
  | s, i :: is => G s i ∧ Along G (step s i) is

instance decidableAlong {G : σ → ι → Prop} [∀ s i, Decidable (G s i)] :
    ∀ (s : σ) (is : List ι), Decidable (Along step G s is)
  | _, [] => inferInstanceAs (Decidable True)
  | s, i :: is =>
    @instDecidableAnd _ _ _ (decidableAlong (step s i) is)

variable {step}

/-- **The invariant rule.** What each step meeting `G` preserves holds in every state a run of
such steps reaches. -/
theorem run_inv {P : σ → Prop} {G : σ → ι → Prop}
    (hstep : ∀ s i, P s → G s i → P (step s i)) :
    ∀ (is : List ι) {s : σ}, P s → Along step G s is → P (run step s is) := by
  intro is
  induction is with
  | nil =>
    intro _ h _
    exact h
  | cons i is ih =>
    intro _ h hG
    exact ih (hstep _ i h hG.1) hG.2

/-- The states such a run goes through have it too. -/
theorem along_inv {P : σ → Prop} {G : σ → ι → Prop}
    (hstep : ∀ s i, P s → G s i → P (step s i)) :
    ∀ (is : List ι) {s : σ}, P s → Along step G s is → Along step (fun s _ => P s) s is := by
  intro is
  induction is with
  | nil =>
    intro _ _ _
    trivial
  | cons i is ih =>
    intro _ h hG
    exact ⟨h, ih (hstep _ i h hG.1) hG.2⟩

/-- What every step preserves holds in every state a run reaches. -/
theorem run_preserves {P : σ → Prop} (hstep : ∀ s i, P s → P (step s i)) :
    ∀ (is : List ι) {s : σ}, P s → P (run step s is) := by
  intro is
  induction is with
  | nil =>
    intro _ h
    exact h
  | cons i is ih =>
    intro _ h
    exact ih (hstep _ i h)

/-- A condition on the inputs alone holds along every run made of such inputs. -/
theorem along_of_forall {P : ι → Prop} :
    ∀ (is : List ι) (s : σ), (∀ i ∈ is, P i) → Along step (fun _ i => P i) s is := by
  intro is
  induction is with
  | nil =>
    intro _ _
    trivial
  | cons i is ih =>
    intro s h
    exact ⟨h i List.mem_cons_self,
      ih (step s i) fun j hj => h j (List.mem_cons_of_mem i hj)⟩

/-- Where each step keeps `P` exactly when it meets `G`, the states of a run all have `P` exactly
when its steps all meet `G`. -/
theorem along_iff {P : σ → Prop} {G : σ → ι → Prop}
    (hstep : ∀ s i, P s → (P (step s i) ↔ G s i)) :
    ∀ (is : List ι) {s : σ}, P s →
      (Along step (fun s i => P (step s i)) s is ↔ Along step G s is) := by
  intro is
  induction is with
  | nil =>
    intro _ _
    exact Iff.rfl
  | cons i is ih =>
    intro s h
    constructor
    · rintro ⟨hP, hrest⟩
      exact ⟨(hstep s i h).mp hP, (ih hP).mp hrest⟩
    · rintro ⟨hG, hrest⟩
      have hP := (hstep s i h).mpr hG
      exact ⟨hP, (ih hP).mpr hrest⟩

/-- A weaker condition holds along the same runs. -/
theorem Along.mono {G H : σ → ι → Prop} :
    ∀ (is : List ι) {s : σ}, Along step G s is → (∀ s i, G s i → H s i) → Along step H s is := by
  intro is
  induction is with
  | nil =>
    intro _ _ _
    trivial
  | cons _ is ih =>
    intro _ hG hle
    exact ⟨hle _ _ hG.1, ih hG.2 hle⟩

/-- A run with one more step. -/
theorem along_concat {G : σ → ι → Prop} {is : List ι} {i : ι} {s : σ} :
    Along step G s (is ++ [i]) ↔ Along step G s is ∧ G (run step s is) i := by
  induction is generalizing s with
  | nil => exact ⟨fun h => ⟨trivial, h.1⟩, fun h => ⟨h.2, trivial⟩⟩
  | cons j is ih =>
    constructor
    · rintro ⟨hj, hrest⟩
      obtain ⟨his, hi⟩ := ih.mp hrest
      exact ⟨⟨hj, his⟩, hi⟩
    · rintro ⟨⟨hj, his⟩, hi⟩
      exact ⟨hj, ih.mpr ⟨his, hi⟩⟩

/-- A step more. -/
theorem run_concat (s : σ) (is : List ι) (i : ι) :
    run step s (is ++ [i]) = step (run step s is) i := by
  rw [run_append]
  rfl

/-- **What a run brings about, one of its steps does.** -/
theorem exists_crossing {P : σ → Prop} {s : σ} {is : List ι} (hstart : ¬ P s)
    (hend : P (run step s is)) : ∃ before i after, is = before ++ i :: after ∧
      ¬ P (run step s before) ∧ P (step (run step s before) i) := by
  induction is generalizing s with
  | nil => exact absurd hend hstart
  | cons i is ih =>
    by_cases hi : P (step s i)
    · exact ⟨[], i, is, rfl, hstart, hi⟩
    · obtain ⟨before, j, after, rfl, hbefore, hafter⟩ := ih hi hend
      exact ⟨i :: before, j, after, rfl, hbefore, hafter⟩

/-- What the steps of a run put out, in order. -/
def emitted {α : Type*} (step : σ → ι → σ) (out : σ → ι → List α) : σ → List ι → List α
  | _, [] => []
  | s, i :: is => out s i ++ emitted step out (step s i) is

theorem emitted_concat {α : Type*} (out : σ → ι → List α) (is : List ι) (i : ι) :
    ∀ s : σ, emitted step out s (is ++ [i]) = emitted step out s is ++ out (run step s is) i := by
  induction is with
  | nil =>
    intro s
    exact List.append_nil _
  | cons j is ih =>
    intro s
    show out s j ++ emitted step out (step s j) (is ++ [i]) = _
    rw [ih, ← List.append_assoc]
    rfl

/-- What steps meeting `G` put out, a run of such steps does. -/
theorem forall_emitted {α : Type*} {out : σ → ι → List α} {G : σ → ι → Prop} {P : α → Prop}
    (h : ∀ s i, G s i → ∀ x ∈ out s i, P x) :
    ∀ (is : List ι) {s : σ}, Along step G s is → ∀ x ∈ emitted step out s is, P x := by
  intro is
  induction is with
  | nil =>
    intro _ _ x hx
    exact absurd hx List.not_mem_nil
  | cons i is ih =>
    intro s hG x hx
    rcases List.mem_append.mp hx with hx | hx
    · exact h s i hG.1 x hx
    · exact ih hG.2 x hx

/-- **The rule for what is put out.** What every step meeting `G` keeps of a state and a value, when
the value goes through what the step puts out, a run of such steps keeps. -/
theorem run_emitted {α β : Type*} {out : σ → ι → List α} {G : σ → ι → Prop} (f : β → α → β)
    {P : β → σ → Prop} (hstep : ∀ b s i, P b s → G s i → P ((out s i).foldl f b) (step s i)) :
    ∀ (is : List ι) {b : β} {s : σ}, P b s → Along step G s is →
      P ((emitted step out s is).foldl f b) (run step s is) := by
  intro is
  induction is with
  | nil =>
    intro _ _ h _
    exact h
  | cons i is ih =>
    intro b s h hG
    unfold emitted
    rw [List.foldl_append]
    exact ih (hstep b s i h hG.1) hG.2

/-- What is read off the inputs bounds what is put out. -/
theorem map_emitted_sublist {α β : Type*} {out : σ → ι → List α} {f : α → β} {g : ι → Option β}
    (h : ∀ s i, ((out s i).map f).Sublist (g i).toList) :
    ∀ (is : List ι) (s : σ), ((emitted step out s is).map f).Sublist (is.filterMap g) := by
  intro is
  induction is with
  | nil =>
    intro _
    exact List.Sublist.refl []
  | cons i is ih =>
    intro s
    have hhead := h s i
    have htail := ih (step s i)
    unfold emitted
    rw [List.map_append, List.filterMap_cons]
    cases hg : g i with
    | none =>
      rw [hg] at hhead
      rw [List.sublist_nil.mp hhead]
      exact htail
    | some x =>
      rw [hg] at hhead
      exact hhead.append htail

/-- Two conditions that hold along a run hold along it together. -/
theorem Along.and {G H : σ → ι → Prop} :
    ∀ (is : List ι) {s : σ}, Along step G s is → Along step H s is →
      Along step (fun s i => G s i ∧ H s i) s is := by
  intro is
  induction is with
  | nil =>
    intro _ _ _
    trivial
  | cons _ is ih =>
    intro _ hG hH
    exact ⟨⟨hG.1, hH.1⟩, ih hG.2 hH.2⟩

end Gateway.Lib
