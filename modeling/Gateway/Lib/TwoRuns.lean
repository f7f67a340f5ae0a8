import Mathlib.Data.List.Forall2
import Gateway.Lib.Trace

/-!
# Two runs side by side

Here a step also answers. `answers` lists what a run answers, `exists_of_mem_answers` is what each
of the answers meets, and `answers_eq` is the rule for hyperproperties of two runs: when states
stay related as long as the inputs are, and related states answer related inputs alike, the two
runs answer alike. The two systems may differ. `run_filterMap` is the rule for a system that
contains another one: what the rest of it does, the contained one does not see.
-/

namespace Gateway.Lib

variable {σ τ ι κ α : Type*}

/-- The state a step leaves. -/
def leaves (act : σ → ι → α × σ) (s : σ) (i : ι) : σ := (act s i).2

/-- The answers of a run, in order. -/
def answers (act : σ → ι → α × σ) : σ → List ι → List α
  | _, [] => []
  | s, i :: is => (act s i).1 :: answers act (leaves act s i) is

variable {f : σ → ι → α × σ} {g : τ → κ → α × τ}

/-- What every step meeting `G` answers, each answer of a run of such steps is. -/
theorem exists_of_mem_answers {P : ι → α → Prop} {G : σ → ι → Prop}
    (h : ∀ s i, G s i → P i (f s i).1) :
    ∀ (is : List ι) {s : σ}, Along (leaves f) G s is → ∀ x ∈ answers f s is, ∃ i ∈ is, P i x := by
  intro is
  induction is with
  | nil =>
    intro _ _ x hx
    exact absurd hx List.not_mem_nil
  | cons i is ih =>
    intro s hG x hx
    rcases List.mem_cons.mp hx with rfl | hx
    · exact ⟨i, List.mem_cons_self, h s i hG.1⟩
    · obtain ⟨j, hj, hP⟩ := ih hG.2 x hx
      exact ⟨j, List.mem_cons_of_mem i hj, hP⟩

/-- **The rule for two runs.** Related inputs, taken in related states and meeting the conditions
`G` and `H` there, get the same answers and leave related states. -/
theorem answers_eq {R : σ → τ → Prop} {Q : ι → κ → Prop} {G : σ → ι → Prop} {H : τ → κ → Prop}
    (hstep : ∀ s t i j, R s t → Q i j → G s i → H t j →
      (f s i).1 = (g t j).1 ∧ R (f s i).2 (g t j).2)
    {is : List ι} {js : List κ} (hin : List.Forall₂ Q is js) :
    ∀ {s : σ} {t : τ}, R s t → Along (leaves f) G s is → Along (leaves g) H t js →
      answers f s is = answers g t js ∧ R (run (leaves f) s is) (run (leaves g) t js) := by
  induction hin with
  | nil => exact fun hR _ _ => ⟨rfl, hR⟩
  | cons hij _ ih =>
    intro s t hR hG hH
    obtain ⟨hans, hR'⟩ := hstep s t _ _ hR hij hG.1 hH.1
    obtain ⟨hrest, hend⟩ := ih hR' hG.2 hH.2
    refine ⟨?_, hend⟩
    unfold answers
    rw [hans]
    exact congrArg _ hrest

/-- **The rule for a part of a system.** When the inputs `p` keeps do to the view what the smaller
system does and the others leave it, a run looks like the smaller system's run of the inputs kept.
-/
theorem run_filterMap {step : σ → ι → σ} {part : τ → κ → τ} (view : σ → τ) {p : ι → Option κ}
    (hstep : ∀ s i, view (step s i) = (p i).elim (view s) (part (view s))) :
    ∀ (is : List ι) (s : σ), view (run step s is) = run part (view s) (is.filterMap p) := by
  intro is
  induction is with
  | nil =>
    intro _
    rfl
  | cons i is ih =>
    intro s
    rw [run_cons, ih, hstep, List.filterMap_cons]
    cases p i with
    | none => rfl
    | some k => rfl

end Gateway.Lib
