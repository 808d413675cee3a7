import Mathlib.Data.List.Induction

/-!
# Labelled transition systems and their finite runs

A labelled transition system is a step relation between states whose labels record what a
step saw and did. A **run** carries the list of its labels, the *history*, oldest first; it
is built from the right, so that an invariant which speaks of the history is proved by
looking at the last step only.

* `Run.invariant` — a predicate preserved by every step holds along every run;
* `Run.historyInvariant` — the same for a predicate of the history and the state, where the
  step may be assumed to leave a state that a run has reached;
* `Run.append`, `Run.split` — runs compose and decompose along their histories.
-/

universe u v

/-- A labelled transition system on the states `σ` with labels `ℓ`. -/
structure LTS (σ : Type u) (ℓ : Type v) where
  /-- The system can move from one state to another, doing what the label records. -/
  step : σ → ℓ → σ → Prop

namespace LTS

variable {σ : Type u} {ℓ : Type v} {M : LTS σ ℓ}

/-- A finite run from `s`: its history, oldest label first, and the state it ends in. -/
inductive Run (M : LTS σ ℓ) (s : σ) : List ℓ → σ → Prop
  | nil : Run M s [] s
  | snoc {h : List ℓ} {t u : σ} {a : ℓ} :
      Run M s h t → M.step t a u → Run M s (h ++ [a]) u

namespace Run

variable {s t u : σ} {h h₁ h₂ : List ℓ} {a : ℓ}

theorem single (hst : M.step s a t) : M.Run s [a] t :=
  Run.nil.snoc hst

/-- Runs compose. -/
theorem append (hr₁ : M.Run s h₁ t) (hr₂ : M.Run t h₂ u) : M.Run s (h₁ ++ h₂) u := by
  induction hr₂ with
  | nil => rwa [List.append_nil]
  | snoc _ hst ih =>
    rw [← List.append_assoc]
    exact ih.snoc hst

theorem cons (hst : M.step s a t) (hr : M.Run t h u) : M.Run s (a :: h) u :=
  (single hst).append hr

/-- The run with no labels stays where it is. -/
theorem eq_of_nil (hr : M.Run s [] t) : s = t := by
  generalize hh : ([] : List ℓ) = h at hr
  cases hr with
  | nil => rfl
  | snoc => simp at hh

/-- A run that ends with the label `a` ends with a step that `a` labels. -/
theorem exists_of_snoc (hr : M.Run s (h ++ [a]) u) :
    ∃ t, M.Run s h t ∧ M.step t a u := by
  generalize hh : h ++ [a] = h' at hr
  cases hr with
  | nil => simp at hh
  | snoc hr' hst =>
    obtain ⟨rfl, hab⟩ := List.append_inj' hh rfl
    obtain rfl := List.head_eq_of_cons_eq hab
    exact ⟨_, hr', hst⟩

/-- Runs decompose along their histories. -/
theorem split (hr : M.Run s (h₁ ++ h₂) u) : ∃ t, M.Run s h₁ t ∧ M.Run t h₂ u := by
  induction h₂ using List.reverseRecOn generalizing u with
  | nil =>
    rw [List.append_nil] at hr
    exact ⟨u, hr, .nil⟩
  | append_singleton h₂ a ih =>
    rw [← List.append_assoc] at hr
    obtain ⟨v, hv, hst⟩ := exists_of_snoc hr
    obtain ⟨t, ht₁, ht₂⟩ := ih hv
    exact ⟨t, ht₁, ht₂.snoc hst⟩

/-- A run whose history starts with `a` starts with a step that `a` labels. -/
theorem exists_of_cons (hr : M.Run s (a :: h) u) :
    ∃ t, M.step s a t ∧ M.Run t h u := by
  have hsingle : M.Run s ([a] ++ h) u := hr
  obtain ⟨t, ht, hr'⟩ := split hsingle
  obtain ⟨s', hs', hst⟩ := exists_of_snoc (show M.Run s ([] ++ [a]) t from ht)
  obtain rfl := eq_of_nil hs'
  exact ⟨t, hst, hr'⟩

/-! ### Invariants -/

/-- **Invariant induction.** What every step preserves holds in every state a run reaches. -/
theorem invariant {I : σ → Prop} (hstep : ∀ t a u, I t → M.step t a u → I u)
    (h₀ : I s) (hr : M.Run s h t) : I t := by
  induction hr with
  | nil => exact h₀
  | snoc _ hst ih => exact hstep _ _ _ ih hst

/-- **History induction.** A predicate of the history and the state that holds at the start
and is kept when a step is appended holds along every run. -/
theorem historyInvariant {J : List ℓ → σ → Prop} (h₀ : J [] s)
    (hstep : ∀ h t a u, M.Run s h t → J h t → M.step t a u → J (h ++ [a]) u)
    (hr : M.Run s h t) : J h t := by
  induction hr with
  | nil => exact h₀
  | snoc hr' hst ih => exact hstep _ _ _ _ hr' ih hst

end Run

/-! ### The steps of a run -/

/-- In a run with the history `h` from `s`, the step from `t` to `u` comes after `past`. -/
def StepIn (M : LTS σ ℓ) (s : σ) (h past : List ℓ) (t : σ) (a : ℓ) (u : σ) : Prop :=
  ∃ future, h = past ++ a :: future ∧ M.Run s past t ∧ M.step t a u

namespace StepIn

variable {s t u : σ} {h h' past : List ℓ} {a : ℓ}

theorem past_run (hin : M.StepIn s h past t a u) : M.Run s past t := by
  obtain ⟨-, -, hr, -⟩ := hin
  exact hr

theorem step (hin : M.StepIn s h past t a u) : M.step t a u := by
  obtain ⟨-, -, -, hst⟩ := hin
  exact hst

theorem run (hin : M.StepIn s h past t a u) : M.Run s (past ++ [a]) u :=
  hin.past_run.snoc hin.step

theorem append (hin : M.StepIn s h past t a u) : M.StepIn s (h ++ h') past t a u := by
  obtain ⟨future, rfl, hr, hst⟩ := hin
  exact ⟨future ++ h', by simp, hr, hst⟩

theorem last (hr : M.Run s past t) (hst : M.step t a u) :
    M.StepIn s (past ++ [a]) past t a u :=
  ⟨[], rfl, hr, hst⟩

/-- The history up to a step and with it is part of the history. -/
theorem exists_append (hin : M.StepIn s h past t a u) : ∃ future, h = past ++ [a] ++ future := by
  obtain ⟨future, rfl, -, -⟩ := hin
  exact ⟨future, by simp⟩

end StepIn

end LTS
