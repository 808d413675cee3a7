import Udpfwd.Transition.Labelled

/-!
# Auxiliary variables

A transition system can be given an auxiliary variable: a value that every step updates, and
that no step looks at. How often something was done in a run is then a value of the state,
and relating it to the rest of the state is an ordinary invariant. Nothing is lost: every run
can be instrumented (`Run.exists_instrumented`).
-/

universe u v w

namespace LTS

variable {σ : Type u} {ℓ : Type v} {β : Type w} {M : LTS σ ℓ} {update : σ → ℓ → σ → β → β}

/-- The system with an auxiliary variable, which a step updates as `update` says. -/
def instrumented (M : LTS σ ℓ) (update : σ → ℓ → σ → β → β) : LTS (σ × β) ℓ where
  step p a q := M.step p.1 a q.1 ∧ q.2 = update p.1 a q.1 p.2

theorem instrumented_step {s t : σ} {a : ℓ} (hst : M.step s a t) (b : β) :
    (M.instrumented update).step (s, b) a (t, update s a t b) :=
  ⟨hst, rfl⟩

/-- Every run can be instrumented. -/
theorem Run.exists_instrumented {s t : σ} {h : List ℓ} (hr : M.Run s h t) (b : β) :
    ∃ b', (M.instrumented update).Run (s, b) h (t, b') := by
  induction hr with
  | nil => exact ⟨b, .nil⟩
  | snoc _ hst ih =>
    obtain ⟨b', hr'⟩ := ih
    exact ⟨_, hr'.snoc (instrumented_step hst b')⟩

end LTS
