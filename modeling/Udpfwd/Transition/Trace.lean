import Udpfwd.Transition.Labelled

/-!
# What a history shows

When the state after a step is a function of the state before it and of the label
(`LTS.Follows`), a history determines the states that a run with it goes through. Whatever the
steps show, each in the state it starts in, can then be read off the history alone:
`LTS.trace` is the list of it, and `Run.trace_append` says that it grows with the run.
-/

universe u v w

namespace LTS

variable {σ : Type u} {ℓ : Type v} {β : Type w} {M : LTS σ ℓ} {next : σ → ℓ → σ}

/-- Every step leads to the state that `next` gives. -/
def Follows (M : LTS σ ℓ) (next : σ → ℓ → σ) : Prop :=
  ∀ ⦃s a t⦄, M.step s a t → next s a = t

/-- What the steps of a history show, from the state `s` on, when `f` is what one step shows. -/
def trace (next : σ → ℓ → σ) (f : σ → ℓ → List β) : σ → List ℓ → List β
  | _, [] => []
  | s, a :: h => f s a ++ trace next f (next s a) h

section Traces

variable {f : σ → ℓ → List β} {s t : σ} {h : List ℓ}

/-- The state that a run reaches is determined by its history. -/
theorem Run.foldl_eq (hM : M.Follows next) (hr : M.Run s h t) : h.foldl next s = t := by
  induction hr with
  | nil => rfl
  | snoc _ hst ih =>
    rw [List.foldl_append, ih]
    exact hM hst

/-- The trace of a history that goes on from where another one ends. -/
theorem trace_append (next : σ → ℓ → σ) (f : σ → ℓ → List β) (s : σ) (h h' : List ℓ) :
    trace next f s (h ++ h') = trace next f s h ++ trace next f (h.foldl next s) h' := by
  induction h generalizing s with
  | nil => rfl
  | cons a h ih =>
    rw [List.cons_append, trace, trace, ih, List.append_assoc]
    rfl

/-- The trace grows with the run. -/
theorem Run.trace_append (hM : M.Follows next) (hr : M.Run s h t) (f : σ → ℓ → List β)
    (h' : List ℓ) : trace next f s (h ++ h') = trace next f s h ++ trace next f t h' := by
  rw [LTS.trace_append, hr.foldl_eq hM]

/-- One more step shows one thing more. -/
theorem Run.trace_snoc (hM : M.Follows next) (hr : M.Run s h t) (f : σ → ℓ → List β) (a : ℓ) :
    trace next f s (h ++ [a]) = trace next f s h ++ f t a := by
  rw [hr.trace_append hM, trace, trace, List.append_nil]

end Traces

end LTS
