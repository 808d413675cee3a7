import Mathlib.Data.List.Forall2
import Udpfwd.Transition.Labelled

/-!
# Forward simulation

A system `M` is simulated by a system `N` when every step of `M` from a related state is
matched by a run of `N` to a related state. The run may be empty, or take several steps; which
histories of `N` match a label of `M` is a relation `Matches`, so what the two systems show to
the outside is compared label by label (`Simulation.run`).
-/

universe u v w x

/-- An element of a list has a partner in a list that is related to it entry by entry. -/
theorem List.Forall₂.exists_left {α : Type u} {β : Type v} {R : α → β → Prop} {l : List α}
    {l' : List β} (h : List.Forall₂ R l l') {b : β} (hb : b ∈ l') : ∃ a ∈ l, R a b := by
  induction h with
  | nil => exact absurd hb List.not_mem_nil
  | cons hab _ ih =>
    rcases List.mem_cons.1 hb with rfl | hb
    · exact ⟨_, List.mem_cons_self, hab⟩
    · obtain ⟨a, ha, hab'⟩ := ih hb
      exact ⟨a, List.mem_cons_of_mem _ ha, hab'⟩

namespace LTS

variable {σ : Type u} {ℓ : Type v} {τ : Type w} {κ : Type x}

/-- `N` simulates `M` along `R`: a step of `M` with the label `a` is matched by a run of `N`
whose history matches `a`. -/
structure Simulation (M : LTS σ ℓ) (N : LTS τ κ) (R : σ → τ → Prop)
    (Matches : ℓ → List κ → Prop) : Prop where
  step : ∀ {s t a s'}, R s t → M.step s a s' →
    ∃ es t', Matches a es ∧ N.Run t es t' ∧ R s' t'

namespace Simulation

variable {M : LTS σ ℓ} {N : LTS τ κ} {R : σ → τ → Prop} {Matches : ℓ → List κ → Prop}
variable {s s' : σ} {t : τ} {h : List ℓ}

/-- **Runs are simulated**, label by label. -/
theorem run (hsim : Simulation M N R Matches) (hst : R s t) (hr : M.Run s h s') :
    ∃ ess t', List.Forall₂ Matches h ess ∧ N.Run t ess.flatten t' ∧ R s' t' := by
  induction hr with
  | nil => exact ⟨[], t, .nil, .nil, hst⟩
  | snoc _ hstep ih =>
    obtain ⟨ess, u, hmatches, hrun, hR⟩ := ih
    obtain ⟨es, u', hmatches', hrun', hR'⟩ := hsim.step hR hstep
    refine ⟨ess ++ [es], u', List.rel_append hmatches (.cons hmatches' .nil), ?_, hR'⟩
    rw [List.flatten_append, List.flatten_singleton]
    exact hrun.append hrun'

/-- What a matched history shows is what the labels show, if it is so for every label. -/
theorem flatMap_eq {β : Type*} {f : ℓ → List β} {g : κ → List β}
    (hshow : ∀ a es, Matches a es → es.flatMap g = f a) {ess : List (List κ)}
    (hmatches : List.Forall₂ Matches h ess) : ess.flatten.flatMap g = h.flatMap f := by
  induction hmatches with
  | nil => rfl
  | cons hfirst _ ih =>
    rw [List.flatten_cons, List.flatMap_append, ih, hshow _ _ hfirst, List.flatMap_cons]

/-- Every event of a matched history belongs to a label. -/
theorem exists_of_mem_flatten {ess : List (List κ)} (hmatches : List.Forall₂ Matches h ess)
    {e : κ} (he : e ∈ ess.flatten) : ∃ a ∈ h, ∃ es, Matches a es ∧ e ∈ es := by
  obtain ⟨es, hes, he⟩ := List.mem_flatten.1 he
  obtain ⟨a, ha, hmatch⟩ := hmatches.exists_left hes
  exact ⟨a, ha, es, hmatch, he⟩

end Simulation

end LTS
