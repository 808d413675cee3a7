import Udpfwd.Transition.Labelled

/-!
# Runs that come to an end

Whether a system can be brought to a goal: if from every state that is not there yet some run
leads to one with a smaller measure, then some run leads to the goal
(`exists_run_of_decreasing`). What is kept on the way may speak of the whole history.

When a system stops: if it takes steps only as long as it is to go on, and how it goes on after a
step is in the label, then it stops at the first label that says so (`Run.outcome_iff`).
-/

universe u v w

namespace LTS

variable {σ : Type u} {ℓ : Type v} {M : LTS σ ℓ}

/-- A step in a run is its last one or comes before it. -/
theorem StepIn.of_snoc {s t u : σ} {h past : List ℓ} {a b : ℓ}
    (hin : M.StepIn s (h ++ [b]) past t a u) :
    M.StepIn s h past t a u ∨ (past = h ∧ a = b) := by
  obtain ⟨future, heq, hr, hst⟩ := hin
  induction future using List.reverseRecOn with
  | nil =>
    obtain ⟨rfl, hab⟩ := List.append_inj' heq rfl
    exact .inr ⟨rfl, (List.head_eq_of_cons_eq hab).symm⟩
  | append_singleton future c _ =>
    refine .inl ⟨future, ?_, hr, hst⟩
    rw [← List.cons_append, ← List.append_assoc] at heq
    exact (List.append_inj' heq rfl).1

/-- **A system stops at the first label that makes it stop**, and with what that label says. The
predicate `I` is kept on the way. -/
theorem Run.outcome_iff {α : Type w} (I : σ → Prop) {outcome : σ → α} {next : α} {ending : ℓ → α}
    (hstep : ∀ s a t, I s → M.step s a t → I t ∧ outcome s = next ∧ outcome t = ending a)
    {s t : σ} {h : List ℓ} (hI : I s) (hnext : outcome s = next) (hr : M.Run s h t) :
    (outcome t = next ↔ ∀ a ∈ h, ending a = next) ∧
      ∀ o, o ≠ next → (outcome t = o ↔
        ∃ past a, h = past ++ [a] ∧ (∀ b ∈ past, ending b = next) ∧ ending a = o) := by
  induction hr with
  | nil =>
    refine ⟨iff_of_true hnext (List.forall_mem_nil _), fun o ho ↦ iff_of_false ?_ ?_⟩
    · rw [hnext]
      exact ho.symm
    · rintro ⟨past, a, hnil, -⟩
      exact List.append_ne_nil_of_right_ne_nil past (List.cons_ne_nil a []) hnil.symm
  | @snoc h t u a hr hst ih =>
    have hIt : I t := hr.invariant (fun _ _ _ hI hst ↦ (hstep _ _ _ hI hst).1) hI
    obtain ⟨-, hrunning, hending⟩ := hstep _ _ _ hIt hst
    have hpast := ih.1.1 hrunning
    rw [hending]
    refine ⟨?_, fun o ho ↦ ⟨fun ha ↦ ⟨h, a, rfl, hpast, ha⟩, ?_⟩⟩
    · rw [List.forall_mem_append, List.forall_mem_singleton, and_iff_right hpast]
    · rintro ⟨past, b, heq, -, hb⟩
      obtain ⟨-, hab⟩ := List.append_inj' heq rfl
      rwa [List.head_eq_of_cons_eq hab]

/-- **A measure that can be made smaller.** The predicate `J` of the history and the state is kept
on the way to the goal. -/
theorem exists_run_of_decreasing (J : List ℓ → σ → Prop) (goal : σ → Prop) (μ : σ → ℕ)
    (hstep : ∀ h s, J h s → ¬goal s → ∃ h' t, M.Run s h' t ∧ J (h ++ h') t ∧ μ t < μ s)
    {h : List ℓ} {s : σ} (hJ : J h s) : ∃ h' t, M.Run s h' t ∧ J (h ++ h') t ∧ goal t := by
  induction hn : μ s using Nat.strongRecOn generalizing h s with
  | ind n ih =>
    by_cases hgoal : goal s
    · exact ⟨[], s, .nil, by rwa [List.append_nil], hgoal⟩
    obtain ⟨h₁, t, hr₁, hJ₁, hlt⟩ := hstep h s hJ hgoal
    obtain ⟨h₂, u, hr₂, hJ₂, hu⟩ := ih (μ t) (hn ▸ hlt) hJ₁ rfl
    exact ⟨h₁ ++ h₂, u, hr₁.append hr₂, by rwa [← List.append_assoc], hu⟩

end LTS
