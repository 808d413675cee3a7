import Udpfwd.Transition.Trace

/-!
# Unwinding: two runs an observer cannot tell apart

An observer of a transition system sees some of its steps. `input` says what the observer
feeds into a step, or that the step is hidden from it; `output` says what the observer gets
out of a visible step. What it sees of a run is a trace of the history (`Observer.inputs`,
`Observer.outputs`).

The **unwinding theorem** `Unwinding.run` reduces noninterference to three step conditions on a
relation between states: a hidden step on either side keeps it, and two visible steps with the
same input keep it and give the same output. Then any two runs with the same inputs, however
many hidden steps either of them takes and wherever it takes them, end in related states and
give the same outputs. The induction is on runs that carry what is seen (`ObservedRun`).
-/

universe u v w

namespace LTS

variable {σ : Type u} {ℓ : Type v} {ι ω : Type w}

/-- What an observer of a transition system sees of a step from a given state. -/
structure Observer (σ : Type u) (ℓ : Type v) (ι ω : Type w) where
  /-- What goes into the step, or `none` when the step is hidden from the observer. -/
  input : σ → ℓ → Option ι
  /-- What comes out of the step, when it is visible. -/
  output : σ → ℓ → List ω

/-- What goes into the visible steps of a history from `s`. -/
def Observer.inputs (o : Observer σ ℓ ι ω) (next : σ → ℓ → σ) (s : σ) (h : List ℓ) : List ι :=
  trace next (fun t a ↦ (o.input t a).toList) s h

/-- What comes out of the visible steps of a history from `s`. -/
def Observer.outputs (o : Observer σ ℓ ι ω) (next : σ → ℓ → σ) (s : σ) (h : List ℓ) : List ω :=
  trace next (fun t a ↦ if (o.input t a).isSome then o.output t a else []) s h

/-- A run from `s`, with the inputs and the outputs that the observer `o` sees. -/
inductive ObservedRun (M : LTS σ ℓ) (o : Observer σ ℓ ι ω) (s : σ) :
    List ι → List ω → σ → Prop
  | nil : ObservedRun M o s [] [] s
  | hidden {is : List ι} {os : List ω} {t u : σ} {a : ℓ} :
      ObservedRun M o s is os t → M.step t a u → o.input t a = none →
        ObservedRun M o s is os u
  | visible {is : List ι} {os : List ω} {t u : σ} {a : ℓ} {i : ι} :
      ObservedRun M o s is os t → M.step t a u → o.input t a = some i →
        ObservedRun M o s (is ++ [i]) (os ++ o.output t a) u

/-- The step conditions under which the observer cannot tell related states apart. -/
structure Unwinding (M : LTS σ ℓ) (o : Observer σ ℓ ι ω) (R : σ → σ → Prop) : Prop where
  /-- A hidden step of the first system keeps the relation. -/
  hidden_left : ∀ {t t' a u}, R t t' → M.step t a u → o.input t a = none → R u t'
  /-- A hidden step of the second system keeps the relation. -/
  hidden_right : ∀ {t t' a u'}, R t t' → M.step t' a u' → o.input t' a = none → R t u'
  /-- Visible steps with the same input keep the relation and have the same output. -/
  visible : ∀ {t t' a a' u u' i}, R t t' → M.step t a u → M.step t' a' u' →
    o.input t a = some i → o.input t' a' = some i →
      R u u' ∧ o.output t a = o.output t' a'

variable {M : LTS σ ℓ} {o : Observer σ ℓ ι ω} {R : σ → σ → Prop} {next : σ → ℓ → σ}
variable {s s' t t' : σ} {h h' : List ℓ} {is : List ι} {os os' : List ω}

/-- Every run is an observed run, with what its history shows. -/
theorem Run.observedRun (hM : M.Follows next) (hr : M.Run s h t) (o : Observer σ ℓ ι ω) :
    M.ObservedRun o s (o.inputs next s h) (o.outputs next s h) t := by
  induction hr with
  | nil => exact .nil
  | @snoc h t u a hr hst ih =>
    rw [Observer.inputs, Observer.outputs, hr.trace_snoc hM, hr.trace_snoc hM]
    rcases hi : o.input t a with - | i
    · rw [Option.toList_none, Option.isSome_none, if_neg Bool.false_ne_true, List.append_nil,
        List.append_nil]
      exact ih.hidden hst hi
    · rw [Option.toList_some, Option.isSome_some, if_pos rfl]
      exact ih.visible hst hi

namespace Unwinding

/-- An observed run with no inputs took hidden steps only. -/
private theorem related_of_nil (hR : M.Unwinding o R) (hs : R s s')
    (ho : M.ObservedRun o s' is os t') (his : is = []) : R s t' ∧ os = [] := by
  induction ho with
  | nil => exact ⟨hs, rfl⟩
  | hidden _ hst hi ih => exact ⟨hR.hidden_right (ih his).1 hst hi, (ih his).2⟩
  | visible => simp at his

/-- From related states, two observed runs with the same inputs end in related states and give
the same outputs. -/
theorem observedRun (hR : M.Unwinding o R) (hs : R s s')
    (ho : M.ObservedRun o s is os t) (ho' : M.ObservedRun o s' is os' t') :
    R t t' ∧ os = os' := by
  induction ho generalizing os' t' with
  | nil =>
    obtain ⟨hR', hos⟩ := hR.related_of_nil hs ho' rfl
    exact ⟨hR', hos.symm⟩
  | hidden _ hst hi ih =>
    obtain ⟨hR', hos⟩ := ih ho'
    exact ⟨hR.hidden_left hR' hst hi, hos⟩
  | @visible is os t u a i _ hst hi ih =>
    -- strip the hidden steps that the second run takes after its last visible one
    generalize his : is ++ [i] = is' at ho'
    induction ho' with
    | nil => simp at his
    | hidden _ hst' hi' ih' =>
      obtain ⟨hR', hos⟩ := ih' his
      exact ⟨hR.hidden_right hR' hst' hi', hos⟩
    | visible ho'' hst' hi' _ =>
      obtain ⟨rfl, hii⟩ := List.append_inj' his rfl
      obtain rfl := List.head_eq_of_cons_eq hii
      obtain ⟨hR', rfl⟩ := ih ho''
      obtain ⟨hR'', hout⟩ := hR.visible hR' hst hst' hi hi'
      exact ⟨hR'', by rw [hout]⟩

/-- **The unwinding theorem.** From related states, two runs with the same inputs end in
related states and give the same outputs. -/
theorem run (hR : M.Unwinding o R) (hM : M.Follows next) (hs : R s s') (hr : M.Run s h t)
    (hr' : M.Run s' h' t') (hin : o.inputs next s h = o.inputs next s' h') :
    R t t' ∧ o.outputs next s h = o.outputs next s' h' := by
  have ho := hr.observedRun hM o
  rw [hin] at ho
  exact hR.observedRun hs ho (hr'.observedRun hM o)

end Unwinding

end LTS
