import Mathlib.Data.Set.Card

/-!
# Counting parties

How many parties of a system are in a state with a property, when a step changes the state of
one party at a time: it enters the property, leaves it, or stays where it is. There may be
infinitely many parties, so the count is an extended natural number; the lemmas are sums, which
need no cancellation.
-/

universe u v

variable {ι : Type u} {σ : Type v}

/-- The number of parties whose state satisfies `P`. -/
noncomputable def census (P : σ → Prop) (f : ι → σ) : ℕ∞ :=
  {i | P (f i)}.encard

namespace census

variable {P : σ → Prop} {f : ι → σ}

theorem eq_zero (h : ∀ i, ¬P (f i)) : census P f = 0 := by
  rw [census, Set.encard_eq_zero, Set.eq_empty_iff_forall_notMem]
  exact h

theorem ne_zero_iff : census P f ≠ 0 ↔ ∃ i, P (f i) := by
  rw [census, Set.encard_ne_zero]
  rfl

variable [DecidableEq ι] {i : ι} {s : σ}

theorem enter (hbefore : ¬P (f i)) (hafter : P s) :
    census P (Function.update f i s) = census P f + 1 := by
  rw [census, census, ← Set.encard_insert_of_notMem (a := i) hbefore]
  congr 1
  ext j
  by_cases hj : j = i
  · subst hj
    simp [hafter]
  · simp [hj]

theorem leave (hbefore : P (f i)) (hafter : ¬P s) :
    census P (Function.update f i s) + 1 = census P f := by
  have hback := enter (P := P) (f := Function.update f i s) (i := i) (s := f i)
    (by rwa [Function.update_self]) hbefore
  rw [Function.update_idem, Function.update_eq_self] at hback
  exact hback.symm

theorem stay (h : P s ↔ P (f i)) : census P (Function.update f i s) = census P f := by
  rw [census, census]
  congr 1
  ext j
  by_cases hj : j = i
  · subst hj
    simpa using h
  · simp [hj]

end census
