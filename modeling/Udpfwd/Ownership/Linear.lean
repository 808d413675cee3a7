import Mathlib.Logic.Function.Basic
import Mathlib.Order.BooleanAlgebra.Set

/-!
# Linear ownership

Items are handed from holder to holder: `holds i a` says that the holder `i` has the item `a`.
Ownership is **linear** when every live item has exactly one holder and nothing else is held.

* `Ownership.Change` — what a step may do to the holdings: bring in a fresh item, move an item,
  drop an item, or leave everything where it is;
* `Linear.change` — every such step keeps ownership linear;
* `update_some_eq_some`, `update_none_eq_some` — filling and emptying a cell.
-/

universe u v

variable {ι : Type u} {α : Type v}

/-- Every live item has exactly one holder, and only live items are held. -/
structure Linear (live : Set α) (holds : ι → α → Prop) : Prop where
  live_of_holds : ∀ {i a}, holds i a → a ∈ live
  exists_holder : ∀ {a}, a ∈ live → ∃ i, holds i a
  holder_unique : ∀ {i j a}, holds i a → holds j a → i = j

namespace Ownership

/-- The ways in which one step can change who holds what. -/
inductive Change (live : Set α) (holds : ι → α → Prop) : Set α → (ι → α → Prop) → Prop
  /-- Nothing changes hands. -/
  | same {holds' : ι → α → Prop} (h : ∀ k c, holds' k c ↔ holds k c) :
      Change live holds live holds'
  /-- The holder `i` gets an item that did not exist before. -/
  | acquire {holds' : ι → α → Prop} (i : ι) (a : α) (hfresh : a ∉ live)
      (h : ∀ k c, holds' k c ↔ holds k c ∨ (k = i ∧ c = a)) :
      Change live holds (insert a live) holds'
  /-- The holder `i` hands an item to `j`. -/
  | move {holds' : ι → α → Prop} (i j : ι) (a : α) (hheld : holds i a)
      (h : ∀ k c, holds' k c ↔ (holds k c ∧ ¬(k = i ∧ c = a)) ∨ (k = j ∧ c = a)) :
      Change live holds live holds'
  /-- The holder `i` destroys an item. -/
  | release {holds' : ι → α → Prop} (i : ι) (a : α) (hheld : holds i a)
      (h : ∀ k c, holds' k c ↔ holds k c ∧ ¬(k = i ∧ c = a)) :
      Change live holds (live \ {a}) holds'

/-! ### Cells

A cell holds at most one item: a family of cells is a function to `Option α`.
-/

section Cells

variable [DecidableEq ι] {cell : ι → Option α} {i k : ι} {a c : α}

/-- What the cells hold after an empty one is filled. -/
theorem update_some_eq_some (hi : cell i = none) :
    Function.update cell i (some a) k = some c ↔ cell k = some c ∨ (k = i ∧ c = a) := by
  by_cases hk : k = i
  · subst hk
    rw [Function.update_self, hi, Option.some_inj]
    simp [eq_comm]
  · simp [hk]

/-- What the cells hold after one is emptied. -/
theorem update_none_eq_some (hi : cell i = some a) :
    Function.update cell i none k = some c ↔ cell k = some c ∧ ¬(k = i ∧ c = a) := by
  by_cases hk : k = i
  · subst hk
    rw [Function.update_self, hi, Option.some_inj]
    simp [eq_comm]
  · simp [hk]

end Cells

end Ownership

namespace Linear

variable {live live' : Set α} {holds holds' : ι → α → Prop}

/-- Nothing is held when nothing is live. -/
theorem empty (h : ∀ i a, ¬holds i a) : Linear (∅ : Set α) holds where
  live_of_holds hi := absurd hi (h _ _)
  exists_holder ha := absurd ha (Set.notMem_empty _)
  holder_unique hi := absurd hi (h _ _)

/-- A live item is held by exactly one holder. -/
theorem existsUnique (hl : Linear live holds) {a : α} (ha : a ∈ live) : ∃! i, holds i a := by
  obtain ⟨i, hi⟩ := hl.exists_holder ha
  exact ⟨i, hi, fun j hj ↦ hl.holder_unique hj hi⟩

theorem congr (hl : Linear live holds) (h : ∀ k c, holds' k c ↔ holds k c) :
    Linear live holds' := by
  obtain rfl : holds' = holds := funext₂ fun k c ↦ propext (h k c)
  exact hl

theorem acquire (hl : Linear live holds) {i : ι} {a : α} (hfresh : a ∉ live)
    (h : ∀ k c, holds' k c ↔ holds k c ∨ (k = i ∧ c = a)) :
    Linear (insert a live) holds' where
  live_of_holds {k c} hk := by
    rcases (h k c).1 hk with hk | ⟨-, rfl⟩
    · exact Set.mem_insert_of_mem a (hl.live_of_holds hk)
    · exact Set.mem_insert c live
  exists_holder {c} hc := by
    rcases hc with rfl | hc
    · exact ⟨i, (h i c).2 (.inr ⟨rfl, rfl⟩)⟩
    · obtain ⟨k, hk⟩ := hl.exists_holder hc
      exact ⟨k, (h k c).2 (.inl hk)⟩
  holder_unique {k m c} hk hm := by
    rcases (h k c).1 hk with hk | ⟨rfl, rfl⟩ <;> rcases (h m c).1 hm with hm | ⟨rfl, hc⟩
    · exact hl.holder_unique hk hm
    · exact absurd (hc ▸ hl.live_of_holds hk) hfresh
    · exact absurd (hl.live_of_holds hm) hfresh
    · rfl

theorem release (hl : Linear live holds) {i : ι} {a : α} (hheld : holds i a)
    (h : ∀ k c, holds' k c ↔ holds k c ∧ ¬(k = i ∧ c = a)) :
    Linear (live \ {a}) holds' where
  live_of_holds {k c} hk := by
    obtain ⟨hk, hne⟩ := (h k c).1 hk
    refine ⟨hl.live_of_holds hk, ?_⟩
    rintro rfl
    exact hne ⟨hl.holder_unique hk hheld, rfl⟩
  exists_holder {c} hc := by
    obtain ⟨k, hk⟩ := hl.exists_holder hc.1
    exact ⟨k, (h k c).2 ⟨hk, fun hne ↦ hc.2 hne.2⟩⟩
  holder_unique {k m c} hk hm := hl.holder_unique ((h k c).1 hk).1 ((h m c).1 hm).1

/-- A move is a release followed by an acquisition of the same item. -/
theorem move (hl : Linear live holds) {i j : ι} {a : α} (hheld : holds i a)
    (h : ∀ k c, holds' k c ↔ (holds k c ∧ ¬(k = i ∧ c = a)) ∨ (k = j ∧ c = a)) :
    Linear live holds' := by
  have hdropped : Linear (live \ {a}) fun k c ↦ holds k c ∧ ¬(k = i ∧ c = a) :=
    hl.release hheld fun _ _ ↦ Iff.rfl
  have hback := hdropped.acquire (fun ha ↦ ha.2 rfl) h
  rwa [Set.insert_sdiff_self_of_mem (hl.live_of_holds hheld)] at hback

/-- **Every change of hands keeps ownership linear.** -/
theorem change (hl : Linear live holds) (hc : Ownership.Change live holds live' holds') :
    Linear live' holds' := by
  cases hc with
  | same h => exact hl.congr h
  | acquire i a hfresh h => exact hl.acquire hfresh h
  | move i j a hheld h => exact hl.move hheld h
  | release i a hheld h => exact hl.release hheld h

end Linear
