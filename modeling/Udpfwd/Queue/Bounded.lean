import Mathlib.Data.Nat.Count
import Mathlib.Data.Nat.ModEq
import Mathlib.Logic.Function.Basic
import Udpfwd.Transition.Labelled

/-!
# Bounded queues and their rings

A queue that holds at most `capacity` elements: one that is put into it when it is full is not
kept. What has been taken out and what is in the queue, in this order, is what has been kept
(`kept_eq_taken_append`), so the elements leave in the order in which they came.

A ring of `n` slots with the indices `head` and `tail` can hold `n - 1` elements and still tell an
empty ring from a full one. `Ring` says which elements a ring holds; each of the two ways to move
an index is an operation of the queue.
-/

namespace BoundedQueue

variable {α : Type*}

/-- An operation of a queue, with what it tells its caller. -/
inductive Op (α : Type*)
  /-- The first element is taken out, if there is one. -/
  | get (result : Option α)
  /-- An element is put at the end, if there is room. -/
  | put (a : α) (kept : Bool)

/-- A queue for `capacity` elements, the first to leave at the head of the list. -/
def boundedQueue (α : Type*) (capacity : ℕ) : LTS (List α) (Op α) where
  step
    | q, .get result, q' => result = q.head? ∧ q' = q.tail
    | q, .put a kept, q' =>
      kept = decide (q.length < capacity) ∧ q' = if q.length < capacity then q ++ [a] else q

/-- The element that an operation takes out. -/
def Op.taken : Op α → Option α
  | .get result => result
  | .put _ _ => none

/-- The element that an operation puts into the queue. -/
def Op.kept : Op α → Option α
  | .get _ => none
  | .put a kept => if kept then some a else none

section Queue

variable {capacity : ℕ} {ops : List (Op α)} {q : List α}

theorem length_le (hr : (boundedQueue α capacity).Run [] ops q) : q.length ≤ capacity := by
  refine hr.invariant (I := fun q ↦ q.length ≤ capacity) (fun q op q' hle hst ↦ ?_)
    (Nat.zero_le _)
  cases op with
  | get result =>
    obtain ⟨-, rfl⟩ := hst
    rw [List.length_tail]
    omega
  | put a kept =>
    obtain ⟨-, rfl⟩ := hst
    split
    · next hroom =>
      rw [List.length_append]
      exact hroom
    · exact hle

/-- **First in, first out.** What has been kept is what has been taken out and what is there. -/
theorem kept_eq_taken_append (hr : (boundedQueue α capacity).Run [] ops q) :
    ops.filterMap Op.kept = ops.filterMap Op.taken ++ q := by
  refine hr.historyInvariant (J := fun ops q ↦
    ops.filterMap Op.kept = ops.filterMap Op.taken ++ q) rfl fun ops q op q' _ ih hst ↦ ?_
  rw [List.filterMap_append, List.filterMap_append, ih]
  cases op with
  | get result =>
    obtain ⟨rfl, rfl⟩ := hst
    rcases q with - | ⟨a, q⟩
    · rfl
    · simp [Op.kept, Op.taken]
  | put a kept =>
    obtain ⟨rfl, rfl⟩ := hst
    split
    · next hroom => simp [Op.kept, Op.taken, hroom]
    · next hroom => simp [Op.kept, Op.taken, hroom]

end Queue

/-! ### Rings -/

/-- The ring of `n` slots holds the elements of `q` from the slot `head` on, and `tail` is the slot
behind them. The other slots are empty. -/
structure Ring (n : ℕ) (slots : ℕ → Option α) (head tail : ℕ) (q : List α) : Prop where
  length_lt : q.length < n
  head_lt : head < n
  tail_eq : tail = (head + q.length) % n
  slot_eq : ∀ i < n, slots ((head + i) % n) = q[i]?

section Ring

variable {n head tail i j : ℕ} {slots : ℕ → Option α} {q : List α} {a : α}

/-- Within a turn of the ring no slot is met twice. -/
theorem slot_inj (hi : i < n) (hj : j < n) : (head + i) % n = (head + j) % n ↔ i = j := by
  constructor
  · intro h
    have hmod : i ≡ j [MOD n] := Nat.ModEq.add_left_cancel' head h
    rwa [Nat.ModEq, Nat.mod_eq_of_lt hi, Nat.mod_eq_of_lt hj] at hmod
  · rintro rfl
    rfl

/-- Among the first `m` numbers, one from `head` on falls on the slot `(head + i) % n` exactly if
`head + i` is among them. -/
theorem count_slot_lt_iff {m : ℕ} (hi : i < n) :
    Nat.count (fun k ↦ k % n = (head + i) % n) head <
      Nat.count (fun k ↦ k % n = (head + i) % n) m ↔ head + i < m := by
  constructor
  · intro hlt
    by_contra hge
    rcases Nat.lt_or_ge m head with hmhead | hmhead
    · exact absurd (Nat.count_monotone _ hmhead.le) (Nat.not_le.2 hlt)
    obtain ⟨d, rfl⟩ := Nat.exists_eq_add_of_le hmhead
    have hnone : Nat.count (fun k ↦ (head + k) % n = (head + i) % n) d = 0 :=
      Nat.count_of_forall_not fun k hk heq ↦ by
        have hki := (slot_inj (by omega) hi).1 heq
        omega
    rw [Nat.count_add, hnone] at hlt
    exact absurd hlt (Nat.lt_irrefl _)
  · intro hlt
    exact (Nat.count_monotone _ (Nat.le_add_right head i)).trans_lt (Nat.count_strict_mono rfl hlt)

/-- Within a turn from `head` on, a slot is met at most once. -/
theorem count_slot_le {m s : ℕ} (hm : m ≤ head + n) :
    Nat.count (fun k ↦ k % n = s) m ≤ Nat.count (fun k ↦ k % n = s) head + 1 := by
  refine (Nat.count_monotone _ hm).trans ?_
  rw [Nat.count_add, Nat.count_eq_card_filter_range _ n]
  refine Nat.add_le_add_left (Finset.card_le_one.2 fun i hi j hj ↦ ?_) _
  obtain ⟨hi, hsi⟩ := Finset.mem_filter.1 hi
  obtain ⟨hj, hsj⟩ := Finset.mem_filter.1 hj
  exact (slot_inj (Finset.mem_range.1 hi) (Finset.mem_range.1 hj)).1 (hsi.trans hsj.symm)

namespace Ring

/-- Slots that hold elements up to `tail`, and none behind it, are a ring. -/
theorem exists_of_slots {m : ℕ} (hm : m < n) (hhead : head < n) (htail : tail = (head + m) % n)
    (hslots : ∀ i < n, (slots ((head + i) % n)).isSome ↔ i < m) :
    ∃ q, q.length = m ∧ Ring n slots head tail q := by
  refine ⟨List.ofFn fun i : Fin m ↦
    (slots ((head + i) % n)).get ((hslots i (i.2.trans hm)).2 i.2), List.length_ofFn, ?_⟩
  refine ⟨by rwa [List.length_ofFn], hhead, by rwa [List.length_ofFn], fun i hi ↦ ?_⟩
  by_cases hfilled : i < m
  · rw [List.getElem?_eq_getElem (by rwa [List.length_ofFn]), List.getElem_ofFn, Option.some_get]
  · rw [List.getElem?_eq_none (by rw [List.length_ofFn]; omega), ← Option.not_isSome_iff_eq_none]
    exact mt (hslots i hi).1 hfilled

theorem init (hn : 0 < n) : Ring n (fun _ ↦ (none : Option α)) 0 0 [] where
  length_lt := hn
  head_lt := hn
  tail_eq := (Nat.zero_mod n).symm
  slot_eq _ _ := rfl

theorem tail_lt (h : Ring n slots head tail q) : tail < n := by
  rw [h.tail_eq]
  exact Nat.mod_lt _ (Nat.zero_lt_of_lt h.head_lt)

/-- The indices say how many elements there are. -/
theorem length_eq (h : Ring n slots head tail q) : (tail + n - head) % n = q.length := by
  have hhead := h.head_lt
  have hcancel : head + (tail + n - head) ≡ head + q.length [MOD n] := by
    rw [show head + (tail + n - head) = tail + n by omega, h.tail_eq]
    exact (Nat.add_mod_right _ n).trans (Nat.mod_mod _ n)
  have hmod := Nat.ModEq.add_left_cancel' head hcancel
  rwa [Nat.ModEq, Nat.mod_eq_of_lt h.length_lt] at hmod

theorem head_slot (h : Ring n slots head tail q) : slots head = q.head? := by
  have hslot := h.slot_eq 0 (Nat.zero_lt_of_lt h.head_lt)
  rwa [Nat.add_zero, Nat.mod_eq_of_lt h.head_lt, ← List.head?_eq_getElem?] at hslot

theorem tail_slot (h : Ring n slots head tail q) : slots tail = none := by
  rw [h.tail_eq, h.slot_eq _ h.length_lt]
  exact List.getElem?_eq_none (Nat.le_refl _)

/-- The indices meet if the ring is empty. -/
theorem head_eq_tail_iff (h : Ring n slots head tail q) : head = tail ↔ q = [] := by
  have hpos := Nat.zero_lt_of_lt h.head_lt
  rw [h.tail_eq, ← List.length_eq_zero_iff]
  conv_lhs => lhs; rw [← Nat.mod_eq_of_lt h.head_lt, ← Nat.add_zero head]
  rw [slot_inj hpos h.length_lt, eq_comm]

/-- The indices would meet again if the last free slot were used. -/
theorem tail_succ_eq_head_iff (h : Ring n slots head tail q) :
    (tail + 1) % n = head ↔ q.length + 1 = n := by
  have hpos := Nat.zero_lt_of_lt h.head_lt
  have htail : (tail + 1) % n = (head + (q.length + 1)) % n := by
    rw [h.tail_eq, Nat.mod_add_mod, Nat.add_assoc]
  rw [htail]
  conv_lhs => rhs; rw [← Nat.mod_eq_of_lt h.head_lt]
  constructor
  · intro hmeet
    have hlength := h.length_lt
    by_contra hne
    have hzero := (slot_inj (show q.length + 1 < n by omega) hpos).1 hmeet
    omega
  · intro hfull
    rw [hfull, Nat.add_mod_right]

/-- **The element at `head` leaves.** -/
theorem get (h : Ring n slots head tail (a :: q)) :
    Ring n (Function.update slots head none) ((head + 1) % n) tail q := by
  have hlength := h.length_lt
  rw [List.length_cons] at hlength
  have hpos := Nat.zero_lt_of_lt h.head_lt
  have hshift : ∀ i, ((head + 1) % n + i) % n = (head + (i + 1)) % n := fun i ↦ by
    rw [Nat.mod_add_mod, Nat.add_assoc, Nat.add_comm 1]
  refine ⟨by omega, Nat.mod_lt _ hpos, ?_, fun i hi ↦ ?_⟩
  · rw [h.tail_eq, hshift, List.length_cons]
  rw [hshift]
  rcases Nat.lt_or_ge (i + 1) n with hturn | hturn
  · have hne : (head + (i + 1)) % n ≠ head := by
      conv_rhs => rw [← Nat.mod_eq_of_lt h.head_lt, ← Nat.add_zero head]
      rw [Ne, slot_inj hturn hpos]
      omega
    rw [Function.update_of_ne hne, h.slot_eq _ hturn, List.getElem?_cons_succ]
  · -- the ring has been gone round, and the slot is the one that was emptied
    have hself : (head + (i + 1)) % n = head := by
      rw [show i + 1 = n by omega, Nat.add_mod_right, Nat.mod_eq_of_lt h.head_lt]
    rw [hself, Function.update_self, List.getElem?_eq_none (by omega)]

/-- **An element comes in at `tail`**, while it leaves a slot free. -/
theorem put (h : Ring n slots head tail q) (hroom : q.length + 1 < n) :
    Ring n (Function.update slots tail (some a)) head ((tail + 1) % n) (q ++ [a]) := by
  refine ⟨by simpa using hroom, h.head_lt, ?_, fun i hi ↦ ?_⟩
  · rw [h.tail_eq, Nat.mod_add_mod, List.length_append, List.length_singleton, Nat.add_assoc]
  by_cases hlast : i = q.length
  · rw [hlast, ← h.tail_eq, Function.update_self, List.getElem?_concat_length]
  · have hne : (head + i) % n ≠ tail := by
      rw [h.tail_eq, Ne, slot_inj hi h.length_lt]
      exact hlast
    rw [Function.update_of_ne hne, h.slot_eq i hi]
    rcases Nat.lt_or_ge i q.length with hlt | hge
    · rw [List.getElem?_append_left hlt]
    · rw [List.getElem?_eq_none hge, List.getElem?_eq_none (by simp; omega)]

end Ring

end Ring

end BoundedQueue
