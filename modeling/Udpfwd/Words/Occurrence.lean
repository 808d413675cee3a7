import Mathlib.Data.List.Infix

/-!
# Occurrences of a word

Where a word `d` stands in a word `s`, and the way through `s` from one occurrence to the next
that does not overlap with it. The occurrences that are met on this way are the **leftmost
non-overlapping** ones (`Leftmost`); their positions are determined by `d` and `s`, and there are
finitely many of them unless `d` is empty.

* `find` — the first position of `d` in `s`;
* `OccursAt.take_append_append_drop` — an occurrence cuts `s` into what is before it, `d` and what
  is after it;
* `Leftmost.unique` — there is one way through `s`.
-/

namespace Words

variable {α : Type*}

/-- The word `d` stands in `s` at the position `i`. -/
def OccursAt (d s : List α) (i : ℕ) : Prop := i ≤ s.length ∧ d <+: s.drop i

instance [DecidableEq α] (d s : List α) (i : ℕ) : Decidable (OccursAt d s i) :=
  inferInstanceAs (Decidable (_ ∧ _))

/-- The first position of `d` in `s`. -/
def find [DecidableEq α] (s d : List α) : Option ℕ :=
  (List.range (s.length + 1)).find? fun i ↦ OccursAt d s i

/-- The positions, from `start` on, of the leftmost non-overlapping occurrences of `d` in `s`:
each is the first that does not begin before the end of the one before. -/
inductive Leftmost (d s : List α) : ℕ → List ℕ → Prop
  | nil {start : ℕ} (hnone : ∀ i, start ≤ i → ¬OccursAt d s i) : Leftmost d s start []
  | cons {start i : ℕ} {is : List ℕ} (hle : start ≤ i) (hocc : OccursAt d s i)
      (hfirst : ∀ j, start ≤ j → j < i → ¬OccursAt d s j)
      (hrest : Leftmost d s (i + d.length) is) : Leftmost d s start (i :: is)

/-- What follows the last of the occurrences of `d` in `s` that begin at `is`; if there is none,
what follows `start`. -/
def afterLast (d s : List α) (start : ℕ) (is : List ℕ) : List α :=
  match is.getLast? with
  | none => s.drop start
  | some i => s.drop (i + d.length)

section OccursAt

variable {d s : List α} {i k n : ℕ}

/-- The empty word stands at the beginning of every word. -/
theorem occursAt_nil_zero (s : List α) : OccursAt [] s 0 :=
  ⟨Nat.zero_le _, List.nil_prefix⟩

theorem OccursAt.add_length_le (h : OccursAt d s i) : i + d.length ≤ s.length := by
  obtain ⟨hi, hd⟩ := h
  have hlength := hd.length_le
  rw [List.length_drop] at hlength
  omega

/-- An occurrence cuts the word into three parts. -/
theorem OccursAt.take_append_append_drop (h : OccursAt d s i) :
    s.take i ++ (d ++ s.drop (i + d.length)) = s := by
  obtain ⟨-, t, ht⟩ := h
  have hrest : s.drop (i + d.length) = t := by
    rw [← List.drop_drop, ← ht, List.drop_left]
  rw [hrest, ht, List.take_append_drop]

/-- The occurrences behind the position `k`, seen from there. -/
theorem occursAt_drop (hk : k ≤ s.length) : OccursAt d (s.drop k) i ↔ OccursAt d s (k + i) := by
  rw [OccursAt, OccursAt, List.drop_drop, List.length_drop]
  exact and_congr_left fun _ ↦ by omega

theorem OccursAt.of_take (h : OccursAt d (s.take n) i) : OccursAt d s i := by
  obtain ⟨hi, hd⟩ := h
  rw [List.length_take] at hi
  refine ⟨by omega, hd.trans ?_⟩
  rw [List.drop_take]
  exact List.take_prefix _ _

/-- A word is part of another if it stands in it anywhere. -/
theorem infix_iff_exists_occursAt : d <:+: s ↔ ∃ i, OccursAt d s i := by
  constructor
  · rintro ⟨u, v, rfl⟩
    refine ⟨u.length, by simp, v, ?_⟩
    rw [List.append_assoc, List.drop_left]
  · rintro ⟨i, h⟩
    refine ⟨s.take i, s.drop (i + d.length), ?_⟩
    rw [List.append_assoc, h.take_append_append_drop]

/-- Before the end of its first occurrence the word stands nowhere else. -/
theorem not_infix_take (hd : d ≠ []) (hfirst : ∀ j < i, ¬OccursAt d s j) : ¬d <:+: s.take i := by
  rw [infix_iff_exists_occursAt]
  rintro ⟨j, hj⟩
  have hend := hj.add_length_le
  have hpos := List.length_pos_of_ne_nil hd
  rw [List.length_take] at hend
  exact hfirst j (by omega) hj.of_take

end OccursAt

section Find

variable [DecidableEq α] {s d : List α} {i : ℕ}

theorem find_eq_some_iff :
    find s d = some i ↔ OccursAt d s i ∧ ∀ j < i, ¬OccursAt d s j := by
  rw [find, List.find?_range_eq_some]
  simp only [decide_eq_true_eq, Bool.not_eq_true', decide_eq_false_iff_not, List.mem_range]
  constructor
  · rintro ⟨hocc, -, hfirst⟩
    exact ⟨hocc, hfirst⟩
  · rintro ⟨hocc, hfirst⟩
    exact ⟨hocc, Nat.lt_succ_of_le hocc.1, hfirst⟩

theorem find_eq_none_iff : find s d = none ↔ ∀ i, ¬OccursAt d s i := by
  rw [find, List.find?_range_eq_none]
  simp only [Bool.not_eq_true', decide_eq_false_iff_not]
  exact ⟨fun h i hi ↦ h i (Nat.lt_succ_of_le hi.1) hi, fun h i _ ↦ h i⟩

/-- The empty word is found at once. -/
theorem find_nil (s : List α) : find s [] = some 0 :=
  find_eq_some_iff.2 ⟨occursAt_nil_zero s, nofun⟩

end Find

/-! ### The way through a word -/

namespace Leftmost

variable {d s : List α} {start : ℕ} {is js : List ℕ}

/-- The leftmost non-overlapping occurrences are determined. -/
theorem unique (his : Leftmost d s start is) (hjs : Leftmost d s start js) : is = js := by
  induction his generalizing js with
  | nil hnone =>
    cases hjs with
    | nil => rfl
    | cons hle hocc => exact absurd hocc (hnone _ hle)
  | @cons start i is hle hocc hfirst _ ih =>
    cases hjs with
    | nil hnone => exact absurd hocc (hnone _ hle)
    | @cons _ j js hle' hocc' hfirst' hrest =>
      obtain hlt | rfl | hlt := Nat.lt_trichotomy i j
      · exact absurd hocc (hfirst' i hle hlt)
      · rw [ih hrest]
      · exact absurd hocc' (hfirst j hle' hlt)

/-- The next occurrence, found in what is left of the word. -/
theorem cons_find [DecidableEq α] {pos : ℕ} (hstart : start ≤ s.length)
    (hfind : find (s.drop start) d = some pos)
    (hrest : Leftmost d s (start + pos + d.length) is) :
    Leftmost d s start ((start + pos) :: is) := by
  obtain ⟨hocc, hfirst⟩ := find_eq_some_iff.1 hfind
  refine .cons (Nat.le_add_right _ _) ((occursAt_drop hstart).1 hocc) (fun j hle hlt hj ↦ ?_) hrest
  obtain ⟨k, rfl⟩ := Nat.exists_eq_add_of_le hle
  exact hfirst k (by omega) ((occursAt_drop hstart).2 hj)

/-- There is no further occurrence in what is left of the word. -/
theorem nil_find [DecidableEq α] (hstart : start ≤ s.length)
    (hfind : find (s.drop start) d = none) : Leftmost d s start [] := by
  refine .nil fun j hle hj ↦ ?_
  obtain ⟨k, rfl⟩ := Nat.exists_eq_add_of_le hle
  exact find_eq_none_iff.1 hfind k ((occursAt_drop hstart).2 hj)

end Leftmost

theorem afterLast_cons (d s : List α) (start i : ℕ) (is : List ℕ) :
    afterLast d s start (i :: is) = afterLast d s (i + d.length) is := by
  rw [afterLast, afterLast, List.getLast?_cons]
  rcases is.getLast? with - | j <;> rfl

end Words
