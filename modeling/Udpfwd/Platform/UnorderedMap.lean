import Mathlib.Data.Finmap

/-!
# Hash maps

A `std::unordered_map` is a finite map here; nothing that the workers look up depends on the
order of its buckets. What Mathlib's `Finmap` has no name for is the insertion that leaves an
entry alone which is already there.
-/

section TryEmplace

variable {κ ν : Type} [DecidableEq κ] {m : Finmap fun _ : κ ↦ ν} {key key' : κ} {value value' : ν}

/-- The entries after an insertion. -/
theorem lookup_insert_eq_some_iff :
    (m.insert key value).lookup key' = some value' ↔
      key' = key ∧ value = value' ∨ key' ≠ key ∧ m.lookup key' = some value' := by
  rcases eq_or_ne key' key with rfl | hne
  · simp [Finmap.lookup_insert]
  · simp [Finmap.lookup_insert_of_ne _ hne, hne]

/-- `try_emplace` and `emplace`: an entry that is there stays. -/
def tryEmplace (m : Finmap fun _ : κ ↦ ν) (key : κ) (value : ν) : Finmap fun _ : κ ↦ ν :=
  if key ∈ m then m else m.insert key value

theorem tryEmplace_of_notMem (h : key ∉ m) : tryEmplace m key value = m.insert key value :=
  if_neg h

theorem tryEmplace_of_lookup_eq_none (h : m.lookup key = none) :
    tryEmplace m key value = m.insert key value :=
  tryEmplace_of_notMem (Finmap.lookup_eq_none.1 h)

/-- The entries after two insertions of the same value. -/
theorem lookup_tryEmplace_tryEmplace {key₁ key₂ : κ} (h₁ : key₁ ∉ m) (h₂ : key₂ ∉ m)
    (hne : key₂ ≠ key₁) (key : κ) :
    (tryEmplace (tryEmplace m key₁ value) key₂ value).lookup key =
      if key = key₁ ∨ key = key₂ then some value else m.lookup key := by
  have h₂' : key₂ ∉ m.insert key₁ value := by
    rw [Finmap.mem_insert, not_or]
    exact ⟨hne, h₂⟩
  rw [tryEmplace_of_notMem h₁, tryEmplace_of_notMem h₂']
  rcases eq_or_ne key key₂ with rfl | hkey₂
  · simp
  rw [Finmap.lookup_insert_of_ne _ hkey₂]
  rcases eq_or_ne key key₁ with rfl | hkey₁
  · simp
  rw [Finmap.lookup_insert_of_ne _ hkey₁, if_neg (by simp [hkey₁, hkey₂])]

end TryEmplace
