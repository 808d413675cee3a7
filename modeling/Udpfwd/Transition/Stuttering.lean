import Udpfwd.Transition.Labelled

/-!
# Stuttering

A step stutters if it leaves the state as it is. Stuttering steps can be put into a run and
taken out of it: what is left is a run to the same state (`Run.interleave`,
`Run.deinterleave`). The histories of the two runs are related by `Interleaved`, which keeps
apart the labels that were put in.
-/

universe u v

variable {α β : Type u}

/-- `whole` consists of the elements of `kept` and those of `extra`, both in their order.
Behind the last element of `kept` there is an element of `extra` only if `atEnd`. -/
inductive Interleaved (atEnd : Prop) : List α → List α → List α → Prop
  | nil : Interleaved atEnd [] [] []
  | keep {a : α} {kept extra whole : List α} :
      Interleaved atEnd kept extra whole → Interleaved atEnd (a :: kept) extra (a :: whole)
  | insert {a : α} {kept extra whole : List α} (hend : kept = [] → atEnd) :
      Interleaved atEnd kept extra whole → Interleaved atEnd kept (a :: extra) (a :: whole)

namespace Interleaved

variable {atEnd : Prop} {kept extra whole : List α}

/-- What the extra elements do not show is shown by the others. -/
theorem flatMap_eq {f : α → List β} (h : Interleaved atEnd kept extra whole)
    (hextra : ∀ a ∈ extra, f a = []) : whole.flatMap f = kept.flatMap f := by
  induction h with
  | nil => rfl
  | keep _ ih => rw [List.flatMap_cons, List.flatMap_cons, ih hextra]
  | insert _ _ ih =>
    rw [List.forall_mem_cons] at hextra
    rw [List.flatMap_cons, hextra.1, List.nil_append, ih hextra.2]

theorem extra_subset (h : Interleaved atEnd kept extra whole) : extra ⊆ whole := by
  induction h with
  | nil => exact List.Subset.refl _
  | keep _ ih => exact List.subset_cons_of_subset _ ih
  | insert _ _ ih => exact List.cons_subset_cons _ ih

/-- Elements can be inserted before they are mapped. -/
theorem exists_of_map {f : α → β} {whole : List β}
    (h : Interleaved atEnd (kept.map f) (extra.map f) whole) :
    ∃ whole', whole'.map f = whole ∧ Interleaved atEnd kept extra whole' := by
  generalize hkept : kept.map f = fkept at h
  generalize hextra : extra.map f = fextra at h
  induction h generalizing kept extra with
  | nil =>
    rw [List.map_eq_nil_iff] at hkept hextra
    subst hkept hextra
    exact ⟨[], rfl, .nil⟩
  | keep _ ih =>
    rw [List.map_eq_cons_iff] at hkept
    obtain ⟨a, kept, rfl, rfl, hkept⟩ := hkept
    obtain ⟨whole, rfl, h⟩ := ih hkept hextra
    exact ⟨a :: whole, rfl, .keep h⟩
  | insert hend _ ih =>
    have hend' : kept = [] → atEnd := fun hnil ↦ hend (by rw [← hkept, hnil, List.map_nil])
    rw [List.map_eq_cons_iff] at hextra
    obtain ⟨a, extra, rfl, rfl, hextra⟩ := hextra
    obtain ⟨whole, rfl, h⟩ := ih hkept hextra
    exact ⟨a :: whole, rfl, .insert hend' h⟩

theorem eq_nil_of_whole (h : Interleaved atEnd kept extra []) : kept = [] ∧ extra = [] := by
  generalize hwhole : ([] : List α) = whole at h
  cases h with
  | nil => exact ⟨rfl, rfl⟩
  | keep => exact absurd hwhole (by simp)
  | insert => exact absurd hwhole (by simp)

end Interleaved

namespace LTS.Run

variable {σ : Type v} {ℓ : Type u} {M : LTS σ ℓ} {atEnd : Prop} {kept extra whole : List ℓ}
variable {s t : σ} {I : σ → Prop}

/-- **Stuttering steps can be put into a run.** They have to stutter in the states that the
run leaves, and in its last state only if they are put behind its last step. -/
theorem interleave (hI : ∀ t a u, I t → M.step t a u → I u)
    (hstutter : ∀ t b u, I t → M.step t b u → ∀ a ∈ extra, M.step t a t)
    (hend : atEnd → ∀ a ∈ extra, M.step t a t) (hs : I s) (hr : M.Run s kept t)
    (hin : Interleaved atEnd kept extra whole) : M.Run s whole t := by
  induction hin generalizing s with
  | nil => exact hr
  | keep _ ih =>
    obtain ⟨v, hst, hr⟩ := hr.exists_of_cons
    exact (ih hstutter hend (hI _ _ _ hs hst) hr).cons hst
  | @insert a kept extra whole hpoint _ ih =>
    have hloop : M.step s a s := by
      cases kept with
      | nil =>
        obtain rfl := hr.eq_of_nil
        exact hend (hpoint rfl) a (List.mem_cons_self ..)
      | cons b kept =>
        obtain ⟨v, hst, -⟩ := hr.exists_of_cons
        exact hstutter s b v hs hst a (List.mem_cons_self ..)
    refine (ih (fun t b u ht hst a ha ↦ ?_) (fun hat a ha ↦ ?_) hs hr).cons hloop
    · exact hstutter t b u ht hst a (List.mem_cons_of_mem _ ha)
    · exact hend hat a (List.mem_cons_of_mem _ ha)

/-- **Stuttering steps can be taken out of a run.** -/
theorem deinterleave (hI : ∀ t a u, I t → M.step t a u → I u)
    (hstutter : ∀ t, I t → ∀ a ∈ extra, ∀ u, M.step t a u → u = t) (hs : I s)
    (hr : M.Run s whole t) (hin : Interleaved atEnd kept extra whole) : M.Run s kept t := by
  induction hin generalizing s with
  | nil => exact hr
  | keep _ ih =>
    obtain ⟨v, hst, hr⟩ := hr.exists_of_cons
    exact (ih hstutter (hI _ _ _ hs hst) hr).cons hst
  | insert _ _ ih =>
    obtain ⟨v, hst, hr'⟩ := hr.exists_of_cons
    obtain rfl := hstutter s hs _ (List.mem_cons_self ..) v hst
    exact ih (fun t ht a ha ↦ hstutter t ht a (List.mem_cons_of_mem _ ha)) hs hr'

end LTS.Run
