import Udpfwd.BufferPool.Balance
import Udpfwd.BufferPool.Sequential

/-!
# The pool at rest

When no thread is in a call, however the calls before have overlapped, the claims on `head` and
`tail` say which slots hold a buffer. Two things can have come of them (`pool_at_rest`):

* the pool is a ring of the buffers that have been put in and not taken out (`Holds`), so what
  follows, one call after another, is what a queue does (`resumed_pool_isQueue`);
* every slot holds a buffer, and `head` and `tail` agree (`Overfull`). The pool looks empty then:
  of the calls that are made one after another from there on, each `ObtainBuffer` finds nothing
  and no `ReturnBuffer` returns. This takes a claim of a thread that has been overtaken.

Calls that overlap can still get at the buffers of an overfull pool; the second case is about
calls that run alone.
-/

open BoundedQueue

namespace BufferPool

variable {Tid Buf : Type*} [DecidableEq Tid] [DecidableEq Buf]

/-! ### Slots in use -/

/-- A slot whose status says that it is in use has a thread inside. -/
def Attended (σ : Pool Tid Buf) : Prop :=
  ∀ s, σ.status s = .kInUseLoading ∨ σ.status s = .kInUseStoring →
    ∃ t, (σ.pc t).inside = some s

namespace Attended

variable {σ τ : Pool Tid Buf} {t : Tid} {a : Act Tid Buf} {p : Pc Buf} {s : ℕ} {st : Status}

omit [DecidableEq Tid] [DecidableEq Buf] in
theorem init : Attended ({} : Pool Tid Buf) := by
  rintro s (h | h) <;> exact absurd h (by simp)

omit [DecidableEq Buf] in
/-- A thread goes on, and stays inside the slot it is in. -/
theorem goto (hA : Attended σ) (hpc : τ.pc = Function.update σ.pc t p)
    (hstatus : τ.status = σ.status)
    (hp : ∀ s, (σ.pc t).inside = some s → p.inside = some s) : Attended τ := by
  intro s hs
  rw [hstatus] at hs
  obtain ⟨u, hu⟩ := hA s hs
  refine ⟨u, ?_⟩
  by_cases hut : u = t
  · subst hut
    rw [hpc, Function.update_self]
    exact hp s hu
  · rwa [hpc, Function.update_of_ne hut]

omit [DecidableEq Buf] in
/-- A thread enters a slot. -/
theorem enter (hA : Attended σ) (hpc : τ.pc = Function.update σ.pc t p)
    (hstatus : τ.status = Function.update σ.status s st) (hout : (σ.pc t).inside = none)
    (hp : p.inside = some s) : Attended τ := by
  intro s' hs'
  by_cases heq : s' = s
  · exact ⟨t, by rw [hpc, Function.update_self, heq, hp]⟩
  · rw [hstatus, Function.update_of_ne heq] at hs'
    obtain ⟨u, hu⟩ := hA s' hs'
    have hut : u ≠ t := by
      rintro rfl
      rw [hout] at hu
      exact absurd hu (by simp)
    exact ⟨u, by rwa [hpc, Function.update_of_ne hut]⟩

omit [DecidableEq Buf] in
/-- A thread leaves a slot, which is in use no more. -/
theorem leave (hA : Attended σ) (hpc : τ.pc = Function.update σ.pc t p)
    (hstatus : τ.status = Function.update σ.status s st) (hin : (σ.pc t).inside = some s)
    (hst : st ≠ .kInUseLoading ∧ st ≠ .kInUseStoring) : Attended τ := by
  intro s' hs'
  by_cases heq : s' = s
  · rw [hstatus, heq, Function.update_self] at hs'
    exact (hs'.elim hst.1 hst.2).elim
  · rw [hstatus, Function.update_of_ne heq] at hs'
    obtain ⟨u, hu⟩ := hA s' hs'
    have hut : u ≠ t := by
      rintro rfl
      exact heq (Option.some.inj (hu.symm.trans hin))
    exact ⟨u, by rwa [hpc, Function.update_of_ne hut]⟩

theorem step (hA : Attended σ) (hI : SlotInvariant σ) (hst : Step σ t a τ) : Attended τ := by
  -- a thread that is at `p` goes on where it is inside the same slot, or inside none before
  have hkeep : ∀ {p q : Pc Buf}, σ.pc t = p → p.inside = none ∨ q.inside = p.inside →
      ∀ s, (σ.pc t).inside = some s → q.inside = some s := by
    rintro p q rfl (hp | hp) s hs
    · rw [hp] at hs
      exact absurd hs (by simp)
    · exact hp.trans hs
  cases hst with
  | allocate | free | handTo | obtainAcquireFailed | returnAcquireFailed => exact hA
  | callObtain hpc | obtainLoadHead hpc | obtainEmpty hpc | obtainLoadTail hpc
  | obtainExchanged hpc | obtainExchangeFailed hpc | callReturn hpc | returnLoadTail hpc
  | returnFull hpc | returnLoadHead hpc | returnExchanged hpc | returnExchangeFailed hpc =>
    exact hA.goto rfl rfl (hkeep hpc (.inl rfl))
  | obtainMoved hpc | returnChecked hpc | returnMoved hpc =>
    exact hA.goto rfl rfl (hkeep hpc (.inr rfl))
  | returnAborted hpc hnull =>
    have hfits := hI.fits t
    rw [hpc] at hfits
    exact absurd hfits.2 hnull
  | obtainAcquired hpc | returnAcquired hpc => exact hA.enter rfl rfl (by rw [hpc]; rfl) rfl
  | obtainReleased hpc | returnReleased hpc =>
    exact hA.leave rfl rfl (by rw [hpc]; rfl) ⟨by simp, by simp⟩

theorem run {h : List (Label Tid Buf)} (hr : (bufferPool Tid Buf).Run {} h σ) : Attended σ :=
  hr.historyInvariant (J := fun _ σ ↦ Attended σ) init fun _ _ _ _ hr' hA hst ↦
    hA.step (PoolInvariant.run hr').slots (Pool.next?_eq_some_iff.1 hst)

omit [DecidableEq Tid] [DecidableEq Buf] in
/-- A slot that nobody is inside of is empty or full. -/
theorem status_of_outside (hA : Attended σ) (hout : ∀ t, (σ.pc t).inside ≠ some s) :
    σ.status s = .kEmpty ∨ σ.status s = .kAvailable := by
  rcases hs : σ.status s with - | - | - | -
  · exact .inl rfl
  · exact absurd (hA s (.inl hs)).choose_spec (hout _)
  · exact .inr rfl
  · exact absurd (hA s (.inr hs)).choose_spec (hout _)

end Attended

/-! ### The claims at rest -/

/-- What the claims say of a pool in which no thread is in a call. -/
structure AtRest (h : List (Label Tid Buf)) (σ : Pool Tid Buf) : Prop where
  head_le : claims .head h ≤ claims .tail h
  tail_le : claims .tail h ≤ claims .head h + kMaxPoolSize
  status_eq : σ.status = Status.ofSlot ∘ σ.buffers
  /-- The slots from `head` to `tail` hold the buffers. -/
  slot_iff : ∀ i < kMaxPoolSize,
    (σ.buffers ((σ.head + i) % kMaxPoolSize)).isSome ↔ claims .head h + i < claims .tail h

section AtRest

variable {σ : Pool Tid Buf} {h : List (Label Tid Buf)}

/-- A slot is available if there has been one claim on `tail` more for it than on `head`. -/
theorem SlotUse.count_eq (hU : SlotUse h σ) (hC : Counted h σ) (hidle : ∀ t, σ.pc t = .idle)
    (s : ℕ) : Nat.count (fun n ↦ n % kMaxPoolSize = s) (claims .tail h) =
      Nat.count (fun n ↦ n % kMaxPoolSize = s) (claims .head h) +
        if σ.status s = .kAvailable then 1 else 0 := by
  have hwaiting := hU.waiting s
  have hfilling := hU.filling s
  rw [census.eq_zero (by simp [hidle, Pc.waiting]), zero_add, Nat.cast_inj] at hwaiting
  rw [census.eq_zero (by simp [hidle, Pc.filling]), zero_add, Nat.cast_inj] at hfilling
  rw [← hC.slot_eq, ← hC.slot_eq, ← hwaiting, ← hfilling]
  exact hU.available s

theorem AtRest.of_run (hr : (bufferPool Tid Buf).Run {} h σ) (hidle : ∀ t, σ.pc t = .idle) :
    AtRest h σ := by
  have hcount := (SlotUse.run hr).count_eq (.run hr) hidle
  have hslots := (PoolInvariant.run hr).slots
  have hstatus : σ.status = Status.ofSlot ∘ σ.buffers := by
    funext s
    rw [Function.comp_apply]
    have hout : ∀ t, (σ.pc t).inside ≠ some s := by simp [hidle, Pc.inside]
    rcases (Attended.run hr).status_of_outside hout with hs | hs
    · rw [hs, hslots.empty s hs]
      rfl
    · obtain ⟨b, hb⟩ := Option.isSome_iff_exists.1 (hslots.available s hs)
      rw [hs, hb]
      rfl
  have havailable : ∀ s, (σ.buffers s).isSome ↔ σ.status s = .kAvailable := by
    intro s
    rw [hstatus, Function.comp_apply]
    rcases σ.buffers s with - | b <;> simp [Status.ofSlot]
  have hindex : ∀ i, (σ.head + i) % kMaxPoolSize = (claims .head h + i) % kMaxPoolSize := by
    intro i
    rw [show σ.head = claims .head h % kMaxPoolSize from (Counted.run hr).index_eq .head,
      Nat.mod_add_mod]
  refine ⟨?_, ?_, hstatus, fun i hi ↦ ?_⟩
  · -- otherwise the slot of the next claim on `tail` has been claimed once more on `head`
    by_contra hlt
    have hnext := hcount (claims .tail h % kMaxPoolSize)
    have hmore : Nat.count (fun n ↦ n % kMaxPoolSize = claims .tail h % kMaxPoolSize)
        (claims .tail h) < Nat.count (fun n ↦ n % kMaxPoolSize = claims .tail h % kMaxPoolSize)
          (claims .head h) := Nat.count_strict_mono rfl (Nat.not_le.1 hlt)
    omega
  · -- otherwise the slot of the next claim on `head` has been claimed twice more on `tail`
    by_contra hlt
    have hnext := hcount (claims .head h % kMaxPoolSize)
    have honce : Nat.count (fun n ↦ n % kMaxPoolSize = claims .head h % kMaxPoolSize)
        (claims .head h) < Nat.count (fun n ↦ n % kMaxPoolSize = claims .head h % kMaxPoolSize)
          (claims .head h + kMaxPoolSize) :=
      Nat.count_strict_mono rfl (Nat.lt_add_of_pos_right (by decide))
    have htwice : Nat.count (fun n ↦ n % kMaxPoolSize = claims .head h % kMaxPoolSize)
        (claims .head h + kMaxPoolSize) <
          Nat.count (fun n ↦ n % kMaxPoolSize = claims .head h % kMaxPoolSize)
            (claims .tail h) :=
      Nat.count_strict_mono (Nat.add_mod_right ..) (Nat.not_le.1 hlt)
    split_ifs at hnext <;> omega
  · rw [havailable, hindex, ← count_slot_lt_iff hi, hcount]
    split_ifs with hs
    · exact ⟨fun _ ↦ Nat.lt_succ_self _, fun _ ↦ hs⟩
    · exact ⟨fun h ↦ absurd h hs, fun hlt ↦ absurd hlt (Nat.lt_irrefl _)⟩

/-- If not every slot has been filled, the pool is a ring. -/
theorem AtRest.holds (hrest : AtRest h σ) (hC : Counted h σ) (hidle : ∀ t, σ.pc t = .idle)
    (hlt : claims .tail h < claims .head h + kMaxPoolSize) :
    ∃ q, q.length + claims .head h = claims .tail h ∧ Holds σ q := by
  have hle := hrest.head_le
  have hhead : σ.head = claims .head h % kMaxPoolSize := hC.index_eq .head
  have htail : σ.tail = (σ.head + (claims .tail h - claims .head h)) % kMaxPoolSize := by
    rw [hhead, Nat.mod_add_mod, Nat.add_sub_cancel' hle]
    exact hC.index_eq .tail
  obtain ⟨q, hlength, hring⟩ := Ring.exists_of_slots
    (show claims .tail h - claims .head h < kMaxPoolSize by omega)
    (hhead ▸ mod_kMaxPoolSize_lt _) htail fun i hi ↦ by
      rw [hrest.slot_iff i hi]
      omega
  exact ⟨q, by omega, hring, hrest.status_eq, hidle⟩

end AtRest

/-! ### The overfull pool -/

/-- Every slot holds a buffer, and the pool looks empty. -/
structure Overfull (σ : Pool Tid Buf) : Prop where
  head_eq_tail : σ.head = σ.tail
  available : ∀ s < kMaxPoolSize, σ.status s = .kAvailable
  idle : ∀ t, σ.pc t = .idle

theorem AtRest.overfull {σ : Pool Tid Buf} {h : List (Label Tid Buf)} (hrest : AtRest h σ)
    (hC : Counted h σ) (hidle : ∀ t, σ.pc t = .idle)
    (hfull : claims .tail h = claims .head h + kMaxPoolSize) : Overfull σ := by
  have hhead : σ.head = claims .head h % kMaxPoolSize := hC.index_eq .head
  refine ⟨?_, fun s hs ↦ ?_, hidle⟩
  · rw [hhead, show σ.tail = claims .tail h % kMaxPoolSize from hC.index_eq .tail, hfull,
      Nat.add_mod_right]
  · obtain ⟨i, hi, rfl⟩ : ∃ i < kMaxPoolSize, (σ.head + i) % kMaxPoolSize = s := by
      have hlt : σ.head < kMaxPoolSize := hhead ▸ mod_kMaxPoolSize_lt _
      refine ⟨(s + kMaxPoolSize - σ.head) % kMaxPoolSize, mod_kMaxPoolSize_lt _, ?_⟩
      rw [Nat.add_mod_mod, show σ.head + (s + kMaxPoolSize - σ.head) = s + kMaxPoolSize by omega,
        Nat.add_mod_right, Nat.mod_eq_of_lt hs]
    have hsome := (hrest.slot_iff i hi).2 (by omega)
    obtain ⟨b, hb⟩ := Option.isSome_iff_exists.1 hsome
    rw [hrest.status_eq, Function.comp_apply, hb]
    rfl

section Overfull

variable {σ ρ τ : Pool Tid Buf} {t : Tid} {b : Buf} {a : Act Tid Buf}

/-- Where a call of `ObtainBuffer` is. -/
theorem Inside.obtainAt (hin : Inside σ t a ρ) (ha : a = .callObtain) :
    ρ.pc t = .idle ∨ ObtainAt σ t ρ := by
  induction hin with
  | call hst =>
    subst ha
    cases hst
    refine .inr ?_
    rw [ObtainAt, Pool.goto_pc_self]
  | step _ hpc hst ih =>
    rcases ih with hreturned | hat
    · rw [hreturned] at hpc
      exact absurd hpc (by simp [Pc.inCall])
    · rcases hat.step hst with hat | hreturns
      · exact .inr hat
      · cases hreturns <;> exact .inl (Pool.goto_pc_self _ _ _)

/-- `ReturnBuffer` has not got its slot. -/
def Unplaced (σ : Pool Tid Buf) (t : Tid) (b : Buf) (ρ : Pool Tid Buf) : Prop :=
  ReturnAt σ t b ρ ∧ (ρ.pc t).inside = none

namespace Overfull

/-- `ObtainBuffer`, run alone, finds the overfull pool empty. -/
theorem obtain_eq (hσ : Overfull σ) {result : Option Buf}
    (hst : CallStep σ (.obtain t result) τ) : result = none ∧ τ = σ := by
  cases hst with
  | obtain hreturns =>
    obtain ⟨hin, hpc, ⟨a', hst⟩, hreturned⟩ := hreturns
    rcases hin.obtainAt rfl with hρ | hat
    · rw [hρ] at hpc
      exact absurd hpc (by simp [Pc.inCall])
    · have hends := (hat.step hst).resolve_left fun hat ↦ by
        rw [ObtainAt, hreturned] at hat
        exact hat
      cases hends with
      | empty _ hresult => exact ⟨hresult, Pool.goto_idle (hσ.idle t)⟩
      | taken hne => exact absurd hσ.head_eq_tail hne

/-- **One step of `ReturnBuffer` on the overfull pool**: it does not find the pool full, and the
slot at `tail` does not become empty. -/
theorem unplaced_step (hσ : Overfull σ) (htail : σ.tail < kMaxPoolSize)
    (hat : Unplaced σ t b ρ) (hst : Step ρ t a τ) : Unplaced σ t b τ := by
  obtain ⟨hat, hout⟩ := hat
  cases hst with
  | returnLoadTail hpc =>
    rw [ReturnAt, hpc] at hat
    obtain ⟨rfl, rfl⟩ := hat
    rw [Pool.goto_goto, Unplaced, ReturnAt, Pool.goto_pc_self]
    exact ⟨⟨rfl, rfl, rfl⟩, rfl⟩
  | returnFull hpc hfull =>
    rw [ReturnAt, hpc] at hat
    obtain ⟨rfl, rfl, rfl⟩ := hat
    exact absurd (hfull.trans hσ.head_eq_tail) (succ_mod_ne _)
  | returnLoadHead hpc hne =>
    rw [ReturnAt, hpc] at hat
    obtain ⟨rfl, rfl, rfl⟩ := hat
    rw [Pool.goto_goto, Unplaced, ReturnAt, Pool.goto_pc_self]
    exact ⟨⟨rfl, rfl, hne, rfl⟩, rfl⟩
  | returnExchanged hpc htail =>
    rw [ReturnAt, hpc] at hat
    obtain ⟨rfl, rfl, hne, rfl⟩ := hat
    show Unplaced σ t _ (((σ.take t _).advanceTail.goto t _).goto t _)
    rw [Pool.goto_goto, Unplaced, ReturnAt, Pool.goto_pc_self]
    exact ⟨⟨rfl, rfl, hne, rfl⟩, rfl⟩
  | returnExchangeFailed hpc =>
    rw [ReturnAt, hpc] at hat
    obtain ⟨rfl, rfl, hne, rfl⟩ := hat
    rw [Pool.goto_goto, Unplaced, ReturnAt, Pool.goto_pc_self]
    exact ⟨⟨rfl, rfl⟩, rfl⟩
  | returnAcquired hpc hstatus =>
    rw [ReturnAt, hpc] at hat
    obtain ⟨rfl, rfl, hne, rfl⟩ := hat
    exact absurd ((hσ.available _ htail).symm.trans hstatus) (by simp)
  | returnAcquireFailed => exact ⟨hat, hout⟩
  | returnChecked hpc | returnAborted hpc | returnMoved hpc | returnReleased hpc =>
    rw [hpc] at hout
    exact absurd hout (by simp [Pc.inside])
  | allocate hpc | free hpc | handTo hpc | callObtain hpc | obtainLoadHead hpc | obtainEmpty hpc
  | obtainLoadTail hpc | obtainExchanged hpc | obtainExchangeFailed hpc | obtainAcquired hpc
  | obtainAcquireFailed hpc | obtainMoved hpc | obtainReleased hpc | callReturn hpc =>
    rw [ReturnAt, hpc] at hat
    exact hat.elim

theorem unplaced (hσ : Overfull σ) (htail : σ.tail < kMaxPoolSize) (hin : Inside σ t a ρ)
    (ha : a = .callReturn b) : Unplaced σ t b ρ := by
  induction hin with
  | call hst =>
    subst ha
    cases hst
    rw [Unplaced, ReturnAt, Pool.goto_pc_self]
    exact ⟨⟨rfl, rfl⟩, rfl⟩
  | step _ _ hst ih => exact hσ.unplaced_step htail ih hst

/-- `ReturnBuffer`, run alone, waits for ever on the overfull pool. -/
theorem not_giveBack (hσ : Overfull σ) (htail : σ.tail < kMaxPoolSize) {kept : Bool} :
    ¬CallStep σ (.giveBack t b kept) τ := by
  intro hst
  cases hst with
  | giveBack hreturns =>
    obtain ⟨hin, hpc, ⟨a', hst⟩, hreturned⟩ := hreturns
    obtain ⟨hat, -⟩ := hσ.unplaced_step htail (hσ.unplaced htail hin rfl) hst
    rw [ReturnAt, hreturned] at hat
    exact hat

/-- Calls that are made one after another leave the pool overfull. -/
theorem callStep {c : Call Tid Buf} (hσ : Overfull σ) (htail : σ.tail < kMaxPoolSize)
    (hst : CallStep σ c τ) : Overfull τ := by
  rcases c with ⟨t, a⟩ | ⟨t, result⟩ | ⟨t, b, kept⟩
  · cases hst with
    | own ha hst =>
      cases hst with
      | allocate | free | handTo => exact ⟨hσ.head_eq_tail, hσ.available, hσ.idle⟩
      | _ => cases ha
  · obtain ⟨-, rfl⟩ := hσ.obtain_eq hst
    exact hσ
  · exact absurd hst (hσ.not_giveBack htail)

theorem run {cs : List (Call Tid Buf)} (hσ : Overfull σ) (hI : PoolInvariant σ)
    (hr : (sequentialPool Tid Buf).Run σ cs τ) : Overfull τ ∧ PoolInvariant τ :=
  hr.invariant (I := fun τ ↦ Overfull τ ∧ PoolInvariant τ)
    (fun _ _ _ ⟨hρ, hI⟩ hst ↦ ⟨hρ.callStep hI.bounds.tail_lt hst,
      CallStep.poolInvariant hI hst⟩) ⟨hσ, hI⟩

end Overfull

end Overfull

/-! ### What has come of the calls -/

section Runs

variable {σ τ : Pool Tid Buf} {h : List (Label Tid Buf)} {cs : List (Call Tid Buf)}

/-- **The pool at rest.** Whatever calls of any number of threads have overlapped, and however,
when no thread is in a call the pool is a ring that holds as many buffers as there have been more
claims on `tail` than on `head`, or it is overfull: every slot holds a buffer while `head` is
`tail`. After any calls that are made one at a time from there, it still is, the next call of
`ObtainBuffer` finds nothing and changes nothing, and the next call of `ReturnBuffer` does not
return. -/
theorem pool_at_rest (hr : (bufferPool Tid Buf).Run {} h σ) (hidle : ∀ t, σ.pc t = .idle) :
    (∃ q, q.length + claims .head h = claims .tail h ∧ Holds σ q ∧ IsQueue σ q) ∨
      (claims .tail h = claims .head h + kMaxPoolSize ∧
        ∀ cs τ, (sequentialPool Tid Buf).Run σ cs τ →
          τ.head = τ.tail ∧ (∀ s < kMaxPoolSize, τ.buffers s ≠ none) ∧
          (∀ t result τ', CallStep τ (.obtain t result) τ' → result = none ∧ τ' = τ) ∧
          ∀ t b kept τ', ¬CallStep τ (.giveBack t b kept) τ') := by
  have hI := PoolInvariant.run hr
  have hrest := AtRest.of_run hr hidle
  rcases Nat.lt_or_ge (claims .tail h) (claims .head h + kMaxPoolSize) with hlt | hge
  · obtain ⟨q, hlength, hq⟩ := hrest.holds (.run hr) hidle hlt
    exact .inl ⟨q, hlength, hq, hq.isQueue hI⟩
  · have hfull := Nat.le_antisymm hrest.tail_le hge
    refine .inr ⟨hfull, fun cs τ hs ↦ ?_⟩
    obtain ⟨hτ, hIτ⟩ := (hrest.overfull (.run hr) hidle hfull).run hI hs
    refine ⟨hτ.head_eq_tail, fun s hs ↦ ?_, fun t result τ' ↦ hτ.obtain_eq,
      fun t b kept τ' ↦ hτ.not_giveBack hIτ.bounds.tail_lt⟩
    exact Option.isSome_iff_ne_none.1 (hIτ.slots.available s (hτ.available s hs))

/-- **The pool is a queue again** after calls that have overlapped, if no thread was overtaken in
them. It holds some buffers `q`, and whatever follows, one call after another, is what a queue
does that starts with these. -/
theorem resumed_pool_isQueue (hr : (bufferPool Tid Buf).Run {} h σ)
    (hnot : ∀ past ρ l τ, (bufferPool Tid Buf).StepIn {} h past ρ l τ → ¬Overtaken past l)
    (hidle : ∀ t, σ.pc t = .idle) :
    ∃ q, q.length + claims .head h = claims .tail h ∧ Holds σ q ∧ IsQueue σ q ∧
      ∀ cs τ, (sequentialPool Tid Buf).Run σ cs τ → ∃ q',
        (boundedQueue Buf (kMaxPoolSize - 1)).Run q (cs.filterMap Call.op) q' ∧
          Holds τ q' ∧ IsQueue τ q' := by
  have hI := PoolInvariant.run hr
  have hle : claims .tail h ≤ claims .head h + (kMaxPoolSize - 1) :=
    (InRange.run hr hnot).claims_le .tail
  have hlt : claims .tail h < claims .head h + kMaxPoolSize := by
    rw [kMaxPoolSize] at hle ⊢
    omega
  obtain ⟨q, hlength, hq⟩ := (AtRest.of_run hr hidle).holds (.run hr) hidle hlt
  refine ⟨q, hlength, hq, hq.isQueue hI, fun cs τ hs ↦ ?_⟩
  obtain ⟨hIτ, q', hq', hτ⟩ := hq.run hI hs
  exact ⟨q', hq', hτ, hτ.isQueue hIτ⟩

/-- No thread is held up for a full turn in a short history. -/
theorem not_overtaken_of_length_lt (hlt : h.length < kMaxPoolSize)
    (past : List (Label Tid Buf)) (ρ : Pool Tid Buf) (l : Label Tid Buf) (τ : Pool Tid Buf)
    (hin : (bufferPool Tid Buf).StepIn {} h past ρ l τ) : ¬Overtaken past l := by
  rintro ⟨i, v, -, hle, -⟩
  obtain ⟨future, rfl⟩ := hin.exists_append
  have hclaims : claimsSince i l.thread past ≤ past.length :=
    claimsSince_le.trans List.countP_le_length
  simp only [List.length_append] at hlt
  omega

end Runs

/-- Two threads give back a buffer each, and their calls overlap: the one that comes first fails
its exchange, and fills the second slot before the other one fills the first. -/
def overlapHistory : List (Label Bool ℕ) :=
  [⟨false, .allocate 7⟩, ⟨true, .allocate 8⟩, ⟨true, .callReturn 8⟩, ⟨true, .load .tail⟩,
    ⟨true, .load .head⟩, ⟨false, .callReturn 7⟩, ⟨false, .load .tail⟩, ⟨false, .load .head⟩,
    ⟨false, .exchanged .tail 0⟩, ⟨true, .exchangeFailed .tail⟩, ⟨true, .load .tail⟩,
    ⟨true, .load .head⟩, ⟨true, .exchanged .tail 1⟩, ⟨true, .acquired 1 .kInUseStoring⟩,
    ⟨true, .checked 1⟩, ⟨true, .moved 1⟩, ⟨true, .released 1 .kAvailable⟩,
    ⟨false, .acquired 0 .kInUseStoring⟩, ⟨false, .checked 0⟩, ⟨false, .moved 0⟩,
    ⟨false, .released 0 .kAvailable⟩]

/-- The two buffers are in the pool. -/
def overlapState : Pool Bool ℕ :=
  (Pool.exec {} overlapHistory).get rfl

theorem overlapHistory_run : (bufferPool Bool ℕ).Run {} overlapHistory overlapState :=
  run_of_exec (Option.some_get _).symm

theorem overlapState_idle (t : Bool) : overlapState.pc t = .idle := by
  cases t <;> rfl

theorem overlap_at_rest :
    ∃ q, q.length + 0 = 2 ∧ Holds overlapState q ∧ IsQueue overlapState q :=
  (pool_at_rest overlapHistory_run overlapState_idle).resolve_right fun hfull ↦
    absurd hfull.1 (by decide)

/-- What follows starts with the two buffers, in the order of their slots. -/
theorem overlap_resumed : ∃ (τ : Pool Bool ℕ) (q' : List ℕ),
    (sequentialPool Bool ℕ).Run overlapState
      [.obtain true (some 7), .obtain true (some 8), .obtain false none] τ ∧
    Holds overlapState [7, 8] ∧
    (boundedQueue ℕ (kMaxPoolSize - 1)).Run [7, 8] [.get (some 7), .get (some 8), .get none] q' ∧
    Holds τ q' ∧ IsQueue τ q' := by
  obtain ⟨q, hlength, hq, -, hresumed⟩ := resumed_pool_isQueue overlapHistory_run
    (not_overtaken_of_length_lt (by decide)) overlapState_idle
  have htwo : q.length = 2 := hlength
  obtain ⟨b, b', rfl⟩ := List.length_eq_two.1 htwo
  obtain rfl : 7 = b := Option.some.inj (hq.ring.slot_eq 0 (by decide))
  obtain rfl : 8 = b' := Option.some.inj (hq.ring.slot_eq 1 (by decide))
  obtain ⟨σ₁, hst₁⟩ := hq.exists_obtain true
  obtain ⟨-, h₁, -⟩ := hq.obtain_eq hst₁
  obtain ⟨σ₂, hst₂⟩ := h₁.exists_obtain true
  obtain ⟨-, h₂, -⟩ := h₁.obtain_eq hst₂
  obtain ⟨τ, hst₃⟩ := h₂.exists_obtain false
  have hr : (sequentialPool Bool ℕ).Run overlapState
      [.obtain true (some 7), .obtain true (some 8), .obtain false none] τ :=
    ((LTS.Run.single hst₁).snoc hst₂).snoc hst₃
  obtain ⟨q', hq', hτ, hqueue⟩ := hresumed _ τ hr
  exact ⟨τ, q', hr, hq, hq', hτ, hqueue⟩

end BufferPool
