import Mathlib.Data.Finset.Insert
import Mathlib.Tactic.SplitIfs
import Udpfwd.BufferPool.Pool
import Udpfwd.Ownership.Linear

/-!
# Who holds a buffer of the pool

A buffer is held by a slot of the ring, by a thread that owns it, or by a call that it has been
given to or that is about to return it. Every step brings in a fresh buffer, moves one, frees
one, or leaves all of them in place (`Step.change`), so ownership stays linear; the one step
that could lose a buffer, the assignment to a slot's pointer, needs that pointer to be null.

This is what the status of a slot is for. Between the exchange of its status and the store that
ends the access a thread is *inside* the slot; no other thread is, and the status and the
pointer are what the place where the thread stands needs (`SlotInvariant`). Nothing of this
depends on the indices, of which only the bounds are known (`InBounds`): several threads may
wait for one slot, after `head` and `tail` have come round any number of times.
-/

namespace BufferPool

variable {Tid Buf : Type*}

/-! ### The indices -/

/-- The slot that a thread is about to access, or will be once it has claimed it. -/
def Pc.index : Pc Buf → Option ℕ
  | .obtainLoadTail h => some h
  | .obtainExchange h => some h
  | .obtainAcquire h => some h
  | .obtainMove h => some h
  | .obtainRelease h _ => some h
  | .returnLoadHead _ t => some t
  | .returnExchange _ t => some t
  | .returnAcquire _ t => some t
  | .returnCheck _ t => some t
  | .returnMove _ t => some t
  | .returnRelease t => some t
  | _ => none

/-- Every index is that of a slot. -/
structure InBounds (σ : Pool Tid Buf) : Prop where
  head_lt : σ.head < kMaxPoolSize
  tail_lt : σ.tail < kMaxPoolSize
  index_lt : ∀ t i, (σ.pc t).index = some i → i < kMaxPoolSize
  buffer_lt : ∀ s b, σ.buffers s = some b → s < kMaxPoolSize

theorem mod_kMaxPoolSize_lt (n : ℕ) : n % kMaxPoolSize < kMaxPoolSize :=
  Nat.mod_lt n (by decide)

namespace InBounds

variable {σ τ : Pool Tid Buf}

theorem init : InBounds ({} : Pool Tid Buf) where
  head_lt := mod_kMaxPoolSize_lt 0
  tail_lt := mod_kMaxPoolSize_lt 0
  index_lt _ _ h := nomatch h
  buffer_lt _ _ h := nomatch h

variable [DecidableEq Tid]

/-- A thread goes on with an index of a slot. -/
theorem update (hI : InBounds σ) {t : Tid} {p : Pc Buf} (hpc : τ.pc = Function.update σ.pc t p)
    (hp : ∀ i, p.index = some i → i < kMaxPoolSize) (hhead : τ.head < kMaxPoolSize)
    (htail : τ.tail < kMaxPoolSize) (hbuffers : ∀ s b, τ.buffers s = some b → s < kMaxPoolSize) :
    InBounds τ where
  head_lt := hhead
  tail_lt := htail
  index_lt u i hu := by
    by_cases hut : u = t
    · rw [hpc, hut, Function.update_self] at hu
      exact hp i hu
    · rw [hpc, Function.update_of_ne hut] at hu
      exact hI.index_lt u i hu
  buffer_lt := hbuffers

variable [DecidableEq Buf]

/-- **Every step stays in bounds.** -/
theorem step (hI : InBounds σ) {t : Tid} {a : Act Tid Buf} (hst : Step σ t a τ) :
    InBounds τ := by
  have hhead := hI.head_lt
  have htail := hI.tail_lt
  have hbuffers := hI.buffer_lt
  have hkeep : ∀ {p : Pc Buf}, p.index = (σ.pc t).index →
      ∀ i, p.index = some i → i < kMaxPoolSize :=
    fun hp i hi ↦ hI.index_lt t i (hp.symm.trans hi)
  cases hst with
  | allocate | free | handTo => exact ⟨hhead, htail, hI.index_lt, hbuffers⟩
  | obtainAcquireFailed | returnAcquireFailed => exact hI
  | callObtain | obtainEmpty | obtainExchangeFailed | callReturn | returnFull
  | returnExchangeFailed | obtainReleased | returnReleased | returnAborted =>
    exact hI.update rfl nofun hhead htail hbuffers
  | obtainLoadHead =>
    exact hI.update rfl (fun _ hi ↦ Option.some.inj hi ▸ hhead) hhead htail hbuffers
  | returnLoadTail =>
    exact hI.update rfl (fun _ hi ↦ Option.some.inj hi ▸ htail) hhead htail hbuffers
  | obtainLoadTail hpc | returnLoadHead hpc | obtainAcquired hpc | returnAcquired hpc
  | returnChecked hpc =>
    exact hI.update rfl (hkeep (by rw [hpc]; rfl)) hhead htail hbuffers
  | obtainExchanged hpc =>
    exact hI.update rfl (hkeep (by rw [hpc]; rfl)) (mod_kMaxPoolSize_lt _) htail hbuffers
  | returnExchanged hpc =>
    exact hI.update rfl (hkeep (by rw [hpc]; rfl)) hhead (mod_kMaxPoolSize_lt _) hbuffers
  | @obtainMoved h hpc =>
    refine hI.update rfl (hkeep (by rw [hpc]; rfl)) hhead htail fun s b hs ↦ ?_
    rw [Pool.goto_buffers, Pool.setBuffer_buffers, Function.update_apply] at hs
    split_ifs at hs
    exact hbuffers s b hs
  | @returnMoved b tl hpc =>
    refine hI.update rfl (hkeep (by rw [hpc]; rfl)) hhead htail fun s c hs ↦ ?_
    rw [Pool.goto_buffers, Pool.setBuffer_buffers, Function.update_apply] at hs
    split_ifs at hs with hslot
    · exact hI.index_lt t s (by rw [hpc, hslot]; rfl)
    · exact hbuffers s c hs

end InBounds

/-! ### The slots -/

/-- The slot whose `kInUseLoading` or `kInUseStoring` section a thread is in. -/
def Pc.inside : Pc Buf → Option ℕ
  | .obtainMove h => some h
  | .obtainRelease h _ => some h
  | .returnCheck _ t => some t
  | .returnMove _ t => some t
  | .returnRelease t => some t
  | _ => none

/-- The status and the pointer of a slot are what a thread inside it relies on. -/
def Pc.Fits (status : ℕ → Status) (buffers : ℕ → Option Buf) : Pc Buf → Prop
  | .obtainMove h => status h = .kInUseLoading ∧ (buffers h).isSome
  | .obtainRelease h buffer => status h = .kInUseLoading ∧ buffers h = none ∧ buffer.isSome
  | .returnCheck _ t => status t = .kInUseStoring ∧ buffers t = none
  | .returnMove _ t => status t = .kInUseStoring ∧ buffers t = none
  | .returnRelease t => status t = .kInUseStoring ∧ (buffers t).isSome
  | .aborted _ => False
  | _ => True

/-- What holds of the slots and of the threads inside them. -/
structure SlotInvariant (σ : Pool Tid Buf) : Prop where
  empty : ∀ s, σ.status s = .kEmpty → σ.buffers s = none
  available : ∀ s, σ.status s = .kAvailable → (σ.buffers s).isSome
  fits : ∀ t, (σ.pc t).Fits σ.status σ.buffers
  exclusive : ∀ t u s, (σ.pc t).inside = some s → (σ.pc u).inside = some s → t = u

/-- A thread inside a slot relies on that slot only, and on its being in use. -/
theorem Pc.Fits.congr {status status' : ℕ → Status} {buffers buffers' : ℕ → Option Buf}
    {p : Pc Buf} (hp : p.Fits status buffers)
    (h : ∀ s, p.inside = some s → status' s = status s ∧ buffers' s = buffers s) :
    p.Fits status' buffers' := by
  cases p <;> simp_all [Pc.Fits, Pc.inside]

theorem Pc.Fits.inUse {status : ℕ → Status} {buffers : ℕ → Option Buf} {p : Pc Buf}
    (hp : p.Fits status buffers) {s : ℕ} (hs : p.inside = some s) :
    status s = .kInUseLoading ∨ status s = .kInUseStoring := by
  cases p <;> simp_all [Pc.Fits, Pc.inside]

namespace SlotInvariant

variable {σ τ : Pool Tid Buf}

theorem init : SlotInvariant ({} : Pool Tid Buf) where
  empty _ _ := rfl
  available _ h := nomatch h
  fits _ := trivial
  exclusive _ _ _ h _ := nomatch h

variable [DecidableEq Tid]

omit [DecidableEq Tid] in
/-- The indices and the owned buffers do not matter. -/
theorem frame (hI : SlotInvariant σ) (hpc : τ.pc = σ.pc) (hstatus : τ.status = σ.status)
    (hbuffers : τ.buffers = σ.buffers) : SlotInvariant τ where
  empty := by simpa only [hstatus, hbuffers] using hI.empty
  available := by simpa only [hstatus, hbuffers] using hI.available
  fits := by simpa only [hpc, hstatus, hbuffers] using hI.fits
  exclusive := by simpa only [hpc] using hI.exclusive

/-- A thread goes on outside the slots, or inside the slot it is in. -/
theorem goto (hI : SlotInvariant σ) {t : Tid} {p : Pc Buf}
    (hp : p.inside = none ∨ p.inside = (σ.pc t).inside) (hfits : p.Fits σ.status σ.buffers) :
    SlotInvariant (σ.goto t p) where
  empty := hI.empty
  available := hI.available
  fits u := by
    by_cases hu : u = t
    · subst hu
      simpa using hfits
    · simpa [hu] using hI.fits u
  exclusive u v s hu hv := by
    have hinside : ∀ w, ((σ.goto t p).pc w).inside = some s → (σ.pc w).inside = some s := by
      intro w hw
      by_cases hwt : w = t
      · subst hwt
        rw [Pool.goto_pc, Function.update_self] at hw
        rcases hp with hp | hp <;> rw [hp] at hw
        · exact absurd hw (by simp)
        · exact hw
      · simpa [hwt] using hw
    exact hI.exclusive u v s (hinside u hu) (hinside v hv)

/-- A thread changes a slot that no other thread is inside. -/
theorem update (hI : SlotInvariant σ) {t : Tid} {p : Pc Buf} (s : ℕ) (st : Status)
    (o : Option Buf) (hpc : τ.pc = Function.update σ.pc t p)
    (hstatus : τ.status = Function.update σ.status s st)
    (hbuffers : τ.buffers = Function.update σ.buffers s o)
    (hother : ∀ u, u ≠ t → (σ.pc u).inside ≠ some s)
    (hp : p.inside = none ∨ p.inside = some s) (hfits : p.Fits τ.status τ.buffers)
    (hempty : st = .kEmpty → o = none) (havailable : st = .kAvailable → o.isSome) :
    SlotInvariant τ where
  empty s' := by
    by_cases hs : s' = s <;> simp only [hstatus, hbuffers, hs, Function.update_self, ne_eq,
      not_false_eq_true, Function.update_of_ne]
    · exact hempty
    · exact hI.empty s'
  available s' := by
    by_cases hs : s' = s <;> simp only [hstatus, hbuffers, hs, Function.update_self, ne_eq,
      not_false_eq_true, Function.update_of_ne]
    · exact havailable
    · exact hI.available s'
  fits u := by
    by_cases hu : u = t
    · rw [hpc, hu, Function.update_self]
      exact hfits
    · rw [hpc, Function.update_of_ne hu]
      refine (hI.fits u).congr fun s' hs' ↦ ?_
      have hne : s' ≠ s := fun h ↦ hother u hu (h ▸ hs')
      rw [hstatus, hbuffers, Function.update_of_ne hne, Function.update_of_ne hne]
      exact ⟨rfl, rfl⟩
  exclusive u v s' hu hv := by
    -- a slot that `t` is inside now is `s`, where no other thread is
    have hself : ∀ w, w ≠ t → (τ.pc t).inside = some s' → (τ.pc w).inside ≠ some s' := by
      intro w hw ht
      rw [hpc, Function.update_of_ne hw]
      rw [hpc, Function.update_self] at ht
      rcases hp with hp | hp <;> rw [hp] at ht
      · exact absurd ht (by simp)
      · exact ht ▸ hother w hw
    by_cases hut : u = t <;> by_cases hvt : v = t
    · exact hut.trans hvt.symm
    · exact absurd hv (hself v hvt (hut ▸ hu))
    · exact absurd hu (hself u hut (hvt ▸ hv))
    · rw [hpc, Function.update_of_ne hut] at hu
      rw [hpc, Function.update_of_ne hvt] at hv
      exact hI.exclusive u v s' hu hv

omit [DecidableEq Tid] in
/-- Nobody is inside a slot whose status can be exchanged. -/
theorem outside (hI : SlotInvariant σ) {s : ℕ}
    (hs : σ.status s = .kEmpty ∨ σ.status s = .kAvailable) (u : Tid) :
    (σ.pc u).inside ≠ some s := by
  intro hu
  rcases hs with hs | hs <;> rcases (hI.fits u).inUse hu with h | h <;> rw [hs] at h <;>
    exact absurd h (by simp)

omit [DecidableEq Tid] in
/-- Nobody else is inside the slot that a thread is inside. -/
theorem alone (hI : SlotInvariant σ) {t : Tid} {s : ℕ} (ht : (σ.pc t).inside = some s)
    (u : Tid) (hu : u ≠ t) : (σ.pc u).inside ≠ some s :=
  fun hs ↦ hu (hI.exclusive u t s hs ht)

variable [DecidableEq Buf]

/-- **Every step keeps the slots in order.** -/
theorem step (hI : SlotInvariant σ) {t : Tid} {a : Act Tid Buf} (hst : Step σ t a τ) :
    SlotInvariant τ := by
  have hfits := hI.fits t
  cases hst with
  | allocate | free | handTo => exact hI.frame rfl rfl rfl
  | callObtain | obtainLoadHead | obtainEmpty | obtainLoadTail | obtainExchangeFailed =>
    exact hI.goto (.inl rfl) trivial
  | returnLoadTail | returnLoadHead | returnExchangeFailed => exact hI.goto (.inl rfl) trivial
  | obtainExchanged | callReturn | returnFull | returnExchanged =>
    refine goto ?_ (.inl rfl) trivial
    exact hI.frame rfl rfl rfl
  | obtainAcquireFailed | returnAcquireFailed => exact hI
  | @obtainAcquired h hpc hstatus =>
    refine hI.update h .kInUseLoading (σ.buffers h) rfl rfl (Function.update_eq_self h _).symm
      (fun u _ ↦ hI.outside (.inr hstatus) u) (.inr rfl) ?_ nofun nofun
    exact ⟨Function.update_self .., hI.available h hstatus⟩
  | @obtainMoved h hpc =>
    rw [hpc] at hfits
    obtain ⟨hstatus, hbuffer⟩ := hfits
    have hsame : σ.status = Function.update σ.status h .kInUseLoading := by
      rw [← hstatus, Function.update_eq_self]
    exact hI.update h .kInUseLoading none rfl hsame rfl (hI.alone (by rw [hpc]; rfl))
      (.inr rfl) ⟨hstatus, Function.update_self .., hbuffer⟩ nofun nofun
  | @obtainReleased h buffer hpc =>
    rw [hpc] at hfits
    obtain ⟨hstatus, hnull, hbuffer⟩ := hfits
    obtain ⟨b, rfl⟩ := Option.isSome_iff_exists.1 hbuffer
    exact hI.update h .kEmpty (σ.buffers h) rfl rfl (Function.update_eq_self h _).symm
      (hI.alone (by rw [hpc]; rfl)) (.inl rfl) trivial (fun _ ↦ hnull) nofun
  | @returnAcquired b tl hpc hstatus =>
    refine hI.update tl .kInUseStoring (σ.buffers tl) rfl rfl
      (Function.update_eq_self tl _).symm (fun u _ ↦ hI.outside (.inl hstatus) u) (.inr rfl) ?_
      nofun nofun
    exact ⟨Function.update_self .., hI.empty tl hstatus⟩
  | @returnChecked b tl hpc hnull =>
    rw [hpc] at hfits
    exact hI.goto (.inr (by rw [hpc]; rfl)) hfits
  | @returnAborted b tl hpc hnull =>
    rw [hpc] at hfits
    exact absurd hfits.2 hnull
  | @returnMoved b tl hpc =>
    rw [hpc] at hfits
    obtain ⟨hstatus, hnull⟩ := hfits
    rw [hnull]
    have hsame : σ.status = Function.update σ.status tl .kInUseStoring := by
      rw [← hstatus, Function.update_eq_self]
    refine hI.update tl .kInUseStoring (some b) rfl hsame rfl (hI.alone (by rw [hpc]; rfl))
      (.inr rfl) ⟨hstatus, ?_⟩ nofun nofun
    show (Function.update σ.buffers tl (some b) tl).isSome
    rw [Function.update_self]
    rfl
  | @returnReleased tl hpc =>
    rw [hpc] at hfits
    obtain ⟨-, hbuffer⟩ := hfits
    exact hI.update tl .kAvailable (σ.buffers tl) rfl rfl (Function.update_eq_self tl _).symm
      (hI.alone (by rw [hpc]; rfl)) (.inl rfl) trivial nofun fun _ ↦ hbuffer

end SlotInvariant

/-! ### The holders -/

/-- Who can hold a buffer. -/
inductive Holder (Tid : Type*)
  /-- A slot of the ring. -/
  | slot (s : ℕ)
  /-- A thread, for itself. -/
  | owner (t : Tid)
  /-- The call of the pool that a thread is in. -/
  | call (t : Tid)

/-- The buffer that a call has. -/
def Pc.carried : Pc Buf → Option Buf
  | .obtainRelease _ buffer => buffer
  | .returnLoadTail buffer => some buffer
  | .returnLoadHead buffer _ => some buffer
  | .returnExchange buffer _ => some buffer
  | .returnAcquire buffer _ => some buffer
  | .returnCheck buffer _ => some buffer
  | .returnMove buffer _ => some buffer
  | .aborted buffer => some buffer
  | _ => none

/-- The holder has the buffer `b`. -/
def Pool.holds (σ : Pool Tid Buf) : Holder Tid → Buf → Prop
  | .slot s, b => σ.buffers s = some b
  | .owner t, b => b ∈ σ.owned t
  | .call t, b => (σ.pc t).carried = some b

section Holds

variable {σ : Pool Tid Buf} {s : ℕ} {t u : Tid} {b c : Buf}

@[simp]
theorem holds_slot : σ.holds (.slot s) b ↔ σ.buffers s = some b := Iff.rfl

@[simp]
theorem holds_owner : σ.holds (.owner t) b ↔ b ∈ σ.owned t := Iff.rfl

@[simp]
theorem holds_call : σ.holds (.call t) b ↔ (σ.pc t).carried = some b := Iff.rfl

variable [DecidableEq Tid]

theorem carried_update (pc : Tid → Pc Buf) (p : Pc Buf) :
    (Function.update pc t p u).carried =
      Function.update (fun v ↦ (pc v).carried) t p.carried u :=
  Function.apply_update (fun _ ↦ Pc.carried) pc t p u

/-- A call gets a buffer. -/
theorem carried_get {p : Pc Buf} (hpc : (σ.pc t).carried = none) (hp : p.carried = some b) :
    (Function.update σ.pc t p u).carried = some c ↔
      (σ.pc u).carried = some c ∨ (u = t ∧ c = b) := by
  rw [carried_update, hp]
  exact Ownership.update_some_eq_some hpc

/-- A call parts with its buffer. -/
theorem carried_put {p : Pc Buf} (hpc : (σ.pc t).carried = some b) (hp : p.carried = none) :
    (Function.update σ.pc t p u).carried = some c ↔
      (σ.pc u).carried = some c ∧ ¬(u = t ∧ c = b) := by
  rw [carried_update, hp]
  exact Ownership.update_none_eq_some hpc

/-- A call that goes on with the buffer it has changes no holdings. -/
theorem holds_frame {τ : Pool Tid Buf} {p : Pc Buf} (hpc : τ.pc = Function.update σ.pc t p)
    (hp : p.carried = (σ.pc t).carried) (hbuffers : τ.buffers = σ.buffers)
    (howned : τ.owned = σ.owned) (k : Holder Tid) (c : Buf) :
    τ.holds k c ↔ σ.holds k c := by
  rcases k with s | u | u
  · rw [holds_slot, holds_slot, hbuffers]
  · rw [holds_owner, holds_owner, howned]
  · rw [holds_call, holds_call, hpc, carried_update, hp, Function.update_eq_self t]

variable [DecidableEq Buf]

theorem mem_give : c ∈ (σ.give t b).owned u ↔ c ∈ σ.owned u ∨ (u = t ∧ c = b) := by
  rw [Pool.give_owned, Function.update_apply]
  split_ifs with hu
  · rw [hu, Finset.mem_insert, or_comm]
    simp
  · simp [hu]

theorem mem_take : c ∈ (σ.take t b).owned u ↔ c ∈ σ.owned u ∧ ¬(u = t ∧ c = b) := by
  rw [Pool.take_owned, Function.update_apply]
  split_ifs with hu
  · rw [hu, Finset.mem_erase, and_comm]
    simp
  · simp [hu]

end Holds

section Change

variable [DecidableEq Tid] [DecidableEq Buf] {σ τ : Pool Tid Buf} {t : Tid} {a : Act Tid Buf}

/-- **Every step changes hands at most once**, if the slots are in order. -/
theorem Step.change (hI : SlotInvariant σ) (hst : Step σ t a τ) :
    Ownership.Change σ.live σ.holds τ.live τ.holds := by
  have hfits := hI.fits t
  cases hst with
  | @allocate b hpc hfresh =>
    rw [show (↑((σ.create b).give t b).live : Set Buf) = insert b ↑σ.live from
      Finset.coe_insert b σ.live]
    refine .acquire (.owner t) b hfresh ?_
    rintro (s | u | u) c
    · simp
    · rw [holds_owner, mem_give]
      simp
    · simp
  | @free b hpc hb =>
    rw [show (↑((σ.take t b).destroy b).live : Set Buf) = ↑σ.live \ {b} from
      Finset.coe_erase b σ.live]
    refine .release (ι := Holder Tid) (.owner t) b hb ?_
    rintro (s | u | u) c
    · simp
    · rw [holds_owner, Pool.destroy_owned, mem_take]
      simp
    · simp
  | @handTo u b hpc hb =>
    refine .move (.owner t) (.owner u) b hb ?_
    rintro (s | v | v) c
    · simp
    · rw [holds_owner, mem_give, mem_take]
      simp
    · simp
  | callObtain hpc | obtainLoadHead hpc | obtainEmpty hpc | obtainLoadTail hpc
  | obtainExchanged hpc | obtainExchangeFailed hpc | obtainAcquired hpc =>
    exact .same (holds_frame rfl (by rw [hpc]; rfl) rfl rfl)
  | returnLoadTail hpc | returnLoadHead hpc | returnExchanged hpc | returnExchangeFailed hpc
  | returnAcquired hpc | returnChecked hpc | returnAborted hpc | returnReleased hpc =>
    exact .same (holds_frame rfl (by rw [hpc]; rfl) rfl rfl)
  | obtainAcquireFailed | returnAcquireFailed => exact .same fun _ _ ↦ Iff.rfl
  | @obtainMoved h hpc =>
    rw [hpc] at hfits
    obtain ⟨b, hb⟩ := Option.isSome_iff_exists.1 hfits.2
    refine .move (.slot h) (.call t) b hb ?_
    rintro (s | u | u) c
    · simpa using Ownership.update_none_eq_some hb
    · simp
    · simpa [hb] using carried_get (p := .obtainRelease h (some b)) (congrArg Pc.carried hpc) rfl
  | @obtainReleased h buffer hpc =>
    rw [hpc] at hfits
    obtain ⟨b, rfl⟩ := Option.isSome_iff_exists.1 hfits.2.2
    have hb : (σ.pc t).carried = some b := congrArg Pc.carried hpc
    refine .move (.call t) (.owner t) b hb ?_
    rintro (s | u | u) c
    · simp
    · show c ∈ ((σ.setStatus h .kEmpty).give t b).owned u ↔ _
      rw [mem_give]
      simp
    · simpa using carried_put hb rfl
  | @callReturn b hpc hb =>
    refine .move (.owner t) (.call t) b hb ?_
    rintro (s | u | u) c
    · simp
    · simpa using mem_take
    · simpa using carried_get (congrArg Pc.carried hpc) rfl
  | @returnFull b tl hpc =>
    have hb : (σ.pc t).carried = some b := congrArg Pc.carried hpc
    rw [show (↑((σ.destroy b).goto t .idle).live : Set Buf) = ↑σ.live \ {b} from
      Finset.coe_erase b σ.live]
    refine .release (ι := Holder Tid) (.call t) b hb ?_
    rintro (s | u | u) c
    · simp
    · simp
    · simpa using carried_put hb rfl
  | @returnMoved b tl hpc =>
    rw [hpc] at hfits
    obtain ⟨-, hnull⟩ := hfits
    have hb : (σ.pc t).carried = some b := congrArg Pc.carried hpc
    rw [hnull]
    refine .move (.call t) (.slot tl) b hb ?_
    rintro (s | u | u) c
    · simpa using Ownership.update_some_eq_some hnull
    · simp
    · simpa using carried_put hb rfl

/-- What holds of the pool in every state it reaches. -/
structure PoolInvariant (σ : Pool Tid Buf) : Prop where
  bounds : InBounds σ
  slots : SlotInvariant σ
  linear : Linear (σ.live : Set Buf) σ.holds

omit [DecidableEq Tid] [DecidableEq Buf] in
theorem PoolInvariant.init : PoolInvariant ({} : Pool Tid Buf) where
  bounds := InBounds.init
  slots := SlotInvariant.init
  linear := by
    rw [show (({} : Pool Tid Buf).live : Set Buf) = ∅ from Finset.coe_empty]
    refine Linear.empty ?_
    rintro (s | u | u) b h <;> simp [Pc.carried] at h

theorem PoolInvariant.step (hI : PoolInvariant σ) (hst : Step σ t a τ) : PoolInvariant τ where
  bounds := hI.bounds.step hst
  slots := hI.slots.step hst
  linear := hI.linear.change (hst.change hI.slots)

theorem PoolInvariant.run {h : List (Label Tid Buf)} (hr : (bufferPool Tid Buf).Run {} h σ) :
    PoolInvariant σ :=
  hr.invariant (fun _ _ _ hI hst ↦ hI.step (Pool.next?_eq_some_iff.1 hst)) .init

/-- Nothing is lost, doubled or missing in the pool. -/
structure Sound (σ : Pool Tid Buf) : Prop where
  /-- A buffer that exists is held by exactly one slot, thread or call. -/
  held_once : ∀ b ∈ σ.live, ∃! k, σ.holds k b
  /-- Only buffers that exist are held. -/
  held_live : ∀ k b, σ.holds k b → b ∈ σ.live
  /-- A slot that holds a buffer is one of the ring. -/
  slot_lt : ∀ s b, σ.holds (.slot s) b → s < kMaxPoolSize
  /-- No buffer has been handed to two threads. -/
  owned_once : ∀ t u b, b ∈ σ.owned t → b ∈ σ.owned u → t = u
  available : ∀ s, σ.status s = .kAvailable → σ.buffers s ≠ none
  empty : ∀ s, σ.status s = .kEmpty → σ.buffers s = none
  /-- At most one thread is in the section of a slot. -/
  inside_unique : ∀ t u s, (σ.pc t).inside = some s → (σ.pc u).inside = some s → t = u
  /-- `ObtainBuffer` moves a pointer out of its slot that is not null. -/
  move_nonnull : ∀ t s, σ.pc t = .obtainMove s → σ.buffers s ≠ none
  /-- The check of `ReturnBuffer` is about to succeed. -/
  check_null : ∀ t b s, σ.pc t = .returnCheck b s → σ.buffers s = none
  not_aborted : ∀ t b, σ.pc t ≠ .aborted b

/-- **Ownership in the buffer pool is linear**, in every state that any number of threads can
reach. -/
theorem pool_ownership_linear {h : List (Label Tid Buf)}
    (hr : (bufferPool Tid Buf).Run {} h σ) : Sound σ := by
  obtain ⟨hbounds, hslots, hlinear⟩ := PoolInvariant.run hr
  -- what a thread relies on at the place where it stands
  have hfits : ∀ {t p}, σ.pc t = p → p.Fits σ.status σ.buffers := by
    rintro t p rfl
    exact hslots.fits t
  exact {
    held_once _ hb := hlinear.existsUnique hb
    held_live _ _ hk := hlinear.live_of_holds hk
    slot_lt := hbounds.buffer_lt
    owned_once t u b ht hu := by
      have hsame : Holder.owner t = .owner u := hlinear.holder_unique (a := b) ht hu
      exact Holder.owner.inj hsame
    available s hs := Option.isSome_iff_ne_none.1 (hslots.available s hs)
    empty := hslots.empty
    inside_unique := hslots.exclusive
    move_nonnull t s hpc := by
      obtain ⟨-, hbuffer⟩ := hfits hpc
      exact Option.isSome_iff_ne_none.1 hbuffer
    check_null t b s hpc := by
      obtain ⟨-, hnull⟩ := hfits hpc
      exact hnull
    not_aborted t b hpc := hfits hpc }

end Change

/-- A buffer is put into the pool by one thread while another waits for it. -/
def sampleHistory : List (Label Bool ℕ) :=
  [⟨false, .allocate 7⟩, ⟨false, .callReturn 7⟩, ⟨false, .load .tail⟩, ⟨false, .load .head⟩,
    ⟨false, .exchanged .tail 0⟩, ⟨true, .callObtain⟩, ⟨true, .load .head⟩, ⟨true, .load .tail⟩,
    ⟨true, .exchanged .head 0⟩, ⟨true, .acquireFailed 0⟩, ⟨false, .acquired 0 .kInUseStoring⟩,
    ⟨false, .checked 0⟩, ⟨false, .moved 0⟩, ⟨false, .released 0 .kAvailable⟩,
    ⟨true, .acquired 0 .kInUseLoading⟩]

/-- The other thread has just got the slot. -/
def sampleState : Pool Bool ℕ :=
  (Pool.exec {} sampleHistory).get rfl

theorem sampleState_sound :
    sampleState.pc true = .obtainMove 0 ∧ sampleState.buffers 0 = some 7 ∧ Sound sampleState :=
  ⟨rfl, rfl, pool_ownership_linear (run_of_exec (Option.some_get _).symm)⟩

end BufferPool
