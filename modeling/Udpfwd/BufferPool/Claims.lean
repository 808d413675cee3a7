import Mathlib.Data.Nat.Count
import Mathlib.Tactic.Ring
import Udpfwd.BufferPool.Ownership
import Udpfwd.Transition.Census

/-!
# Counting the claims on the pool

A successful exchange of `head` or `tail` is a *claim*: the first of a slot that a buffer will
be taken from, the second of a slot that a buffer will be put into. The history of a run says
how many claims there have been; the indices only say it modulo the size of the ring.

* `Counted.index_eq` — an index is the number of claims on it, modulo the size of the ring;
* `Counted.sampled` — so is the value that a thread has read, for the number of claims when the
  thread read it;
* `SlotUse` — the calls that wait for a slot or are about to fill it, counted by the claims on
  that slot.
-/

namespace BufferPool

variable {Tid Buf : Type*} [DecidableEq Tid] [DecidableEq Buf]

/-! ### Claims -/

/-- The index that an access claims a slot by. -/
def Act.claimed : Act Tid Buf → Option Index
  | .exchanged i _ => some i
  | _ => none

/-- The number of claims on an index. -/
def claims (i : Index) (h : List (Label Tid Buf)) : ℕ :=
  h.countP fun l ↦ l.act.claimed = some i

/-- The number of claims on an index since thread `t` last read it. -/
def claimsSince (i : Index) (t : Tid) (h : List (Label Tid Buf)) : ℕ :=
  h.foldl (fun n l ↦ if l = ⟨t, .load i⟩ then 0 else
    if l.act.claimed = some i then n + 1 else n) 0

/-- The number of claims on an index when thread `t` last read it. -/
def claimsRead (i : Index) (t : Tid) (h : List (Label Tid Buf)) : ℕ :=
  claims i h - claimsSince i t h

/-- The number of times that an access has been made. -/
def occurrences (a : Act Tid Buf) (h : List (Label Tid Buf)) : ℕ :=
  h.countP fun l ↦ l.act = a

section Claims

variable {i : Index} {t : Tid} {a : Act Tid Buf} {h : List (Label Tid Buf)}
  {l : Label Tid Buf}

omit [DecidableEq Tid] [DecidableEq Buf] in
theorem claims_snoc :
    claims i (h ++ [l]) = claims i h + if l.act.claimed = some i then 1 else 0 := by
  simp [claims, List.countP_append, List.countP_cons]

omit [DecidableEq Tid] [DecidableEq Buf] in
@[simp]
theorem claims_snoc_exchanged {x : ℕ} :
    claims i (h ++ [⟨t, .exchanged i x⟩]) = claims i h + 1 := by
  rw [claims_snoc]
  exact congrArg _ (if_pos rfl)

omit [DecidableEq Tid] [DecidableEq Buf] in
theorem claims_snoc_of_ne (ha : a.claimed ≠ some i) :
    claims i (h ++ [⟨t, a⟩]) = claims i h := by
  rw [claims_snoc]
  exact congrArg _ (if_neg ha)

omit [DecidableEq Tid] [DecidableEq Buf] in
theorem claims_append {h' : List (Label Tid Buf)} :
    claims i (h ++ h') = claims i h + claims i h' :=
  List.countP_append

omit [DecidableEq Tid] [DecidableEq Buf] in
theorem claims_le_snoc : claims i h ≤ claims i (h ++ [l]) := by
  rw [claims_append]
  omega

theorem claimsSince_snoc :
    claimsSince i t (h ++ [l]) = if l = ⟨t, .load i⟩ then 0 else
      if l.act.claimed = some i then claimsSince i t h + 1 else claimsSince i t h := by
  rw [claimsSince, List.foldl_append]
  rfl

theorem claimsSince_le : claimsSince i t h ≤ claims i h := by
  induction h using List.reverseRecOn with
  | nil => exact Nat.le_refl 0
  | append_singleton h l ih =>
    rw [claimsSince_snoc, claims_snoc]
    split_ifs <;> omega

theorem claimsRead_add_claimsSince : claimsRead i t h + claimsSince i t h = claims i h :=
  Nat.sub_add_cancel claimsSince_le

theorem claimsRead_snoc_load : claimsRead i t (h ++ [⟨t, .load i⟩]) = claims i h := by
  rw [claimsRead, claims_snoc, claimsSince_snoc, if_pos rfl]
  rfl

theorem claimsRead_snoc_of_ne (hl : l ≠ ⟨t, .load i⟩) :
    claimsRead i t (h ++ [l]) = claimsRead i t h := by
  have hle := claimsSince_le (i := i) (t := t) (h := h)
  rw [claimsRead, claimsRead, claims_snoc, claimsSince_snoc, if_neg hl]
  split_ifs <;> omega

theorem occurrences_snoc :
    occurrences a (h ++ [l]) = occurrences a h + if l.act = a then 1 else 0 := by
  simp [occurrences, List.countP_append, List.countP_cons]

end Claims

/-! ### What a step does to the indices -/

/-- The value of an index. -/
def Pool.index (σ : Pool Tid Buf) : Index → ℕ
  | .head => σ.head
  | .tail => σ.tail

/-- The index that is compared with an index before a claim on it. -/
def Index.other : Index → Index
  | .head => .tail
  | .tail => .head

/-- A value read off an index, for a claim on it. -/
structure Sample where
  index : Index
  value : ℕ
  /-- It has been compared with the other index. -/
  tested : Bool

/-- The value that a thread is about to make a claim with. -/
def Pc.sample : Pc Buf → Option Sample
  | .obtainLoadTail h => some ⟨.head, h, false⟩
  | .obtainExchange h => some ⟨.head, h, true⟩
  | .returnLoadHead _ t => some ⟨.tail, t, false⟩
  | .returnExchange _ t => some ⟨.tail, t, true⟩
  | _ => none

/-- The test before a claim: no slot seems to be left. -/
def Pool.exhausted (σ : Pool Tid Buf) : Index → ℕ → Prop
  | .head, h => h = σ.tail
  | .tail, t => (t + 1) % kMaxPoolSize = σ.head

/-- One step, as the indices and the values read off them see it. -/
inductive IndexStep (σ : Pool Tid Buf) (t : Tid) : Act Tid Buf → Pool Tid Buf → Prop
  /-- An index is read. -/
  | loaded {i : Index} {τ : Pool Tid Buf}
      (hafter : (τ.pc t).sample = some ⟨i, σ.index i, false⟩) (hindex : τ.index = σ.index) :
      IndexStep σ t (.load i) τ
  /-- The value is compared with the other index. -/
  | tested {i : Index} {x : ℕ} {τ : Pool Tid Buf}
      (hbefore : (σ.pc t).sample = some ⟨i, x, false⟩) (hne : ¬σ.exhausted i x)
      (hafter : (τ.pc t).sample = some ⟨i, x, true⟩) (hindex : τ.index = σ.index) :
      IndexStep σ t (.load i.other) τ
  /-- A slot is claimed. -/
  | claimed {i : Index} {x : ℕ} {τ : Pool Tid Buf}
      (hbefore : (σ.pc t).sample = some ⟨i, x, true⟩) (hvalue : σ.index i = x)
      (hafter : (τ.pc t).sample = none)
      (hindex : τ.index = Function.update σ.index i ((x + 1) % kMaxPoolSize)) :
      IndexStep σ t (.exchanged i x) τ
  | other {a : Act Tid Buf} {τ : Pool Tid Buf} (hclaim : a.claimed = none)
      (hafter : (τ.pc t).sample = none) (hindex : τ.index = σ.index) : IndexStep σ t a τ

namespace Step

variable {σ τ : Pool Tid Buf} {t : Tid} {a : Act Tid Buf}

/-- A step of one thread leaves the others where they are. -/
theorem pc_frame (hst : Step σ t a τ) {u : Tid} (hu : u ≠ t) : τ.pc u = σ.pc u := by
  cases hst <;> simp [Function.update_of_ne hu]

/-- The indices change by claims only. -/
theorem index (hst : Step σ t a τ) : IndexStep σ t a τ := by
  cases hst with
  | obtainLoadHead | returnLoadTail =>
    exact .loaded (by rw [Pool.goto_pc, Function.update_self]; rfl) rfl
  | @obtainLoadTail h hpc hne =>
    exact .tested (i := .head) (by rw [hpc]; rfl) hne
      (by rw [Pool.goto_pc, Function.update_self]; rfl) rfl
  | @returnLoadHead b tl hpc hne =>
    exact .tested (i := .tail) (by rw [hpc]; rfl) hne
      (by rw [Pool.goto_pc, Function.update_self]; rfl) rfl
  | @obtainExchanged h hpc hhead =>
    refine .claimed (by rw [hpc]; rfl) hhead (by rw [Pool.goto_pc, Function.update_self]; rfl) ?_
    funext i
    cases i <;> rfl
  | @returnExchanged b tl hpc htail =>
    refine .claimed (by rw [hpc]; rfl) htail (by rw [Pool.goto_pc, Function.update_self]; rfl) ?_
    funext i
    cases i <;> rfl
  | allocate hpc | free hpc | handTo hpc | obtainAcquireFailed hpc | returnAcquireFailed hpc =>
    exact .other rfl (congrArg Pc.sample hpc) rfl
  | _ => exact .other rfl (by rw [Pool.goto_pc, Function.update_self]; rfl) rfl

/-- A claim is made with a value that has been tested and still is the value of the index. -/
theorem exists_of_claimed (hst : Step σ t a τ) {i : Index} (ha : a.claimed = some i) :
    ∃ x, a = .exchanged i x ∧ (σ.pc t).sample = some ⟨i, x, true⟩ ∧ σ.index i = x := by
  cases hst.index with
  | loaded | tested => cases ha
  | @claimed j x _ hbefore hvalue hafter hindex =>
    obtain rfl := Option.some.inj ha
    exact ⟨x, rfl, hbefore, hvalue⟩
  | other hclaim hafter hindex => cases hclaim.symm.trans ha

end Step

/-! ### The indices, by the claims -/

/-- What the history says of the indices and of the values read off them. -/
structure Counted (h : List (Label Tid Buf)) (σ : Pool Tid Buf) : Prop where
  index_eq : ∀ i, σ.index i = claims i h % kMaxPoolSize
  value_eq : ∀ t s, (σ.pc t).sample = some s → s.value = claimsRead s.index t h % kMaxPoolSize
  /-- The slots are claimed in turn. -/
  slot_eq : ∀ i s, occurrences (.exchanged i s) h =
    Nat.count (fun n ↦ n % kMaxPoolSize = s) (claims i h)

theorem Index.other_ne (i : Index) : i.other ≠ i := by
  cases i <;> decide

/-- A value that a thread is about to make a claim with has just been read, or was there before;
in that case it has not been read again, and it has been tested only if the pool did not look
exhausted. -/
theorem Step.sample {σ τ : Pool Tid Buf} {h : List (Label Tid Buf)} {t u : Tid}
    {a : Act Tid Buf} {s : Sample} (hst : Step σ t a τ) (hs : (τ.pc u).sample = some s) :
    (s.value = σ.index s.index ∧ s.tested = false ∧
        claimsRead s.index u (h ++ [⟨t, a⟩]) = claims s.index h) ∨
      ∃ b, (σ.pc u).sample = some ⟨s.index, s.value, b⟩ ∧
        claimsRead s.index u (h ++ [⟨t, a⟩]) = claimsRead s.index u h ∧
        (s.tested = true → b = true ∨ ¬σ.exhausted s.index s.value) := by
  by_cases hu : u = t
  · subst hu
    cases hst.index with
    | loaded hafter hindex =>
      obtain rfl := Option.some.inj (hafter.symm.trans hs)
      exact .inl ⟨rfl, rfl, claimsRead_snoc_load⟩
    | @tested i x _ hbefore hne hafter hindex =>
      obtain rfl := Option.some.inj (hafter.symm.trans hs)
      refine .inr ⟨false, hbefore, claimsRead_snoc_of_ne ?_, fun _ ↦ .inr hne⟩
      simpa using i.other_ne
    | claimed hbefore hvalue hafter hindex => cases hafter.symm.trans hs
    | other hclaim hafter hindex => cases hafter.symm.trans hs
  · refine .inr ⟨s.tested, ?_, claimsRead_snoc_of_ne ?_, .inl⟩
    · rw [← hst.pc_frame hu]
      exact hs
    · rintro ⟨⟩
      exact hu rfl

namespace Counted

variable {σ τ : Pool Tid Buf} {h : List (Label Tid Buf)} {t : Tid} {a : Act Tid Buf}

theorem init : Counted [] ({} : Pool Tid Buf) where
  index_eq i := by cases i <;> rfl
  value_eq _ _ hs := nomatch hs
  slot_eq _ _ := (Nat.count_zero _).symm

theorem step (hI : Counted h σ) (hst : Step σ t a τ) : Counted (h ++ [⟨t, a⟩]) τ where
  index_eq j := by
    cases hst.index with
    | loaded hafter hindex | tested hbefore hne hafter hindex =>
      rw [hindex, hI.index_eq, claims_snoc_of_ne (by simp [Act.claimed])]
    | @claimed i x _ hbefore hvalue hafter hindex =>
      rw [hindex]
      by_cases hj : j = i
      · subst hj
        rw [Function.update_self, claims_snoc_exchanged, ← hvalue, hI.index_eq, Nat.mod_add_mod]
      · rw [Function.update_of_ne hj, hI.index_eq, claims_snoc_of_ne]
        exact fun h ↦ hj (Option.some.inj h).symm
    | other hclaim hafter hindex =>
      rw [hindex, hI.index_eq, claims_snoc_of_ne (by simp [hclaim])]
  value_eq u s hs := by
    rcases hst.sample hs with ⟨hvalue, -, hread⟩ | ⟨b, hbefore, hread, -⟩
    · rw [hvalue, hread]
      exact hI.index_eq s.index
    · rw [hread]
      exact hI.value_eq u ⟨s.index, s.value, b⟩ hbefore
  slot_eq j s := by
    by_cases ha : a.claimed = some j
    · obtain ⟨x, rfl, -, hx⟩ := hst.exists_of_claimed ha
      rw [claims_snoc_exchanged, Nat.count_succ, ← hI.slot_eq, occurrences_snoc, ← hI.index_eq, hx]
      simp
    · rw [claims_snoc_of_ne ha, ← hI.slot_eq, occurrences_snoc, if_neg, Nat.add_zero]
      rintro rfl
      exact ha rfl

theorem run (hr : (bufferPool Tid Buf).Run {} h σ) : Counted h σ :=
  hr.historyInvariant init fun _ _ _ _ _ hI hst ↦ hI.step (Pool.next?_eq_some_iff.1 hst)

end Counted

/-! ### The calls at one slot -/

/-- The slot that a call of `ObtainBuffer` waits for. -/
def Pc.waiting : Pc Buf → Option ℕ
  | .obtainAcquire h => some h
  | _ => none

/-- The slot that a call of `ReturnBuffer` has claimed and is going to fill. -/
def Pc.filling : Pc Buf → Option ℕ
  | .returnAcquire _ t => some t
  | .returnCheck _ t => some t
  | .returnMove _ t => some t
  | .returnRelease t => some t
  | _ => none

section Steps

variable {σ τ : Pool Tid Buf} {t : Tid} {a enter leave : Act Tid Buf} {P : Pc Buf → Prop}
  {s : ℕ} {h : List (Label Tid Buf)}

/-- What a step does to the property `P` of a thread, where `enter` and `leave` are the accesses
that begin and end it. -/
structure Transfer (σ τ : Pool Tid Buf) (t : Tid) (a enter leave : Act Tid Buf)
    (P : Pc Buf → Prop) : Prop where
  entered : a = enter → ¬P (σ.pc t) ∧ P (τ.pc t)
  left : a = leave → P (σ.pc t) ∧ ¬P (τ.pc t)
  stayed : a ≠ enter → a ≠ leave → (P (τ.pc t) ↔ P (σ.pc t))

/-- The threads with a property are those that have entered it and have not left. -/
theorem Transfer.count (hP : Transfer σ τ t a enter leave P) (hst : Step σ t a τ)
    (h₀ : census P σ.pc + occurrences leave h = occurrences enter h) :
    census P τ.pc + occurrences leave (h ++ [⟨t, a⟩]) = occurrences enter (h ++ [⟨t, a⟩]) := by
  have hpc : τ.pc = Function.update σ.pc t (τ.pc t) := by
    funext u
    by_cases hu : u = t
    · rw [hu, Function.update_self]
    · rw [Function.update_of_ne hu, hst.pc_frame hu]
  rw [occurrences_snoc, occurrences_snoc, hpc]
  by_cases henter : a = enter
  · obtain ⟨hbefore, hafter⟩ := hP.entered henter
    have hleave : a ≠ leave := fun h ↦ hbefore (hP.left h).1
    rw [census.enter hbefore hafter, if_pos henter, if_neg hleave]
    push_cast
    rw [← h₀]
    ring
  · by_cases hleave : a = leave
    · obtain ⟨hbefore, hafter⟩ := hP.left hleave
      rw [if_neg henter, if_pos hleave, add_zero, ← h₀, ← census.leave hbefore hafter]
      push_cast
      ring
    · rw [census.stay (hP.stayed henter hleave), if_neg henter, if_neg hleave]
      exact h₀

theorem Step.waiting (hst : Step σ t a τ) (s : ℕ) :
    Transfer σ τ t a (.exchanged .head s) (.acquired s .kInUseLoading)
      fun p ↦ p.waiting = some s where
  entered ha := by
    subst ha
    cases hst with
    | obtainExchanged hpc => simp [hpc, Pc.waiting]
  left ha := by
    subst ha
    cases hst with
    | obtainAcquired hpc => simp [hpc, Pc.waiting]
  stayed henter hleave := by
    cases hst <;> simp_all [Pc.waiting]

theorem Step.filling (hI : SlotInvariant σ) (hst : Step σ t a τ) (s : ℕ) :
    Transfer σ τ t a (.exchanged .tail s) (.released s .kAvailable)
      fun p ↦ p.filling = some s where
  entered ha := by
    subst ha
    cases hst with
    | returnExchanged hpc => simp [hpc, Pc.filling]
  left ha := by
    subst ha
    cases hst with
    | returnReleased hpc => simp [hpc, Pc.filling]
  stayed henter hleave := by
    cases hst with
    | @returnAborted b tl hpc hnull =>
      have hfits := hI.fits t
      rw [hpc] at hfits
      exact absurd hfits.2 hnull
    | _ => simp_all [Pc.filling]

/-- A slot becomes available at the end of a `ReturnBuffer`, and stops being so when an
`ObtainBuffer` acquires it. -/
theorem Step.available (hI : SlotInvariant σ) (hst : Step σ t a τ)
    (h₀ : occurrences (.released s .kAvailable) h =
      occurrences (.acquired s .kInUseLoading) h + if σ.status s = .kAvailable then 1 else 0) :
    occurrences (.released s .kAvailable) (h ++ [⟨t, a⟩]) =
      occurrences (.acquired s .kInUseLoading) (h ++ [⟨t, a⟩]) +
        if τ.status s = .kAvailable then 1 else 0 := by
  have hfits := hI.fits t
  rw [occurrences_snoc, occurrences_snoc, h₀]
  cases hst with
  | @obtainAcquired h hpc hstatus =>
    by_cases hs : s = h
    · simp [hs, hstatus]
    · simp [hs, Ne.symm hs]
  | @obtainReleased h buffer hpc =>
    rw [hpc] at hfits
    by_cases hs : s = h
    · simp [hs, hfits.1]
    · simp [hs]
  | @returnAcquired b tl hpc hstatus =>
    by_cases hs : s = tl
    · simp [hs, hstatus]
    · simp [hs]
  | @returnReleased tl hpc =>
    rw [hpc] at hfits
    by_cases hs : s = tl
    · simp [hs, hfits.1]
    · simp [hs, Ne.symm hs]
  | _ => simp

end Steps

/-- The calls at each slot, by the claims on it. -/
structure SlotUse (h : List (Label Tid Buf)) (σ : Pool Tid Buf) : Prop where
  waiting : ∀ s, census (fun p ↦ p.waiting = some s) σ.pc +
    occurrences (.acquired s .kInUseLoading) h = occurrences (.exchanged .head s) h
  filling : ∀ s, census (fun p ↦ p.filling = some s) σ.pc +
    occurrences (.released s .kAvailable) h = occurrences (.exchanged .tail s) h
  available : ∀ s, occurrences (.released s .kAvailable) h =
    occurrences (.acquired s .kInUseLoading) h + if σ.status s = .kAvailable then 1 else 0

namespace SlotUse

variable {σ τ : Pool Tid Buf} {h : List (Label Tid Buf)} {t : Tid} {a : Act Tid Buf}

theorem init : SlotUse [] ({} : Pool Tid Buf) where
  waiting s := by
    rw [census.eq_zero fun _ ↦ nofun]
    rfl
  filling s := by
    rw [census.eq_zero fun _ ↦ nofun]
    rfl
  available _ := rfl

theorem step (hU : SlotUse h σ) (hI : SlotInvariant σ) (hst : Step σ t a τ) :
    SlotUse (h ++ [⟨t, a⟩]) τ where
  waiting s := (hst.waiting s).count hst (hU.waiting s)
  filling s := (hst.filling hI s).count hst (hU.filling s)
  available s := hst.available hI (hU.available s)

theorem run (hr : (bufferPool Tid Buf).Run {} h σ) : SlotUse h σ :=
  hr.historyInvariant init fun _ _ _ _ hr' hU hst ↦
    hU.step (PoolInvariant.run hr').slots (Pool.next?_eq_some_iff.1 hst)

/-- **Every call that waits for a slot has its own buffer to come**: as long as there are no more
claims on `head` than on `tail`, the calls that wait for a slot are no more than the calls that
are going to fill it, and one more if it is available. -/
theorem waiting_le (hU : SlotUse h σ) (hC : Counted h σ)
    (hle : claims .head h ≤ claims .tail h) (s : ℕ) :
    census (fun p ↦ p.waiting = some s) σ.pc ≤
      census (fun p ↦ p.filling = some s) σ.pc +
        if σ.status s = .kAvailable then 1 else 0 := by
  have hclaims : occurrences (.exchanged .head s) h ≤ occurrences (.exchanged .tail s) h := by
    rw [hC.slot_eq, hC.slot_eq]
    exact Nat.count_monotone _ hle
  have hcast : (occurrences (.exchanged .head s) h : ℕ∞) ≤ occurrences (.exchanged .tail s) h :=
    Nat.cast_le.2 hclaims
  rw [← hU.waiting, ← hU.filling, hU.available] at hcast
  refine (ENat.add_le_add_iff_right (ENat.natCast_ne_top
    (occurrences (.acquired s .kInUseLoading) h))).1 (hcast.trans (le_of_eq ?_))
  push_cast
  ring

end SlotUse

end BufferPool
