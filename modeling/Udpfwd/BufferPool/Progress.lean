import Mathlib.Algebra.Order.BigOperators.Group.Finset
import Mathlib.Data.Fintype.Card
import Udpfwd.BufferPool.Quiescence
import Udpfwd.Transition.Progress

/-!
# No deadlock in the pool

A call that has made its claim may have to wait for its slot. As long as no thread has been
overtaken, the thread that it waits for can go on: if nobody is inside a slot, a call that waits
for a full slot to be emptied comes with one that waits to empty it, and the other way round
(`OnTime.exists_advance`). So from every state that such a run reaches, all calls can be
brought to their ends, with no new call made, and the pool is a queue again
(`pool_drains`).
-/

open BoundedQueue

namespace BufferPool

variable {Tid Buf : Type*}

/-- The steps that a call still has to take after its claim. -/
def Pc.pending : Pc Buf → ℕ
  | .obtainAcquire _ => 3
  | .obtainMove _ => 2
  | .obtainRelease _ _ => 1
  | .returnAcquire _ _ => 4
  | .returnCheck _ _ => 3
  | .returnMove _ _ => 2
  | .returnRelease _ => 1
  | _ => 0

theorem Pc.inCall_iff {p : Pc Buf} : p.inCall = true ↔ p ≠ .idle := by
  cases p <;> simp [Pc.inCall]

theorem Pc.inCall_of_pending {p : Pc Buf} (hp : p.pending ≠ 0) : p.inCall = true := by
  cases p <;> first | rfl | exact absurd rfl hp

variable [DecidableEq Tid] [DecidableEq Buf]

/-- The pool while no thread makes a new call: only threads that are in a call take steps. -/
def finishing (Tid Buf : Type*) [DecidableEq Tid] [DecidableEq Buf] :
    LTS (Pool Tid Buf) (Label Tid Buf) where
  step σ l τ := (σ.pc l.thread).inCall = true ∧ σ.next? l.thread l.act = some τ

/-- A run in which no thread has been overtaken. -/
structure OnTime (h : List (Label Tid Buf)) (σ : Pool Tid Buf) : Prop where
  run : (bufferPool Tid Buf).Run {} h σ
  not_overtaken : ∀ past ρ l τ, (bufferPool Tid Buf).StepIn {} h past ρ l τ → ¬Overtaken past l

/-- A call takes a step after its claim. -/
structure Advance (σ : Pool Tid Buf) (t : Tid) (a : Act Tid Buf) (τ : Pool Tid Buf) : Prop where
  step : Step σ t a τ
  unclaimed : a.claimed = none
  pending : (τ.pc t).pending + 1 = (σ.pc t).pending
  /-- After the last of the steps the call has returned. -/
  returned : (τ.pc t).pending = 0 → τ.pc t = .idle

section Steps

variable {σ τ ρ : Pool Tid Buf} {h : List (Label Tid Buf)} {t : Tid} {a : Act Tid Buf}
  {s : ℕ} {b : Buf} {p : Pc Buf}

theorem OnTime.inRange (hT : OnTime h σ) : InRange h σ :=
  InRange.run hT.run hT.not_overtaken

theorem OnTime.snoc (hT : OnTime h σ) (hst : Step σ t a τ) (hnot : ¬Overtaken h ⟨t, a⟩) :
    OnTime (h ++ [⟨t, a⟩]) τ where
  run := hT.run.snoc (Pool.next?_eq_some_iff.2 hst)
  not_overtaken past ρ l τ hin := by
    rcases hin.of_snoc with hin | ⟨rfl, rfl⟩
    · exact hT.not_overtaken past ρ l τ hin
    · exact hnot

/-- Only a claim can be made too late. -/
theorem not_overtaken_of_unclaimed (ha : a.claimed = none) : ¬Overtaken h ⟨t, a⟩ := by
  rintro ⟨i, v, rfl, -, -⟩
  exact absurd ha (by simp [Act.claimed])

/-- A claim that follows the thread's reading the index is on time. -/
theorem not_overtaken_of_claimsSince {i : Index} {v : ℕ} (hsince : claimsSince i t h = 0) :
    ¬Overtaken h ⟨t, .exchanged i v⟩ := by
  rintro ⟨j, w, hact, hle, -⟩
  obtain ⟨rfl, rfl⟩ := Act.exchanged.inj hact
  rw [hsince] at hle
  exact absurd hle (by decide)

/-! ### What a call waits for -/

theorem Advance.goto {q : Pc Buf} (hst : Step σ t a (ρ.goto t q)) (hpc : σ.pc t = p)
    (ha : a.claimed = none) (hpending : q.pending + 1 = p.pending)
    (hreturned : q.pending = 0 → q = .idle) : Advance σ t a (ρ.goto t q) :=
  ⟨hst, ha, by rw [Pool.goto_pc_self, hpc, hpending], by rwa [Pool.goto_pc_self]⟩

/-- A thread that is inside a slot can go on. -/
theorem SlotInvariant.exists_advance (hI : SlotInvariant σ) (hin : (σ.pc t).inside = some s) :
    ∃ a τ, Advance σ t a τ := by
  have hfits := hI.fits t
  rcases hpc : σ.pc t
  case obtainMove => exact ⟨_, _, .goto (.obtainMoved hpc) hpc rfl rfl (by simp [Pc.pending])⟩
  case obtainRelease => exact ⟨_, _, .goto (.obtainReleased hpc) hpc rfl rfl fun _ ↦ rfl⟩
  case returnCheck =>
    rw [hpc] at hfits
    exact ⟨_, _, .goto (.returnChecked hpc hfits.2) hpc rfl rfl (by simp [Pc.pending])⟩
  case returnMove => exact ⟨_, _, .goto (.returnMoved hpc) hpc rfl rfl (by simp [Pc.pending])⟩
  case returnRelease => exact ⟨_, _, .goto (.returnReleased hpc) hpc rfl rfl fun _ ↦ rfl⟩
  all_goals
    rw [hpc] at hin
    exact absurd hin (by simp [Pc.inside])

/-- The calls that are going to fill a slot, and the buffer that is in it, are no more than the
calls that wait to empty it, and one: every other buffer has been claimed. -/
theorem SlotUse.filling_le (hU : SlotUse h σ) (hC : Counted h σ)
    (hle : claims .tail h ≤ claims .head h + kMaxPoolSize) (s : ℕ) :
    census (fun p ↦ p.filling = some s) σ.pc + (if σ.status s = .kAvailable then 1 else 0) ≤
      census (fun p ↦ p.waiting = some s) σ.pc + 1 := by
  have hclaims : occurrences (.exchanged .tail s) h ≤ occurrences (.exchanged .head s) h + 1 := by
    rw [hC.slot_eq, hC.slot_eq]
    exact count_slot_le hle
  have hcast : (occurrences (.exchanged .tail s) h : ℕ∞) ≤
      occurrences (.exchanged .head s) h + 1 := by
    exact_mod_cast hclaims
  rw [← hU.waiting, ← hU.filling, hU.available] at hcast
  refine (ENat.add_le_add_iff_right (ENat.natCast_ne_top
    (occurrences (.acquired s .kInUseLoading) h))).1 (le_trans (le_of_eq ?_) (hcast.trans
      (le_of_eq ?_)))
  · push_cast
    ring
  · ring

/-- A call that waits for an empty slot comes with one that is going to fill it. -/
theorem OnTime.exists_filling (hT : OnTime h σ) {s : ℕ} (hwaiting : (σ.pc t).waiting = some s)
    (hempty : σ.status s = .kEmpty) : ∃ u, (σ.pc u).filling = some s := by
  have hle := (SlotUse.run hT.run).waiting_le (.run hT.run) (hT.inRange.claims_le .head) s
  rw [hempty, if_neg (by simp), add_zero] at hle
  have hne : census (fun p ↦ p.waiting = some s) σ.pc ≠ 0 := census.ne_zero_iff.2 ⟨t, hwaiting⟩
  exact census.ne_zero_iff.1 fun hnone ↦ hne (nonpos_iff_eq_zero.1 (hnone ▸ hle))

/-- A call that is to fill a full slot comes with one that waits to empty it. -/
theorem OnTime.exists_waiting (hT : OnTime h σ) {s : ℕ} (hfilling : (σ.pc t).filling = some s)
    (havailable : σ.status s = .kAvailable) : ∃ u, (σ.pc u).waiting = some s := by
  have hle := (SlotUse.run hT.run).filling_le (.run hT.run)
    ((hT.inRange.claims_le .tail).trans (Nat.add_le_add_left (Nat.sub_le _ 1) _)) s
  rw [havailable, if_pos rfl] at hle
  have hle := (ENat.add_le_add_iff_right ENat.one_ne_top).1 hle
  have hne : census (fun p ↦ p.filling = some s) σ.pc ≠ 0 := census.ne_zero_iff.2 ⟨t, hfilling⟩
  exact census.ne_zero_iff.1 fun hnone ↦ hne (nonpos_iff_eq_zero.1 (hnone ▸ hle))

/-- **Somebody can go on.** If a call has made its claim and has not returned, then it can take a
step, or another one can that has made its claim. -/
theorem OnTime.exists_advance (hT : OnTime h σ) (ht : (σ.pc t).pending ≠ 0) :
    ∃ u a τ, Advance σ u a τ := by
  have hslots := (PoolInvariant.run hT.run).slots
  by_cases hinside : ∃ u s, (σ.pc u).inside = some s
  · obtain ⟨u, s, hu⟩ := hinside
    exact ⟨u, hslots.exists_advance hu⟩
  have hout : ∀ {u s}, (σ.pc u).inside ≠ some s := fun hu ↦ hinside ⟨_, _, hu⟩
  -- nobody is inside a slot, so each is empty or full
  have hstatus : ∀ s, σ.status s = .kEmpty ∨ σ.status s = .kAvailable :=
    fun s ↦ (Attended.run hT.run).status_of_outside fun _ ↦ hout
  have hacquire : ∀ {u s}, (σ.pc u).filling = some s → ∃ b, σ.pc u = .returnAcquire b s := by
    intro u s hu
    have hu' := hout (u := u) (s := s)
    rcases hpc : σ.pc u <;> rw [hpc] at hu hu' <;> simp_all [Pc.filling, Pc.inside]
  have hwait : ∀ {u s}, (σ.pc u).waiting = some s → σ.pc u = .obtainAcquire s := by
    intro u s hu
    rcases hpc : σ.pc u <;> rw [hpc] at hu <;> simp_all [Pc.waiting]
  rcases hpc : σ.pc t
  case obtainAcquire s =>
    rcases hstatus s with hempty | havailable
    · obtain ⟨u, hu⟩ := hT.exists_filling (t := t) (by rw [hpc]; rfl) hempty
      obtain ⟨b, hu⟩ := hacquire hu
      exact ⟨u, _, _, .goto (.returnAcquired hu hempty) hu rfl rfl (by simp [Pc.pending])⟩
    · exact ⟨t, _, _, .goto (.obtainAcquired hpc havailable) hpc rfl rfl (by simp [Pc.pending])⟩
  case returnAcquire b s =>
    rcases hstatus s with hempty | havailable
    · exact ⟨t, _, _, .goto (.returnAcquired hpc hempty) hpc rfl rfl (by simp [Pc.pending])⟩
    · obtain ⟨u, hu⟩ := hT.exists_waiting (t := t) (by rw [hpc]; rfl) havailable
      have hu := hwait hu
      exact ⟨u, _, _, .goto (.obtainAcquired hu havailable) hu rfl rfl (by simp [Pc.pending])⟩
  case obtainMove | obtainRelease | returnCheck | returnMove | returnRelease =>
    exact absurd (congrArg Pc.inside hpc) hout
  all_goals
    rw [hpc] at ht
    exact absurd rfl ht

end Steps

/-! ### Bringing the calls to their ends -/

section Finishing

variable {σ τ ρ : Pool Tid Buf} {h h' : List (Label Tid Buf)} {t : Tid} {a : Act Tid Buf}

/-- A call that had made its claim at `p` is at `q`, after it or at its end; any other is where it
was. -/
def Settling (p q : Pc Buf) : Prop :=
  q = p ∨ (p.pending ≠ 0 ∧ (q.pending ≠ 0 ∨ q = .idle))

/-- One of the calls that have made their claims takes a step. -/
theorem OnTime.settle_step [Fintype Tid] (hT : OnTime h ρ)
    (hkept : ∀ u, Settling (σ.pc u) (ρ.pc u)) (hgoal : ¬∀ u, (ρ.pc u).pending = 0) :
    ∃ h' τ, (finishing Tid Buf).Run ρ h' τ ∧
      (OnTime (h ++ h') τ ∧ ∀ u, Settling (σ.pc u) (τ.pc u)) ∧
        ∑ u, (τ.pc u).pending < ∑ u, (ρ.pc u).pending := by
  obtain ⟨t, ht⟩ := not_forall.1 hgoal
  obtain ⟨u, a, τ, hadvance⟩ := hT.exists_advance ht
  have hpending : (ρ.pc u).pending ≠ 0 := by
    rw [← hadvance.pending]
    exact Nat.succ_ne_zero _
  have hsettling : Settling (σ.pc u) (τ.pc u) := by
    refine .inr ⟨?_, ?_⟩
    · rcases hkept u with hsame | ⟨hne, -⟩
      · rwa [← hsame]
      · exact hne
    · by_cases hzero : (τ.pc u).pending = 0
      · exact .inr (hadvance.returned hzero)
      · exact .inl hzero
  refine ⟨[⟨u, a⟩], τ, .single ⟨Pc.inCall_of_pending hpending,
    Pool.next?_eq_some_iff.2 hadvance.step⟩, ⟨hT.snoc hadvance.step
      (not_overtaken_of_unclaimed hadvance.unclaimed), fun v ↦ ?_⟩, ?_⟩
  · by_cases hv : v = u
    · exact hv ▸ hsettling
    · rw [hadvance.step.pc_frame hv]
      exact hkept v
  · refine Finset.sum_lt_sum (fun v _ ↦ ?_) ⟨u, Finset.mem_univ u, ?_⟩
    · by_cases hv : v = u
      · rw [hv, ← hadvance.pending]
        exact Nat.le_succ _
      · rw [hadvance.step.pc_frame hv]
    · rw [← hadvance.pending]
      exact Nat.lt_succ_self _

/-- **The calls that have made their claims can all return**, while the others stay where they
are. -/
theorem OnTime.settle [Finite Tid] (hT : OnTime h σ) :
    ∃ h' τ, (finishing Tid Buf).Run σ h' τ ∧ OnTime (h ++ h') τ ∧
      ∀ u, (τ.pc u).pending = 0 ∧
        τ.pc u = if (σ.pc u).pending = 0 then σ.pc u else .idle := by
  have := Fintype.ofFinite Tid
  obtain ⟨h', τ, hr, ⟨hT', hkept⟩, hgoal⟩ := LTS.exists_run_of_decreasing
    (fun h ρ ↦ OnTime h ρ ∧ ∀ u, Settling (σ.pc u) (ρ.pc u))
    (fun ρ ↦ ∀ u, (ρ.pc u).pending = 0) (fun ρ ↦ ∑ u, (ρ.pc u).pending)
    (fun _ _ hρ hgoal ↦ hρ.1.settle_step hρ.2 hgoal) ⟨hT, fun u ↦ .inl rfl⟩
  refine ⟨h', τ, hr, hT', fun u ↦ ⟨hgoal u, ?_⟩⟩
  rcases hkept u with hsame | ⟨hpending, hends⟩
  · rw [if_pos (hsame ▸ hgoal u), hsame]
  · rw [if_neg hpending]
    exact hends.resolve_left fun hne ↦ hne (hgoal u)

/-- Thread `t` alone goes on, in time. -/
structure GoesOn (h : List (Label Tid Buf)) (σ : Pool Tid Buf) (t : Tid)
    (h' : List (Label Tid Buf)) (τ : Pool Tid Buf) : Prop where
  run : (finishing Tid Buf).Run σ h' τ
  onTime : OnTime (h ++ h') τ
  frame : ∀ u, u ≠ t → τ.pc u = σ.pc u

theorem GoesOn.refl (hT : OnTime h σ) : GoesOn h σ t [] σ :=
  ⟨.nil, by rwa [List.append_nil], fun _ _ ↦ rfl⟩

theorem GoesOn.step (hg : GoesOn h σ t h' τ) (hst : Step τ t a ρ)
    (hin : (τ.pc t).inCall = true) (hnot : ¬Overtaken (h ++ h') ⟨t, a⟩) :
    GoesOn h σ t (h' ++ [⟨t, a⟩]) ρ where
  run := hg.run.snoc ⟨hin, Pool.next?_eq_some_iff.2 hst⟩
  onTime := by
    rw [← List.append_assoc]
    exact hg.onTime.snoc hst hnot
  frame u hu := (hst.pc_frame hu).trans (hg.frame u hu)

/-- A step that is no claim. -/
theorem GoesOn.unclaimed {p : Pc Buf} (hg : GoesOn h σ t h' τ) (hpc : τ.pc t = p)
    (hst : Step τ t a ρ) (hin : p.inCall = true) (ha : a.claimed = none) :
    GoesOn h σ t (h' ++ [⟨t, a⟩]) ρ :=
  hg.step hst (hpc ▸ hin) (not_overtaken_of_unclaimed ha)

/-- The thread has read the index it claims a slot by, and then the other one. -/
theorem claimsSince_loads {i : Index} :
    claimsSince i t (h ++ (h' ++ [⟨t, .load i⟩] ++ [⟨t, .load i.other⟩])) = 0 := by
  rw [← List.append_assoc, ← List.append_assoc, claimsSince_snoc, claimsSince_snoc, if_pos rfl,
    if_neg (by simpa using i.other_ne), if_neg (by simp [Act.claimed])]

/-- A call of `ObtainBuffer` that starts over returns, or claims a slot. -/
theorem GoesOn.obtain (hg : GoesOn h σ t h' τ) (hpc : τ.pc t = .obtainLoadHead) :
    ∃ h'' ρ, GoesOn h σ t h'' ρ ∧ (ρ.pc t = .idle ∨ (ρ.pc t).pending ≠ 0) := by
  have hself : ∀ (ρ : Pool Tid Buf) (p : Pc Buf), (ρ.goto t p).pc t = p := fun ρ p ↦
    Pool.goto_pc_self ρ t p
  have hloaded := hg.unclaimed hpc (.obtainLoadHead hpc) rfl rfl
  by_cases hempty : τ.head = τ.tail
  · exact ⟨_, _, hloaded.unclaimed (hself _ _) (.obtainEmpty (hself _ _) hempty) rfl rfl,
      .inl (hself _ _)⟩
  · have htested := hloaded.unclaimed (hself _ _) (.obtainLoadTail (hself _ _) hempty) rfl rfl
    refine ⟨_, _, htested.step (.obtainExchanged (hself _ _) rfl) (by rw [hself]; rfl)
      (not_overtaken_of_claimsSince (claimsSince_loads (i := .head))), .inr ?_⟩
    rw [hself]
    exact Nat.succ_ne_zero _

/-- A call of `ReturnBuffer` that starts over returns, or claims a slot. -/
theorem GoesOn.giveBack {b : Buf} (hg : GoesOn h σ t h' τ) (hpc : τ.pc t = .returnLoadTail b) :
    ∃ h'' ρ, GoesOn h σ t h'' ρ ∧ (ρ.pc t = .idle ∨ (ρ.pc t).pending ≠ 0) := by
  have hself : ∀ (ρ : Pool Tid Buf) (p : Pc Buf), (ρ.goto t p).pc t = p := fun ρ p ↦
    Pool.goto_pc_self ρ t p
  have hloaded := hg.unclaimed hpc (.returnLoadTail hpc) rfl rfl
  by_cases hfull : (τ.tail + 1) % kMaxPoolSize = τ.head
  · exact ⟨_, _, hloaded.unclaimed (hself _ _) (.returnFull (hself _ _) hfull) rfl rfl,
      .inl (hself _ _)⟩
  · have htested := hloaded.unclaimed (hself _ _) (.returnLoadHead (hself _ _) hfull) rfl rfl
    refine ⟨_, _, htested.step (.returnExchanged (hself _ _) rfl) (by rw [hself]; rfl)
      (not_overtaken_of_claimsSince (claimsSince_loads (i := .tail))), .inr ?_⟩
    rw [hself]
    exact Nat.succ_ne_zero _

/-- A call that has made no claim yet returns or claims a slot. What it has read may be old, so
its exchange fails, and it reads the indices again. -/
theorem OnTime.claim_or_return (hT : OnTime h σ) (hpending : (σ.pc t).pending = 0) :
    ∃ h' τ, GoesOn h σ t h' τ ∧ (τ.pc t = .idle ∨ (τ.pc t).pending ≠ 0) := by
  have hself : ∀ (ρ : Pool Tid Buf) (p : Pc Buf), (ρ.goto t p).pc t = p := fun ρ p ↦
    Pool.goto_pc_self ρ t p
  have hrefl : GoesOn h σ t [] σ := .refl hT
  have hfits := (PoolInvariant.run hT.run).slots.fits t
  rcases hpc : σ.pc t
  case idle => exact ⟨[], σ, hrefl, .inl hpc⟩
  case obtainLoadHead => exact hrefl.obtain hpc
  case obtainLoadTail v =>
    by_cases hempty : v = σ.tail
    · exact ⟨_, _, hrefl.unclaimed hpc (.obtainEmpty hpc hempty) rfl rfl, .inl (hself _ _)⟩
    · have htested := hrefl.unclaimed hpc (.obtainLoadTail hpc hempty) rfl rfl
      exact (htested.unclaimed (hself _ _) (.obtainExchangeFailed (hself _ _)) rfl rfl).obtain
        (hself _ _)
  case obtainExchange =>
    exact (hrefl.unclaimed hpc (.obtainExchangeFailed hpc) rfl rfl).obtain (hself _ _)
  case returnLoadTail => exact hrefl.giveBack hpc
  case returnLoadHead b v =>
    by_cases hfull : (v + 1) % kMaxPoolSize = σ.head
    · exact ⟨_, _, hrefl.unclaimed hpc (.returnFull hpc hfull) rfl rfl, .inl (hself _ _)⟩
    · have htested := hrefl.unclaimed hpc (.returnLoadHead hpc hfull) rfl rfl
      exact (htested.unclaimed (hself _ _) (.returnExchangeFailed (hself _ _)) rfl rfl).giveBack
        (hself _ _)
  case returnExchange =>
    exact (hrefl.unclaimed hpc (.returnExchangeFailed hpc) rfl rfl).giveBack (hself _ _)
  case aborted =>
    rw [hpc] at hfits
    exact hfits.elim
  all_goals
    rw [hpc] at hpending
    exact absurd hpending (Nat.succ_ne_zero _)

/-- **Every call can return**, and no other call gets back to its beginning for it. -/
theorem OnTime.finish [Finite Tid] (hT : OnTime h σ) (t : Tid) :
    ∃ h' τ, (finishing Tid Buf).Run σ h' τ ∧ OnTime (h ++ h') τ ∧ τ.pc t = .idle ∧
      ∀ u, τ.pc u = σ.pc u ∨ τ.pc u = .idle := by
  have hor : ∀ {p q : Pc Buf}, (q = if p.pending = 0 then p else .idle) → q = p ∨ q = .idle := by
    intro p q hq
    split at hq
    · exact .inl hq
    · exact .inr hq
  obtain ⟨h₁, σ₁, hr₁, hT₁, hsettled₁⟩ := hT.settle
  obtain ⟨h₂, σ₂, hg, hends⟩ := hT₁.claim_or_return (hsettled₁ t).1
  obtain ⟨h₃, σ₃, hr₃, hT₃, hsettled₃⟩ := hg.onTime.settle
  have hreturned : σ₃.pc t = .idle := by
    rw [(hsettled₃ t).2]
    rcases hends with hidle | hpending
    · rw [hidle, ite_self]
    · rw [if_neg hpending]
  refine ⟨h₁ ++ h₂ ++ h₃, σ₃, (hr₁.append hg.run).append hr₃, by simpa using hT₃, hreturned,
    fun u ↦ ?_⟩
  by_cases hu : u = t
  · exact .inr (hu ▸ hreturned)
  · rcases hor (hsettled₃ u).2 with hsame | hidle
    · rw [hsame, hg.frame u hu]
      exact hor (hsettled₁ u).2
    · exact .inr hidle

/-- A thread that is in a call can be brought out of it, and no other gets into one. -/
theorem OnTime.finish_lt [Fintype Tid] (hT : OnTime h σ) (hbusy : ¬∀ t, σ.pc t = .idle) :
    ∃ h' τ, (finishing Tid Buf).Run σ h' τ ∧ OnTime (h ++ h') τ ∧
      (Finset.univ.filter fun t ↦ (τ.pc t).inCall = true).card <
        (Finset.univ.filter fun t ↦ (σ.pc t).inCall = true).card := by
  obtain ⟨t, ht⟩ := not_forall.1 hbusy
  obtain ⟨h', τ, hr, hT', hidle, hkept⟩ := hT.finish t
  refine ⟨h', τ, hr, hT', Finset.card_lt_card (Finset.ssubset_iff.2 ⟨t, ?_, fun u hu ↦ ?_⟩)⟩
  · rw [Finset.mem_filter_univ, Pc.inCall_iff, not_not]
    exact hidle
  · rw [Finset.mem_filter_univ]
    rcases Finset.mem_insert.1 hu with rfl | hu
    · exact Pc.inCall_iff.2 ht
    · rw [Finset.mem_filter_univ] at hu
      rcases hkept u with hsame | hreturned
      · rwa [← hsame]
      · exact absurd hreturned (Pc.inCall_iff.1 hu)

/-- **The pool does not deadlock.** From every state that any number of threads reach, however
their calls overlap, the calls can all be brought to their ends, with no new call made, as long as
no thread has been overtaken; the pool is a queue then, for as many buffers as there have been more
claims on `tail` than on `head`. -/
theorem pool_drains [Finite Tid] (hr : (bufferPool Tid Buf).Run {} h σ)
    (hnot : ∀ past ρ l τ, (bufferPool Tid Buf).StepIn {} h past ρ l τ → ¬Overtaken past l) :
    ∃ h' τ q, (finishing Tid Buf).Run σ h' τ ∧ (bufferPool Tid Buf).Run {} (h ++ h') τ ∧
      (∀ past ρ l τ, (bufferPool Tid Buf).StepIn {} (h ++ h') past ρ l τ →
        ¬Overtaken past l) ∧
      (∀ t, τ.pc t = .idle) ∧
      q.length + claims .head (h ++ h') = claims .tail (h ++ h') ∧ Holds τ q ∧ IsQueue τ q := by
  have := Fintype.ofFinite Tid
  obtain ⟨h', τ, hr', hT', hidle⟩ := LTS.exists_run_of_decreasing (fun h ρ ↦ OnTime h ρ)
    (fun ρ : Pool Tid Buf ↦ ∀ t, ρ.pc t = .idle)
    (fun ρ ↦ (Finset.univ.filter fun t ↦ (ρ.pc t).inCall = true).card)
    (fun _ _ hT hbusy ↦ hT.finish_lt hbusy) ⟨hr, hnot⟩
  have hle : claims .tail (h ++ h') ≤ claims .head (h ++ h') + (kMaxPoolSize - 1) :=
    hT'.inRange.claims_le .tail
  have hlt : claims .tail (h ++ h') < claims .head (h ++ h') + kMaxPoolSize := by
    rw [kMaxPoolSize] at hle ⊢
    omega
  obtain ⟨q, hlength, hq⟩ := (AtRest.of_run hT'.run hidle).holds (.run hT'.run) hidle hlt
  exact ⟨h', τ, q, hr', hT'.run, hT'.not_overtaken, hidle, hlength, hq,
    hq.isQueue (PoolInvariant.run hT'.run)⟩

end Finishing

/-- The thread `true` waits for the slot that the thread `false` has claimed, and neither is
inside. -/
def waitingHistory : List (Label Bool ℕ) :=
  [⟨false, .allocate 7⟩, ⟨false, .callReturn 7⟩, ⟨false, .load .tail⟩, ⟨false, .load .head⟩,
    ⟨false, .exchanged .tail 0⟩, ⟨true, .callObtain⟩, ⟨true, .load .head⟩, ⟨true, .load .tail⟩,
    ⟨true, .exchanged .head 0⟩]

def waitingState : Pool Bool ℕ :=
  (Pool.exec {} waitingHistory).get rfl

theorem waiting_drains : waitingState.pc true = .obtainAcquire 0 ∧
    ∃ h' τ q, (finishing Bool ℕ).Run waitingState h' τ ∧
      (bufferPool Bool ℕ).Run {} (waitingHistory ++ h') τ ∧
      (∀ past ρ l τ, (bufferPool Bool ℕ).StepIn {} (waitingHistory ++ h') past ρ l τ →
        ¬Overtaken past l) ∧
      (∀ t, τ.pc t = .idle) ∧
      q.length + claims .head (waitingHistory ++ h') = claims .tail (waitingHistory ++ h') ∧
      Holds τ q ∧ IsQueue τ q :=
  ⟨rfl, pool_drains (run_of_exec (Option.some_get _).symm)
    (not_overtaken_of_length_lt (by decide))⟩

end BufferPool
