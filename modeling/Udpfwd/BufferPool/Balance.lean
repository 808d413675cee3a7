import Udpfwd.BufferPool.Claims

/-!
# Balance of the claims on the pool

`ObtainBuffer` claims a slot only if `head` and `tail` differ, `ReturnBuffer` only if the
successor of `tail` is not `head`; both compare values that they have read before the exchange.
The exchange fails if the index has changed in between, unless it has come round to the same
value: after a multiple of `kMaxPoolSize` claims. A claim made then rests on an old comparison,
and it is one too many if the pool has become empty, or full, in the meantime (`Overtaken`).

* `InRange` — the invariant: as many claims on `head` as there have been on `tail` at most, and
  on `tail` no more than `kMaxPoolSize - 1` ahead;
* `balanced_iff` — the claims stay balanced exactly in the runs in which no such claim is made;
* `balanced_of_claimsSince_lt` — in particular if no thread is held up between its reads and its
  exchange for as long as `kMaxPoolSize` claims;
* `late_not_balanced` — a run in which a thread is held up for that long.
-/

namespace BufferPool

variable {Tid Buf : Type*} [DecidableEq Tid] [DecidableEq Buf]

/-- The number of claims on an index that there can be: a buffer is taken after it has been put
into the pool, and the pool has room for `kMaxPoolSize - 1` of them. -/
def limit : Index → List (Label Tid Buf) → ℕ
  | .head, h => claims .tail h
  | .tail, h => claims .head h + (kMaxPoolSize - 1)

/-- The claims are balanced in a state: there are no more on `head` than on `tail`, at most
`kMaxPoolSize - 1` fewer, and every call that waits for a slot has its own buffer to come, in
the slot or from a call that has claimed it. -/
structure BalancedAt (h : List (Label Tid Buf)) (σ : Pool Tid Buf) : Prop where
  head_le : claims .head h ≤ claims .tail h
  tail_le : claims .tail h ≤ claims .head h + (kMaxPoolSize - 1)
  waiting_le : ∀ s, census (fun p ↦ p.waiting = some s) σ.pc ≤
    census (fun p ↦ p.filling = some s) σ.pc + if σ.status s = .kAvailable then 1 else 0

/-- The claims are balanced in a run: in every state of it, and no claim is made on the empty
pool by `ObtainBuffer` or on the full one by `ReturnBuffer`. -/
structure Balanced (h : List (Label Tid Buf)) : Prop where
  balancedAt : ∀ past σ, past <+: h → (bufferPool Tid Buf).Run {} past σ → BalancedAt past σ
  obtain_claims : ∀ past σ l τ v, (bufferPool Tid Buf).StepIn {} h past σ l τ →
    l.act = .exchanged .head v → claims .head past < claims .tail past
  return_claims : ∀ past σ l τ v, (bufferPool Tid Buf).StepIn {} h past σ l τ →
    l.act = .exchanged .tail v → claims .tail past < claims .head past + (kMaxPoolSize - 1)

/-- A thread claims a slot of the empty or full pool, after the index it exchanges has come round
since the thread read it. -/
def Overtaken (past : List (Label Tid Buf)) (l : Label Tid Buf) : Prop :=
  ∃ i v, l.act = .exchanged i v ∧ kMaxPoolSize ≤ claimsSince i l.thread past ∧
    claims i past = limit i past

/-! ### The invariant -/

section Limit

variable {i : Index} {h : List (Label Tid Buf)} {l : Label Tid Buf} {σ : Pool Tid Buf}

omit [DecidableEq Tid] [DecidableEq Buf] in
theorem limit_le_snoc : limit i h ≤ limit i (h ++ [l]) := by
  cases i
  · exact claims_le_snoc
  · exact Nat.add_le_add_right claims_le_snoc _

/-- The pool looks exhausted to a thread that has read the index when it was at its limit. -/
theorem Counted.exhausted (hC : Counted h σ) {x n : ℕ} (hx : x = n % kMaxPoolSize)
    (hn : n = limit i h) : σ.exhausted i x := by
  subst hx hn
  have hindex := hC.index_eq i.other
  cases i
  · exact hindex.symm
  · show (_ % _ + 1) % _ = σ.index .head
    rw [show σ.index .head = claims .head h % kMaxPoolSize from hindex, Nat.mod_add_mod]
    show (claims .head h + kMaxPoolSize) % _ = _
    rw [Nat.add_mod_right]

end Limit

/-- No index is claimed beyond its limit, and a thread that is about to claim has read the index
when it was within it. -/
structure InRange (h : List (Label Tid Buf)) (σ : Pool Tid Buf) : Prop where
  claims_le : ∀ i, claims i h ≤ limit i h
  read_le : ∀ t s, (σ.pc t).sample = some s → claimsRead s.index t h ≤ limit s.index h
  read_lt : ∀ t s, (σ.pc t).sample = some s → s.tested = true →
    claimsRead s.index t h < limit s.index h

namespace InRange

variable {σ τ : Pool Tid Buf} {h : List (Label Tid Buf)} {t : Tid} {a : Act Tid Buf}

theorem init : InRange [] ({} : Pool Tid Buf) where
  claims_le i := by cases i <;> exact Nat.zero_le _
  read_le _ _ hs := nomatch hs
  read_lt _ _ hs := nomatch hs

/-- A thread that is not overtaken claims below the limit: the index is what it was when the
thread read it. -/
theorem lt_of_claimed (hR : InRange h σ) (hC : Counted h σ) {i : Index} {x : ℕ}
    (hsample : (σ.pc t).sample = some ⟨i, x, true⟩) (hvalue : σ.index i = x)
    (hnot : ¬Overtaken h ⟨t, .exchanged i x⟩) : claims i h < limit i h := by
  by_cases hsince : kMaxPoolSize ≤ claimsSince i t h
  · exact lt_of_le_of_ne (hR.claims_le i) fun heq ↦ hnot ⟨i, x, rfl, hsince, heq⟩
  · have hlt : claimsRead i t h < limit i h := hR.read_lt t _ hsample rfl
    have hread := hC.value_eq t _ hsample
    have hindex := hC.index_eq i
    have hsum := claimsRead_add_claimsSince (i := i) (t := t) (h := h)
    -- the two counts are the same modulo the size, and less than it apart
    rw [hvalue] at hindex
    have hmod : (claimsRead i t h + claimsSince i t h) % kMaxPoolSize =
        claimsRead i t h % kMaxPoolSize := by
      rw [hsum, ← hindex]
      exact hread
    have hzero : claimsSince i t h = 0 := by
      rw [kMaxPoolSize] at hmod hsince
      omega
    omega

theorem step (hR : InRange h σ) (hC : Counted h σ) (hst : Step σ t a τ)
    (hnot : ¬Overtaken h ⟨t, a⟩) : InRange (h ++ [⟨t, a⟩]) τ where
  claims_le j := by
    by_cases ha : a.claimed = some j
    · obtain ⟨x, rfl, hx⟩ := hst.exists_of_claimed ha
      have hlt := hR.lt_of_claimed hC hx.1 hx.2 hnot
      rw [claims_snoc_exchanged]
      exact Nat.le_trans hlt limit_le_snoc
    · rw [claims_snoc_of_ne ha]
      exact (hR.claims_le j).trans limit_le_snoc
  read_le u s hs := by
    rcases hst.sample hs with ⟨-, -, hread⟩ | ⟨b, hbefore, hread, -⟩ <;> rw [hread]
    · exact (hR.claims_le s.index).trans limit_le_snoc
    · exact (hR.read_le u ⟨s.index, s.value, b⟩ hbefore).trans limit_le_snoc
  read_lt u s hs htested := by
    rcases hst.sample hs with ⟨-, huntested, -⟩ | ⟨b, hbefore, hread, hb⟩
    · cases huntested.symm.trans htested
    rw [hread]
    have hle : claimsRead s.index u h ≤ limit s.index h :=
      hR.read_le u ⟨s.index, s.value, b⟩ hbefore
    rcases hb htested with rfl | hne
    · exact (hR.read_lt u ⟨s.index, s.value, true⟩ hbefore rfl).trans_le limit_le_snoc
    · have hlt : claimsRead s.index u h < limit s.index h :=
        lt_of_le_of_ne hle fun heq ↦
          hne (hC.exhausted (hC.value_eq u ⟨s.index, s.value, b⟩ hbefore) heq)
      exact hlt.trans_le limit_le_snoc

/-- The claims stay in range along a run in which no thread is overtaken. -/
theorem run (hr : (bufferPool Tid Buf).Run {} h σ)
    (hnot : ∀ past ρ l τ, (bufferPool Tid Buf).StepIn {} h past ρ l τ → ¬Overtaken past l) :
    InRange h σ := by
  induction hr with
  | nil => exact init
  | @snoc h ρ τ l hr hst ih =>
    have hR := ih fun past σ l τ hin ↦ hnot past σ l τ hin.append
    exact hR.step (.run hr) (Pool.next?_eq_some_iff.1 hst) (hnot h ρ l τ (.last hr hst))

end InRange

theorem InRange.balancedAt {σ : Pool Tid Buf} {h : List (Label Tid Buf)} (hR : InRange h σ)
    (hr : (bufferPool Tid Buf).Run {} h σ) : BalancedAt h σ where
  head_le := hR.claims_le .head
  tail_le := hR.claims_le .tail
  waiting_le := (SlotUse.run hr).waiting_le (.run hr) (hR.claims_le .head)

/-- **The claims on the pool stay balanced in a run exactly if no thread is overtaken in it**: no
claim is made on the empty pool by `ObtainBuffer`, or on the full pool by `ReturnBuffer`, after
`kMaxPoolSize` or more claims on the index since the thread read it. -/
theorem balanced_iff {σ : Pool Tid Buf} {h : List (Label Tid Buf)}
    (hr : (bufferPool Tid Buf).Run {} h σ) :
    Balanced h ↔
      ∀ past ρ l τ, (bufferPool Tid Buf).StepIn {} h past ρ l τ → ¬Overtaken past l := by
  constructor
  · rintro hB past ρ l τ hin ⟨i, v, hact, -, heq⟩
    cases i
    · exact absurd heq (hB.obtain_claims past ρ l τ v hin hact).ne
    · exact absurd heq (hB.return_claims past ρ l τ v hin hact).ne
  · intro hnot
    -- what holds in the run holds in every part of it
    have hpast : ∀ {past ρ}, past <+: h → (bufferPool Tid Buf).Run {} past ρ →
        InRange past ρ := by
      rintro past ρ ⟨future, rfl⟩ hr'
      exact InRange.run hr' fun past' ρ' l τ hin ↦ hnot past' ρ' l τ hin.append
    have hclaim : ∀ {past ρ l τ i v}, (bufferPool Tid Buf).StepIn {} h past ρ l τ →
        l.act = .exchanged i v → claims i past < limit i past := by
      rintro past ρ ⟨t, a⟩ τ i v hin rfl
      obtain ⟨future, hh⟩ := hin.exists_append
      have hR : InRange past ρ :=
        hpast ⟨[⟨t, .exchanged i v⟩] ++ future, by rw [hh, List.append_assoc]⟩ hin.past_run
      obtain ⟨x, hx, hsample, hvalue⟩ :=
        (Pool.next?_eq_some_iff.1 hin.step).exists_of_claimed rfl
      obtain ⟨-, rfl⟩ := Act.exchanged.inj hx
      exact hR.lt_of_claimed (.run hin.past_run) hsample hvalue (hnot _ _ _ _ hin)
    exact ⟨fun past ρ hpre hr' ↦ (hpast hpre hr').balancedAt hr',
      fun _ _ _ _ _ hin hact ↦ hclaim hin hact, fun _ _ _ _ _ hin hact ↦ hclaim hin hact⟩

/-- **The claims stay balanced in every run in which no thread is held up for a full turn**: if
fewer than `kMaxPoolSize` claims on an index are made between a thread's reading it and the
thread's claim on it. -/
theorem balanced_of_claimsSince_lt {σ : Pool Tid Buf} {h : List (Label Tid Buf)}
    (hr : (bufferPool Tid Buf).Run {} h σ)
    (hlt : ∀ past ρ l τ i v, (bufferPool Tid Buf).StepIn {} h past ρ l τ →
      l.act = .exchanged i v → claimsSince i l.thread past < kMaxPoolSize) : Balanced h := by
  refine (balanced_iff hr).2 fun past ρ l τ hin ↦ ?_
  rintro ⟨i, v, hact, hle, -⟩
  exact absurd (hlt past ρ l τ i v hin hact) (Nat.not_lt.2 hle)

/-! ### A thread that is held up

The thread `true` reads both indices while the pool holds a buffer, and is held up before it
exchanges `head`. The thread `false` obtains that buffer and then returns and obtains it once
for every other slot, until `head` is what it was. The pool is empty then, and the exchange
succeeds.
-/

section HeldUp

/-- The thread `false` returns its buffer to the slot `n`. -/
def returnTo (n : ℕ) : List (Label Bool ℕ) :=
  [⟨false, .callReturn 0⟩, ⟨false, .load .tail⟩, ⟨false, .load .head⟩,
    ⟨false, .exchanged .tail n⟩, ⟨false, .acquired n .kInUseStoring⟩, ⟨false, .checked n⟩,
    ⟨false, .moved n⟩, ⟨false, .released n .kAvailable⟩]

/-- The thread `false` obtains the buffer in the slot `n`. -/
def obtainFrom (n : ℕ) : List (Label Bool ℕ) :=
  [⟨false, .callObtain⟩, ⟨false, .load .head⟩, ⟨false, .load .tail⟩, ⟨false, .exchanged .head n⟩,
    ⟨false, .acquired n .kInUseLoading⟩, ⟨false, .moved n⟩, ⟨false, .released n .kEmpty⟩]

/-- The thread `false` owns the one buffer, and the thread `true` stands at `p`. -/
def emptyAt (p : Pc ℕ) (n : ℕ) : Pool Bool ℕ where
  head := n
  tail := n
  pc t := if t then p else .idle
  owned t := if t then ∅ else {0}
  live := {0}

/-- The one buffer is in the slot `n`, and the thread `true` stands at `p`. -/
def filledAt (p : Pc ℕ) (n : ℕ) : Pool Bool ℕ where
  buffers := Function.update (fun _ ↦ none) n (some 0)
  status := Function.update (fun _ ↦ .kEmpty) n .kAvailable
  head := n
  tail := (n + 1) % kMaxPoolSize
  pc t := if t then p else .idle
  live := {0}

/-- The thread `false` returns and obtains the buffer at the slots `1, …, m`. -/
def turns : ℕ → List (Label Bool ℕ)
  | 0 => []
  | m + 1 => turns m ++ (returnTo (m + 1) ++ obtainFrom (m + 1))

/-- The thread `true` is held up from its reads to its exchange. -/
def lateHistory : List (Label Bool ℕ) :=
  [⟨false, .allocate 0⟩] ++ (returnTo 0 ++
    ([⟨true, .callObtain⟩, ⟨true, .load .head⟩, ⟨true, .load .tail⟩] ++
      (obtainFrom 0 ++ (turns (kMaxPoolSize - 1) ++ [⟨true, .exchanged .head 0⟩]))))

variable {p : Pc ℕ} {n m : ℕ} {σ ρ τ : Pool Bool ℕ} {t : Bool} {a : Act Bool ℕ}
  {h : List (Label Bool ℕ)}

theorem run_cons (hst : Step σ t a ρ) (hr : (bufferPool Bool ℕ).Run ρ h τ) :
    (bufferPool Bool ℕ).Run σ (⟨t, a⟩ :: h) τ :=
  .cons (Pool.next?_eq_some_iff.2 hst) hr

theorem run_nil (heq : σ = τ) : (bufferPool Bool ℕ).Run σ [] τ :=
  heq ▸ .nil

theorem succ_mod_ne (n : ℕ) : (n + 1) % kMaxPoolSize ≠ n := by
  rw [kMaxPoolSize]
  omega

theorem returnTo_run : (bufferPool Bool ℕ).Run (emptyAt p n) (returnTo n) (filledAt p n) := by
  refine run_cons (.callReturn rfl (Finset.mem_singleton_self 0)) ?_
  refine run_cons (.returnLoadTail rfl) ?_
  refine run_cons (.returnLoadHead rfl (succ_mod_ne n)) ?_
  refine run_cons (.returnExchanged rfl rfl) ?_
  refine run_cons (.returnAcquired rfl rfl) ?_
  refine run_cons (.returnChecked rfl rfl) ?_
  refine run_cons (.returnMoved rfl) ?_
  refine run_cons (.returnReleased rfl) (run_nil ?_)
  ext1
  case status => exact Function.update_idem ..
  case pc | owned => funext t; cases t <;> rfl
  all_goals rfl

theorem obtainFrom_run : (bufferPool Bool ℕ).Run (filledAt p n) (obtainFrom n)
    (emptyAt p ((n + 1) % kMaxPoolSize)) := by
  have hstatus : (filledAt p n).status n = .kAvailable := by simp [filledAt]
  refine run_cons (.callObtain rfl) ?_
  refine run_cons (.obtainLoadHead rfl) ?_
  refine run_cons (.obtainLoadTail rfl (succ_mod_ne n).symm) ?_
  refine run_cons (.obtainExchanged rfl rfl) ?_
  refine run_cons (.obtainAcquired rfl hstatus) ?_
  refine run_cons (.obtainMoved rfl) ?_
  refine run_cons (.obtainReleased rfl) (run_nil ?_)
  ext1
  case buffers | status => funext s; simp [emptyAt, filledAt, Function.update_apply]
  case pc => funext t; cases t <;> rfl
  case owned => funext t; cases t <;> simp [emptyAt, filledAt]
  all_goals rfl

theorem turns_run (hm : m < kMaxPoolSize) : (bufferPool Bool ℕ).Run (emptyAt p 1) (turns m)
    (emptyAt p ((m + 1) % kMaxPoolSize)) := by
  induction m with
  | zero => exact .nil
  | succ m ih =>
    have hprev := ih (by omega)
    rw [Nat.mod_eq_of_lt hm] at hprev
    exact hprev.append (returnTo_run.append obtainFrom_run)

/-- `head` has come round to the value that the thread `true` has read: its exchange succeeds. -/
def lateState : Pool Bool ℕ :=
  { emptyAt (.obtainExchange 0) 0 with head := 1 }.goto true (.obtainAcquire 0)

theorem lateHistory_run : (bufferPool Bool ℕ).Run {} lateHistory lateState := by
  have hstart : (({} : Pool Bool ℕ).create 0).give false 0 = emptyAt .idle 0 := by
    ext1
    case pc | owned => funext t; cases t <;> rfl
    all_goals rfl
  refine run_cons (.allocate rfl (Finset.notMem_empty 0)) ?_
  rw [hstart]
  have hread : (bufferPool Bool ℕ).Run (filledAt .idle 0)
      [⟨true, .callObtain⟩, ⟨true, .load .head⟩, ⟨true, .load .tail⟩]
      (filledAt (.obtainExchange 0) 0) := by
    refine run_cons (.callObtain rfl) (run_cons (.obtainLoadHead rfl) ?_)
    refine run_cons (.obtainLoadTail rfl (by decide)) (run_nil ?_)
    ext1
    case pc => funext t; cases t <;> rfl
    all_goals rfl
  have hexchange : (bufferPool Bool ℕ).Run (emptyAt (.obtainExchange 0) 0)
      [⟨true, .exchanged .head 0⟩] lateState :=
    run_cons (.obtainExchanged rfl rfl) .nil
  exact returnTo_run.append (hread.append (obtainFrom_run.append
    ((turns_run (m := kMaxPoolSize - 1) (by decide)).append hexchange)))

theorem claims_turns (i : Index) : claims i (turns m) = m := by
  induction m with
  | zero => rfl
  | succ m ih =>
    rw [turns, claims_append, claims_append, ih]
    cases i <;> rfl

theorem claims_lateHistory (i : Index) :
    claims i lateHistory = match i with
      | .head => kMaxPoolSize + 1
      | .tail => kMaxPoolSize := by
  simp only [lateHistory, claims_append, claims_turns]
  cases i <;> simp [claims, Act.claimed, returnTo, obtainFrom, kMaxPoolSize]

/-- **The claims do not stay balanced in every run**: when the thread `true` goes on, it makes one
claim on `head` more than there have been on `tail`. -/
theorem late_not_balanced : ¬Balanced lateHistory := by
  intro hB
  have hle := (hB.balancedAt _ _ List.prefix_rfl lateHistory_run).head_le
  rw [claims_lateHistory, claims_lateHistory] at hle
  exact absurd hle (Nat.not_succ_le_self kMaxPoolSize)

theorem late_balanced_iff :
    Balanced lateHistory ↔ ∀ past ρ l τ,
      (bufferPool Bool ℕ).StepIn {} lateHistory past ρ l τ → ¬Overtaken past l :=
  balanced_iff lateHistory_run

end HeldUp

end BufferPool
