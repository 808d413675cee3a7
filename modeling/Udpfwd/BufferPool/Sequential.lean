import Udpfwd.BufferPool.Ownership
import Udpfwd.Queue.Bounded

/-!
# The pool as a queue

What the pool does for calls that run one after another: while a thread is in `ObtainBuffer` or in
`ReturnBuffer`, no other thread takes a step. Compare-exchanges may still fail for no reason, so a
call can go round its loops any number of times; all the places it comes to are known from the
state in which it was made (`ObtainAt`, `ReturnAt`).

Between the calls the pool is a ring (`Holds`), and the calls are the operations of a queue for
`kMaxPoolSize - 1` buffers.
-/

open BoundedQueue

namespace BufferPool

variable {Tid Buf : Type*}

/-- Something that a thread does with its own buffers, outside the pool. -/
def Act.isOwn : Act Tid Buf → Bool
  | .allocate _ | .free _ | .handTo _ _ => true
  | _ => false

/-- The thread is in a call. -/
def Pc.inCall : Pc Buf → Bool
  | .idle => false
  | _ => true

/-- What `ObtainBuffer` returns if it returns from this place. -/
def Pc.result : Pc Buf → Option Buf
  | .obtainRelease _ buffer => buffer
  | _ => none

/-- What is done between two points where no thread is in a call. -/
inductive Call (Tid Buf : Type*)
  /-- A thread allocates or frees a buffer, or hands it over. -/
  | own (t : Tid) (a : Act Tid Buf)
  | obtain (t : Tid) (result : Option Buf)
  /-- `ReturnBuffer`; the buffer is `kept` unless it is freed. -/
  | giveBack (t : Tid) (b : Buf) (kept : Bool)

/-- A call as an operation of the queue. -/
def Call.op : Call Tid Buf → Option (Op Buf)
  | .own _ _ => none
  | .obtain _ result => some (.get result)
  | .giveBack _ b kept => some (.put b kept)

variable [DecidableEq Tid] [DecidableEq Buf]

/-- Thread `t` made the call `a` in the state `σ` and has come to `ρ`, with no step of another
thread in between. -/
inductive Inside (σ : Pool Tid Buf) (t : Tid) (a : Act Tid Buf) : Pool Tid Buf → Prop
  | call {ρ : Pool Tid Buf} (hst : Step σ t a ρ) : Inside σ t a ρ
  | step {ρ ρ' : Pool Tid Buf} {a' : Act Tid Buf} (hin : Inside σ t a ρ)
      (hpc : (ρ.pc t).inCall = true) (hst : Step ρ t a' ρ') : Inside σ t a ρ'

/-- The call `a`, which thread `t` made in the state `σ`, returns from `ρ`, and leaves the
state `τ`. -/
structure Returns (σ : Pool Tid Buf) (t : Tid) (a : Act Tid Buf) (ρ τ : Pool Tid Buf) : Prop where
  inside : Inside σ t a ρ
  inCall : (ρ.pc t).inCall = true
  step : ∃ a', Step ρ t a' τ
  idle : τ.pc t = .idle

/-- A whole call, or what a thread does by itself. -/
inductive CallStep (σ : Pool Tid Buf) : Call Tid Buf → Pool Tid Buf → Prop
  | own {t : Tid} {a : Act Tid Buf} {τ : Pool Tid Buf} (ha : a.isOwn = true)
      (hst : Step σ t a τ) : CallStep σ (.own t a) τ
  | obtain {t : Tid} {ρ τ : Pool Tid Buf} (h : Returns σ t .callObtain ρ τ) :
      CallStep σ (.obtain t (ρ.pc t).result) τ
  | giveBack {t : Tid} {b : Buf} {ρ τ : Pool Tid Buf} (h : Returns σ t (.callReturn b) ρ τ) :
      CallStep σ (.giveBack t b (decide (b ∈ τ.live))) τ

/-- The pool, used by one call after another. -/
def sequentialPool (Tid Buf : Type*) [DecidableEq Tid] [DecidableEq Buf] :
    LTS (Pool Tid Buf) (Call Tid Buf) where
  step := CallStep

/-! ### The states inside a call -/

namespace Pool

/-- `head` is advanced. -/
def advanceHead (σ : Pool Tid Buf) : Pool Tid Buf :=
  { σ with head := (σ.head + 1) % kMaxPoolSize }

/-- `tail` is advanced. -/
def advanceTail (σ : Pool Tid Buf) : Pool Tid Buf :=
  { σ with tail := (σ.tail + 1) % kMaxPoolSize }

/-- What `ObtainBuffer` makes of a pool that is not empty. -/
def takenOut (σ : Pool Tid Buf) (t : Tid) : Pool Tid Buf :=
  ((σ.advanceHead.setBuffer σ.head none).setStatus σ.head .kEmpty).giveResult t
    (σ.buffers σ.head)

/-- What `ReturnBuffer` makes of a pool that is not full. -/
def putIn (σ : Pool Tid Buf) (t : Tid) (b : Buf) : Pool Tid Buf :=
  (((σ.take t b).advanceTail).setBuffer σ.tail (some b)).setStatus σ.tail .kAvailable

/-- What `ReturnBuffer` makes of a full pool. -/
def thrownAway (σ : Pool Tid Buf) (t : Tid) (b : Buf) : Pool Tid Buf := (σ.take t b).destroy b

omit [DecidableEq Buf] in
theorem goto_goto (σ : Pool Tid Buf) (t : Tid) (p p' : Pc Buf) :
    (σ.goto t p).goto t p' = σ.goto t p' := by
  rw [goto, goto, goto]
  simp only [Function.update_idem]

omit [DecidableEq Buf] in
theorem goto_pc_self (σ : Pool Tid Buf) (t : Tid) (p : Pc Buf) : (σ.goto t p).pc t = p := by
  rw [goto_pc, Function.update_self]

omit [DecidableEq Buf] in
/-- A thread that returns is where it was before the call. -/
theorem goto_idle {σ : Pool Tid Buf} {t : Tid} (h : σ.pc t = .idle) : σ.goto t .idle = σ := by
  rw [goto, ← h, Function.update_eq_self]

end Pool

/-- Where `ObtainBuffer` can be, and the state then, if thread `t` made the call in the
state `σ`. -/
def ObtainAt (σ : Pool Tid Buf) (t : Tid) (ρ : Pool Tid Buf) : Prop :=
  match ρ.pc t with
  | .obtainLoadHead => ρ = σ.goto t .obtainLoadHead
  | .obtainLoadTail h => h = σ.head ∧ ρ = σ.goto t (.obtainLoadTail h)
  | .obtainExchange h => h = σ.head ∧ σ.head ≠ σ.tail ∧ ρ = σ.goto t (.obtainExchange h)
  | .obtainAcquire h =>
    h = σ.head ∧ σ.head ≠ σ.tail ∧ ρ = σ.advanceHead.goto t (.obtainAcquire h)
  | .obtainMove h =>
    h = σ.head ∧ σ.head ≠ σ.tail ∧
      ρ = (σ.advanceHead.setStatus h .kInUseLoading).goto t (.obtainMove h)
  | .obtainRelease h buffer =>
    h = σ.head ∧ σ.head ≠ σ.tail ∧ buffer = σ.buffers h ∧
      ρ = ((σ.advanceHead.setStatus h .kInUseLoading).setBuffer h none).goto t
        (.obtainRelease h buffer)
  | _ => False

/-- Where `ReturnBuffer` can be, and the state then. -/
def ReturnAt (σ : Pool Tid Buf) (t : Tid) (b : Buf) (ρ : Pool Tid Buf) : Prop :=
  match ρ.pc t with
  | .returnLoadTail b' => b' = b ∧ ρ = (σ.take t b).goto t (.returnLoadTail b)
  | .returnLoadHead b' tl =>
    b' = b ∧ tl = σ.tail ∧ ρ = (σ.take t b).goto t (.returnLoadHead b tl)
  | .returnExchange b' tl =>
    b' = b ∧ tl = σ.tail ∧ (tl + 1) % kMaxPoolSize ≠ σ.head ∧
      ρ = (σ.take t b).goto t (.returnExchange b tl)
  | .returnAcquire b' tl =>
    b' = b ∧ tl = σ.tail ∧ (tl + 1) % kMaxPoolSize ≠ σ.head ∧
      ρ = (σ.take t b).advanceTail.goto t (.returnAcquire b tl)
  | .returnCheck b' tl =>
    b' = b ∧ tl = σ.tail ∧ (tl + 1) % kMaxPoolSize ≠ σ.head ∧
      ρ = ((σ.take t b).advanceTail.setStatus tl .kInUseStoring).goto t (.returnCheck b tl)
  | .returnMove b' tl =>
    b' = b ∧ tl = σ.tail ∧ (tl + 1) % kMaxPoolSize ≠ σ.head ∧
      ρ = ((σ.take t b).advanceTail.setStatus tl .kInUseStoring).goto t (.returnMove b tl)
  | .returnRelease tl =>
    tl = σ.tail ∧ (tl + 1) % kMaxPoolSize ≠ σ.head ∧
      ρ = (((σ.take t b).advanceTail.setStatus tl .kInUseStoring).setBuffer tl (some b)).goto t
        (.returnRelease tl)
  | _ => False

section Steps

variable {σ ρ ρ' τ : Pool Tid Buf} {t : Tid} {a : Act Tid Buf} {b : Buf}

/-- `ObtainBuffer` returns from `ρ`: it has found the pool empty and has changed nothing, or has
taken out the buffer at `head`. -/
inductive ObtainReturns (σ : Pool Tid Buf) (t : Tid) (ρ : Pool Tid Buf) : Pool Tid Buf → Prop
  | empty (hempty : σ.head = σ.tail) (hresult : (ρ.pc t).result = none) :
      ObtainReturns σ t ρ (σ.goto t .idle)
  | taken (hne : σ.head ≠ σ.tail) (hresult : (ρ.pc t).result = σ.buffers σ.head) :
      ObtainReturns σ t ρ ((σ.takenOut t).goto t .idle)

/-- **One step of `ObtainBuffer`**, while no other thread takes one. -/
theorem ObtainAt.step (hat : ObtainAt σ t ρ) (hst : Step ρ t a ρ') :
    ObtainAt σ t ρ' ∨ ObtainReturns σ t ρ ρ' := by
  cases hst with
  | obtainLoadHead hpc =>
    rw [ObtainAt, hpc] at hat
    subst hat
    rw [Pool.goto_goto, ObtainAt, Pool.goto_pc_self]
    exact .inl ⟨rfl, rfl⟩
  | obtainEmpty hpc hempty =>
    rw [ObtainAt, hpc] at hat
    obtain ⟨rfl, rfl⟩ := hat
    rw [Pool.goto_goto]
    exact .inr (.empty hempty (by rw [Pool.goto_pc_self]; rfl))
  | obtainLoadTail hpc hne =>
    rw [ObtainAt, hpc] at hat
    obtain ⟨rfl, rfl⟩ := hat
    rw [Pool.goto_goto, ObtainAt, Pool.goto_pc_self]
    exact .inl ⟨rfl, hne, rfl⟩
  | obtainExchanged hpc hhead =>
    rw [ObtainAt, hpc] at hat
    obtain ⟨rfl, hne, rfl⟩ := hat
    show ObtainAt σ t ((σ.advanceHead.goto t _).goto t _) ∨ _
    rw [Pool.goto_goto, ObtainAt, Pool.goto_pc_self]
    exact .inl ⟨rfl, hne, rfl⟩
  | obtainExchangeFailed hpc =>
    rw [ObtainAt, hpc] at hat
    obtain ⟨rfl, hne, rfl⟩ := hat
    rw [Pool.goto_goto, ObtainAt, Pool.goto_pc_self]
    exact .inl rfl
  | obtainAcquired hpc hstatus =>
    rw [ObtainAt, hpc] at hat
    obtain ⟨rfl, hne, rfl⟩ := hat
    show ObtainAt σ t (((σ.advanceHead.setStatus _ _).goto t _).goto t _) ∨ _
    rw [Pool.goto_goto, ObtainAt, Pool.goto_pc_self]
    exact .inl ⟨rfl, hne, rfl⟩
  | obtainAcquireFailed => exact .inl hat
  | obtainMoved hpc =>
    rw [ObtainAt, hpc] at hat
    obtain ⟨rfl, hne, rfl⟩ := hat
    show ObtainAt σ t ((((σ.advanceHead.setStatus _ _).setBuffer _ _).goto t _).goto t _) ∨ _
    rw [Pool.goto_goto, ObtainAt, Pool.goto_pc_self]
    exact .inl ⟨rfl, hne, rfl, rfl⟩
  | obtainReleased hpc =>
    rw [ObtainAt, hpc] at hat
    obtain ⟨rfl, hne, rfl, rfl⟩ := hat
    have hstate : (((((σ.advanceHead.setStatus σ.head .kInUseLoading).setBuffer σ.head none).goto t
        (.obtainRelease σ.head (σ.buffers σ.head))).setStatus σ.head .kEmpty).giveResult t
          (σ.buffers σ.head)).goto t .idle = (σ.takenOut t).goto t .idle := by
      simp only [Pool.takenOut, Pool.goto, Pool.setStatus, Pool.giveResult, Function.update_idem,
        Pool.setBuffer]
    rw [hstate]
    exact .inr (.taken hne (by rw [Pool.goto_pc_self]; rfl))
  | allocate hpc | free hpc | handTo hpc | callObtain hpc | callReturn hpc | returnLoadTail hpc
  | returnFull hpc | returnLoadHead hpc | returnExchanged hpc | returnExchangeFailed hpc
  | returnAcquired hpc | returnAcquireFailed hpc | returnChecked hpc | returnAborted hpc
  | returnMoved hpc | returnReleased hpc =>
    rw [ObtainAt, hpc] at hat
    exact hat.elim

/-- `ReturnBuffer` returns: it has found the pool full and has freed the buffer, or has put it into
the slot at `tail`. -/
inductive ReturnReturns (σ : Pool Tid Buf) (t : Tid) (b : Buf) : Pool Tid Buf → Prop
  | full (hfull : (σ.tail + 1) % kMaxPoolSize = σ.head) :
      ReturnReturns σ t b ((σ.thrownAway t b).goto t .idle)
  | put (hne : (σ.tail + 1) % kMaxPoolSize ≠ σ.head) :
      ReturnReturns σ t b ((σ.putIn t b).goto t .idle)

/-- **One step of `ReturnBuffer`**, while no other thread takes one. The slot at `tail` was empty
when the call was made, so the check succeeds and no buffer is lost in the assignment. -/
theorem ReturnAt.step (hnull : σ.buffers σ.tail = none) (hat : ReturnAt σ t b ρ)
    (hst : Step ρ t a ρ') : ReturnAt σ t b ρ' ∨ ReturnReturns σ t b ρ' := by
  cases hst with
  | returnLoadTail hpc =>
    rw [ReturnAt, hpc] at hat
    obtain ⟨rfl, rfl⟩ := hat
    rw [Pool.goto_goto, ReturnAt, Pool.goto_pc_self]
    exact .inl ⟨rfl, rfl, rfl⟩
  | returnFull hpc hfull =>
    rw [ReturnAt, hpc] at hat
    obtain ⟨rfl, rfl, rfl⟩ := hat
    show _ ∨ ReturnReturns σ t _ (((σ.thrownAway t _).goto t _).goto t .idle)
    rw [Pool.goto_goto]
    exact .inr (.full hfull)
  | returnLoadHead hpc hne =>
    rw [ReturnAt, hpc] at hat
    obtain ⟨rfl, rfl, rfl⟩ := hat
    rw [Pool.goto_goto, ReturnAt, Pool.goto_pc_self]
    exact .inl ⟨rfl, rfl, hne, rfl⟩
  | returnExchanged hpc htail =>
    rw [ReturnAt, hpc] at hat
    obtain ⟨rfl, rfl, hne, rfl⟩ := hat
    show ReturnAt σ t _ (((σ.take t _).advanceTail.goto t _).goto t _) ∨ _
    rw [Pool.goto_goto, ReturnAt, Pool.goto_pc_self]
    exact .inl ⟨rfl, rfl, hne, rfl⟩
  | returnExchangeFailed hpc =>
    rw [ReturnAt, hpc] at hat
    obtain ⟨rfl, rfl, hne, rfl⟩ := hat
    rw [Pool.goto_goto, ReturnAt, Pool.goto_pc_self]
    exact .inl ⟨rfl, rfl⟩
  | returnAcquired hpc hstatus =>
    rw [ReturnAt, hpc] at hat
    obtain ⟨rfl, rfl, hne, rfl⟩ := hat
    show ReturnAt σ t _ ((((σ.take t _).advanceTail.setStatus _ _).goto t _).goto t _) ∨ _
    rw [Pool.goto_goto, ReturnAt, Pool.goto_pc_self]
    exact .inl ⟨rfl, rfl, hne, rfl⟩
  | returnAcquireFailed => exact .inl hat
  | returnChecked hpc =>
    rw [ReturnAt, hpc] at hat
    obtain ⟨rfl, rfl, hne, rfl⟩ := hat
    rw [Pool.goto_goto, ReturnAt, Pool.goto_pc_self]
    exact .inl ⟨rfl, rfl, hne, rfl⟩
  | returnAborted hpc hsome =>
    rw [ReturnAt, hpc] at hat
    obtain ⟨rfl, rfl, -, rfl⟩ := hat
    exact absurd hnull hsome
  | @returnMoved b' tl hpc =>
    rw [ReturnAt, hpc] at hat
    obtain ⟨rfl, rfl, hne, rfl⟩ := hat
    have hstate : ∀ τ : Pool Tid Buf, τ.destroyOld none = τ := fun _ ↦ rfl
    show ReturnAt σ t b' ((((((σ.take t b').advanceTail.setStatus σ.tail _).goto t _).destroyOld
      (σ.buffers σ.tail)).setBuffer σ.tail _).goto t _) ∨ _
    rw [hnull, hstate]
    show ReturnAt σ t b' (((((σ.take t b').advanceTail.setStatus σ.tail _).setBuffer σ.tail _).goto
      t _).goto t _) ∨ _
    rw [Pool.goto_goto, ReturnAt, Pool.goto_pc_self]
    exact .inl ⟨rfl, hne, rfl⟩
  | returnReleased hpc =>
    rw [ReturnAt, hpc] at hat
    obtain ⟨rfl, hne, rfl⟩ := hat
    have hstate : (((((σ.take t b).advanceTail.setStatus σ.tail .kInUseStoring).setBuffer σ.tail
        (some b)).goto t (.returnRelease σ.tail)).setStatus σ.tail .kAvailable).goto t .idle =
          (σ.putIn t b).goto t .idle := by
      simp only [Pool.putIn, Pool.goto, Pool.setStatus, Pool.setBuffer, Function.update_idem]
    rw [hstate]
    exact .inr (.put hne)
  | allocate hpc | free hpc | handTo hpc | callObtain hpc | obtainLoadHead hpc | obtainEmpty hpc
  | obtainLoadTail hpc | obtainExchanged hpc | obtainExchangeFailed hpc | obtainAcquired hpc
  | obtainAcquireFailed hpc | obtainMoved hpc | obtainReleased hpc | callReturn hpc =>
    rw [ReturnAt, hpc] at hat
    exact hat.elim

/-! ### Whole calls -/

/-- A thread that was in no call has returned, or is in one of the two. -/
theorem Inside.cases (hidle : σ.pc t = .idle) (hnull : σ.buffers σ.tail = none)
    (hin : Inside σ t a ρ) : ρ.pc t = .idle ∨ (a = .callObtain ∧ ObtainAt σ t ρ) ∨
      ∃ b, a = .callReturn b ∧ b ∈ σ.owned t ∧ ReturnAt σ t b ρ := by
  induction hin with
  | call hst =>
    cases hst with
    | allocate | free | handTo => exact .inl hidle
    | callObtain =>
      refine .inr (.inl ⟨rfl, ?_⟩)
      rw [ObtainAt, Pool.goto_pc_self]
    | callReturn _ hb =>
      refine .inr (.inr ⟨_, rfl, hb, ?_⟩)
      rw [ReturnAt, Pool.goto_pc_self]
      exact ⟨rfl, rfl⟩
    | _ hpc => exact absurd (hidle.symm.trans hpc) nofun
  | step _ hpc hst ih =>
    rcases ih with hreturned | ⟨rfl, hat⟩ | ⟨b, rfl, hb, hat⟩
    · rw [hreturned] at hpc
      exact absurd hpc nofun
    · rcases hat.step hst with hat | hreturns
      · exact .inr (.inl ⟨rfl, hat⟩)
      · cases hreturns <;> exact .inl (Pool.goto_pc_self _ _ _)
    · rcases hat.step hnull hst with hat | hreturns
      · exact .inr (.inr ⟨b, rfl, hb, hat⟩)
      · cases hreturns <;> exact .inl (Pool.goto_pc_self _ _ _)

/-- The thread goes on from the place `p`. -/
theorem Inside.goOn {p : Pc Buf} {a' : Act Tid Buf} (hin : Inside σ t a (ρ.goto t p))
    (hst : Step (ρ.goto t p) t a' ρ') (hp : p.inCall = true := by rfl) : Inside σ t a ρ' :=
  hin.step (by rwa [Pool.goto_pc_self]) hst

theorem Inside.returns {p : Pc Buf} {a' : Act Tid Buf} (hin : Inside σ t a (ρ.goto t p))
    (hst : Step (ρ.goto t p) t a' (τ.goto t .idle)) (hp : p.inCall = true := by rfl) :
    Returns σ t a (ρ.goto t p) (τ.goto t .idle) :=
  ⟨hin, by rwa [Pool.goto_pc_self], ⟨a', hst⟩, Pool.goto_pc_self _ _ _⟩

/-- Every step in a call is a step of the pool. -/
theorem Inside.poolInvariant (hI : PoolInvariant σ) (hin : Inside σ t a ρ) : PoolInvariant ρ := by
  induction hin with
  | call hst => exact hI.step hst
  | step _ _ hst ih => exact ih.step hst

theorem CallStep.poolInvariant {c : Call Tid Buf} (hI : PoolInvariant σ) (hst : CallStep σ c τ) :
    PoolInvariant τ := by
  cases hst with
  | own _ hst => exact hI.step hst
  | obtain h | giveBack h =>
    obtain ⟨a', hst⟩ := h.step
    exact (h.inside.poolInvariant hI).step hst

/-- **A call of `ObtainBuffer`** has one of two ends. -/
theorem Returns.obtainReturns (hidle : σ.pc t = .idle) (hnull : σ.buffers σ.tail = none)
    (h : Returns σ t .callObtain ρ τ) : ObtainReturns σ t ρ τ := by
  obtain ⟨hin, hpc, ⟨a', hst⟩, hreturned⟩ := h
  rcases hin.cases hidle hnull with hρ | ⟨-, hat⟩ | ⟨b, hcall, -⟩
  · rw [hρ] at hpc
    exact absurd hpc nofun
  · refine (hat.step hst).resolve_left fun hat ↦ ?_
    rw [ObtainAt, hreturned] at hat
    exact hat
  · cases hcall

/-- **A call of `ReturnBuffer`** has one of two ends. -/
theorem Returns.returnReturns (hidle : σ.pc t = .idle) (hnull : σ.buffers σ.tail = none)
    (h : Returns σ t (.callReturn b) ρ τ) : b ∈ σ.owned t ∧ ReturnReturns σ t b τ := by
  obtain ⟨hin, hpc, ⟨a', hst⟩, hreturned⟩ := h
  rcases hin.cases hidle hnull with hρ | ⟨hcall, -⟩ | ⟨b', hcall, hb, hat⟩
  · rw [hρ] at hpc
    exact absurd hpc nofun
  · cases hcall
  · cases hcall
    refine ⟨hb, (hat.step hnull hst).resolve_left fun hat ↦ ?_⟩
    rw [ReturnAt, hreturned] at hat
    exact hat

end Steps

/-! ### The queue -/

/-- The status of a slot that no thread is inside. -/
def Status.ofSlot : Option Buf → Status
  | none => .kEmpty
  | some _ => .kAvailable

/-- Between two calls: the slots are a ring that holds the buffers of `q`, the status of a slot
says whether it holds one, and no thread is in a call. -/
structure Holds (σ : Pool Tid Buf) (q : List Buf) : Prop where
  ring : Ring kMaxPoolSize σ.buffers σ.head σ.tail q
  status_eq : σ.status = Status.ofSlot ∘ σ.buffers
  idle : ∀ t, σ.pc t = .idle

/-- A loop that waits for the status of a slot finds the one it waits for. -/
def NoWait (ρ : Pool Tid Buf) (t : Tid) : Prop :=
  match ρ.pc t with
  | .obtainAcquire h => ρ.status h = .kAvailable
  | .returnAcquire _ tl => ρ.status tl = .kEmpty
  | _ => True

namespace Holds

variable {σ ρ τ : Pool Tid Buf} {t : Tid} {a : Act Tid Buf} {b : Buf} {q : List Buf}
  {result : Option Buf} {kept : Bool}

omit [DecidableEq Tid] [DecidableEq Buf] in
theorem init : Holds ({} : Pool Tid Buf) [] where
  ring := .init (by decide)
  status_eq := rfl
  idle _ := rfl

/-- What a thread does by itself does not touch the pool. -/
theorem own (h : Holds σ q) (ha : a.isOwn = true) (hst : Step σ t a τ) : Holds τ q := by
  cases hst with
  | allocate | free | handTo => exact ⟨h.ring, h.status_eq, h.idle⟩
  | _ => cases ha

/-- The buffer at `head` is the first of the queue. -/
theorem takenOut (h : Holds σ (b :: q)) : Holds (σ.takenOut t) q where
  ring := h.ring.get
  status_eq := by
    show Function.update σ.status σ.head .kEmpty =
      Status.ofSlot ∘ Function.update σ.buffers σ.head none
    rw [Function.comp_update, h.status_eq]
    rfl
  idle := h.idle

/-- The slot at `tail` is behind the last buffer of the queue. -/
theorem putIn (h : Holds σ q) (hroom : q.length + 1 < kMaxPoolSize) :
    Holds (σ.putIn t b) (q ++ [b]) where
  ring := h.ring.put hroom
  status_eq := by
    show Function.update σ.status σ.tail .kAvailable =
      Status.ofSlot ∘ Function.update σ.buffers σ.tail (some b)
    rw [Function.comp_update, h.status_eq]
    rfl
  idle := h.idle

theorem thrownAway (h : Holds σ q) : Holds (σ.thrownAway t b) q :=
  ⟨h.ring, h.status_eq, h.idle⟩

/-- **`ObtainBuffer` takes the first buffer**, and changes nothing if there is none. -/
theorem obtain_eq (h : Holds σ q) (hst : CallStep σ (.obtain t result) τ) :
    result = q.head? ∧ Holds τ q.tail ∧ (result = none → τ = σ) := by
  have hnull := h.ring.tail_slot
  cases hst with
  | obtain hreturns =>
    cases hreturns.obtainReturns (h.idle t) hnull with
    | empty hempty hresult =>
      obtain rfl := h.ring.head_eq_tail_iff.1 hempty
      rw [Pool.goto_idle (h.idle t), hresult]
      exact ⟨rfl, h, fun _ ↦ rfl⟩
    | taken hne hresult =>
      rcases q with - | ⟨b, q⟩
      · exact absurd (h.ring.head_eq_tail_iff.2 rfl) hne
      have hstate : (σ.takenOut t).goto t .idle = σ.takenOut t := Pool.goto_idle (h.idle t)
      rw [hstate, hresult, h.ring.head_slot]
      exact ⟨rfl, h.takenOut, nofun⟩

/-- **`ReturnBuffer` puts the buffer behind the others**, and frees it if the pool is full. -/
theorem giveBack_eq (h : Holds σ q) (hI : PoolInvariant σ)
    (hst : CallStep σ (.giveBack t b kept) τ) :
    kept = decide (q.length < kMaxPoolSize - 1) ∧
      Holds τ (if q.length < kMaxPoolSize - 1 then q ++ [b] else q) ∧
        (kept = false → τ = σ.thrownAway t b) := by
  have hnull := h.ring.tail_slot
  have hlength := h.ring.length_lt
  cases hst with
  | giveBack hreturns =>
    obtain ⟨hb, hends⟩ := hreturns.returnReturns (h.idle t) hnull
    cases hends with
    | full hfull =>
      have hroom : ¬q.length < kMaxPoolSize - 1 := by
        have hcount := h.ring.tail_succ_eq_head_iff.1 hfull
        omega
      have hstate : (σ.thrownAway t b).goto t .idle = σ.thrownAway t b :=
        Pool.goto_idle (h.idle t)
      rw [hstate, if_neg hroom, decide_eq_false hroom]
      refine ⟨decide_eq_false ?_, h.thrownAway, fun _ ↦ rfl⟩
      exact Finset.notMem_erase b σ.live
    | put hne =>
      have hroom : q.length + 1 < kMaxPoolSize := by
        have hcount := mt h.ring.tail_succ_eq_head_iff.2 hne
        omega
      have hlive : b ∈ (σ.putIn t b).live := hI.linear.live_of_holds (holds_owner.2 hb)
      have hlt : q.length < kMaxPoolSize - 1 := by omega
      have hstate : (σ.putIn t b).goto t .idle = σ.putIn t b := Pool.goto_idle (h.idle t)
      rw [hstate, if_pos hlt, decide_eq_true hlt]
      refine ⟨decide_eq_true hlive, h.putIn hroom, fun hkept ↦ ?_⟩
      exact absurd hkept (by simp [hlive])

/-- A thread that has made the call owns the buffer no more, and else owns what it did. -/
theorem giveBack_owned (h : Holds σ q) (hst : CallStep σ (.giveBack t b kept) τ) :
    τ.owned = (σ.take t b).owned := by
  cases hst with
  | giveBack hreturns =>
    obtain ⟨-, hends⟩ := hreturns.returnReturns (h.idle t) h.ring.tail_slot
    cases hends <;> rfl

/-- **No loop waits in vain.** -/
theorem noWait (h : Holds σ q) (hin : Inside σ t a ρ) : NoWait ρ t := by
  have hnull := h.ring.tail_slot
  rcases hin.cases (h.idle t) hnull with hρ | ⟨-, hat⟩ | ⟨b, -, -, hat⟩
  · rw [NoWait, hρ]
    trivial
  · rw [NoWait]
    split
    · next hpc =>
      rw [ObtainAt, hpc] at hat
      obtain ⟨rfl, hne, rfl⟩ := hat
      show σ.status σ.head = _
      rcases q with - | ⟨b, q⟩
      · exact absurd (h.ring.head_eq_tail_iff.2 rfl) hne
      rw [h.status_eq, Function.comp_apply, h.ring.head_slot]
      rfl
    · next hpc =>
      rw [ObtainAt, hpc] at hat
      exact hat.elim
    · trivial
  · rw [NoWait]
    split
    · next hpc =>
      rw [ReturnAt, hpc] at hat
      exact hat.elim
    · next hpc =>
      rw [ReturnAt, hpc] at hat
      obtain ⟨rfl, rfl, -, rfl⟩ := hat
      show σ.status σ.tail = _
      rw [h.status_eq, Function.comp_apply, hnull]
      rfl
    · trivial

/-- If no exchange fails, `ObtainBuffer` returns. -/
theorem exists_obtain (h : Holds σ q) (t : Tid) : ∃ τ, CallStep σ (.obtain t q.head?) τ := by
  suffices hreturns : ∃ ρ τ, Returns σ t .callObtain ρ τ by
    obtain ⟨ρ, τ, hreturns⟩ := hreturns
    obtain ⟨hresult, -⟩ := h.obtain_eq (.obtain hreturns)
    exact ⟨τ, hresult ▸ .obtain hreturns⟩
  have hself : ∀ (ρ : Pool Tid Buf) (p : Pc Buf), (ρ.goto t p).pc t = p := fun ρ p ↦
    Pool.goto_pc_self ρ t p
  have hloaded :=
    (Inside.call (.callObtain (h.idle t))).goOn (.obtainLoadHead (hself _ _))
  by_cases hempty : σ.head = σ.tail
  · exact ⟨_, _, hloaded.returns (.obtainEmpty (hself _ _) hempty)⟩
  · have hclaimed := (hloaded.goOn (.obtainLoadTail (hself _ _) hempty)).goOn
      (.obtainExchanged (hself _ _) rfl)
    have hstatus := h.noWait hclaimed
    rw [NoWait, hself] at hstatus
    exact ⟨_, _, ((hclaimed.goOn (.obtainAcquired (hself _ _) hstatus)).goOn
      (.obtainMoved (hself _ _))).returns (.obtainReleased (hself _ _))⟩

/-- If no exchange fails, `ReturnBuffer` returns. -/
theorem exists_giveBack (h : Holds σ q) (hI : PoolInvariant σ) (hb : b ∈ σ.owned t) :
    ∃ τ, CallStep σ (.giveBack t b (decide (q.length < kMaxPoolSize - 1))) τ := by
  suffices hreturns : ∃ ρ τ, Returns σ t (.callReturn b) ρ τ by
    obtain ⟨ρ, τ, hreturns⟩ := hreturns
    obtain ⟨hkept, -⟩ := h.giveBack_eq hI (.giveBack hreturns)
    exact ⟨τ, hkept ▸ .giveBack hreturns⟩
  have hself : ∀ (ρ : Pool Tid Buf) (p : Pc Buf), (ρ.goto t p).pc t = p := fun ρ p ↦
    Pool.goto_pc_self ρ t p
  have hloaded := (Inside.call (.callReturn (h.idle t) hb)).goOn (.returnLoadTail (hself _ _))
  by_cases hfull : (σ.tail + 1) % kMaxPoolSize = σ.head
  · exact ⟨_, _, hloaded.returns (.returnFull (hself _ _) hfull)⟩
  · have hclaimed := (hloaded.goOn (.returnLoadHead (hself _ _) hfull)).goOn
      (.returnExchanged (hself _ _) rfl)
    have hstatus := h.noWait hclaimed
    rw [NoWait, hself] at hstatus
    exact ⟨_, _, (((hclaimed.goOn (.returnAcquired (hself _ _) hstatus)).goOn
      (.returnChecked (hself _ _) h.ring.tail_slot)).goOn
        (.returnMoved (hself _ _))).returns (.returnReleased (hself _ _))⟩

end Holds

/-- The pool in the state `σ`, between two calls, is the queue `q`. -/
structure IsQueue (σ : Pool Tid Buf) (q : List Buf) : Prop where
  head_lt : σ.head < kMaxPoolSize
  tail_lt : σ.tail < kMaxPoolSize
  length_eq : (σ.tail + kMaxPoolSize - σ.head) % kMaxPoolSize = q.length
  length_le : q.length ≤ kMaxPoolSize - 1
  /-- A call can be made at any time, and returns if no exchange fails. -/
  obtain_returns : ∀ t, ∃ τ, CallStep σ (.obtain t q.head?) τ
  giveBack_returns : ∀ t, ∀ b ∈ σ.owned t,
    ∃ τ, CallStep σ (.giveBack t b (decide (q.length < kMaxPoolSize - 1))) τ
  /-- A call that finds no buffer changes nothing. -/
  obtain_none : ∀ t τ, CallStep σ (.obtain t none) τ → q = [] ∧ τ = σ
  /-- A buffer that is not kept is freed, and that is all. -/
  giveBack_freed : ∀ t b τ, CallStep σ (.giveBack t b false) τ →
    q.length = kMaxPoolSize - 1 ∧ τ = σ.thrownAway t b
  /-- The indices are those of slots in the middle of a call too. -/
  inside_lt : ∀ t a ρ, Inside σ t a ρ → ρ.head < kMaxPoolSize ∧ ρ.tail < kMaxPoolSize
  noWait : ∀ t a ρ, Inside σ t a ρ → NoWait ρ t

section Runs

variable {σ τ : Pool Tid Buf} {q : List Buf} {c : Call Tid Buf} {cs : List (Call Tid Buf)}

theorem Holds.isQueue (h : Holds σ q) (hI : PoolInvariant σ) : IsQueue σ q where
  head_lt := h.ring.head_lt
  tail_lt := h.ring.tail_lt
  length_eq := h.ring.length_eq
  length_le := Nat.le_pred_of_lt h.ring.length_lt
  obtain_returns := h.exists_obtain
  giveBack_returns _ _ hb := h.exists_giveBack hI hb
  obtain_none t τ hst := by
    obtain ⟨hresult, -, hsame⟩ := h.obtain_eq hst
    exact ⟨List.head?_eq_none_iff.1 hresult.symm, hsame rfl⟩
  giveBack_freed t b τ hst := by
    obtain ⟨hkept, -, hfreed⟩ := h.giveBack_eq hI hst
    have hlength := h.ring.length_lt
    have hroom := of_decide_eq_false hkept.symm
    exact ⟨by omega, hfreed rfl⟩
  inside_lt t a ρ hin :=
    have hbounds := (hin.poolInvariant hI).bounds
    ⟨hbounds.head_lt, hbounds.tail_lt⟩
  noWait t a ρ hin := h.noWait hin

/-- **A call is an operation of the queue.** -/
theorem Holds.callStep (h : Holds σ q) (hI : PoolInvariant σ) (hst : CallStep σ c τ) :
    ∃ q', (boundedQueue Buf (kMaxPoolSize - 1)).Run q c.op.toList q' ∧ Holds τ q' := by
  rcases c with ⟨t, a⟩ | ⟨t, result⟩ | ⟨t, b, kept⟩
  · cases hst with
    | own ha hst => exact ⟨q, .nil, h.own ha hst⟩
  · obtain ⟨hresult, hτ, -⟩ := h.obtain_eq hst
    exact ⟨q.tail, .single ⟨hresult, rfl⟩, hτ⟩
  · obtain ⟨hkept, hτ, -⟩ := h.giveBack_eq hI hst
    exact ⟨_, .single ⟨hkept, rfl⟩, hτ⟩

/-- One call after another, from a ring of buffers on. -/
theorem Holds.run (h : Holds σ q) (hI : PoolInvariant σ)
    (hr : (sequentialPool Tid Buf).Run σ cs τ) :
    PoolInvariant τ ∧ ∃ q',
      (boundedQueue Buf (kMaxPoolSize - 1)).Run q (cs.filterMap Call.op) q' ∧ Holds τ q' := by
  refine hr.historyInvariant (J := fun cs τ ↦ PoolInvariant τ ∧ ∃ q',
    (boundedQueue Buf (kMaxPoolSize - 1)).Run q (cs.filterMap Call.op) q' ∧ Holds τ q')
    ⟨hI, q, .nil, h⟩ fun cs ρ c τ _ ⟨hI, q', hq', h'⟩ hst ↦ ?_
  obtain ⟨q'', hq'', hτ⟩ := h'.callStep hI hst
  refine ⟨hst.poolInvariant hI, q'', ?_, hτ⟩
  have hops : (cs ++ [c]).filterMap Call.op = cs.filterMap Call.op ++ c.op.toList := by
    rw [List.filterMap_append]
    rcases c with - | - | - <;> rfl
  rw [hops]
  exact hq'.append hq''

/-- **Used by one call after another, the pool is a queue for 1023 buffers.** Every sequence of
calls from the initial pool is, with the same results, a run of the queue: the buffers that have
been kept are those that have been obtained and those that are held, in this order. -/
theorem sequential_pool_isQueue (hr : (sequentialPool Tid Buf).Run {} cs σ) :
    ∃ q, (boundedQueue Buf (kMaxPoolSize - 1)).Run [] (cs.filterMap Call.op) q ∧
      (cs.filterMap Call.op).filterMap Op.kept = (cs.filterMap Call.op).filterMap Op.taken ++ q ∧
      Holds σ q ∧ IsQueue σ q := by
  obtain ⟨hI, q, hq, h⟩ := Holds.init.run .init hr
  exact ⟨q, hq, kept_eq_taken_append hq, h, h.isQueue hI⟩

end Runs

/-- Two buffers are given back, and the first of them is obtained again. -/
theorem reused_isQueue : ∃ σ : Pool Bool ℕ,
    (sequentialPool Bool ℕ).Run {}
      [.own false (.allocate 7), .own false (.allocate 8), .giveBack false 7 true,
        .giveBack false 8 true, .obtain true (some 7)] σ ∧
    (boundedQueue ℕ (kMaxPoolSize - 1)).Run []
      [.put 7 true, .put 8 true, .get (some 7)] [8] ∧
    Holds σ [8] ∧ IsQueue σ [8] := by
  have hst₁ : Step ({} : Pool Bool ℕ) false (.allocate 7) ((Pool.create {} 7).give false 7) :=
    .allocate rfl (Finset.notMem_empty 7)
  have hst₂ : Step ((Pool.create {} 7).give false 7) false (.allocate 8) _ :=
    .allocate rfl (by decide)
  have h₂ := (Holds.init.own rfl hst₁).own rfl hst₂
  have hallocated : (sequentialPool Bool ℕ).Run {}
      [.own false (.allocate 7), .own false (.allocate 8)] _ :=
    (LTS.Run.single (CallStep.own rfl hst₁)).snoc (CallStep.own rfl hst₂)
  have hI₂ := (PoolInvariant.init.step hst₁).step hst₂
  obtain ⟨σ₃, hst₃⟩ := h₂.exists_giveBack hI₂ (t := false) (b := 7) (by decide)
  obtain ⟨-, h₃, -⟩ := h₂.giveBack_eq hI₂ hst₃
  have hI₃ := hst₃.poolInvariant hI₂
  have howned : 8 ∈ σ₃.owned false := by
    rw [h₂.giveBack_owned hst₃]
    decide
  obtain ⟨σ₄, hst₄⟩ := h₃.exists_giveBack hI₃ howned
  obtain ⟨-, h₄, -⟩ := h₃.giveBack_eq hI₃ hst₄
  obtain ⟨σ₅, hst₅⟩ := h₄.exists_obtain true
  have hr : (sequentialPool Bool ℕ).Run {}
      [.own false (.allocate 7), .own false (.allocate 8), .giveBack false 7 true,
        .giveBack false 8 true, .obtain true (some 7)] σ₅ :=
    ((hallocated.snoc hst₃).snoc hst₄).snoc hst₅
  obtain ⟨q, hq, hkept, h₅, hqueue⟩ := sequential_pool_isQueue hr
  obtain rfl : [8] = q := List.append_cancel_left (show [7] ++ [8] = [7] ++ q from hkept)
  exact ⟨σ₅, hr, hq, h₅, hqueue⟩

end BufferPool
