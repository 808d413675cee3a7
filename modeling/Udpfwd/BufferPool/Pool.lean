import Mathlib.Data.Finset.Erase
import Mathlib.Data.Finset.Insert
import Mathlib.Tactic.Simps.Basic
import Udpfwd.Transition.Labelled

/-!
# The buffer pool

`BufferPoolImpl` is a ring of slots that any number of threads put buffers into and take
buffers from. A state of the model is the shared memory of the pool together with where each
thread stands in `ObtainBuffer` or `ReturnBuffer` and which buffers it has. One step is one
atomic access (a load, a compare-exchange, a store) or one move of a slot's pointer, by any
thread; a weak compare-exchange may fail although the value is the expected one.

* `next?` — what an access of a thread does, by the place the thread stands at;
* `Step` — the same as a relation, with one case for each way an access can end;
* `bufferPool` — the transition system.
-/

namespace BufferPool

/-- The number of slots. -/
def kMaxPoolSize : ℕ := 1024

/-- The status of a slot. -/
inductive Status
  | kEmpty
  | kInUseLoading
  | kAvailable
  | kInUseStoring
  deriving DecidableEq, Repr

/-- Where a thread stands, with the local variables that it still needs. -/
inductive Pc (Buf : Type*)
  /-- In no call of the pool. -/
  | idle
  /-- `ObtainBuffer`: about to load `head`. -/
  | obtainLoadHead
  /-- About to load `tail`; `h` is what `head` was. -/
  | obtainLoadTail (h : ℕ)
  /-- About to exchange `head` from `h` to its successor. -/
  | obtainExchange (h : ℕ)
  /-- Waiting for the slot `h` to be available. -/
  | obtainAcquire (h : ℕ)
  /-- About to move the pointer out of the slot `h`. -/
  | obtainMove (h : ℕ)
  /-- About to mark the slot `h` empty and return `buffer`. -/
  | obtainRelease (h : ℕ) (buffer : Option Buf)
  /-- `ReturnBuffer`: about to load `tail`. -/
  | returnLoadTail (buffer : Buf)
  /-- About to load `head`; `t` is what `tail` was. -/
  | returnLoadHead (buffer : Buf) (t : ℕ)
  /-- About to exchange `tail` from `t` to its successor. -/
  | returnExchange (buffer : Buf) (t : ℕ)
  /-- Waiting for the slot `t` to be empty. -/
  | returnAcquire (buffer : Buf) (t : ℕ)
  /-- About to check that the slot `t` holds no buffer. -/
  | returnCheck (buffer : Buf) (t : ℕ)
  /-- About to move the buffer into the slot `t`. -/
  | returnMove (buffer : Buf) (t : ℕ)
  /-- About to mark the slot `t` available. -/
  | returnRelease (t : ℕ)
  /-- The check has failed. -/
  | aborted (buffer : Buf)

/-- The two indices of the ring. -/
inductive Index
  /-- The next available buffer. -/
  | head
  /-- One past the last available buffer. -/
  | tail
  deriving DecidableEq, Repr

/-- What a thread does in one step, and how it ends. -/
inductive Act (Tid Buf : Type*)
  /-- `std::make_unique`: a buffer that did not exist before. -/
  | allocate (b : Buf)
  /-- The thread frees a buffer it owns. -/
  | free (b : Buf)
  /-- The thread hands a buffer it owns to another one. -/
  | handTo (u : Tid) (b : Buf)
  | callObtain
  | callReturn (b : Buf)
  | load (i : Index)
  /-- The index goes from `v` to its successor. -/
  | exchanged (i : Index) (v : ℕ)
  | exchangeFailed (i : Index)
  /-- The status of a slot is exchanged. -/
  | acquired (slot : ℕ) (s : Status)
  | acquireFailed (slot : ℕ)
  /-- The pointer is moved out of a slot or into it. -/
  | moved (slot : ℕ)
  | checked (slot : ℕ)
  /-- The status of a slot is stored. -/
  | released (slot : ℕ) (s : Status)
  deriving DecidableEq

/-- A step of the system: who did what. -/
structure Label (Tid Buf : Type*) where
  thread : Tid
  act : Act Tid Buf
  deriving DecidableEq

/-- The pool, the threads that use it, and the buffers that exist. -/
@[ext]
structure Pool (Tid Buf : Type*) where
  buffers : ℕ → Option Buf := fun _ ↦ none
  status : ℕ → Status := fun _ ↦ .kEmpty
  head : ℕ := 0
  tail : ℕ := 0
  pc : Tid → Pc Buf := fun _ ↦ .idle
  /-- The buffers that a thread owns while they are in no call. -/
  owned : Tid → Finset Buf := fun _ ↦ ∅
  /-- The buffers that have been allocated and not freed. -/
  live : Finset Buf := ∅

variable {Tid Buf : Type*} [DecidableEq Tid] [DecidableEq Buf]

namespace Pool

/-- Thread `t` goes on at `p`. -/
@[simps -fullyApplied]
def goto (σ : Pool Tid Buf) (t : Tid) (p : Pc Buf) : Pool Tid Buf :=
  { σ with pc := Function.update σ.pc t p }

/-- Thread `t` gets the buffer `b`. -/
@[simps -fullyApplied]
def give (σ : Pool Tid Buf) (t : Tid) (b : Buf) : Pool Tid Buf :=
  { σ with owned := Function.update σ.owned t (insert b (σ.owned t)) }

/-- Thread `t` parts with the buffer `b`. -/
@[simps -fullyApplied]
def take (σ : Pool Tid Buf) (t : Tid) (b : Buf) : Pool Tid Buf :=
  { σ with owned := Function.update σ.owned t ((σ.owned t).erase b) }

/-- The buffer `b` comes into being. -/
@[simps -fullyApplied]
def create (σ : Pool Tid Buf) (b : Buf) : Pool Tid Buf :=
  { σ with live := insert b σ.live }

/-- The buffer `b` is freed. -/
@[simps -fullyApplied]
def destroy (σ : Pool Tid Buf) (b : Buf) : Pool Tid Buf :=
  { σ with live := σ.live.erase b }

@[simps -fullyApplied]
def setStatus (σ : Pool Tid Buf) (slot : ℕ) (s : Status) : Pool Tid Buf :=
  { σ with status := Function.update σ.status slot s }

@[simps -fullyApplied]
def setBuffer (σ : Pool Tid Buf) (slot : ℕ) (o : Option Buf) : Pool Tid Buf :=
  { σ with buffers := Function.update σ.buffers slot o }

/-- The buffer that a `unique_ptr` held is freed when the pointer is assigned to. -/
@[simps -fullyApplied]
def destroyOld (σ : Pool Tid Buf) (old : Option Buf) : Pool Tid Buf :=
  { σ with live := old.elim σ.live σ.live.erase }

/-- `ObtainBuffer` returns a pointer to thread `t`. -/
@[simps -fullyApplied]
def giveResult (σ : Pool Tid Buf) (t : Tid) (result : Option Buf) : Pool Tid Buf :=
  { σ with owned :=
      Function.update σ.owned t (result.elim (σ.owned t) fun b ↦ insert b (σ.owned t)) }

/-- One access of thread `t`, or `none` where the thread cannot do that now. -/
def next? (σ : Pool Tid Buf) (t : Tid) (a : Act Tid Buf) : Option (Pool Tid Buf) :=
  match σ.pc t, a with
  -- the callers
  | .idle, .allocate b => if b ∈ σ.live then none else some ((σ.create b).give t b)
  | .idle, .free b => if b ∈ σ.owned t then some ((σ.take t b).destroy b) else none
  | .idle, .handTo u b => if b ∈ σ.owned t then some ((σ.take t b).give u b) else none
  -- `ObtainBuffer`
  | .idle, .callObtain => some (σ.goto t .obtainLoadHead)
  | .obtainLoadHead, .load .head => some (σ.goto t (.obtainLoadTail σ.head))
  | .obtainLoadTail h, .load .tail =>
    if h = σ.tail then some (σ.goto t .idle) else some (σ.goto t (.obtainExchange h))
  | .obtainExchange h, .exchanged .head v =>
    if σ.head = h ∧ v = h then
      some ({ σ with head := (h + 1) % kMaxPoolSize }.goto t (.obtainAcquire h))
    else none
  | .obtainExchange _, .exchangeFailed .head => some (σ.goto t .obtainLoadHead)
  | .obtainAcquire h, .acquired slot .kInUseLoading =>
    if σ.status h = .kAvailable ∧ slot = h then
      some ((σ.setStatus h .kInUseLoading).goto t (.obtainMove h))
    else none
  | .obtainAcquire h, .acquireFailed slot => if slot = h then some σ else none
  | .obtainMove h, .moved slot =>
    if slot = h then some ((σ.setBuffer h none).goto t (.obtainRelease h (σ.buffers h)))
    else none
  | .obtainRelease h buffer, .released slot .kEmpty =>
    if slot = h then some (((σ.setStatus h .kEmpty).giveResult t buffer).goto t .idle)
    else none
  -- `ReturnBuffer`
  | .idle, .callReturn b =>
    if b ∈ σ.owned t then some ((σ.take t b).goto t (.returnLoadTail b)) else none
  | .returnLoadTail buffer, .load .tail => some (σ.goto t (.returnLoadHead buffer σ.tail))
  | .returnLoadHead buffer tl, .load .head =>
    if (tl + 1) % kMaxPoolSize = σ.head then some ((σ.destroy buffer).goto t .idle)
    else some (σ.goto t (.returnExchange buffer tl))
  | .returnExchange buffer tl, .exchanged .tail v =>
    if σ.tail = tl ∧ v = tl then
      some ({ σ with tail := (tl + 1) % kMaxPoolSize }.goto t (.returnAcquire buffer tl))
    else none
  | .returnExchange buffer _, .exchangeFailed .tail => some (σ.goto t (.returnLoadTail buffer))
  | .returnAcquire buffer tl, .acquired slot .kInUseStoring =>
    if σ.status tl = .kEmpty ∧ slot = tl then
      some ((σ.setStatus tl .kInUseStoring).goto t (.returnCheck buffer tl))
    else none
  | .returnAcquire _ tl, .acquireFailed slot => if slot = tl then some σ else none
  | .returnCheck buffer tl, .checked slot =>
    if slot = tl then
      if σ.buffers tl = none then some (σ.goto t (.returnMove buffer tl))
      else some (σ.goto t (.aborted buffer))
    else none
  | .returnMove buffer tl, .moved slot =>
    if slot = tl then
      some (((σ.destroyOld (σ.buffers tl)).setBuffer tl (some buffer)).goto t (.returnRelease tl))
    else none
  | .returnRelease tl, .released slot .kAvailable =>
    if slot = tl then some ((σ.setStatus tl .kAvailable).goto t .idle) else none
  | _, _ => none

end Pool

/-- Every way a step can end. -/
inductive Step (σ : Pool Tid Buf) (t : Tid) : Act Tid Buf → Pool Tid Buf → Prop
  | allocate {b : Buf} (hpc : σ.pc t = .idle) (hfresh : b ∉ σ.live) :
      Step σ t (.allocate b) ((σ.create b).give t b)
  | free {b : Buf} (hpc : σ.pc t = .idle) (hb : b ∈ σ.owned t) :
      Step σ t (.free b) ((σ.take t b).destroy b)
  | handTo {u : Tid} {b : Buf} (hpc : σ.pc t = .idle) (hb : b ∈ σ.owned t) :
      Step σ t (.handTo u b) ((σ.take t b).give u b)
  | callObtain (hpc : σ.pc t = .idle) : Step σ t .callObtain (σ.goto t .obtainLoadHead)
  | obtainLoadHead (hpc : σ.pc t = .obtainLoadHead) :
      Step σ t (.load .head) (σ.goto t (.obtainLoadTail σ.head))
  /-- The pool looks empty: `nullptr` is returned. -/
  | obtainEmpty {h : ℕ} (hpc : σ.pc t = .obtainLoadTail h) (hempty : h = σ.tail) :
      Step σ t (.load .tail) (σ.goto t .idle)
  | obtainLoadTail {h : ℕ} (hpc : σ.pc t = .obtainLoadTail h) (hne : h ≠ σ.tail) :
      Step σ t (.load .tail) (σ.goto t (.obtainExchange h))
  | obtainExchanged {h : ℕ} (hpc : σ.pc t = .obtainExchange h) (hhead : σ.head = h) :
      Step σ t (.exchanged .head h)
        ({ σ with head := (h + 1) % kMaxPoolSize }.goto t (.obtainAcquire h))
  | obtainExchangeFailed {h : ℕ} (hpc : σ.pc t = .obtainExchange h) :
      Step σ t (.exchangeFailed .head) (σ.goto t .obtainLoadHead)
  | obtainAcquired {h : ℕ} (hpc : σ.pc t = .obtainAcquire h)
      (hstatus : σ.status h = .kAvailable) :
      Step σ t (.acquired h .kInUseLoading)
        ((σ.setStatus h .kInUseLoading).goto t (.obtainMove h))
  | obtainAcquireFailed {h : ℕ} (hpc : σ.pc t = .obtainAcquire h) :
      Step σ t (.acquireFailed h) σ
  | obtainMoved {h : ℕ} (hpc : σ.pc t = .obtainMove h) :
      Step σ t (.moved h) ((σ.setBuffer h none).goto t (.obtainRelease h (σ.buffers h)))
  | obtainReleased {h : ℕ} {buffer : Option Buf} (hpc : σ.pc t = .obtainRelease h buffer) :
      Step σ t (.released h .kEmpty)
        (((σ.setStatus h .kEmpty).giveResult t buffer).goto t .idle)
  | callReturn {b : Buf} (hpc : σ.pc t = .idle) (hb : b ∈ σ.owned t) :
      Step σ t (.callReturn b) ((σ.take t b).goto t (.returnLoadTail b))
  | returnLoadTail {b : Buf} (hpc : σ.pc t = .returnLoadTail b) :
      Step σ t (.load .tail) (σ.goto t (.returnLoadHead b σ.tail))
  /-- The pool looks full: the buffer is freed. -/
  | returnFull {b : Buf} {tl : ℕ} (hpc : σ.pc t = .returnLoadHead b tl)
      (hfull : (tl + 1) % kMaxPoolSize = σ.head) :
      Step σ t (.load .head) ((σ.destroy b).goto t .idle)
  | returnLoadHead {b : Buf} {tl : ℕ} (hpc : σ.pc t = .returnLoadHead b tl)
      (hne : (tl + 1) % kMaxPoolSize ≠ σ.head) :
      Step σ t (.load .head) (σ.goto t (.returnExchange b tl))
  | returnExchanged {b : Buf} {tl : ℕ} (hpc : σ.pc t = .returnExchange b tl)
      (htail : σ.tail = tl) :
      Step σ t (.exchanged .tail tl)
        ({ σ with tail := (tl + 1) % kMaxPoolSize }.goto t (.returnAcquire b tl))
  | returnExchangeFailed {b : Buf} {tl : ℕ} (hpc : σ.pc t = .returnExchange b tl) :
      Step σ t (.exchangeFailed .tail) (σ.goto t (.returnLoadTail b))
  | returnAcquired {b : Buf} {tl : ℕ} (hpc : σ.pc t = .returnAcquire b tl)
      (hstatus : σ.status tl = .kEmpty) :
      Step σ t (.acquired tl .kInUseStoring)
        ((σ.setStatus tl .kInUseStoring).goto t (.returnCheck b tl))
  | returnAcquireFailed {b : Buf} {tl : ℕ} (hpc : σ.pc t = .returnAcquire b tl) :
      Step σ t (.acquireFailed tl) σ
  | returnChecked {b : Buf} {tl : ℕ} (hpc : σ.pc t = .returnCheck b tl)
      (hnull : σ.buffers tl = none) :
      Step σ t (.checked tl) (σ.goto t (.returnMove b tl))
  | returnAborted {b : Buf} {tl : ℕ} (hpc : σ.pc t = .returnCheck b tl)
      (hnull : σ.buffers tl ≠ none) : Step σ t (.checked tl) (σ.goto t (.aborted b))
  | returnMoved {b : Buf} {tl : ℕ} (hpc : σ.pc t = .returnMove b tl) :
      Step σ t (.moved tl)
        (((σ.destroyOld (σ.buffers tl)).setBuffer tl (some b)).goto t (.returnRelease tl))
  | returnReleased {tl : ℕ} (hpc : σ.pc t = .returnRelease tl) :
      Step σ t (.released tl .kAvailable) ((σ.setStatus tl .kAvailable).goto t .idle)

namespace Pool

/-- **The step relation is what `next?` computes.** -/
theorem next?_eq_some_iff {σ τ : Pool Tid Buf} {t : Tid} {a : Act Tid Buf} :
    σ.next? t a = some τ ↔ Step σ t a τ := by
  constructor
  · intro h
    simp only [next?] at h
    split at h
    all_goals try
      simp only [Option.ite_none_left_eq_some, Option.ite_none_right_eq_some,
        Option.some.injEq, reduceCtorEq, and_assoc] at h
    -- an access that ends in one way only, under the guards of its branch
    all_goals try
      first
        | subst h
        | obtain ⟨rfl, rfl⟩ := h
        | obtain ⟨_, rfl, rfl⟩ := h
        | obtain ⟨_, rfl⟩ := h
      constructor <;> assumption
    -- the test for emptiness, the test for fullness, a wait in `ReturnBuffer`, and the check
    · split at h <;> (cases h; constructor <;> assumption)
    · split at h <;> (cases h; constructor <;> assumption)
    · obtain ⟨rfl, rfl⟩ := h
      exact .returnAcquireFailed ‹_›
    · obtain ⟨rfl, h⟩ := h
      split at h <;> (cases h; constructor <;> assumption)
  · intro h
    cases h <;> simp_all [next?]

end Pool

/-- The buffer pool with the threads that use it. -/
def bufferPool (Tid Buf : Type*) [DecidableEq Tid] [DecidableEq Buf] :
    LTS (Pool Tid Buf) (Label Tid Buf) where
  step σ l τ := σ.next? l.thread l.act = some τ

/-! ### Executing a history -/

/-- The state after the steps of `ls`, if each of them can be done. -/
def Pool.exec (σ : Pool Tid Buf) : List (Label Tid Buf) → Option (Pool Tid Buf)
  | [] => some σ
  | l :: ls => (σ.next? l.thread l.act).bind fun τ ↦ τ.exec ls

/-- What can be executed is a run. -/
theorem run_of_exec {σ τ : Pool Tid Buf} {ls : List (Label Tid Buf)}
    (h : σ.exec ls = some τ) : (bufferPool Tid Buf).Run σ ls τ := by
  induction ls generalizing σ with
  | nil =>
    obtain rfl := Option.some.inj h
    exact .nil
  | cons l ls ih =>
    obtain ⟨ρ, hρ, hls⟩ := Option.bind_eq_some_iff.1 h
    exact .cons hρ (ih hls)

end BufferPool
