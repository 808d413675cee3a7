import Udpfwd.BufferPool.Pool
import Udpfwd.Queue.Bounded
import Udpfwd.Veth.EtherFrame

/-!
# The life of Ethernet frames

Sequences of the public operations of `vether::EtherFrame`, on any number of frames that share the
buffer pool. The pool is the queue that it is for calls that run one after another; a buffer keeps
its contents in it.

`SetSize` limits the size to that of the buffer. The constructors with a size do not, so the sizes
stay within the buffers exactly if the arguments of these constructors do (`bounded_iff`).
-/

open BoundedQueue

namespace Vether

/-! ### The pool -/

/-- `BufferPool::ObtainBuffer`: the buffer that has been in the pool for the longest time, or a
new one, which is zeroed. -/
def obtainBuffer : List Buffer → Buffer × List Buffer
  | [] => (fun _ ↦ 0, [])
  | buffer :: pool => (buffer, pool)

/-- `BufferPool::ReturnBuffer`. A buffer that the pool has no room for is freed. -/
def returnBuffer (pool : List Buffer) : Option Buffer → List Buffer
  | some buffer =>
    if pool.length < BufferPool.kMaxPoolSize - 1 then pool ++ [buffer] else pool
  | none => pool

/-! ### Operations -/

/-- A public operation on the frames with the names `Id`. -/
inductive FrameOp (Id : Type*)
  /-- `EtherFrame()` -/
  | construct (x : Id)
  /-- `EtherFrame(size)` -/
  | constructSize (x : Id) (size : ℕ)
  /-- `EtherFrame(std::move(data), size)` -/
  | constructData (x : Id) (data : Option Buffer) (size : ℕ)
  /-- `x.SetSize(size)` -/
  | setSize (x : Id) (size : ℕ)
  /-- `EtherFrame x(std::move(y))` -/
  | moveConstruct (x y : Id)
  /-- `x = std::move(y)` -/
  | moveAssign (x y : Id)
  /-- `EtherFrame x = y.Clone()` -/
  | clone (x y : Id)
  /-- The bytes behind `x.data()` are changed. -/
  | write (x : Id) (data : Buffer)
  /-- The destructor. -/
  | destroy (x : Id)

/-- The size that a constructor is given. -/
def FrameOp.constructorSize {Id : Type*} : FrameOp Id → ℕ
  | .constructSize _ size => size
  | .constructData _ _ size => size
  | _ => 0

/-- The frames that exist, and the pool. -/
structure Frames (Id : Type*) where
  frame : Id → Option EtherFrame := fun _ ↦ none
  pool : List Buffer := []

namespace Frames

variable {Id : Type*} [DecidableEq Id]

/-- The frame `x` is `f` now. -/
def set (σ : Frames Id) (x : Id) (f : EtherFrame) : Frames Id :=
  { σ with frame := Function.update σ.frame x (some f) }

/-- The frame `x` ends. -/
def remove (σ : Frames Id) (x : Id) : Frames Id :=
  { σ with frame := Function.update σ.frame x none }

/-- The pool has handed out a buffer. -/
def drawn (σ : Frames Id) : Frames Id := { σ with pool := (obtainBuffer σ.pool).2 }

/-- One operation, or `none` if it is not possible or not defined. The member `mData` is
initialized from the pool by the constructors that do not initialize it themselves. -/
def step? (σ : Frames Id) : FrameOp Id → Option (Frames Id)
  | .construct x =>
    match σ.frame x with
    | none => some (σ.drawn.set x ⟨some (obtainBuffer σ.pool).1, 0⟩)
    | some _ => none
  | .constructSize x size =>
    match σ.frame x with
    | none => some (σ.drawn.set x ⟨some (obtainBuffer σ.pool).1, size⟩)
    | some _ => none
  | .constructData x data size =>
    match σ.frame x with
    | none => some (σ.set x ⟨data, size⟩)
    | some _ => none
  | .setSize x size => (σ.frame x).map fun f ↦ σ.set x (f.setSize size)
  | .moveConstruct x y =>
    match σ.frame x, σ.frame y with
    | none, some g => some ((σ.set y { g with mData := none }).set x g)
    | _, _ => none
  | .moveAssign x y =>
    match σ.frame x, σ.frame y with
    -- a frame that is moved to itself keeps its buffer
    | some _, some g => some ((σ.set y { g with mData := none }).set x g)
    | _, _ => none
  | .clone x y =>
    match σ.frame x, σ.frame y with
    | none, some g =>
      match g.clone (obtainBuffer σ.pool).1 with
      | .ok f => some (σ.drawn.set x f)
      | .error _ => none
    | _, _ => none
  | .write x data =>
    match σ.frame x with
    | some ⟨some _, size⟩ => some (σ.set x ⟨some data, size⟩)
    | _ => none
  | .destroy x =>
    (σ.frame x).map fun f ↦ { σ.remove x with pool := returnBuffer σ.pool f.mData }

end Frames

/-- The frames of a program that runs one operation after another. -/
def etherFrames (Id : Type*) [DecidableEq Id] : LTS (Frames Id) (FrameOp Id) where
  step σ op τ := σ.step? op = some τ

/-- The state after a sequence of operations, if each of them is possible. -/
def Frames.exec {Id : Type*} [DecidableEq Id] (σ : Frames Id) :
    List (FrameOp Id) → Option (Frames Id) :=
  List.foldlM Frames.step? σ

/-- No frame is longer than its buffer, and a clone of a frame that has its buffer is a copy within
the two buffers. -/
structure Bounded {Id : Type*} (σ : Frames Id) : Prop where
  size_le : ∀ x f, σ.frame x = some f → f.size ≤ kMaxBufferSize
  clone_inside : ∀ x f, σ.frame x = some f → f.mData.isSome →
    ∀ another, ∃ g, f.clone another = .ok g

section Pool

variable {pool : List Buffer} {buffer : Buffer}

/-- Obtaining a buffer is an operation of the queue, and a new buffer is made if it is empty. -/
theorem obtainBuffer_step :
    (boundedQueue Buffer (BufferPool.kMaxPoolSize - 1)).step pool (.get pool.head?)
      (obtainBuffer pool).2 := by
  rcases pool with - | ⟨buffer, pool⟩ <;> exact ⟨rfl, rfl⟩

theorem returnBuffer_step :
    (boundedQueue Buffer (BufferPool.kMaxPoolSize - 1)).step pool
      (.put buffer (decide (pool.length < BufferPool.kMaxPoolSize - 1)))
      (returnBuffer pool (some buffer)) :=
  ⟨rfl, rfl⟩

end Pool

section Runs

variable {Id : Type*} [DecidableEq Id] {σ τ : Frames Id} {op : FrameOp Id}
  {ops : List (FrameOp Id)} {x y : Id} {f g : EtherFrame}

theorem run_of_exec (h : σ.exec ops = some τ) : (etherFrames Id).Run σ ops τ := by
  induction ops generalizing σ with
  | nil =>
    obtain rfl := Option.some.inj h
    exact .nil
  | cons op ops ih =>
    obtain ⟨ρ, hst, hρ⟩ := Option.bind_eq_some_iff.1 h
    exact .cons hst (ih hρ)

theorem Frames.set_frame : (σ.set x f).frame y = if y = x then some f else σ.frame y :=
  Function.update_apply ..

theorem Frames.remove_frame : (σ.remove x).frame y = if y = x then none else σ.frame y :=
  Function.update_apply ..

/-- No frame is longer than its buffer. -/
def SizesWithin (σ : Frames Id) : Prop := ∀ x f, σ.frame x = some f → f.mSize ≤ kMaxBufferSize

namespace SizesWithin

omit [DecidableEq Id] in
theorem init : SizesWithin ({} : Frames Id) := by
  intro x f hf
  cases hf

omit [DecidableEq Id] in
theorem bounded (h : SizesWithin σ) : Bounded σ where
  size_le := h
  clone_inside x f hf hdata another := by
    have hsize := h x f hf
    obtain ⟨data, n⟩ := f
    obtain ⟨data, rfl⟩ := Option.isSome_iff_exists.1 hdata
    exact ⟨_, EtherFrame.clone_eq hsize⟩

theorem set (h : SizesWithin σ) (hf : f.mSize ≤ kMaxBufferSize) : SizesWithin (σ.set x f) := by
  intro y g hg
  rw [Frames.set_frame] at hg
  split at hg
  · exact Option.some.inj hg ▸ hf
  · exact h y g hg

omit [DecidableEq Id] in
/-- The pool does not matter. -/
theorem congr (h : SizesWithin σ) (hframe : τ.frame = σ.frame) : SizesWithin τ := by
  rw [SizesWithin, hframe]
  exact h

theorem remove (h : SizesWithin σ) : SizesWithin (σ.remove x) := by
  intro y g hg
  rw [Frames.remove_frame] at hg
  split at hg
  · cases hg
  · exact h y g hg

/-- **One operation.** -/
theorem step (h : SizesWithin σ) (hop : op.constructorSize ≤ kMaxBufferSize)
    (hst : σ.step? op = some τ) : SizesWithin τ := by
  have hdrawn : SizesWithin σ.drawn := h.congr rfl
  cases op with
  | construct x =>
    simp only [Frames.step?] at hst
    split at hst <;> cases hst
    exact hdrawn.set (Nat.zero_le _)
  | constructSize x size =>
    simp only [Frames.step?] at hst
    split at hst <;> cases hst
    exact hdrawn.set hop
  | constructData x data size =>
    simp only [Frames.step?] at hst
    split at hst <;> cases hst
    exact h.set hop
  | setSize x size =>
    obtain ⟨f, hf, rfl⟩ := Option.map_eq_some_iff.1 hst
    exact h.set (Nat.min_le_right _ _)
  | moveConstruct x y | moveAssign x y =>
    simp only [Frames.step?] at hst
    split at hst <;> cases hst
    next g _ hg =>
      have hsize := h y g hg
      have hmoved : SizesWithin (σ.set y { g with mData := none }) := h.set hsize
      exact hmoved.set hsize
  | clone x y =>
    simp only [Frames.step?] at hst
    split at hst
    · next g _ hg =>
      split at hst <;> cases hst
      next f hclone => exact hdrawn.set (EtherFrame.size_of_clone hclone ▸ h y g hg)
    · cases hst
  | write x data =>
    simp only [Frames.step?] at hst
    split at hst <;> cases hst
    next size hf =>
      have hsize : size ≤ kMaxBufferSize := h x _ hf
      exact h.set hsize
  | destroy x =>
    obtain ⟨f, -, rfl⟩ := Option.map_eq_some_iff.1 hst
    exact h.remove.congr rfl

/-- **A sequence of operations**, if the constructors are given no size that is too large. -/
theorem run (hr : (etherFrames Id).Run {} ops σ)
    (hops : ∀ op ∈ ops, op.constructorSize ≤ kMaxBufferSize) : SizesWithin σ := by
  refine hr.historyInvariant (J := fun ops σ ↦
    (∀ op ∈ ops, op.constructorSize ≤ kMaxBufferSize) → SizesWithin σ) (fun _ ↦ .init)
    (fun ops σ op τ _ ih hst hops ↦ ?_) hops
  rw [List.forall_mem_append, List.forall_mem_singleton] at hops
  exact (ih hops.1).step hops.2 hst

end SizesWithin

/-- A constructor makes a frame of the size that it is given. -/
theorem exists_frame_of_constructorSize (hst : σ.step? op = some τ)
    (hsize : 0 < op.constructorSize) : ∃ x f, τ.frame x = some f ∧ f.size = op.constructorSize := by
  cases op with
  | constructSize x size =>
    simp only [Frames.step?] at hst
    split at hst <;> cases hst
    exact ⟨x, _, by rw [Frames.set_frame, if_pos rfl], rfl⟩
  | constructData x data size =>
    simp only [Frames.step?] at hst
    split at hst <;> cases hst
    exact ⟨x, _, by rw [Frames.set_frame, if_pos rfl], rfl⟩
  | _ => exact absurd hsize (Nat.lt_irrefl 0)

/-- Whatever is in a buffer can be what the next buffer from the pool holds. -/
theorem exists_run_obtaining (x : Id) (another : Buffer) :
    ∃ ops σ, (etherFrames Id).Run {} ops σ ∧ (obtainBuffer σ.pool).1 = another := by
  have hexec : ∃ σ : Frames Id,
      Frames.exec {} [.construct x, .write x another, .destroy x] = some σ ∧
        σ.pool = [another] := by
    simp [Frames.exec, Frames.step?, Frames.set, Frames.remove, Frames.drawn, obtainBuffer,
      returnBuffer, BufferPool.kMaxPoolSize]
  obtain ⟨σ, hσ, hpool⟩ := hexec
  exact ⟨_, σ, run_of_exec hσ, by rw [hpool]; rfl⟩

/-- **The sizes stay within the buffers exactly if the constructors are given such sizes.** In a
sequence of operations, no state on the way has a frame that is longer than its buffer, and every
clone copies within the buffers, if and only if no constructor is given a larger size. -/
theorem bounded_iff (hr : (etherFrames Id).Run {} ops σ) :
    (∀ past τ, past <+: ops → (etherFrames Id).Run {} past τ → Bounded τ) ↔
      ∀ op ∈ ops, op.constructorSize ≤ kMaxBufferSize := by
  constructor
  · intro h op hop
    obtain ⟨past, future, rfl⟩ := List.append_of_mem hop
    obtain ⟨ρ, hpast, hfuture⟩ := hr.split
    obtain ⟨τ, hst, -⟩ := hfuture.exists_of_cons
    have hbounded := h (past ++ [op]) τ ⟨future, by simp⟩ (hpast.snoc hst)
    rcases Nat.eq_zero_or_pos op.constructorSize with hzero | hpos
    · rw [hzero]
      exact Nat.zero_le _
    · obtain ⟨x, f, hf, hsize⟩ := exists_frame_of_constructorSize hst hpos
      exact hsize ▸ hbounded.size_le x f hf
  · intro h past τ hpast hτ
    exact (SizesWithin.run hτ fun op hop ↦ h op (hpast.subset hop)).bounded

end Runs

/-- A frame is made, `SetSize` is asked for more than there is room for, and the frame is
cloned. -/
def sampleOps : List (FrameOp Bool) :=
  [.constructSize false 1500, .setSize false 20000, .clone true false]

theorem sampleOps_bounded : ∃ σ, (etherFrames Bool).Run {} sampleOps σ ∧ Bounded σ := by
  have hr : (etherFrames Bool).Run {} sampleOps _ := run_of_exec rfl
  exact ⟨_, hr, (bounded_iff hr).2 (by decide) sampleOps _ List.prefix_rfl hr⟩

/-- A frame of 16385 bytes is longer than its buffer, and its clone is not defined. -/
theorem oversized_not_bounded : ∃ σ f, (etherFrames Unit).Run {} [.constructSize () 16385] σ ∧
    σ.frame () = some f ∧ f.mData.isSome ∧ ¬f.size ≤ kMaxBufferSize ∧
      (∀ another, f.clone another = .error .outOfBounds) ∧ ¬Bounded σ := by
  refine ⟨_, _, .single rfl, rfl, rfl, by decide, fun another ↦ rfl, fun h ↦ ?_⟩
  exact absurd (h.size_le () _ rfl) (by decide)

end Vether
