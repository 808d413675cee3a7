import Udpfwd.Relay.Activity
import Udpfwd.Transition.Progress
import Udpfwd.Transition.Simulation

/-!
# The loop of `RunWorker`

One call of `epoll_wait` returns up to 16 events, and `RunWorker` handles them one after the
other before it waits again. The descriptors were registered when `epoll_wait` returned; by the
time the last of the events is handled, sessions may have been created. `runWorker` is the loop
with whole batches and with the returns of `RunWorker`, and `batches` says that it does nothing
that `relay` does not do event by event: a descriptor that was registered at the start of a
batch is registered until its end, because only the idle sweep closes descriptors and no sweep
runs when there are events.
-/

open Net

namespace WgRelay

/-! ### One iteration -/

/-- The loop over the events of one `epoll_wait`. The first `recvfrom` that fails, other than
with `EAGAIN` or `EINTR`, ends it. -/
def handleBatch (context : WgcfRelayContext) :
    List (SocketHandle × Except Errno Datagram × Answers) →
      Option Errno × WgcfRelayContext × List Action
  | [] => (none, context, [])
  | (fd, result, a) :: rest =>
    match handleEvent context (.received fd result a) with
    | .error e => (some e, context, [.call (.recvfrom fd result)])
    | .ok (context, acts) =>
      let (returned, context, acts') := handleBatch context rest
      (returned, context, acts ++ acts')

/-- One iteration of `while (true)`: what `RunWorker` returns, if it does, the context and the
actions. -/
def runIteration (context : WgcfRelayContext) :
    EpollReturn → Option Errno × WgcfRelayContext × List Action
  | .failed e nowSec order epollDel =>
    if e = .EINTR then
      let (context, acts) := sweepLoop nowSec epollDel context order
      (none, context, .call (.clockGettime nowSec) :: acts)
    else (some e, context, [])
  | .timeout nowSec order epollDel =>
    let (context, acts) := sweepLoop nowSec epollDel context order
    (none, context, .call (.clockGettime nowSec) :: acts)
  | .ready first others => handleBatch context (first :: others)

/-- The error with which a `recvfrom` makes `RunWorker` return. -/
def recvFailure? : Except Errno Datagram → Option Errno
  | .ok _ => none
  | .error e => if e = .EAGAIN ∨ e = .EINTR then none else some e

/-- The error with which `RunWorker` returns in an iteration. -/
def EpollReturn.failure? : EpollReturn → Option Errno
  | .failed e _ _ _ => if e = .EINTR then none else some e
  | .timeout _ _ _ => none
  | .ready first others => (first :: others).findSome? fun entry ↦ recvFailure? entry.2.1

/-- A state of the loop. -/
structure LoopState where
  context : WgcfRelayContext
  kernel : Kernel
  /-- What `RunWorker` has returned, if it has. -/
  returned : Option Errno := none
  deriving DecidableEq

/-- The loop runs in this state of the relay. -/
def RelayState.looping (σ : RelayState) : LoopState := ⟨σ.context, σ.kernel, none⟩

/-- The state of the relay that the loop has reached. -/
def LoopState.relayState (s : LoopState) : RelayState := ⟨s.context, s.kernel⟩

/-- What one iteration was given, what it returned and what it did. -/
structure Round where
  epollReturn : EpollReturn
  returned : Option Errno
  actions : List Action

/-- What `epoll_wait` may return: at most 16 events, on registered descriptors. -/
def EpollReturn.Enabled (s : LoopState) : EpollReturn → Prop
  | .failed _ _ order _ | .timeout _ order _ =>
    order.Nodup ∧ order.toFinset = s.context.sessions.keys
  | .ready first others => (first :: others).length ≤ 16 ∧
    ∀ e ∈ first :: others, e.1 ∈ s.kernel.interest

instance (s : LoopState) : (r : EpollReturn) → Decidable (r.Enabled s)
  | .failed .. | .timeout .. | .ready .. => inferInstanceAs (Decidable (_ ∧ _))

/-- One iteration of the loop. -/
structure LoopStep (s : LoopState) (r : Round) (s' : LoopState) : Prop where
  running : s.returned = none
  enabled : r.epollReturn.Enabled s
  handled : runIteration s.context r.epollReturn = (r.returned, s'.context, r.actions)
  returned : s'.returned = r.returned
  granted : s.kernel.GrantsAll (calls r.actions)
  kernel : s'.kernel = s.kernel.replay (calls r.actions)

/-- `RunWorker`. -/
def runWorker : LTS LoopState Round where
  step := LoopStep

/-- What an iteration does, in events of the relay. -/
inductive HandlesBatch (r : Round) : List Label → Prop
  /-- `epoll_wait` has returned nothing. -/
  | swept {l : Label} {now : UInt64} {order : List UInt64}
      {epollDel : SocketHandle → Except Errno Unit}
      (hreturn : r.epollReturn = .timeout now order epollDel ∨
        r.epollReturn = .failed .EINTR now order epollDel)
      (hevent : l.event = .idleSweep now order epollDel) (hacts : r.actions = l.actions)
      (hreturned : r.returned = none) : HandlesBatch r [l]
  /-- `epoll_wait` has failed. -/
  | failed {e : Errno} {now : UInt64} {order : List UInt64}
      {epollDel : SocketHandle → Except Errno Unit}
      (hreturn : r.epollReturn = .failed e now order epollDel) (he : e ≠ .EINTR)
      (hacts : r.actions = []) (hreturned : r.returned = some e) : HandlesBatch r []
  /-- All events are handled. -/
  | handled {labels : List Label} {first : SocketHandle × Except Errno Datagram × Answers}
      {others : List (SocketHandle × Except Errno Datagram × Answers)}
      (hreturn : r.epollReturn = .ready first others)
      (hevents : labels.map (·.event) =
        (first :: others).map fun e ↦ .received e.1 e.2.1 e.2.2)
      (hacts : r.actions = actionsOf labels) (hreturned : r.returned = none) :
      HandlesBatch r labels
  /-- The events are handled up to the first `recvfrom` that fails. -/
  | broken {labels : List Label} {fd : SocketHandle} {e : Errno} {a : Answers}
      {first : SocketHandle × Except Errno Datagram × Answers}
      {others done rest : List (SocketHandle × Except Errno Datagram × Answers)}
      (hreturn : r.epollReturn = .ready first others)
      (hbatch : first :: others = done ++ (fd, .error e, a) :: rest)
      (he : e ≠ .EAGAIN ∧ e ≠ .EINTR)
      (hevents : labels.map (·.event) = done.map fun e ↦ .received e.1 e.2.1 e.2.2)
      (hacts : r.actions = actionsOf labels ++ [.call (.recvfrom fd (.error e))])
      (hreturned : r.returned = some e) : HandlesBatch r labels

section Batches

variable {inherited : Finset SocketHandle} {σ σ' : RelayState} {l : Label}

/-- **No descriptor goes stale in a batch.** A step that handles an event keeps every
registered descriptor registered. -/
theorem Step.interest_subset (hst : Step σ l σ') (hinv : TableInvariant inherited σ)
    (hnosweep : l.event.sweepTime = none) : σ.kernel.interest ⊆ σ'.kernel.interest := by
  intro fd hfd
  rw [(hinv.step hst).1.interest, hst.fixed.1]
  refine ((hinv.interest fd).1 hfd).imp_right fun hmem ↦ ?_
  obtain ⟨sid, hsid⟩ := Finmap.mem_iff.1 hmem
  obtain ⟨s, hs, hsock⟩ := hinv.session_of_fdMap hsid
  have hstep := hst.session sid
  rw [hs] at hstep
  rcases hs' : σ'.context.sessions.lookup sid with - | s'
  · rw [hs'] at hstep
    obtain ⟨now, order, epollDel, hsweep, -⟩ := hstep.sweep_of_none
    rw [hsweep] at hnosweep
    exact absurd hnosweep (by simp [Event.sweepTime])
  · rw [hs'] at hstep
    rw [← hsock, ← hstep.same.outboundSocket]
    exact (hinv.step hst).1.mem_fdMap hs'

/-- `recvfrom` makes `RunWorker` return exactly when it fails for good. -/
theorem handleEvent_eq_error {context : WgcfRelayContext} {fd : SocketHandle}
    {result : Except Errno Datagram} {a : Answers} {e : Errno} :
    handleEvent context (.received fd result a) = .error e ↔
      result = .error e ∧ e ≠ .EAGAIN ∧ e ≠ .EINTR := by
  rcases result with e' | d
  · rw [handleEvent]
    split
    · next h =>
      simp only [reduceCtorEq, Except.error.injEq, false_iff, not_and, not_not]
      rintro rfl hagain
      exact h.resolve_left hagain
    · next h =>
      rw [not_or] at h
      simp only [Except.error.injEq]
      exact ⟨fun heq ↦ ⟨heq, heq ▸ h.1, heq ▸ h.2⟩, fun h' ↦ h'.1⟩
  · simp [handleEvent]

/-- A batch ends with the first `recvfrom` that fails for good. -/
theorem handleBatch_returned {context : WgcfRelayContext}
    {batch : List (SocketHandle × Except Errno Datagram × Answers)} :
    (handleBatch context batch).1 = batch.findSome? fun entry ↦ recvFailure? entry.2.1 := by
  induction batch generalizing context with
  | nil => rfl
  | cons entry batch ih =>
    obtain ⟨fd, result, a⟩ := entry
    rw [handleBatch, List.findSome?_cons]
    rcases hevent : handleEvent context (.received fd result a) with e | ⟨context₁, acts₁⟩
    · obtain ⟨rfl, hagain, hintr⟩ := handleEvent_eq_error.1 hevent
      simp [recvFailure?, hagain, hintr]
    · have hnone : recvFailure? result = none := by
        rcases result with e | d
        · rw [recvFailure?, if_pos]
          by_contra hfor
          rw [not_or] at hfor
          rw [handleEvent_eq_error.2 ⟨rfl, hfor.1, hfor.2⟩] at hevent
          exact absurd hevent (by simp)
        · rfl
      show (handleBatch context₁ batch).1 = _
      rw [ih, hnone]

/-- An iteration returns what the kernel's answers say, and nothing else. -/
theorem runIteration_returned {context : WgcfRelayContext} {r : EpollReturn} :
    (runIteration context r).1 = r.failure? := by
  rcases r with ⟨e, now, order, epollDel⟩ | ⟨now, order, epollDel⟩ | ⟨first, others⟩
  · rw [runIteration, EpollReturn.failure?]
    split <;> rfl
  · rfl
  · exact handleBatch_returned

/-- The events of a batch, up to the first failing `recvfrom`, are steps of the relay, and all of
its calls name open descriptors. -/
theorem run_of_handleBatch (hinv : TableInvariant inherited σ)
    {batch : List (SocketHandle × Except Errno Datagram × Answers)}
    (hfds : ∀ e ∈ batch, e.1 ∈ σ.kernel.interest) {returned : Option Errno}
    {context' : WgcfRelayContext} {acts : List Action}
    (hbatch : handleBatch σ.context batch = (returned, context', acts))
    (hgrants : σ.kernel.GrantsAll (calls acts)) :
    σ.kernel.LegalAll (calls acts) ∧
    ∃ labels, relay.Run σ labels ⟨context', σ.kernel.replay (calls acts)⟩ ∧
      ((returned = none ∧ acts = actionsOf labels ∧
          labels.map (·.event) = batch.map fun e ↦ .received e.1 e.2.1 e.2.2) ∨
        ∃ fd e a done rest, returned = some e ∧ batch = done ++ (fd, .error e, a) :: rest ∧
          (e ≠ .EAGAIN ∧ e ≠ .EINTR) ∧
          labels.map (·.event) = (done.map fun e ↦ .received e.1 e.2.1 e.2.2) ∧
          acts = actionsOf labels ++ [.call (.recvfrom fd (.error e))]) := by
  induction batch generalizing σ acts with
  | nil =>
    simp only [handleBatch, Prod.mk.injEq] at hbatch
    obtain ⟨rfl, rfl, rfl⟩ := hbatch
    exact ⟨trivial, [], .nil, .inl ⟨rfl, rfl, rfl⟩⟩
  | cons entry batch ih =>
    obtain ⟨fd, result, a⟩ := entry
    rw [handleBatch] at hbatch
    rcases hevent : handleEvent σ.context (.received fd result a) with e | ⟨context₁, acts₁⟩
    · obtain ⟨rfl, he⟩ := handleEvent_eq_error.1 hevent
      simp only [hevent, Prod.mk.injEq] at hbatch
      obtain ⟨rfl, rfl, rfl⟩ := hbatch
      have hopen := hinv.interest_subset_openFds (hfds _ List.mem_cons_self)
      exact ⟨by simpa [Kernel.Legal, Syscall.uses] using hopen,
        [], .nil, .inr ⟨fd, e, a, [], batch, rfl, rfl, he, rfl, rfl⟩⟩
    · rcases hrest : handleBatch context₁ batch with ⟨returned', context₂, acts₂⟩
      simp only [hevent, hrest, Prod.mk.injEq] at hbatch
      obtain ⟨rfl, rfl, rfl⟩ := hbatch
      rw [calls_append, Kernel.grantsAll_append] at hgrants
      have hstep : Step σ ⟨.received fd result a, acts₁⟩
          ⟨context₁, σ.kernel.replay (calls acts₁)⟩ :=
        ⟨hfds _ List.mem_cons_self, hevent, hgrants.1, rfl⟩
      have hsub := hstep.interest_subset hinv rfl
      obtain ⟨hinv₁, hlegal₁, -⟩ := hinv.step hstep
      obtain ⟨hlegal, labels, hrun, hcases⟩ := ih hinv₁
        (fun e he ↦ hsub (hfds e (List.mem_cons_of_mem _ he))) hrest hgrants.2
      rw [calls_append, Kernel.replay_append, Kernel.legalAll_append]
      refine ⟨⟨hlegal₁, hlegal⟩, ⟨.received fd result a, acts₁⟩ :: labels, hrun.cons hstep, ?_⟩
      rcases hcases with ⟨rfl, rfl, hevents⟩ | ⟨fd', e, a', done, rest, rfl, rfl, he, hevents, rfl⟩
      · exact .inl ⟨rfl, rfl, by simp [hevents]⟩
      · refine .inr ⟨fd', e, a', (fd, result, a) :: done, rest, rfl, rfl, he, by simp [hevents], ?_⟩
        simp [actionsOf]

/-- The idle sweep of an iteration is a step of the relay. -/
theorem LoopStep.sweep {s s' : LoopState} {r : Round} (hst : LoopStep s r s') {now : UInt64}
    {order : List UInt64} {epollDel : SocketHandle → Except Errno Unit}
    (hreturn : r.epollReturn = .timeout now order epollDel ∨
      r.epollReturn = .failed .EINTR now order epollDel) :
    r.returned = none ∧
      relay.step s.relayState ⟨.idleSweep now order epollDel, r.actions⟩ s'.relayState := by
  have henabled : order.Nodup ∧ order.toFinset = s.context.sessions.keys := by
    have henabled := hst.enabled
    rcases hreturn with hreturn | hreturn <;> rw [hreturn] at henabled <;> exact henabled
  have hhandled : (none, (sweepLoop now epollDel s.context order).1,
      .call (.clockGettime now) :: (sweepLoop now epollDel s.context order).2) =
        (r.returned, s'.context, r.actions) := by
    rw [← hst.handled]
    rcases hreturn with hreturn | hreturn <;> rw [hreturn] <;> rfl
  simp only [Prod.mk.injEq] at hhandled
  obtain ⟨hreturned, hcontext, hacts⟩ := hhandled
  have hevent : handleEvent s.context (.idleSweep now order epollDel) =
      .ok (s'.context, r.actions) := by
    rw [← hcontext, ← hacts]
    rfl
  exact ⟨hreturned.symm, henabled, hevent, hst.granted, hst.kernel⟩

/-- One iteration of `RunWorker`: its calls name open descriptors, and the events that it
handles are steps of the relay. -/
theorem LoopStep.handles {s s' : LoopState} {r : Round} (hst : LoopStep s r s')
    (hinv : TableInvariant inherited s.relayState) :
    s.kernel.LegalAll (calls r.actions) ∧
      ∃ labels, HandlesBatch r labels ∧ relay.Run s.relayState labels s'.relayState := by
  rcases hreturn : r.epollReturn with ⟨e, now, order, epollDel⟩ | ⟨now, order, epollDel⟩ |
    ⟨first, others⟩
  · by_cases he : e = .EINTR
    · obtain ⟨hreturned, hstep⟩ := hst.sweep (.inr (he ▸ hreturn))
      exact ⟨(hinv.step hstep).2.1, _, .swept (.inr (he ▸ hreturn)) rfl rfl hreturned,
        .single hstep⟩
    · have hhandled := hst.handled
      rw [hreturn, runIteration, if_neg he] at hhandled
      simp only [Prod.mk.injEq] at hhandled
      obtain ⟨hreturned, hcontext, hacts⟩ := hhandled
      have hsame : s'.relayState = s.relayState := by
        rw [LoopState.relayState, hst.kernel, ← hcontext, ← hacts]
        rfl
      rw [hsame, ← hacts]
      exact ⟨trivial, [], .failed hreturn he hacts.symm hreturned.symm, .nil⟩
  · obtain ⟨hreturned, hstep⟩ := hst.sweep (.inl hreturn)
    exact ⟨(hinv.step hstep).2.1, _, .swept (.inl hreturn) rfl rfl hreturned, .single hstep⟩
  · have hhandled := hst.handled
    have henabled := hst.enabled
    rw [hreturn] at hhandled henabled
    obtain ⟨hlegal, labels, hrun, hcases⟩ :=
      run_of_handleBatch (σ := s.relayState) hinv henabled.2 hhandled hst.granted
    have hend : (⟨s'.context, s.kernel.replay (calls r.actions)⟩ : RelayState) =
        s'.relayState := by
      rw [← hst.kernel]
      rfl
    refine ⟨hlegal, labels, ?_, hend ▸ hrun⟩
    rcases hcases with ⟨hreturned, hacts, hevents⟩ |
      ⟨fd, e, a, done, rest, hreturned, hbatch, he, hevents, hacts⟩
    · exact .handled hreturn hevents hacts hreturned
    · exact .broken hreturn hbatch he hevents hacts hreturned

/-- **`RunWorker` refines the relay.** Every iteration is matched by the events that it
handles. -/
theorem batches (inherited : Finset SocketHandle) :
    LTS.Simulation runWorker relay
      (fun s σ ↦ TableInvariant inherited σ ∧ σ = s.relayState) HandlesBatch where
  step := by
    rintro s _ r s' ⟨hinv, rfl⟩ hst
    obtain ⟨-, labels, hhandles, hrun⟩ := LoopStep.handles hst hinv
    exact ⟨labels, _, hhandles, hrun,
      hrun.invariant (fun _ _ _ hinv hst ↦ (hinv.step hst).1) hinv, rfl⟩

end Batches

/-! ### Whole runs -/

section Runs

variable {inherited : Finset SocketHandle} {σ₀ : RelayState} {s : LoopState} {rs : List Round}

/-- **`RunWorker` is the relay, event by event**, from a successful `SetupSockets` on. Every
iteration sweeps, or handles a whole batch, or stops where `RunWorker` returns, which it does
only when `epoll_wait` or `recvfrom` fails for good; and the events that it handles form a run
of the relay. -/
theorem runWorker_refines_relay (hstart : Started inherited σ₀)
    (hrun : runWorker.Run σ₀.looping rs s) :
    ∃ hs : List (List Label),
      List.Forall₂ HandlesBatch rs hs ∧ relay.Run σ₀ hs.flatten s.relayState := by
  obtain ⟨hs, σ, hhandles, hr, -, rfl⟩ :=
    (batches inherited).run ⟨.started hstart, rfl⟩ hrun
  exact ⟨hs, hhandles, hr⟩

/-- What `RunWorker` has returned, in every run. -/
theorem runWorker_returned {s₀ : LoopState} (hnone : s₀.returned = none)
    (hrun : runWorker.Run s₀ rs s) :
    (s.returned = none ↔ ∀ r ∈ rs, r.epollReturn.failure? = none) ∧
      ∀ e, s.returned = some e ↔ ∃ past r, rs = past ++ [r] ∧
        (∀ m ∈ past, m.epollReturn.failure? = none) ∧ r.epollReturn.failure? = some e := by
  have hstep : ∀ (s : LoopState) r (s' : LoopState), True → runWorker.step s r s' →
      True ∧ s.returned = none ∧ s'.returned = r.epollReturn.failure? := by
    rintro s r s' - hst
    refine ⟨trivial, LoopStep.running hst, ?_⟩
    rw [LoopStep.returned hst, ← runIteration_returned, LoopStep.handled hst]
  obtain ⟨hgoes, hstops⟩ := LTS.Run.outcome_iff (fun _ ↦ True) hstep trivial hnone hrun
  exact ⟨hgoes, fun e ↦ hstops (some e) (by simp)⟩

/-- **Only the kernel stops the relay.** In every run `RunWorker` goes on as long as `epoll_wait`
and `recvfrom` do not fail for good, whatever packets have come from whomever and whichever other
calls have failed, and it returns the error of the first of the two that does. -/
theorem relay_returns_iff (hrun : runWorker.Run σ₀.looping rs s) :
    (s.returned = none ↔ ∀ r ∈ rs, r.epollReturn.failure? = none) ∧
      ∀ e, s.returned = some e ↔ ∃ past r, rs = past ++ [r] ∧
        (∀ m ∈ past, m.epollReturn.failure? = none) ∧ r.epollReturn.failure? = some e :=
  runWorker_returned rfl hrun

end Runs

/-- The first packet of a client. -/
def firstRound : Round where
  epollReturn := .ready (3, .ok sampleDatagram, sampleAnswers 1000) []
  returned := none
  actions := sampleActions 1000

/-- A `recvfrom` on the socket of the new session that fails with `EIO`. -/
def lastRound : Round where
  epollReturn := .ready (5, .error .inputOutput, sampleAnswers 1001) []
  returned := some .inputOutput
  actions := [.call (.recvfrom 5 (.error .inputOutput))]

theorem firstRound_step : runWorker.step sampleStart.looping firstRound
    (sampleLive 1000).looping :=
  ⟨rfl, by decide, rfl, rfl, by decide, rfl⟩

theorem lastRound_step : runWorker.step (sampleLive 1000).looping lastRound
    { (sampleLive 1000).looping with returned := some .inputOutput } :=
  ⟨rfl, by decide, rfl, rfl, by decide, rfl⟩

theorem lastRound_returns :
    ∃ past r, [firstRound, lastRound] = past ++ [r] ∧
      (∀ m ∈ past, m.epollReturn.failure? = none) ∧
        r.epollReturn.failure? = some .inputOutput :=
  ((relay_returns_iff ((LTS.Run.single firstRound_step).snoc lastRound_step)).2 _).1 rfl

theorem lastRound_refines_relay :
    ∃ hs : List (List Label), List.Forall₂ HandlesBatch [firstRound, lastRound] hs ∧
      relay.Run sampleStart hs.flatten (sampleLive 1000) :=
  runWorker_refines_relay sampleStart_started ((LTS.Run.single firstRound_step).snoc lastRound_step)

end WgRelay
