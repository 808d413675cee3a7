import Mathlib.Data.Finset.Card
import Udpfwd.Forwarder.Separation
import Udpfwd.Transition.Progress
import Udpfwd.Transition.Simulation

/-!
# The loop of the forwarder

One call of `epoll_wait` returns up to 16 events, which `RunWorker` handles one after the other.
If the destinations of the targets are addresses (`Sendable`), it returns at the first event that
reports a failure (`Event.failure?`), and at no other: whatever arrives in a datagram, the loop goes
on (`forwarder_returns_iff`). Under the same condition the loop with whole batches does what the
forwarder does with the events one by one, up to that event (`runWorker_refines_forwarder`).

No descriptor is opened or closed after `SetupSockets`, and the calls about sockets and
registrations name only open ones (`forwarder_process_legal`).
-/

open Net

namespace UdpForward

/-! ### Failures -/

/-- The error that `RunWorker` returns for an event. -/
def Event.failure? : Event → Option Errno
  | .epollFailed e => some e
  | .polled _ true _ _ _ _ => some .inputOutput
  | .polled _ false true _ _ _ => some .inputOutput
  | .polled _ false false true (.error e) _ => if e = .EAGAIN ∨ e = .EINTR then none else some e
  | _ => none

/-- How the handling of an event ends, if it ends well for every datagram. -/
def Event.outcome (e : Event) : Outcome :=
  e.failure?.elim .next .returned

theorem elim_eq_next_iff {failure : Option Errno} :
    failure.elim Outcome.next .returned = .next ↔ failure = none := by
  rcases failure with - | e <;> simp

theorem elim_eq_returned_iff {failure : Option Errno} {e : Errno} :
    failure.elim Outcome.next .returned = .returned e ↔ failure = some e := by
  rcases failure with - | e <;> simp

/-- The destinations of the targets are addresses. -/
def Sendable (targets : List UdpForwardTargetInfo) : Prop :=
  ∀ target ∈ targets, target.destination.isValid = true

section Failures

variable {context : UdpForwardContext} {k : Kernel} {targets : List UdpForwardTargetInfo}
variable {fd : SocketHandle} {d : Datagram} {answer : Except Errno ℕ}

/-- The sessions of targets with addresses can send to their destinations. -/
theorem Sendable.exists_destination (hsend : Sendable targets) (hal : Aligned targets context k)
    {s : UdpForwardSession} (hs : s ∈ context.sessions) :
    ∃ dest, toLinuxSocketAddress s.destinationAddress = some dest := by
  obtain ⟨i, hi⟩ := List.getElem?_of_mem hs
  have hlt : i < targets.length :=
    hal.sessions.length_eq ▸ (List.getElem?_eq_some_iff.1 hi).1
  have hfor := hal.forTarget (List.getElem?_eq_getElem hlt) hi
  rw [← Option.isSome_iff_exists, isSome_toLinuxSocketAddress, hfor.destination]
  exact hsend _ (List.getElem_mem hlt)

/-- **No datagram stops the loop.** -/
theorem handleDatagram_next (hsend : Sendable targets) (hal : Aligned targets context k)
    (hfd : fd ∈ context.descriptors) : (handleDatagram context fd d answer).1 = .next := by
  obtain ⟨i, s, hs, hmem⟩ := mem_descriptors.1 hfd
  obtain ⟨dest, hdest⟩ := hsend.exists_destination hal (List.mem_of_getElem? hs)
  rw [handleDatagram, (hal.index fd i).2 ⟨s, hs, hmem⟩]
  simp only [hs]
  split
  · rfl
  rcases toSocketAddress d.source with - | fromAddress
  · rfl
  dsimp only
  split
  · have hkeep : ∀ s' : UdpForwardSession, s'.destinationAddress = s.destinationAddress →
        toLinuxSocketAddress s'.destinationAddress = some dest := fun s' heq ↦ heq ▸ hdest
    rw [forwardToDestination, hkeep _ (by split <;> rfl)]
  split
  · rw [forwardToSource]
    split
    · rfl
    split
    · rfl
    next hvalid =>
    have hsome := isSome_toLinuxSocketAddress s.sourceAddress
    rcases haddr : toLinuxSocketAddress s.sourceAddress with - | addr
    · rw [haddr] at hsome
      simp [← hsome] at hvalid
    · rfl
  · rfl

end Failures

section Steps

variable {inherited : Finset SocketHandle} {targets : List UdpForwardTargetInfo}
variable {σ₀ σ σ' : ForwarderState} {h : List Label} {l : Label} {e : Errno}

/-- **How a step ends is in its event.** -/
theorem Step.outcome_eq (hst : Step σ l σ') (hsend : Sendable targets)
    (hal : Aligned targets σ.context σ.kernel) : σ'.outcome = l.event.outcome := by
  have henabled := hst.enabled
  have houtcome : (handleEvent σ.context l.event).1 = σ'.outcome := by rw [hst.handled]
  rw [← houtcome]
  rcases hevent : l.event with e | ⟨fd, epollErr, epollHup, epollIn, received, answer⟩
  · rfl
  rw [hevent] at henabled
  rcases epollErr with - | -
  case true => rfl
  rcases epollHup with - | -
  case true => rfl
  rcases epollIn with - | -
  case false => rfl
  rcases received with e | d
  · show (if _ then _ else _) = Option.elim (if _ then _ else _) _ _
    split <;> rfl
  · exact handleDatagram_next hsend hal ((hal.interest fd).1 henabled)

/-- The outcome, in every run. -/
theorem outcome_run (hal : Aligned targets σ₀.context σ₀.kernel) (hnext : σ₀.outcome = .next)
    (hsend : Sendable targets) (hrun : forwarder.Run σ₀ h σ) :
    (σ.outcome = .next ↔ ∀ l ∈ h, l.event.failure? = none) ∧
      ∀ e, σ.outcome = .returned e ↔ ∃ past l, h = past ++ [l] ∧
        (∀ m ∈ past, m.event.failure? = none) ∧ l.event.failure? = some e := by
  have hstep : ∀ ρ l ρ', Aligned targets ρ.context ρ.kernel → forwarder.step ρ l ρ' →
      Aligned targets ρ'.context ρ'.kernel ∧ ρ.outcome = .next ∧ ρ'.outcome = l.event.outcome :=
    fun _ _ _ hal hst ↦ ⟨(hal.step hst).1, Step.running hst, Step.outcome_eq hst hsend hal⟩
  obtain ⟨hgoes, hstops⟩ := LTS.Run.outcome_iff _ hstep hal hnext hrun
  simp only [Event.outcome, elim_eq_next_iff] at hgoes hstops
  refine ⟨hgoes, fun e ↦ ?_⟩
  rw [hstops (.returned e) (by simp)]
  simp only [elim_eq_returned_iff]

/-- **`RunWorker` returns at the first failure and at nothing else.** In every run of the forwarder
it goes on as long as neither `epoll_wait` nor `recvfrom` has failed and no error or hang-up has
been reported, whatever has been received from whomever, and it returns the error of the first
such event. -/
theorem forwarder_returns_iff (hstart : Started inherited targets σ₀) (hsend : Sendable targets)
    (hrun : forwarder.Run σ₀ h σ) :
    (σ.outcome = .next ↔ ∀ l ∈ h, l.event.failure? = none) ∧
      ∀ e, σ.outcome = .returned e ↔ ∃ past l, h = past ++ [l] ∧
        (∀ m ∈ past, m.event.failure? = none) ∧ l.event.failure? = some e := by
  have hal := hstart.aligned.1
  obtain ⟨-, -, -, -, -, -, hnext⟩ := hstart
  exact outcome_run hal hnext hsend hrun

end Steps

theorem sampleTargets_sendable : Sendable sampleTargets := by
  rw [Sendable]
  decide

/-- A hang-up after the query. -/
def afterHangup : Label × ForwarderState :=
  (exec afterQuery.2 (.polled 7 false true false (.error .EAGAIN) (.ok 0))).get (by decide)

theorem afterHangup_returns : afterHangup.2.outcome = .returned .inputOutput := by
  have hrun : forwarder.Run sampleStart ([afterQuery.1] ++ [afterHangup.1]) afterHangup.2 :=
    (LTS.Run.single (exec_get_step _)).snoc (exec_get_step _)
  have hpast : ∀ m ∈ [afterQuery.1], m.event.failure? = none := by
    intro m hm
    rw [List.mem_singleton.1 hm]
    rfl
  exact ((forwarder_returns_iff sampleStart_started sampleTargets_sendable hrun).2 _).2
    ⟨_, _, rfl, hpast, rfl⟩

/-! ### Batches -/

/-- An `epoll_event`, with the kernel's answers to the calls it may cause. -/
structure Polled where
  fd : SocketHandle
  epollErr : Bool
  epollHup : Bool
  epollIn : Bool
  received : Except Errno Datagram
  sendto : Except Errno ℕ

def Polled.event (p : Polled) : Event :=
  .polled p.fd p.epollErr p.epollHup p.epollIn p.received p.sendto

/-- What `epoll_wait` returns. -/
inductive EpollReturn
  | failed (e : Errno)
  | ready (events : List Polled)

def EpollReturn.events : EpollReturn → List Event
  | .failed e => [.epollFailed e]
  | .ready events => events.map (·.event)

/-- The first failure that it reports. -/
def EpollReturn.failure? (r : EpollReturn) : Option Errno :=
  r.events.findSome? (·.failure?)

/-- The loop over the events of one `epoll_wait`. -/
def handleBatch (context : UdpForwardContext) :
    List Polled → Outcome × UdpForwardContext × List Syscall
  | [] => (.next, context, [])
  | p :: rest =>
    match handleEvent context p.event with
    | (.next, context, calls) =>
      let (outcome, context, calls') := handleBatch context rest
      (outcome, context, calls ++ calls')
    | (outcome, context, calls) => (outcome, context, calls)

/-- One iteration of `while (true)`. -/
def runIteration (context : UdpForwardContext) :
    EpollReturn → Outcome × UdpForwardContext × List Syscall
  | .failed e => (.returned e, context, [])
  | .ready events => handleBatch context events

/-- What one iteration was given, and the calls it made. -/
structure Round where
  epollReturn : EpollReturn
  calls : List Syscall

/-- What `epoll_wait` may return: at most 16 events, on registered descriptors. -/
def EpollReturn.Enabled (σ : ForwarderState) : EpollReturn → Prop
  | .failed _ => True
  | .ready events => events.length ≤ 16 ∧ ∀ p ∈ events, p.fd ∈ σ.kernel.interest

/-- One iteration of the loop. -/
structure LoopStep (σ : ForwarderState) (r : Round) (σ' : ForwarderState) : Prop where
  running : σ.outcome = .next
  enabled : r.epollReturn.Enabled σ
  handled : runIteration σ.context r.epollReturn = (σ'.outcome, σ'.context, r.calls)
  kernel : σ'.kernel = σ.kernel.replay r.calls

/-- `RunWorker`. -/
def runWorker : LTS ForwarderState Round where
  step := LoopStep

/-- The events up to the first failure, and with it. -/
def handledEvents : List Event → List Event
  | [] => []
  | e :: es => if e.failure? = none then e :: handledEvents es else [e]

/-- What an iteration does, in steps of the forwarder. -/
structure HandlesBatch (r : Round) (ls : List Label) : Prop where
  events : ls.map (·.event) = handledEvents r.epollReturn.events
  calls : r.calls = ls.flatMap (·.calls)

section Batches

variable {targets : List UdpForwardTargetInfo} {σ σ' : ForwarderState} {l : Label}

/-- The events of a batch are steps of the forwarder, up to the first failure. -/
theorem run_of_handleBatch (hsend : Sendable targets) {batch : List Polled}
    (hal : Aligned targets σ.context σ.kernel) (hrunning : σ.outcome = .next)
    (hfds : ∀ p ∈ batch, p.fd ∈ σ.kernel.interest) {outcome : Outcome}
    {context' : UdpForwardContext} {calls : List Syscall}
    (hbatch : handleBatch σ.context batch = (outcome, context', calls)) :
    ∃ ls, forwarder.Run σ ls ⟨context', σ.kernel.replay calls, outcome⟩ ∧
      ls.map (·.event) = handledEvents (batch.map (·.event)) ∧ calls = ls.flatMap (·.calls) := by
  induction batch generalizing σ calls with
  | nil =>
    simp only [handleBatch, Prod.mk.injEq] at hbatch
    obtain ⟨rfl, rfl, rfl⟩ := hbatch
    rw [← hrunning]
    exact ⟨[], .nil, rfl, rfl⟩
  | cons p batch ih =>
    rcases hevent : handleEvent σ.context p.event with ⟨outcome₁, context₁, calls₁⟩
    have hstep : Step σ ⟨p.event, calls₁⟩ ⟨context₁, σ.kernel.replay calls₁, outcome₁⟩ :=
      ⟨hrunning, hfds p List.mem_cons_self, hevent, rfl⟩
    have houtcome : outcome₁ = p.event.outcome := hstep.outcome_eq hsend hal
    have hkernel := hstep.effect.fixed.2.2 σ.kernel
    simp only [handleBatch, hevent] at hbatch
    rw [List.map_cons, handledEvents]
    rcases hfailure : p.event.failure? with - | e
    · obtain rfl : outcome₁ = .next := by rw [houtcome, Event.outcome, hfailure]; rfl
      rcases hrest : handleBatch context₁ batch with ⟨outcome₂, context₂, calls₂⟩
      simp only [hrest, Prod.mk.injEq] at hbatch
      obtain ⟨rfl, rfl, rfl⟩ := hbatch
      obtain ⟨ls, hrun, hevents, rfl⟩ := ih (hal.step hstep).1 rfl
        (fun q hq ↦ by rw [hkernel]; exact hfds q (List.mem_cons_of_mem _ hq)) hrest
      rw [Kernel.replay_append, if_pos rfl]
      exact ⟨_, hrun.cons hstep, by rw [List.map_cons, hevents], rfl⟩
    · obtain rfl : outcome₁ = .returned e := by rw [houtcome, Event.outcome, hfailure]; rfl
      simp only [Prod.mk.injEq] at hbatch
      obtain ⟨rfl, rfl, rfl⟩ := hbatch
      rw [if_neg (by simp)]
      exact ⟨_, .single hstep, rfl, by simp⟩

/-- One iteration of `RunWorker`, event by event. -/
theorem LoopStep.handles {r : Round} (hst : LoopStep σ r σ') (hsend : Sendable targets)
    (hal : Aligned targets σ.context σ.kernel) :
    ∃ ls, HandlesBatch r ls ∧ forwarder.Run σ ls σ' := by
  have hhandled := hst.handled
  have henabled := hst.enabled
  rcases hreturn : r.epollReturn with e | events
  · rw [hreturn, runIteration, Prod.mk.injEq, Prod.mk.injEq] at hhandled
    obtain ⟨houtcome, hcontext, hcalls⟩ := hhandled
    refine ⟨[⟨.epollFailed e, []⟩], ⟨by rw [hreturn]; rfl, hcalls.symm⟩, .single ?_⟩
    refine ⟨hst.running, trivial, ?_, ?_⟩
    · rw [← houtcome, ← hcontext]
      rfl
    · rw [hst.kernel, ← hcalls]
  · rw [hreturn] at hhandled henabled
    obtain ⟨ls, hrun, hevents, hcalls⟩ :=
      run_of_handleBatch hsend hal hst.running henabled.2 hhandled
    refine ⟨ls, ⟨by rw [hreturn]; exact hevents, hcalls⟩, ?_⟩
    rw [← hst.kernel] at hrun
    exact hrun

/-- What a batch ends with. -/
theorem handleBatch_outcome (hsend : Sendable targets) {batch : List Polled}
    (hal : Aligned targets σ.context σ.kernel) (hrunning : σ.outcome = .next)
    (hfds : ∀ p ∈ batch, p.fd ∈ σ.kernel.interest) :
    (handleBatch σ.context batch).1 =
      ((batch.map (·.event)).findSome? (·.failure?)).elim .next .returned := by
  induction batch generalizing σ with
  | nil => rfl
  | cons p batch ih =>
    rcases hevent : handleEvent σ.context p.event with ⟨outcome₁, context₁, calls₁⟩
    have hstep : Step σ ⟨p.event, calls₁⟩ ⟨context₁, σ.kernel.replay calls₁, outcome₁⟩ :=
      ⟨hrunning, hfds p List.mem_cons_self, hevent, rfl⟩
    have houtcome : outcome₁ = p.event.outcome := hstep.outcome_eq hsend hal
    have hkernel := hstep.effect.fixed.2.2 σ.kernel
    rw [handleBatch, hevent, List.map_cons, List.findSome?_cons, houtcome, Event.outcome]
    rcases p.event.failure? with - | e
    · refine ih (σ := ⟨context₁, σ.kernel.replay calls₁, .next⟩) (hal.step hstep).1 rfl ?_
      intro q hq
      show q.fd ∈ (σ.kernel.replay calls₁).interest
      rw [hkernel]
      exact hfds q (List.mem_cons_of_mem _ hq)
    · rfl

/-- What an iteration ends with. -/
theorem LoopStep.outcome_eq {r : Round} (hst : LoopStep σ r σ') (hsend : Sendable targets)
    (hal : Aligned targets σ.context σ.kernel) :
    σ'.outcome = r.epollReturn.failure?.elim .next .returned := by
  have houtcome : (runIteration σ.context r.epollReturn).1 = σ'.outcome := by rw [hst.handled]
  have henabled := hst.enabled
  rw [← houtcome]
  rcases hreturn : r.epollReturn with e | events
  · rfl
  · rw [hreturn] at henabled
    exact handleBatch_outcome hsend hal hst.running henabled.2

/-- An iteration keeps the alignment. -/
theorem Aligned.loopStep {r : Round} (hal : Aligned targets σ.context σ.kernel)
    (hst : LoopStep σ r σ') (hsend : Sendable targets) : Aligned targets σ'.context σ'.kernel := by
  obtain ⟨ls, -, hrun⟩ := hst.handles hsend hal
  exact hrun.invariant (I := fun ρ ↦ Aligned targets ρ.context ρ.kernel)
    (fun _ _ _ hal hst ↦ (hal.step hst).1) hal

/-- **`RunWorker` refines the forwarder.** -/
theorem batches (hsend : Sendable targets) :
    LTS.Simulation runWorker forwarder
      (fun σ σ' ↦ Aligned targets σ.context σ.kernel ∧ σ' = σ) HandlesBatch where
  step := by
    rintro σ _ r σ' ⟨hal, rfl⟩ hst
    obtain ⟨ls, hhandles, hrun⟩ := LoopStep.handles hst hsend hal
    exact ⟨ls, σ', hhandles, hrun, hal.loopStep hst hsend, rfl⟩

/-- The outcome, in every run of `RunWorker`. -/
theorem runWorker_outcome {σ₀ : ForwarderState} {rs : List Round}
    (hal : Aligned targets σ₀.context σ₀.kernel) (hnext : σ₀.outcome = .next)
    (hsend : Sendable targets) (hrun : runWorker.Run σ₀ rs σ) :
    (σ.outcome = .next ↔ ∀ r ∈ rs, r.epollReturn.failure? = none) ∧
      ∀ e, σ.outcome = .returned e ↔ ∃ past r, rs = past ++ [r] ∧
        (∀ m ∈ past, m.epollReturn.failure? = none) ∧ r.epollReturn.failure? = some e := by
  have hstep : ∀ ρ r ρ', Aligned targets ρ.context ρ.kernel → runWorker.step ρ r ρ' →
      Aligned targets ρ'.context ρ'.kernel ∧ ρ.outcome = .next ∧
        ρ'.outcome = r.epollReturn.failure?.elim .next .returned :=
    fun _ _ _ hal hst ↦
      ⟨hal.loopStep hst hsend, LoopStep.running hst, LoopStep.outcome_eq hst hsend hal⟩
  obtain ⟨hgoes, hstops⟩ := LTS.Run.outcome_iff _ hstep hal hnext hrun
  simp only [elim_eq_next_iff] at hgoes hstops
  refine ⟨hgoes, fun e ↦ ?_⟩
  rw [hstops (.returned e) (by simp)]
  simp only [elim_eq_returned_iff]

/-- **What `RunWorker` does with whole batches, the forwarder does event by event**, with the same
calls in the same order, if the destinations of the targets are addresses: each iteration handles
the events of its batch up to the first failure, and the iteration that has one is the last. -/
theorem runWorker_refines_forwarder {inherited : Finset SocketHandle} {σ₀ : ForwarderState}
    {rs : List Round} (hstart : Started inherited targets σ₀) (hsend : Sendable targets)
    (hrun : runWorker.Run σ₀ rs σ) :
    ∃ hs, List.Forall₂ HandlesBatch rs hs ∧ forwarder.Run σ₀ hs.flatten σ := by
  obtain ⟨hs, σ', hmatches, hr, -, rfl⟩ := (batches hsend).run ⟨hstart.aligned.1, rfl⟩ hrun
  exact ⟨hs, hmatches, hr⟩

end Batches

/-- A datagram for the second target, a hang-up, and an event that comes too late. -/
def sampleBatch : List Polled :=
  [{ fd := 6, epollErr := false, epollHup := false, epollIn := true
     received := .ok
      { payload := [8, 9]
        source := .in6 (htons 40000) 0 (Vector.replicate 16 1) 0
        fits := by decide }
     sendto := .ok 2 },
    { fd := 7, epollErr := false, epollHup := true, epollIn := false
      received := .error .EAGAIN, sendto := .ok 0 },
    { fd := 5, epollErr := false, epollHup := false, epollIn := true
      received := .error .EAGAIN, sendto := .ok 0 }]

/-- The round that handles `sampleBatch`. -/
def sampleRound : Round :=
  ⟨.ready sampleBatch, (handleBatch sampleStart.context sampleBatch).2.2⟩

/-- The state in which it ends. -/
def afterRound : ForwarderState :=
  let (outcome, context, calls) := handleBatch sampleStart.context sampleBatch
  ⟨context, sampleStart.kernel.replay calls, outcome⟩

theorem sampleRound_step : runWorker.step sampleStart sampleRound afterRound :=
  ⟨rfl, ⟨by decide, by decide⟩, rfl, rfl⟩

theorem afterRound_refines :
    ∃ hs, List.Forall₂ HandlesBatch [sampleRound] hs ∧
      forwarder.Run sampleStart hs.flatten afterRound :=
  runWorker_refines_forwarder sampleStart_started sampleTargets_sendable (.single sampleRound_step)

/-! ### Descriptors -/

section Legality

variable {context context' : UdpForwardContext} {targets : List UdpForwardTargetInfo} {k : Kernel}
variable {inherited : Finset SocketHandle} {σ₀ σ σ' : ForwarderState} {l : Label}
variable {epoll : SocketHandle} {a : ℕ → TargetAnswers} {calls : List Syscall}

/-- What is sent for a datagram goes out on a socket of a session. -/
theorem handleDatagram_calls {fd : SocketHandle} {d : Datagram} {answer : Except Errno ℕ}
    {c : Syscall} (hc : c ∈ (handleDatagram context fd d answer).2.2) :
    ∃ sock ∈ context.descriptors, ∃ packet dest, c = .sendto sock packet dest answer := by
  have hsocket : ∀ {i : ℕ} {s : UdpForwardSession} {sock packet dest},
      context.sessions[i]? = some s → sock ∈ s.descriptors →
        c ∈ [Syscall.sendto sock packet dest answer] →
          ∃ sock ∈ context.descriptors, ∃ packet dest, c = .sendto sock packet dest answer :=
    fun hs hsock hc ↦ ⟨_, mem_descriptors.2 ⟨_, _, hs, hsock⟩, _, _, List.mem_singleton.1 hc⟩
  have hnone : c ∉ ([] : List Syscall) := List.not_mem_nil
  rw [handleDatagram] at hc
  split at hc
  · exact absurd hc hnone
  split at hc
  · exact absurd hc hnone
  split at hc
  · exact absurd hc hnone
  split at hc
  · exact absurd hc hnone
  next i _ _ _ _ _ s hs =>
  split at hc
  · rw [forwardToDestination] at hc
    split at hc
    · exact absurd hc hnone
    · refine hsocket hs ?_ hc
      split <;> exact s.outboundSocket_mem
  split at hc
  · rw [forwardToSource] at hc
    split at hc
    · exact absurd hc hnone
    split at hc
    · exact absurd hc hnone
    split at hc
    · exact absurd hc hnone
    · exact hsocket hs s.inboundSocket_mem hc
  · exact absurd hc hnone

/-- Calls that leave the kernel as it is are judged one by one. -/
theorem legalAll_of_forall (h : ∀ c ∈ calls, k.Legal c ∧ k.after c = k) : k.LegalAll calls := by
  induction calls with
  | nil => exact trivial
  | cons c calls ih =>
    obtain ⟨⟨hlegal, hafter⟩, hrest⟩ := List.forall_mem_cons.1 h
    exact ⟨hlegal, by rw [hafter]; exact ih hrest⟩

/-- A step names open descriptors only. -/
theorem Step.legal (hst : Step σ l σ') (hal : Aligned targets σ.context σ.kernel) :
    σ.kernel.LegalAll l.calls := by
  have henabled := hst.enabled
  have hcalls : l.calls = (handleEvent σ.context l.event).2.2 := by rw [hst.handled]
  rw [hcalls]
  rcases hevent : l.event with e | ⟨fd, epollErr, epollHup, epollIn, received, answer⟩
  · exact trivial
  rw [hevent] at henabled
  rcases epollErr with - | -
  case true => exact trivial
  rcases epollHup with - | -
  case true => exact trivial
  rcases epollIn with - | -
  case false => exact trivial
  have hopen : fd ∈ σ.kernel.openFds := hal.openFds fd ((hal.interest fd).1 henabled)
  have hrecvfrom : ∀ r, σ.kernel.Legal (.recvfrom fd r) := by
    intro r fd' hfd'
    rwa [List.mem_singleton.1 hfd']
  rcases received with e | d
  · exact ⟨hrecvfrom _, trivial⟩
  · refine ⟨hrecvfrom _, legalAll_of_forall fun c hc ↦ ?_⟩
    obtain ⟨sock, hsock, packet, dest, rfl⟩ := handleDatagram_calls hc
    refine ⟨fun fd' hfd' ↦ ?_, rfl⟩
    rw [List.mem_singleton.1 hfd']
    exact hal.openFds sock hsock

/-- A batch names open descriptors only, and opens and closes none. -/
theorem handleBatch_legal {batch : List Polled} (hal : Aligned targets context k)
    (hfds : ∀ p ∈ batch, p.fd ∈ k.interest) {outcome : Outcome}
    (hbatch : handleBatch context batch = (outcome, context', calls)) :
    k.LegalAll calls ∧ k.replay calls = k ∧ Aligned targets context' k := by
  induction batch generalizing context calls with
  | nil =>
    simp only [handleBatch, Prod.mk.injEq] at hbatch
    obtain ⟨-, rfl, rfl⟩ := hbatch
    exact ⟨trivial, rfl, hal⟩
  | cons p batch ih =>
    rcases hevent : handleEvent context p.event with ⟨outcome₁, context₁, calls₁⟩
    have hstep : Step ⟨context, k, .next⟩ ⟨p.event, calls₁⟩
        ⟨context₁, k.replay calls₁, outcome₁⟩ :=
      ⟨rfl, hfds p List.mem_cons_self, hevent, rfl⟩
    have hlegal : k.LegalAll calls₁ := hstep.legal hal
    have hkernel : k.replay calls₁ = k := hstep.effect.fixed.2.2 k
    have hal₁ : Aligned targets context₁ (k.replay calls₁) := (hal.step hstep).1
    rw [hkernel] at hal₁
    simp only [handleBatch, hevent] at hbatch
    rcases outcome₁ with - | e | -
    · rcases hrest : handleBatch context₁ batch with ⟨outcome₂, context₂, calls₂⟩
      simp only [hrest, Prod.mk.injEq] at hbatch
      obtain ⟨rfl, rfl, rfl⟩ := hbatch
      obtain ⟨hlegal₂, hkernel₂, hal₂⟩ :=
        ih hal₁ (fun q hq ↦ hfds q (List.mem_cons_of_mem _ hq)) hrest
      rw [Kernel.legalAll_append, Kernel.replay_append, hkernel]
      exact ⟨⟨hlegal, hlegal₂⟩, hkernel₂, hal₂⟩
    all_goals
      simp only [Prod.mk.injEq] at hbatch
      obtain ⟨-, rfl, rfl⟩ := hbatch
      exact ⟨hlegal, hkernel, hal₁⟩

/-- The loop names open descriptors only, and opens and closes none. -/
theorem runWorker_legal (hal : Aligned targets σ₀.context σ₀.kernel) {rs : List Round}
    (hrun : runWorker.Run σ₀ rs σ) :
    σ₀.kernel.LegalAll (rs.flatMap (·.calls)) ∧
      σ₀.kernel.replay (rs.flatMap (·.calls)) = σ₀.kernel ∧ σ.kernel = σ₀.kernel ∧
        Aligned targets σ.context σ₀.kernel := by
  induction hrun with
  | nil => exact ⟨trivial, rfl, rfl, hal⟩
  | @snoc rs ρ σ r _ hst ih =>
    obtain ⟨hlegal, hreplay, hkernel, halρ⟩ := ih
    have hhandled := LoopStep.handled hst
    have henabled := LoopStep.enabled hst
    rw [List.flatMap_append, List.flatMap_singleton, Kernel.legalAll_append, Kernel.replay_append,
      hreplay, LoopStep.kernel hst, hkernel]
    rcases hreturn : r.epollReturn with e | events
    · rw [hreturn, runIteration, Prod.mk.injEq, Prod.mk.injEq] at hhandled
      obtain ⟨-, hcontext, hcalls⟩ := hhandled
      rw [← hcalls, ← hcontext]
      exact ⟨⟨hlegal, trivial⟩, rfl, rfl, halρ⟩
    · rw [hreturn] at hhandled henabled
      obtain ⟨hlegal', hreplay', halσ⟩ := handleBatch_legal halρ (hkernel ▸ henabled.2) hhandled
      exact ⟨⟨hlegal, hlegal'⟩, hreplay', hreplay', halσ⟩

/-- The calls that set up a socket, however far they get. -/
theorem setupSocket_legal (address : INetSocketAddress) (b : SocketAnswers)
    (hepoll : epoll ∈ k.openFds) :
    k.LegalAll (setupSocket epoll address b).2 ∧
      epoll ∈ (k.replay (setupSocket epoll address b).2).openFds := by
  rw [setupSocket]
  rcases toLinuxSocketAddress address with - | addr
  · exact ⟨trivial, hepoll⟩
  rcases b.socket with e | sock
  · simp [Kernel.Legal, Syscall.uses, hepoll]
  rcases b.bind with e | u
  · simp [Kernel.Legal, Syscall.uses, hepoll]
  rcases b.epollAdd with e | u'
  · simp [Kernel.Legal, Syscall.uses, hepoll]
  · simp [Kernel.Legal, Syscall.uses, hepoll]

theorem setupTarget_legal (i : ℕ) (target : UdpForwardTargetInfo) (b : TargetAnswers)
    (hepoll : context.epollHandle ∈ k.openFds) :
    k.LegalAll (setupTarget context i target b).2.2 ∧
      context.epollHandle ∈ (k.replay (setupTarget context i target b).2.2).openFds ∧
        (setupTarget context i target b).2.1.epollHandle = context.epollHandle := by
  obtain ⟨hlegal₁, hepoll₁⟩ := setupSocket_legal target.inbound b.inbound hepoll
  obtain ⟨hlegal₂, hepoll₂⟩ := setupSocket_legal target.outbound b.outbound hepoll₁
  rw [setupTarget]
  rcases hin : setupSocket context.epollHandle target.inbound b.inbound with ⟨e | fd₁, calls₁⟩
  · rw [hin] at hlegal₁ hepoll₁
    exact ⟨hlegal₁, hepoll₁, rfl⟩
  rw [hin] at hlegal₁ hlegal₂ hepoll₂
  rcases hout : setupSocket context.epollHandle target.outbound b.outbound with
    ⟨e | fd₂, calls₂⟩ <;> rw [hout] at hlegal₂ hepoll₂
  all_goals
    dsimp only
    rw [Kernel.legalAll_append, Kernel.replay_append]
    exact ⟨⟨hlegal₁, hlegal₂⟩, hepoll₂, rfl⟩

theorem setupLoop_legal {i : ℕ} (hepoll : context.epollHandle ∈ k.openFds) :
    k.LegalAll (setupLoop context a i targets).2.2 := by
  induction targets generalizing i context k with
  | nil => exact trivial
  | cons target rest ih =>
    obtain ⟨hlegal, hepoll', hsame⟩ := setupTarget_legal i target (a i) hepoll
    rw [setupLoop]
    rcases hfirst : setupTarget context i target (a i) with ⟨e | u, context₁, calls₁⟩
    · rw [hfirst] at hlegal
      exact hlegal
    rw [hfirst] at hlegal hepoll' hsame
    dsimp only at hlegal hepoll' hsame ⊢
    rw [Kernel.legalAll_append]
    exact ⟨hlegal, ih (hsame ▸ hepoll')⟩

/-- The calls of `SetupSockets` name open descriptors only, however far it gets. -/
theorem setupSockets_legal (targets : List UdpForwardTargetInfo)
    (epollCreate : Except Errno SocketHandle) (a : ℕ → TargetAnswers) (k : Kernel) :
    k.LegalAll (setupSockets {} targets epollCreate a).2.2 := by
  rcases epollCreate with e | epollHandle
  · exact ⟨List.forall_mem_nil _, trivial⟩
  · exact ⟨List.forall_mem_nil _, setupLoop_legal (Finset.mem_insert_self _ _)⟩

/-- There are two descriptors for each target. -/
theorem Aligned.length_descriptors (h : Aligned targets context k) :
    context.descriptors.length = 2 * targets.length := by
  rw [UdpForwardContext.descriptors, List.length_flatMap, h.sessions.length_eq]
  simp [UdpForwardSession.descriptors, mul_comm]

/-- Epoll watches the descriptors of the sessions. -/
theorem card_interest (hal : Aligned targets context k) :
    k.interest.card = 2 * targets.length := by
  have hinterest : k.interest = context.descriptors.toFinset := by
    ext fd
    rw [List.mem_toFinset, hal.interest]
  rw [hinterest, List.toFinset_card_of_nodup hal.nodup, hal.length_descriptors]

/-- The descriptors of the sessions and the one for epoll are new. -/
theorem card_openFds (hal : Aligned targets context k) (hest : Established inherited context k) :
    k.openFds.card = inherited.card + 1 + 2 * targets.length := by
  have hopen : k.openFds =
      insert context.epollHandle (inherited ∪ context.descriptors.toFinset) := by
    ext fd
    rw [hest.openFds, Finset.mem_insert, Finset.mem_union, List.mem_toFinset]
    tauto
  have hunion : Disjoint inherited context.descriptors.toFinset :=
    Finset.disjoint_right.2 fun fd hfd ↦ (hest.descriptor fd (List.mem_toFinset.1 hfd)).2.2
  have hepoll : context.epollHandle ∉ inherited ∪ context.descriptors.toFinset := by
    rw [Finset.mem_union, List.mem_toFinset, not_or]
    exact ⟨hest.epoll_notMem, fun hmem ↦ (hest.descriptor _ hmem).2.1 rfl⟩
  rw [hopen, Finset.card_insert_of_notMem hepoll, Finset.card_union_of_disjoint hunion,
    List.toFinset_card_of_nodup hal.nodup, hal.length_descriptors]
  omega

/-- **The forwarder opens its descriptors once and for all and never names another.** All calls
about sockets and registrations that `SetupSockets` makes, wherever it fails, and every run of
`RunWorker` after it, name open descriptors; and from the beginning of `RunWorker` to its return the
process has one descriptor for epoll and two for each target open, beside those that it has
inherited, and epoll watches the latter. -/
theorem forwarder_process_legal {epollCreate : Except Errno SocketHandle}
    {result : Except Errno Unit} {done : List Syscall}
    (hsetup : setupSockets {} targets epollCreate a = (result, context, done))
    (hgrants : (Kernel.mk inherited ∅).GrantsAll done) :
    (Kernel.mk inherited ∅).LegalAll done ∧
      (result = .ok () → ∀ rs σ,
        runWorker.Run ⟨context, (Kernel.mk inherited ∅).replay done, .next⟩ rs σ →
          (Kernel.mk inherited ∅).LegalAll (done ++ rs.flatMap (·.calls)) ∧
          σ.kernel = (Kernel.mk inherited ∅).replay done ∧
          σ.kernel.openFds.card = inherited.card + 1 + 2 * targets.length ∧
          σ.kernel.interest.card = 2 * targets.length) := by
  have hlegal : (Kernel.mk inherited ∅).LegalAll done := by
    have hlegal := setupSockets_legal targets epollCreate a ⟨inherited, ∅⟩
    rwa [hsetup] at hlegal
  refine ⟨hlegal, ?_⟩
  rintro rfl rs σ hrun
  have hstart : Started inherited targets ⟨context, (Kernel.mk inherited ∅).replay done, .next⟩ :=
    ⟨epollCreate, a, done, hsetup, hgrants, rfl, rfl⟩
  have hal := hstart.aligned.1
  have hest := hstart.established
  obtain ⟨hlegal', -, hkernel, -⟩ := runWorker_legal hal hrun
  have hkernel : σ.kernel = (Kernel.mk inherited ∅).replay done := hkernel
  rw [Kernel.legalAll_append]
  refine ⟨⟨hlegal, hlegal'⟩, hkernel, ?_, ?_⟩ <;> rw [hkernel]
  · exact card_openFds hal hest
  · exact card_interest hal

end Legality

theorem afterRound_legal :
    (Kernel.mk {0, 1, 2} ∅).LegalAll
      ((setupSockets {} sampleTargets (.ok 3) sampleSetup).2.2 ++ sampleRound.calls) ∧
    afterRound.kernel.openFds.card = 3 + 1 + 2 * 2 ∧ afterRound.kernel.interest.card = 2 * 2 := by
  have hsetup : setupSockets {} sampleTargets (.ok 3) sampleSetup = (.ok (), sampleStart.context,
    (setupSockets {} sampleTargets (.ok 3) sampleSetup).2.2) := rfl
  have hgrants : (Kernel.mk {0, 1, 2} ∅).GrantsAll
    (setupSockets {} sampleTargets (.ok 3) sampleSetup).2.2 := by decide
  obtain ⟨hlegal, -, hopen, hinterest⟩ :=
    (forwarder_process_legal hsetup hgrants).2 rfl _ _ (.single sampleRound_step)
  rw [List.flatMap_singleton] at hlegal
  exact ⟨hlegal, hopen, hinterest⟩

end UdpForward
