import Udpfwd.Common.Process
import Udpfwd.Forwarder.Translation
import Udpfwd.Relay.Translation

/-!
# The process on the wire

What the process sends and receives, read off its system calls alone: the payloads of the `sendto`
calls are among those of the successful `recvfrom` calls, in their order, in every run from the
command line on (`process_passes_on`). It adds nothing, changes nothing and sends nothing twice.
-/

open Net Text

/-- The datagrams that the calls have received. -/
def receivedBy (calls : List Syscall) : List Datagram :=
  calls.filterMap fun
    | .recvfrom _ (.ok d) => some d
    | _ => none

/-- What has been sent was received, and is passed on unchanged, in order and at most once. -/
def PassesOn (calls : List Syscall) : Prop :=
  ((sentBy calls).map (·.payload)).Sublist ((receivedBy calls).map (·.payload))

section Calls

variable {calls calls' : List Syscall}

@[simp]
theorem receivedBy_append : receivedBy (calls ++ calls') = receivedBy calls ++ receivedBy calls' :=
  List.filterMap_append

theorem PassesOn.append (h : PassesOn calls) (h' : PassesOn calls') :
    PassesOn (calls ++ calls') := by
  rw [PassesOn, sentBy_append, receivedBy_append, List.map_append, List.map_append]
  exact List.Sublist.append h h'

/-- Calls that send nothing. -/
theorem PassesOn.of_sentBy_eq_nil (h : sentBy calls = []) : PassesOn calls := by
  rw [PassesOn, h]
  exact List.nil_sublist _

/-- A datagram that is received and can be read is received by the call. -/
theorem reception_sublist (fd : SocketHandle) (d : Datagram) :
    ((d.reception fd).toList.map (·.packet)).Sublist
      ((receivedBy (.recvfrom fd (.ok d) :: calls)).map (·.payload)) := by
  rcases hr : d.reception fd with - | r
  · exact List.nil_sublist _
  · have hpacket : r.packet = d.payload := (Datagram.reception_eq_some.1 hr).2.2.2
    show List.Sublist [r.packet] (d.payload :: (receivedBy calls).map (·.payload))
    rw [hpacket]
    exact (List.nil_sublist _).cons_cons _

/-- What is so for every step is so for a run. -/
theorem sublist_run {σ ℓ α : Type} {M : LTS σ ℓ} {f g : ℓ → List α}
    (hstep : ∀ s l t, M.step s l t → (f l).Sublist (g l)) {s t : σ} {h : List ℓ}
    (hrun : M.Run s h t) : (h.flatMap f).Sublist (h.flatMap g) := by
  induction hrun with
  | nil => exact List.Sublist.refl _
  | snoc _ hst ih =>
    rw [List.flatMap_append, List.flatMap_append, List.flatMap_singleton, List.flatMap_singleton]
    exact ih.append (hstep _ _ _ hst)

end Calls

/-! ### The two workers -/

namespace UdpForward

/-- What is received at the translator is received by the calls of the step. -/
theorem Step.receptions_sublist {σ σ' : ForwarderState} {l : Label} (hst : Step σ l σ') :
    (l.event.receptions.map (·.packet)).Sublist ((receivedBy l.calls).map (·.payload)) := by
  have hcalls : (handleEvent σ.context l.event).2.2 = l.calls := by rw [hst.handled]
  rw [← hcalls]
  rcases hr : l.event.receptions with - | ⟨r, rest⟩
  · exact List.nil_sublist _
  · obtain ⟨fd, d, answer, hevent, -, -⟩ := receptions_eq_cons hr
    rw [← hr, hevent]
    exact reception_sublist fd d

/-- The forwarder passes on what it receives. -/
theorem passesOn_run {inherited : Finset SocketHandle} {targets : List UdpForwardTargetInfo}
    {σ₀ σ : ForwarderState} {h : List Label} (hstart : Started inherited targets σ₀)
    (hrun : forwarder.Run σ₀ h σ) : PassesOn (h.flatMap (·.calls)) := by
  have hpayloads := payloads_sublist_of_simulation (translates targets σ₀.context)
    (fun _ _ hmatch ↦ hmatch.received) (fun _ _ hmatch ↦ hmatch.sent)
    ⟨hstart.aligned.1, rfl, rfl, rfl⟩ hrun
  rw [PassesOn, sentBy, receivedBy, List.filterMap_flatMap, List.filterMap_flatMap]
  refine hpayloads.trans ?_
  rw [List.map_flatMap, List.map_flatMap]
  exact sublist_run (fun _ _ _ hst ↦ Step.receptions_sublist hst) hrun

/-- `SetupSockets` sends nothing. -/
theorem sentBy_setupSocket (epoll : SocketHandle) (address : INetSocketAddress)
    (b : SocketAnswers) : sentBy (setupSocket epoll address b).2 = [] := by
  rw [setupSocket]
  rcases toLinuxSocketAddress address with - | addr
  · rfl
  rcases b.socket with e | sock
  · rfl
  rcases b.bind with e | u
  · rfl
  rcases b.epollAdd with e | u' <;> rfl

theorem sentBy_setupTarget (context : UdpForwardContext) (i : ℕ) (target : UdpForwardTargetInfo)
    (b : TargetAnswers) : sentBy (setupTarget context i target b).2.2 = [] := by
  have hin := sentBy_setupSocket context.epollHandle target.inbound b.inbound
  have hout := sentBy_setupSocket context.epollHandle target.outbound b.outbound
  rw [setupTarget]
  rcases hfirst : setupSocket context.epollHandle target.inbound b.inbound with ⟨e | fd₁, calls₁⟩
  · rw [hfirst] at hin
    exact hin
  rw [hfirst] at hin
  rcases hsecond : setupSocket context.epollHandle target.outbound b.outbound with
    ⟨e | fd₂, calls₂⟩ <;> rw [hsecond] at hout
  all_goals
    show sentBy (calls₁ ++ calls₂) = []
    rw [sentBy_append, show sentBy calls₁ = [] from hin, show sentBy calls₂ = [] from hout]
    rfl

theorem sentBy_setupLoop (context : UdpForwardContext) (a : ℕ → TargetAnswers) (i : ℕ)
    (targets : List UdpForwardTargetInfo) : sentBy (setupLoop context a i targets).2.2 = [] := by
  induction targets generalizing context i with
  | nil => rfl
  | cons target rest ih =>
    have hfirst := sentBy_setupTarget context i target (a i)
    rw [setupLoop]
    rcases htarget : setupTarget context i target (a i) with ⟨e | u, context₁, calls₁⟩ <;>
      rw [htarget] at hfirst
    · exact hfirst
    · show sentBy (calls₁ ++ (setupLoop context₁ a (i + 1) rest).2.2) = []
      rw [sentBy_append, show sentBy calls₁ = [] from hfirst, ih]
      rfl

theorem sentBy_setupSockets (targets : List UdpForwardTargetInfo)
    (epollCreate : Except Errno SocketHandle) (a : ℕ → TargetAnswers) :
    sentBy (setupSockets {} targets epollCreate a).2.2 = [] := by
  rcases epollCreate with e | epollHandle
  · rfl
  · exact sentBy_setupLoop _ a 0 targets

end UdpForward

namespace WgRelay

/-- What is received at the translator is received by the calls of the step. -/
theorem Step.receptions_sublist {σ σ' : RelayState} {l : Label} (hst : Step σ l σ') :
    (l.receptions.map (·.packet)).Sublist ((receivedBy (calls l.actions)).map (·.payload)) := by
  have hhandled := hst.handled
  rw [Label.receptions]
  split
  · next fd d a hevent =>
    rw [hevent, handleEvent, Except.ok.injEq, Prod.mk.injEq] at hhandled
    rw [← hhandled.2]
    exact reception_sublist fd d
  · exact List.nil_sublist _

/-- The relay passes on what it receives. -/
theorem passesOn_run {inherited : Finset SocketHandle} {σ₀ σ : RelayState} {h : List Label}
    (hstart : Started inherited σ₀) (hrun : relay.Run σ₀ h σ) :
    PassesOn (h.flatMap fun l ↦ calls l.actions) := by
  have hpayloads := payloads_sublist_of_simulation
    (translates inherited σ₀.context.inboundSocket)
    (fun _ _ hmatch ↦ hmatch.received) (fun _ _ hmatch ↦ hmatch.sent)
    ⟨.started hstart, rfl, rfl⟩ hrun
  rw [PassesOn, sentBy, receivedBy, List.filterMap_flatMap, List.filterMap_flatMap]
  refine hpayloads.trans ?_
  rw [List.map_flatMap, List.map_flatMap]
  exact sublist_run (fun _ _ _ hst ↦ Step.receptions_sublist hst) hrun

/-- The calls of an iteration are those of its events, and perhaps a failing `recvfrom`. -/
theorem HandlesBatch.calls_eq {r : Round} {labels : List Label} (h : HandlesBatch r labels) :
    ∃ rest, calls r.actions = (labels.flatMap fun l ↦ calls l.actions) ++ rest ∧
      sentBy rest = [] ∧ receivedBy rest = [] := by
  have hflat : ∀ labels, calls (actionsOf labels) = labels.flatMap fun l ↦ calls l.actions :=
    fun labels ↦ List.filterMap_flatMap
  cases h with
  | @swept l _ _ _ _ _ hacts =>
    refine ⟨[], ?_, rfl, rfl⟩
    rw [List.flatMap_singleton, List.append_nil, hacts]
  | failed _ _ hacts =>
    refine ⟨[], ?_, rfl, rfl⟩
    rw [hacts]
    rfl
  | handled _ _ hacts =>
    refine ⟨[], ?_, rfl, rfl⟩
    rw [hacts, hflat, List.append_nil]
  | @broken labels fd e _ _ _ _ _ _ _ _ _ hacts =>
    refine ⟨[.recvfrom fd (.error e)], ?_, rfl, rfl⟩
    rw [hacts, calls_append, hflat]
    rfl

/-- What is sent and received in batches is what is sent and received event by event. -/
theorem wire_batches {rs : List Round} {hs : List (List Label)}
    (h : List.Forall₂ HandlesBatch rs hs) :
    sentBy (rs.flatMap fun r ↦ calls r.actions) =
        sentBy (hs.flatten.flatMap fun l ↦ calls l.actions) ∧
      receivedBy (rs.flatMap fun r ↦ calls r.actions) =
        receivedBy (hs.flatten.flatMap fun l ↦ calls l.actions) := by
  induction h with
  | nil => exact ⟨rfl, rfl⟩
  | cons hfirst _ ih =>
    obtain ⟨rest, hcalls, hsent, hreceived⟩ := hfirst.calls_eq
    rw [List.flatMap_cons, List.flatten_cons, List.flatMap_append, hcalls]
    simp only [sentBy_append, receivedBy_append, hsent, hreceived, ih, List.append_nil, and_self]

/-- `SetupSockets` sends nothing. -/
theorem sentBy_setupSockets (listenAddr forwardAddr : INetSocketAddress) (a : SetupAnswers) :
    sentBy (setupSockets {} listenAddr forwardAddr a).2.2 = [] := by
  rw [setupSockets]
  rcases toLinuxSocketAddress listenAddr with - | addr
  · rfl
  rcases a.socket with e | sock
  · rfl
  by_cases hany : listenAddr.address = INetAddress.ipv6Any
  all_goals
    simp only [hany, if_true, if_false]
    rcases a.bind with e | u
    · rfl
    rcases a.epollCreate with e | epoll
    · rfl
    rcases a.epollAdd with e | u <;> rfl

end WgRelay

/-! ### The process -/

namespace Main

section Wire

variable {env : Environment} {argv0 : Bytes} {args : List Bytes} {inherited : Finset SocketHandle}
variable {h : List ProcessLabel} {s : ProcessState}

/-- `main` sends nothing. -/
theorem Startup.Sound.sentBy_calls {startup : Startup} (hsound : startup.Sound env) :
    sentBy startup.calls = [] := by
  rcases hsound.calls with hnil | ⟨targets, hcalls⟩ | ⟨a, b, hcalls⟩
  · rw [hnil]
    rfl
  · rw [hcalls, UdpForward.sentBy_setupSockets]
  · rw [hcalls, WgRelay.sentBy_setupSockets]

theorem Phase.passesOn (hphase : Phase env argv0 args inherited h s) :
    PassesOn (h.flatMap (·.calls)) := by
  induction hphase with
  | started => exact .of_sentBy_eq_nil rfl
  | returned hmain =>
    rw [List.flatMap_singleton]
    exact .of_sentBy_eq_nil (main_sound hmain).sentBy_calls
  | @forwarding context done rs σ hmain hgrants hworker =>
    obtain ⟨targets, hsend, hstart⟩ := started_of_main_forwarding hmain hgrants
    obtain ⟨hs, σ', hbatches, hrun, -⟩ := (UdpForward.batches hsend).run
      ⟨hstart.aligned.1, rfl⟩ hworker
    rw [List.flatMap_cons, List.flatMap_map]
    refine .append (.of_sentBy_eq_nil (main_sound hmain).sentBy_calls) ?_
    show PassesOn (rs.flatMap (·.calls))
    rw [← LTS.Simulation.flatMap_eq (fun _ _ hmatch ↦ hmatch.calls.symm) hbatches]
    exact UdpForward.passesOn_run hstart hrun
  | forwarded _ _ ih =>
    rw [List.flatMap_append]
    exact ih.append (.of_sentBy_eq_nil rfl)
  | @relaying context done rs s hmain hgrants hworker =>
    have hstart := started_of_main_relaying hmain hgrants
    obtain ⟨hs, σ, hbatches, hrun, -⟩ := (WgRelay.batches inherited).run
      ⟨.started hstart, rfl⟩ hworker
    rw [List.flatMap_cons, List.flatMap_map]
    refine .append (.of_sentBy_eq_nil (main_sound hmain).sentBy_calls) ?_
    show PassesOn (rs.flatMap fun r ↦ WgRelay.calls r.actions)
    obtain ⟨hsent, hreceived⟩ := WgRelay.wire_batches hbatches
    rw [PassesOn, hsent, hreceived]
    exact WgRelay.passesOn_run hstart hrun
  | relayed _ _ ih =>
    rw [List.flatMap_append]
    exact ih.append (.of_sentBy_eq_nil rfl)

/-- **The process passes on what it receives**, and sends nothing else: in every run, the payloads
that it has sent are among those that it has received, unchanged, in order and each at most once. -/
theorem process_passes_on (hrun : (process env argv0 args inherited).Run .started h s) :
    PassesOn (h.flatMap (·.calls)) :=
  (phase_run hrun).passesOn

end Wire

theorem sampleRelay_passes_on :
    PassesOn (List.flatMap (·.calls)
      [ProcessLabel.startup sampleRelayStartup, .relay WgRelay.firstRound]) :=
  process_passes_on sampleRelay_run

end Main
