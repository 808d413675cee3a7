import Udpfwd.Relay.Effects
import Udpfwd.Transition.Trace

/-!
# The relay as a transition system

A state is the context of the worker together with what the kernel keeps for the process. A
step handles one event: the idle sweep of an `epoll_wait` that returned nothing, or one
datagram on a registered descriptor. Everything the environment chooses is in the event;
what it may choose is `Event.Enabled`, for the event itself, and `Kernel.GrantsAll`, for the
kernel's answers. A step that makes `RunWorker` return ends the run, so it is no step here.
-/

open Net

namespace WgRelay

/-- A state of the relay. -/
structure RelayState where
  context : WgcfRelayContext
  kernel : Kernel
  deriving DecidableEq

/-- What one step handled, and what it did. -/
structure Label where
  event : Event
  actions : List Action

/-- What the environment may choose: the sweep visits every session once, in some order, and
`epoll_wait` reports registered descriptors. -/
def Event.Enabled (σ : RelayState) : Event → Prop
  | .idleSweep _ order _ => order.Nodup ∧ order.toFinset = σ.context.sessions.keys
  | .received fd _ _ => fd ∈ σ.kernel.interest

instance (σ : RelayState) : (e : Event) → Decidable (e.Enabled σ)
  | .idleSweep .. => inferInstanceAs (Decidable (_ ∧ _))
  | .received .. => inferInstanceAs (Decidable (_ ∈ _))

/-- One step of the relay. -/
structure Step (σ : RelayState) (l : Label) (σ' : RelayState) : Prop where
  enabled : l.event.Enabled σ
  handled : handleEvent σ.context l.event = .ok (σ'.context, l.actions)
  granted : σ.kernel.GrantsAll (calls l.actions)
  kernel : σ'.kernel = σ.kernel.replay (calls l.actions)

instance (σ : RelayState) (l : Label) (σ' : RelayState) : Decidable (Step σ l σ') :=
  decidable_of_iff (l.event.Enabled σ ∧
      handleEvent σ.context l.event = .ok (σ'.context, l.actions) ∧
      σ.kernel.GrantsAll (calls l.actions) ∧
      σ'.kernel = σ.kernel.replay (calls l.actions))
    ⟨fun ⟨h₁, h₂, h₃, h₄⟩ ↦ ⟨h₁, h₂, h₃, h₄⟩, fun h ↦ ⟨h.1, h.2, h.3, h.4⟩⟩

/-- The relay. -/
def relay : LTS RelayState Label where
  step := Step

/-- The states in which `RunWorker` starts: `SetupSockets` has returned `0` on an empty
context, in a process that had the descriptors `inherited` open. -/
def Started (inherited : Finset SocketHandle) (σ : RelayState) : Prop :=
  ∃ listenAddr forwardAddr a done,
    setupSockets {} listenAddr forwardAddr a = (.ok (), σ.context, done) ∧
      (Kernel.mk inherited ∅).GrantsAll done ∧ σ.kernel = (Kernel.mk inherited ∅).replay done

/-! ### Running the relay -/

/-- The step for an event, when the environment may choose it. -/
def exec (σ : RelayState) (e : Event) : Option (Label × RelayState) :=
  match handleEvent σ.context e with
  | .error _ => none
  | .ok (context, acts) =>
    if e.Enabled σ ∧ σ.kernel.GrantsAll (calls acts) then
      some (⟨e, acts⟩, ⟨context, σ.kernel.replay (calls acts)⟩)
    else none

theorem exec_step {σ σ' : RelayState} {e : Event} {l : Label} (h : exec σ e = some (l, σ')) :
    relay.step σ l σ' := by
  rw [exec] at h
  split at h
  · exact absurd h (by simp)
  next context acts hhandled =>
  split at h
  · next henabled =>
    cases h
    exact ⟨henabled.1, hhandled, henabled.2, rfl⟩
  · exact absurd h (by simp)

theorem Step.exec_eq {σ σ' : RelayState} {l : Label} (hst : Step σ l σ') :
    exec σ l.event = some (l, σ') := by
  rw [exec, hst.handled]
  dsimp only
  rw [if_pos ⟨hst.enabled, hst.granted⟩, ← hst.kernel]

/-- The state after a step. -/
def RelayState.next (σ : RelayState) (l : Label) : RelayState :=
  ((exec σ l.event).map (·.2)).getD σ

/-- The context after a step, and with it all the kernel keeps, follows from the event. -/
theorem relay_follows : relay.Follows RelayState.next := by
  intro σ l σ' hst
  rw [RelayState.next, Step.exec_eq hst]
  rfl

/-- The run that handles the events one after the other, when the environment may choose
them. -/
def execs (σ : RelayState) : List Event → Option (List Label × RelayState)
  | [] => some ([], σ)
  | e :: es =>
    match exec σ e with
    | none => none
    | some (l, σ') => (execs σ' es).map fun (h, τ) ↦ (l :: h, τ)

theorem execs_run {σ σ' : RelayState} {es : List Event} {h : List Label}
    (hexecs : execs σ es = some (h, σ')) : relay.Run σ h σ' := by
  induction es generalizing σ h with
  | nil =>
    obtain ⟨rfl, rfl⟩ := Prod.mk.inj (Option.some.inj hexecs)
    exact .nil
  | cons e es ih =>
    rw [execs] at hexecs
    rcases hexec : exec σ e with - | ⟨l, τ⟩
    · rw [hexec] at hexecs
      exact absurd hexecs (by simp)
    · rw [hexec, Option.map_eq_some_iff] at hexecs
      obtain ⟨⟨h', τ'⟩, hrest, heq⟩ := hexecs
      obtain ⟨rfl, rfl⟩ := Prod.mk.inj heq
      exact .cons (exec_step hexec) (ih hrest)

theorem exec_get_step {σ : RelayState} {e : Event} (h : (exec σ e).isSome) :
    relay.step σ ((exec σ e).get h).1 ((exec σ e).get h).2 :=
  exec_step (Option.some_get h).symm

theorem execs_get_run {σ : RelayState} {es : List Event} (h : (execs σ es).isSome) :
    relay.Run σ ((execs σ es).get h).1 ((execs σ es).get h).2 :=
  execs_run (Option.some_get h).symm

/-- The address of a server. -/
def sampleServer : INetSocketAddress := ⟨.ipv4 #v[162, 159, 192, 1], 2408⟩

/-- `sampleServer` as a socket address. -/
def sampleServerAddress : SockAddr := .in4 (htons 2408) #v[162, 159, 192, 1]

/-- The answers of a setup in which every call succeeds. -/
def sampleSetup : SetupAnswers := ⟨.ok 3, .ok (), .ok (), .ok 4, .ok ()⟩

/-- A relay that listens on `[::]:2408` and forwards to `sampleServer`. -/
def sampleStart : RelayState :=
  let (_, context, done) := setupSockets {} ⟨INetAddress.ipv6Any, 2408⟩ sampleServer sampleSetup
  ⟨context, (Kernel.mk {0, 1, 2} ∅).replay done⟩

theorem sampleStart_started : Started {0, 1, 2} sampleStart :=
  ⟨⟨INetAddress.ipv6Any, 2408⟩, sampleServer, sampleSetup,
    (setupSockets {} ⟨INetAddress.ipv6Any, 2408⟩ sampleServer sampleSetup).2.2,
    rfl, by decide, rfl⟩

/-- A datagram of a client at `198.51.100.7:50000` with the reserved bytes `1, 2, 3`. -/
def sampleDatagram : Datagram where
  payload := [4, 1, 2, 3] ++ List.replicate 28 0
  source := .in4 (htons 50000) #v[198, 51, 100, 7]
  fits := by decide

/-- The answers when every call succeeds and every clock reading is `now`. -/
def sampleAnswers (now : UInt64) : Answers :=
  ⟨.ok 5, .ok (), .ok 0x1234, .ok (), now, .ok 32, now⟩

/-- The id of the session of the client. -/
def sampleSid : UInt64 := 0x200030201

/-- What the server answers to the first packet of the client. -/
def serverDatagram : Datagram where
  payload := [4, 0, 0, 0, 1, 2, 3, 4]
  source := sampleServerAddress
  fits := by decide

/-- `sampleDatagram` arrives at the time `now`. -/
def sampleArrival (now : UInt64) : Event :=
  .received 3 (.ok sampleDatagram) (sampleAnswers now)

/-- The first packet of another client. -/
def otherDatagram : Datagram where
  payload := [4, 9, 9, 9] ++ List.replicate 28 0
  source := .in4 (htons 50001) #v[203, 0, 113, 9]
  fits := by decide

/-- The id of the session of the other client. -/
def otherSid : UInt64 := 0x200090909

/-- `otherDatagram` arrives at the time `now`. -/
def otherArrival (now : UInt64) : Event :=
  .received 3 (.ok otherDatagram)
    { sampleAnswers now with socket := .ok 6, getsockname := .ok 0x5678 }

/-- The session that the client gets, after its first packet. -/
def sampleSession (now : UInt64) : WgcfRelaySession where
  sessionId := sampleSid
  wireguardReserved := 0x030201
  clientPeerId := 0
  serverPeerId := 0
  outboundSocket := 5
  lastTxTimestampSeconds := now
  lastRxTimestampSeconds := now
  totalTxPacketsSinceLastReport := 1
  outboundSocketAddress := ⟨INetAddress.ipv4Any, 0x3412⟩
  sourceAddress := ⟨.ipv4 #v[198, 51, 100, 7], 50000⟩

/-- What the relay does with the first packet of the client. -/
def sampleActions (now : UInt64) : List Action :=
  .call (.recvfrom 3 (.ok sampleDatagram)) ::
    (creationActions 4 2 (.in4 0 #v[0, 0, 0, 0]) sampleSid 5 0x1234 now ++
      [.call (.sendto 5 sampleDatagram.payload (.in4 (htons 2408) #v[162, 159, 192, 1]) (.ok 32)),
        .call (.clockGettime now), .log (.forwarded sampleSid .toServer now)])

/-- The relay after the first packet of the client. -/
def sampleLive (now : UInt64) : RelayState where
  context := { sampleStart.context with
    sessions := Finmap.singleton sampleSid (sampleSession now)
    fileDescriptorToSessionIdMap := Finmap.singleton 5 sampleSid }
  kernel := ⟨{5, 4, 3, 0, 1, 2}, {5, 3}⟩

theorem sampleArrival_step (now : UInt64) :
    relay.step sampleStart ⟨sampleArrival now, sampleActions now⟩ (sampleLive now) :=
  exec_step (e := sampleArrival now) rfl

/-! ### Where a run starts -/

/-- **What a successful `SetupSockets` leaves behind**: empty tables, and two new
descriptors, of which the inbound socket is registered. -/
theorem Started.spec {inherited : Finset SocketHandle} {σ : RelayState}
    (h : Started inherited σ) :
    σ.context.sessions = ∅ ∧ σ.context.fileDescriptorToSessionIdMap = ∅ ∧
      σ.context.inboundSocket ∉ inherited ∧ σ.context.epollHandle ∉ inherited ∧
      σ.context.inboundSocket ≠ σ.context.epollHandle ∧
      σ.kernel.openFds =
        insert σ.context.epollHandle (insert σ.context.inboundSocket inherited) ∧
      σ.kernel.interest = {σ.context.inboundSocket} := by
  obtain ⟨listenAddr, forwardAddr, a, done, hsetup, hgrants, hkernel⟩ := h
  rw [setupSockets] at hsetup
  rcases haddr : toLinuxSocketAddress listenAddr with - | addr
  · simp [haddr] at hsetup
  rcases hsock : a.socket with e | sock
  · simp [haddr, hsock] at hsetup
  rcases hbind : a.bind with e | u
  · simp [haddr, hsock, hbind] at hsetup
  rcases hcreate : a.epollCreate with e | epoll
  · simp [haddr, hsock, hbind, hcreate] at hsetup
  rcases hadd : a.epollAdd with e | u'
  · simp [haddr, hsock, hbind, hcreate, hadd] at hsetup
  simp only [haddr, hsock, hbind, hcreate, hadd, Prod.mk.injEq, true_and] at hsetup
  obtain ⟨hcontext, rfl⟩ := hsetup
  rw [← hcontext]
  have hfresh : (0 ≤ sock ∧ sock ∉ inherited) ∧ 0 ≤ epoll ∧ epoll ∉ insert sock inherited := by
    split at hgrants <;> simpa [Kernel.Grants, Kernel.Fresh, and_assoc] using hgrants
  have hreplay : σ.kernel = ⟨insert epoll (insert sock inherited), {sock}⟩ := by
    split at hkernel <;> simpa using hkernel
  obtain ⟨⟨-, hsock'⟩, -, hepoll⟩ := hfresh
  rw [Finset.mem_insert, not_or] at hepoll
  exact ⟨rfl, rfl, hsock', hepoll.2, fun heq ↦ hepoll.1 heq.symm, by rw [hreplay], by rw [hreplay]⟩

end WgRelay
