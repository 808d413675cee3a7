import Udpfwd.Platform.Kernel
import Udpfwd.Platform.UnorderedMap
import Udpfwd.Transition.Labelled

/-!
# The UDP forwarder worker

The functions of `udpfwd/UdpForwardWorker.cc`, as the source computes them, and the worker as
a transition system. For every target the worker keeps one session with two sockets: what
arrives on the inbound socket leaves from the outbound socket for the destination of the
target, and what the destination sends back to the outbound socket leaves from the inbound
socket for the address that was last seen there. The sessions are a vector, and a hash map
takes each descriptor to the index of its session.
-/

open Net

namespace UdpForward

/-! ### Targets, sessions and the context -/

/-- `UdpForwardTargetInfo`. -/
structure UdpForwardTargetInfo where
  inbound : INetSocketAddress
  outbound : INetSocketAddress
  destination : INetSocketAddress
  deriving DecidableEq

/-- `UdpForwardSession`. -/
structure UdpForwardSession where
  inboundSocketAddress : INetSocketAddress
  outboundSocketAddress : INetSocketAddress
  sourceAddress : INetSocketAddress := {}
  destinationAddress : INetSocketAddress
  inboundSocket : SocketHandle
  outboundSocket : SocketHandle
  deriving DecidableEq

/-- `UdpForwardContext`. -/
structure UdpForwardContext where
  sessions : List UdpForwardSession := []
  fileDescriptorToSessionIndex : Finmap fun _ : SocketHandle ↦ ℕ := ∅
  epollHandle : SocketHandle := -1
  deriving DecidableEq

/-! ### Setting up the sockets -/

/-- The kernel's answers for one of the two sockets of a target. -/
structure SocketAnswers where
  socket : Except Errno SocketHandle
  bind : Except Errno Unit
  epollAdd : Except Errno Unit

/-- The kernel's answers for the two sockets of a target. -/
structure TargetAnswers where
  inbound : SocketAnswers
  outbound : SocketAnswers

/-- The part of the loop of `SetupSockets` that is there twice, for the inbound and for the
outbound address: a socket that is bound and registered. It is not closed on an error. -/
def setupSocket (epollHandle : SocketHandle) (address : INetSocketAddress) (a : SocketAnswers) :
    Except Errno SocketHandle × List Syscall :=
  match toLinuxSocketAddress address with
  | none => (.error .EINVAL, [])
  | some addr =>
    let done := [.socket addr.family a.socket]
    match a.socket with
    | .error e => (.error e, done)
    | .ok sock =>
      let done := done ++ [.bind sock addr a.bind]
      match a.bind with
      | .error e => (.error e, done)
      | .ok _ =>
        let done := done ++ [.epollAdd epollHandle sock a.epollAdd]
        match a.epollAdd with
        | .error e => (.error e, done)
        | .ok _ => (.ok sock, done)

/-- The body of the loop of `SetupSockets`, for the target with the index `i`. -/
def setupTarget (context : UdpForwardContext) (i : ℕ) (target : UdpForwardTargetInfo)
    (a : TargetAnswers) : Except Errno Unit × UdpForwardContext × List Syscall :=
  match setupSocket context.epollHandle target.inbound a.inbound with
  | (.error e, done) => (.error e, context, done)
  | (.ok inboundSocket, done) =>
    match setupSocket context.epollHandle target.outbound a.outbound with
    | (.error e, done') => (.error e, context, done ++ done')
    | (.ok outboundSocket, done') =>
      let session : UdpForwardSession :=
        { inboundSocketAddress := target.inbound
          outboundSocketAddress := target.outbound
          destinationAddress := target.destination
          inboundSocket := inboundSocket
          outboundSocket := outboundSocket }
      let fds := tryEmplace context.fileDescriptorToSessionIndex inboundSocket i
      (.ok (), { context with
          sessions := context.sessions ++ [session]
          fileDescriptorToSessionIndex := tryEmplace fds outboundSocket i },
        done ++ done')

/-- The loop of `SetupSockets`, from the target with the index `i` on. -/
def setupLoop (context : UdpForwardContext) (a : ℕ → TargetAnswers) :
    ℕ → List UdpForwardTargetInfo → Except Errno Unit × UdpForwardContext × List Syscall
  | _, [] => (.ok (), context, [])
  | i, target :: rest =>
    match setupTarget context i target (a i) with
    | (.error e, context, done) => (.error e, context, done)
    | (.ok _, context, done) =>
      let (result, context, done') := setupLoop context a (i + 1) rest
      (result, context, done ++ done')

/-- `SetupSockets`: the result, the context it leaves and the calls it makes. -/
def setupSockets (context : UdpForwardContext) (targets : List UdpForwardTargetInfo)
    (epollCreate : Except Errno SocketHandle) (a : ℕ → TargetAnswers) :
    Except Errno Unit × UdpForwardContext × List Syscall :=
  match epollCreate with
  | .error e => (.error e, context, [.epollCreate (.error e)])
  | .ok epollHandle =>
    let (result, context, done) := setupLoop { context with epollHandle := epollHandle } a 0 targets
    (result, context, .epollCreate (.ok epollHandle) :: done)

/-! ### The event loop -/

/-- One event of `epoll_wait`, with the kernel's answers to the calls it may cause, or a
failing `epoll_wait`. -/
inductive Event
  | epollFailed (e : Errno)
  | polled (fd : SocketHandle) (epollErr epollHup epollIn : Bool)
      (received : Except Errno Datagram) (sendto : Except Errno ℕ)

/-- How the handling of an event ends. -/
inductive Outcome
  /-- The loop of `RunWorker` goes on. -/
  | next
  /-- `RunWorker` returns an error. -/
  | returned (e : Errno)
  /-- The vector of sessions is accessed out of bounds, which is undefined behaviour. -/
  | outOfBounds
  deriving DecidableEq

/-- A datagram on the inbound socket of a session: the source is noted, and the datagram goes
to the destination. -/
def forwardToDestination (context : UdpForwardContext) (index : ℕ) (session : UdpForwardSession)
    (packet : Packet) (fromAddress : INetSocketAddress) (answer : Except Errno ℕ) :
    Outcome × UdpForwardContext × List Syscall :=
  let session :=
    if session.sourceAddress ≠ fromAddress then { session with sourceAddress := fromAddress }
    else session
  let context := { context with sessions := context.sessions.set index session }
  match toLinuxSocketAddress session.destinationAddress with
  | none => (.returned .EINVAL, context, [])
  -- a failing sendto is only logged
  | some dest => (.next, context, [.sendto session.outboundSocket packet dest answer])

/-- A datagram on the outbound socket of a session: what the destination has sent goes to the
source. -/
def forwardToSource (context : UdpForwardContext) (session : UdpForwardSession)
    (packet : Packet) (fromAddress : INetSocketAddress) (answer : Except Errno ℕ) :
    Outcome × UdpForwardContext × List Syscall :=
  if fromAddress ≠ session.destinationAddress then (.next, context, [])
  else if !session.sourceAddress.isValid then (.next, context, [])
  else
    match toLinuxSocketAddress session.sourceAddress with
    | none => (.returned .EINVAL, context, [])
    | some dest => (.next, context, [.sendto session.inboundSocket packet dest answer])

/-- The handling of a datagram, from the check of the address length on. -/
def handleDatagram (context : UdpForwardContext) (fd : SocketHandle) (d : Datagram)
    (answer : Except Errno ℕ) : Outcome × UdpForwardContext × List Syscall :=
  if d.addrLen > sizeofSockaddrIn6 then (.next, context, [])
  else
    match context.fileDescriptorToSessionIndex.lookup fd with
    | none => (.returned .EINVAL, context, [])
    | some index =>
      match toSocketAddress d.source with
      | none => (.next, context, [])
      | some fromAddress =>
        match context.sessions[index]? with
        | none => (.outOfBounds, context, [])
        | some session =>
          if fd = session.inboundSocket then
            forwardToDestination context index session d.received fromAddress answer
          else if fd = session.outboundSocket then
            forwardToSource context session d.received fromAddress answer
          else (.next, context, [])

/-- One event of `RunWorker`. -/
def handleEvent (context : UdpForwardContext) :
    Event → Outcome × UdpForwardContext × List Syscall
  | .epollFailed e => (.returned e, context, [])
  | .polled fd epollErr epollHup epollIn received answer =>
    if epollErr then (.returned .inputOutput, context, [])
    else if epollHup then (.returned .inputOutput, context, [])
    else if epollIn then
      match received with
      | .error e =>
        (if e = .EAGAIN ∨ e = .EINTR then .next else .returned e, context,
          [.recvfrom fd (.error e)])
      | .ok d =>
        let (outcome, context, sent) := handleDatagram context fd d answer
        (outcome, context, .recvfrom fd (.ok d) :: sent)
    else (.next, context, [])

/-! ### The worker as a transition system -/

/-- A state of the forwarder. -/
structure ForwarderState where
  context : UdpForwardContext
  kernel : Kernel
  /-- How the last event ended; after anything but `next` nothing follows. -/
  outcome : Outcome := .next
  deriving DecidableEq

/-- What one step handled, and the calls it made. -/
structure Label where
  event : Event
  calls : List Syscall

/-- `epoll_wait` reports registered descriptors. -/
def Event.Enabled (σ : ForwarderState) : Event → Prop
  | .epollFailed _ => True
  | .polled fd _ _ _ _ _ => fd ∈ σ.kernel.interest

instance (σ : ForwarderState) : (e : Event) → Decidable (e.Enabled σ)
  | .epollFailed _ => isTrue trivial
  | .polled .. => inferInstanceAs (Decidable (_ ∈ _))

/-- One step of the forwarder. -/
structure Step (σ : ForwarderState) (l : Label) (σ' : ForwarderState) : Prop where
  running : σ.outcome = .next
  enabled : l.event.Enabled σ
  handled : handleEvent σ.context l.event = (σ'.outcome, σ'.context, l.calls)
  kernel : σ'.kernel = σ.kernel.replay l.calls

/-- The forwarder. -/
def forwarder : LTS ForwarderState Label where
  step := Step

/-- The states in which `RunWorker` starts: `SetupSockets` has returned `0` for `targets` on
an empty context, in a process that had the descriptors `inherited` open. -/
def Started (inherited : Finset SocketHandle) (targets : List UdpForwardTargetInfo)
    (σ : ForwarderState) : Prop :=
  ∃ epollCreate a done, setupSockets {} targets epollCreate a = (.ok (), σ.context, done) ∧
    (Kernel.mk inherited ∅).GrantsAll done ∧ σ.kernel = (Kernel.mk inherited ∅).replay done ∧
    σ.outcome = .next

/-- The step for an event, when the environment may choose it. -/
def exec (σ : ForwarderState) (e : Event) : Option (Label × ForwarderState) :=
  match handleEvent σ.context e with
  | (outcome, context, calls) =>
    if σ.outcome = .next ∧ e.Enabled σ then
      some (⟨e, calls⟩, ⟨context, σ.kernel.replay calls, outcome⟩)
    else none

theorem exec_step {σ σ' : ForwarderState} {e : Event} {l : Label}
    (h : exec σ e = some (l, σ')) : forwarder.step σ l σ' := by
  rw [exec] at h
  dsimp only at h
  split at h
  · next hrun =>
    cases h
    exact ⟨hrun.1, hrun.2, rfl, rfl⟩
  · exact absurd h (by simp)

theorem exec_get_step {σ : ForwarderState} {e : Event} (h : (exec σ e).isSome) :
    forwarder.step σ ((exec σ e).get h).1 ((exec σ e).get h).2 :=
  exec_step (Option.some_get h).symm

/-- Two targets: ports 5000 and 5001 are forwarded to ports 53 and 123 of one server. -/
def sampleTargets : List UdpForwardTargetInfo :=
  [⟨⟨INetAddress.ipv4Any, 5000⟩, ⟨INetAddress.ipv4Any, 0⟩, ⟨.ipv4 #v[192, 0, 2, 1], 53⟩⟩,
    ⟨⟨INetAddress.ipv6Any, 5001⟩, ⟨INetAddress.ipv4Any, 0⟩, ⟨.ipv4 #v[192, 0, 2, 1], 123⟩⟩]

/-- The answers of a setup in which every call succeeds. -/
def sampleSetup (i : ℕ) : TargetAnswers :=
  ⟨⟨.ok (4 + 2 * i), .ok (), .ok ()⟩, ⟨.ok (5 + 2 * i), .ok (), .ok ()⟩⟩

/-- A forwarder for `sampleTargets`. -/
def sampleStart : ForwarderState :=
  let (_, context, done) := setupSockets {} sampleTargets (.ok 3) sampleSetup
  { context, kernel := (Kernel.mk {0, 1, 2} ∅).replay done }

theorem sampleStart_started : Started {0, 1, 2} sampleTargets sampleStart :=
  ⟨.ok 3, sampleSetup, (setupSockets {} sampleTargets (.ok 3) sampleSetup).2.2,
    rfl, by decide, rfl, rfl⟩

/-- A datagram for the second target. -/
def sampleQuery : Event :=
  .polled 6 false false true (.ok
    { payload := [1, 2, 3]
      source := .in6 (htons 40000) 0 (Vector.replicate 16 1) 0
      fits := by decide }) (.ok 3)

/-- What the server sends back. -/
def sampleReply : Event :=
  .polled 7 false false true (.ok
    { payload := [4, 5]
      source := .in4 (htons 123) #v[192, 0, 2, 1]
      fits := by decide }) (.ok 2)

/-- The forwarder after the query. -/
def afterQuery : Label × ForwarderState := (exec sampleStart sampleQuery).get (by decide)

/-- The forwarder after the reply. -/
def afterReply : Label × ForwarderState := (exec afterQuery.2 sampleReply).get (by decide)

end UdpForward
