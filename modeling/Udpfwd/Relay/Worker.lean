import Udpfwd.Platform.Kernel
import Udpfwd.Platform.UnorderedMap

/-!
# The relay worker

The functions of `wgcf/WgcfRelayWorker.cc`, as the source computes them. The worker keeps
one session for every client id it has seen; the id is the three reserved bytes of a
WireGuard header. A datagram of a client leaves from the session's own outbound socket
towards the server, and a datagram of the server that arrives on that socket is sent back
from the inbound socket to the address the client last used.

A function that changes the context returns the new context and the list of what it did:
its calls to the kernel, each with the answer, and those of its log messages that name a
session (`Action`). The kernel's answers are an argument, `Answers`, with one field for each
call the function may make; an answer to a call that is not made is not looked at.

`std::unordered_map` is `Finmap`, whose equality is equality of lookups; the order in which
the idle sweep visits the sessions is an argument of the sweep.
-/

open Net

namespace WgRelay

/-! ### Sessions and the context -/

/-- `WgcfRelaySession`. -/
structure WgcfRelaySession where
  sessionId : UInt64
  wireguardReserved : UInt32
  clientPeerId : UInt32
  serverPeerId : UInt32
  outboundSocket : SocketHandle
  lastTxTimestampSeconds : UInt64
  lastRxTimestampSeconds : UInt64
  droppedTxSinceLastReport : UInt32 := 0
  droppedRxSinceLastReport : UInt32 := 0
  totalTxPacketsSinceLastReport : UInt32 := 0
  totalRxPacketsSinceLastReport : UInt32 := 0
  outboundSocketAddress : INetSocketAddress
  sourceAddress : INetSocketAddress
  deriving DecidableEq

/-- `WgcfRelayContext`. -/
structure WgcfRelayContext where
  sessions : Finmap fun _ : UInt64 ↦ WgcfRelaySession := ∅
  inboundSocket : SocketHandle := -1
  fileDescriptorToSessionIdMap : Finmap fun _ : SocketHandle ↦ UInt64 := ∅
  inboundSocketAddress : INetSocketAddress := {}
  destinationAddress : INetSocketAddress := {}
  epollHandle : SocketHandle := -1
  deriving DecidableEq

/-- The two ways a packet goes through the relay. -/
inductive Direction
  | toServer
  | toClient
  deriving DecidableEq

/-- The log messages of the worker that name a session or a socket it looked for. -/
inductive LogMessage
  /-- "New session {} created". -/
  | created (sessionId : UInt64) (now : UInt64)
  /-- "Session {} forwarded {} bytes", with the timestamp the session got. -/
  | forwarded (sessionId : UInt64) (direction : Direction) (now : UInt64)
  /-- "Session {} expired". -/
  | expired (sessionId : UInt64)
  /-- "Session {} not found after creation, race condition?". -/
  | notFoundAfterCreation (sessionId : UInt64)
  /-- "Unknown session id {} from server". -/
  | unknownSessionId (sessionId : UInt64)
  /-- "Unknown socket handle {} from server". -/
  | unknownSocketHandle (fd : SocketHandle)
  deriving DecidableEq

/-- What the worker does: a call to the kernel, or a log message. -/
inductive Action
  | call (c : Syscall)
  | log (m : LogMessage)
  deriving DecidableEq

/-- The calls among the actions. -/
def calls (acts : List Action) : List Syscall :=
  acts.filterMap fun
    | .call c => some c
    | .log _ => none

/-! ### Setting up the sockets -/

/-- The kernel's answers to the calls of `SetupSockets`. -/
structure SetupAnswers where
  socket : Except Errno SocketHandle
  setIpv6Only : Except Errno Unit
  bind : Except Errno Unit
  epollCreate : Except Errno SocketHandle
  epollAdd : Except Errno Unit

/-- `SetupSockets`: the result, the context it leaves and the calls it makes. -/
def setupSockets (context : WgcfRelayContext) (listenAddr forwardAddr : INetSocketAddress)
    (a : SetupAnswers) : Except Errno Unit × WgcfRelayContext × List Syscall :=
  let context := { context with
    inboundSocketAddress := listenAddr, destinationAddress := forwardAddr }
  match toLinuxSocketAddress listenAddr with
  | none => (.error .EINVAL, context, [])
  | some addr =>
    let done := [.socket addr.family a.socket]
    match a.socket with
    | .error e => (.error e, context, done)
    | .ok inboundSocket =>
      -- a failing setsockopt is only logged
      let done := done ++
        if listenAddr.address = INetAddress.ipv6Any then
          [.setIpv6Only inboundSocket a.setIpv6Only]
        else []
      let done := done ++ [.bind inboundSocket addr a.bind]
      match a.bind with
      | .error e => (.error e, context, done)
      | .ok _ =>
        let context := { context with inboundSocket := inboundSocket }
        let done := done ++ [.epollCreate a.epollCreate]
        match a.epollCreate with
        | .error e => (.error e, context, done)
        | .ok epollHandle =>
          let context := { context with epollHandle := epollHandle }
          let done := done ++ [.epollAdd epollHandle inboundSocket a.epollAdd]
          match a.epollAdd with
          | .error e => (.error e, context, done)
          | .ok _ => (.ok (), context, done)

/-! ### Forwarding one packet -/

/-- The kernel's answers to the calls that one received datagram may cause, in the order in
which the source makes the calls. -/
structure Answers where
  socket : Except Errno SocketHandle
  bind : Except Errno Unit
  /-- The port that `getsockname` reports, in network byte order. -/
  getsockname : Except Errno UInt16
  epollAdd : Except Errno Unit
  /-- The clock reading that a new session starts with. -/
  createdAt : UInt64
  sendto : Except Errno ℕ
  /-- The clock reading after a successful `sendto`. -/
  sentAt : UInt64

/-- `WireGuardPacketHeader::typeAndReserved`, on a little-endian host. -/
def typeAndReserved (packet : Packet) : UInt32 :=
  (packet.getD 0 0).toUInt32 ||| ((packet.getD 1 0).toUInt32 <<< 8) |||
    ((packet.getD 2 0).toUInt32 <<< 16) ||| ((packet.getD 3 0).toUInt32 <<< 24)

/-- `GetSessionIdFromClientPacket`; `0` stands for an invalid packet. -/
def getSessionIdFromClientPacket (packet : Packet) : UInt64 :=
  if packet.length < 32 then 0
  else
    let reservedValue := typeAndReserved packet >>> 8
    if reservedValue ≠ 0 then ((2 : UInt64) <<< 32) ||| reservedValue.toUInt64 else 0

/-- `SendUdpPacket`. No call is made when the address has no family. -/
def sendUdpPacket (handle : SocketHandle) (packet : Packet) (address : INetSocketAddress)
    (answer : Except Errno ℕ) : Except Errno ℕ × List Action :=
  match toLinuxSocketAddress address with
  | none => (.error .EINVAL, [])
  | some dest => (answer, [.call (.sendto handle packet dest answer)])

/-- The session part of `HandlePacketFromServer`: the session afterwards and the actions. -/
def WgcfRelaySession.forwardToClient (session : WgcfRelaySession)
    (inboundSocket : SocketHandle) (packet : Packet) (sessionId : UInt64) (a : Answers) :
    WgcfRelaySession × List Action :=
  if session.sourceAddress.isValid then
    let session := { session with
      totalRxPacketsSinceLastReport := session.totalRxPacketsSinceLastReport + 1 }
    let (sentSize, sent) := sendUdpPacket inboundSocket packet session.sourceAddress a.sendto
    match sentSize with
    | .error .EAGAIN =>
      ({ session with droppedRxSinceLastReport := session.droppedRxSinceLastReport + 1 }, sent)
    | .error _ => (session, sent)
    | .ok _ =>
      ({ session with lastRxTimestampSeconds := a.sentAt },
        sent ++ [.call (.clockGettime a.sentAt), .log (.forwarded sessionId .toClient a.sentAt)])
  else (session, [])

/-- `HandlePacketFromServer`. -/
def handlePacketFromServer (context : WgcfRelayContext) (packet : Packet) (sessionId : UInt64)
    (a : Answers) : WgcfRelayContext × List Action :=
  match context.sessions.lookup sessionId with
  | none => (context, [.log (.unknownSessionId sessionId)])
  | some session =>
    let (session, acts) :=
      session.forwardToClient context.inboundSocket packet sessionId a
    ({ context with sessions := context.sessions.insert sessionId session }, acts)

/-- `NewOutboundUdpSocket`: a socket bound to a random port, with that port, or an error
with the socket closed again. -/
def newOutboundUdpSocket (type : INetAddress) (a : Answers) :
    Except Errno (SocketHandle × UInt16) × List Action :=
  let addr := if type.isIpv4 then SockAddr.in4 0 (Vector.replicate 4 0)
    else SockAddr.in6 0 0 (Vector.replicate 16 0) 0
  let done := [.call (.socket addr.family a.socket)]
  match a.socket with
  | .error e => (.error e, done)
  | .ok sock =>
    let done := done ++ [.call (.bind sock addr a.bind)]
    match a.bind with
    | .error e => (.error e, done ++ [.call (.close sock)])
    | .ok _ =>
      let done := done ++ [.call (.getsockname sock a.getsockname)]
      match a.getsockname with
      | .error e => (.error e, done ++ [.call (.close sock)])
      | .ok port => (.ok (sock, ntohs port), done)

/-- The first half of `HandlePacketFromClient`: a session for an id that has none. The
context is `none` when the handler returns without a session. -/
def createSession (context : WgcfRelayContext) (sessionId : UInt64) (reservedValue : UInt32)
    (fromAddress : INetSocketAddress) (a : Answers) :
    Option WgcfRelayContext × List Action :=
  let (outboundSocketResult, done) :=
    newOutboundUdpSocket context.destinationAddress.address a
  match outboundSocketResult with
  | .error _ => (none, done)
  | .ok (outboundSocket, outboundPort) =>
    let done := done ++ [.call (.epollAdd context.epollHandle outboundSocket a.epollAdd)]
    match a.epollAdd with
    | .error _ => (none, done ++ [.call (.close outboundSocket)])
    | .ok _ =>
      let now := a.createdAt
      let outboundAddress : INetSocketAddress :=
        ⟨if context.destinationAddress.address.isIpv4 then INetAddress.ipv4Any
          else INetAddress.ipv6Any, outboundPort⟩
      let session : WgcfRelaySession :=
        { sessionId := sessionId
          wireguardReserved := reservedValue
          clientPeerId := 0
          serverPeerId := 0
          outboundSocket := outboundSocket
          outboundSocketAddress := outboundAddress
          sourceAddress := fromAddress
          lastTxTimestampSeconds := now
          lastRxTimestampSeconds := now }
      (some { context with
          sessions := tryEmplace context.sessions sessionId session
          fileDescriptorToSessionIdMap :=
            tryEmplace context.fileDescriptorToSessionIdMap outboundSocket sessionId },
        done ++ [.call (.clockGettime now), .log (.created sessionId now)])

/-- A client that roams: the session keeps the latest address. -/
def WgcfRelaySession.roam (session : WgcfRelaySession) (fromAddress : INetSocketAddress) :
    WgcfRelaySession :=
  if session.sourceAddress ≠ fromAddress then { session with sourceAddress := fromAddress }
  else session

/-- The session part of the second half of `HandlePacketFromClient`: the session afterwards
and the actions. -/
def WgcfRelaySession.forwardToServer (session : WgcfRelaySession)
    (destinationAddress : INetSocketAddress) (packet : Packet) (sessionId : UInt64)
    (fromAddress : INetSocketAddress) (a : Answers) : WgcfRelaySession × List Action :=
  let session := session.roam fromAddress
  let session := { session with
    totalTxPacketsSinceLastReport := session.totalTxPacketsSinceLastReport + 1 }
  let (sentSize, sent) :=
    sendUdpPacket session.outboundSocket packet destinationAddress a.sendto
  match sentSize with
  | .error .EAGAIN =>
    ({ session with droppedTxSinceLastReport := session.droppedTxSinceLastReport + 1 }, sent)
  | .error _ => (session, sent)
  | .ok _ =>
    ({ session with lastTxTimestampSeconds := a.sentAt },
      sent ++ [.call (.clockGettime a.sentAt), .log (.forwarded sessionId .toServer a.sentAt)])

/-- The second half of `HandlePacketFromClient`: "now we must have session". -/
def forwardPacketFromClient (context : WgcfRelayContext) (packet : Packet) (sessionId : UInt64)
    (fromAddress : INetSocketAddress) (a : Answers) : WgcfRelayContext × List Action :=
  match context.sessions.lookup sessionId with
  | none => (context, [.log (.notFoundAfterCreation sessionId)])
  | some session =>
    let (session, acts) :=
      session.forwardToServer context.destinationAddress packet sessionId fromAddress a
    ({ context with sessions := context.sessions.insert sessionId session }, acts)

/-- `HandlePacketFromClient`. -/
def handlePacketFromClient (context : WgcfRelayContext) (packet : Packet) (sessionId : UInt64)
    (fromAddress : INetSocketAddress) (a : Answers) : WgcfRelayContext × List Action :=
  let reservedValue := typeAndReserved packet >>> 8
  match context.sessions.lookup sessionId with
  | some _ => forwardPacketFromClient context packet sessionId fromAddress a
  | none =>
    match createSession context sessionId reservedValue fromAddress a with
    | (none, acts) => (context, acts)
    | (some context, acts) =>
      let (context, acts') := forwardPacketFromClient context packet sessionId fromAddress a
      (context, acts ++ acts')

/-! ### The idle sweep -/

/-- The report of dropped packets resets all four counters. -/
def WgcfRelaySession.reportDropped (s : WgcfRelaySession) : WgcfRelaySession :=
  if s.droppedRxSinceLastReport ≠ 0 ∨ s.droppedTxSinceLastReport ≠ 0 then
    { s with
      droppedRxSinceLastReport := 0
      droppedTxSinceLastReport := 0
      totalRxPacketsSinceLastReport := 0
      totalTxPacketsSinceLastReport := 0 }
  else s

/-- The expiry test, in the unsigned 64-bit arithmetic of the source. -/
def WgcfRelaySession.expired (s : WgcfRelaySession) (nowSec : UInt64) : Bool :=
  nowSec - s.lastRxTimestampSeconds > 600 || nowSec - s.lastTxTimestampSeconds > 600

/-- The body of the sweep's loop at the session the iterator points to. A negative socket is
neither deregistered nor closed; a failing `EPOLL_CTL_DEL` is only logged. -/
def sweepSession (nowSec : UInt64) (epollDel : SocketHandle → Except Errno Unit)
    (context : WgcfRelayContext) (sid : UInt64) : WgcfRelayContext × List Action :=
  match context.sessions.lookup sid with
  | none => (context, [])
  | some session =>
    let session := session.reportDropped
    let sock := session.outboundSocket
    if session.expired nowSec then
      ({ context with
          sessions := context.sessions.erase sid
          fileDescriptorToSessionIdMap := context.fileDescriptorToSessionIdMap.erase sock },
        .log (.expired sid) ::
          if 0 ≤ sock then
            [.call (.epollDel context.epollHandle sock (epollDel sock)), .call (.close sock)]
          else [])
    else ({ context with sessions := context.sessions.insert sid session }, [])

/-- The loop of the sweep over the sessions still to be visited. Erasing an element leaves
the iteration order of the others alone. -/
def sweepLoop (nowSec : UInt64) (epollDel : SocketHandle → Except Errno Unit) :
    WgcfRelayContext → List UInt64 → WgcfRelayContext × List Action
  | context, [] => (context, [])
  | context, sid :: rest =>
    let (context, acts) := sweepSession nowSec epollDel context sid
    let (context, acts') := sweepLoop nowSec epollDel context rest
    (context, acts ++ acts')

/-! ### The event loop -/

/-- What the loop of `RunWorker` does next. -/
inductive Event
  /-- `epoll_wait` has returned nothing; `order` is the iteration order of the sessions. -/
  | idleSweep (nowSec : UInt64) (order : List UInt64)
      (epollDel : SocketHandle → Except Errno Unit)
  /-- One of the events that `epoll_wait` has returned: `recvfrom` is called on `fd`. -/
  | received (fd : SocketHandle) (result : Except Errno Datagram) (answers : Answers)

/-- The body of the loop over the events of `epoll_wait`, from the datagram on. -/
def handleDatagram (context : WgcfRelayContext) (fd : SocketHandle) (d : Datagram)
    (a : Answers) : WgcfRelayContext × List Action :=
  if d.addrLen > sizeofSockaddrIn6 then (context, [])
  else
    match toSocketAddress d.source with
    | none => (context, [])
    | some fromAddress =>
      if fd = context.inboundSocket then
        let sid := getSessionIdFromClientPacket d.received
        if sid = 0 then (context, [])
        else handlePacketFromClient context d.received sid fromAddress a
      else if fromAddress ≠ context.destinationAddress then (context, [])
      else
        match context.fileDescriptorToSessionIdMap.lookup fd with
        | none => (context, [.log (.unknownSocketHandle fd)])
        | some sid => handlePacketFromServer context d.received sid a

/-- One event of `RunWorker`; an error is what `RunWorker` returns. -/
def handleEvent (context : WgcfRelayContext) :
    Event → Except Errno (WgcfRelayContext × List Action)
  | .idleSweep nowSec order epollDel =>
    let (context, acts) := sweepLoop nowSec epollDel context order
    .ok (context, .call (.clockGettime nowSec) :: acts)
  | .received fd (.error e) _ =>
    if e = .EAGAIN ∨ e = .EINTR then .ok (context, [.call (.recvfrom fd (.error e))])
    else .error e
  | .received fd (.ok d) a =>
    let (context, acts) := handleDatagram context fd d a
    .ok (context, .call (.recvfrom fd (.ok d)) :: acts)

/-- What one `epoll_wait` of `RunWorker` returns, with what the iteration then needs. -/
inductive EpollReturn
  | failed (e : Errno) (nowSec : UInt64) (order : List UInt64)
      (epollDel : SocketHandle → Except Errno Unit)
  | timeout (nowSec : UInt64) (order : List UInt64)
      (epollDel : SocketHandle → Except Errno Unit)
  | ready (first : SocketHandle × Except Errno Datagram × Answers)
      (others : List (SocketHandle × Except Errno Datagram × Answers))

/-- The events of one iteration of `while (true)`: an interrupted or timed out `epoll_wait`
runs the sweep and goes back to waiting, so no sweep runs when there are events. -/
def EpollReturn.events : EpollReturn → Except Errno (List Event)
  | .failed e nowSec order epollDel =>
    if e = .EINTR then .ok [.idleSweep nowSec order epollDel] else .error e
  | .timeout nowSec order epollDel => .ok [.idleSweep nowSec order epollDel]
  | .ready first others => .ok ((first :: others).map fun e ↦ .received e.1 e.2.1 e.2.2)

end WgRelay
