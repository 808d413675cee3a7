import Udpfwd.Relay.Worker

/-!
# What one event of the relay can do

The functions of the worker, inverted: every way a received datagram can be handled is one
constructor of `DatagramEffect`, and the idle sweep is a filter of the session table. The
invariants of the relay are proved from these descriptions and never unfold a handler.
-/

open Net

namespace WgRelay

/-! ### Lists of actions -/

@[simp]
theorem calls_nil : calls [] = [] := rfl

@[simp]
theorem calls_cons_call (c : Syscall) (acts : List Action) :
    calls (.call c :: acts) = c :: calls acts := rfl

@[simp]
theorem calls_cons_log (m : LogMessage) (acts : List Action) :
    calls (.log m :: acts) = calls acts := rfl

@[simp]
theorem calls_append (acts acts' : List Action) :
    calls (acts ++ acts') = calls acts ++ calls acts' :=
  List.filterMap_append

theorem mem_calls {c : Syscall} {acts : List Action} : c ∈ calls acts ↔ .call c ∈ acts := by
  rw [calls, List.mem_filterMap]
  constructor
  · rintro ⟨act, hact, hc⟩
    cases act with
    | call c' =>
      obtain rfl := Option.some.inj hc
      exact hact
    | log m => exact absurd hc (by simp)
  · exact fun hc ↦ ⟨_, hc, rfl⟩

/-! ### The forwarded session -/

namespace WgcfRelaySession

variable (s : WgcfRelaySession) (inbound : SocketHandle) (destination source : INetSocketAddress)
variable (packet : Packet) (sid : UInt64) (a : Answers)

@[simp]
theorem roam_eq : s.roam source = { s with sourceAddress := source } := by
  rw [roam]
  split
  · rfl
  · next h =>
    rw [not_not] at h
    rw [← h]

/-- The fields that a session keeps for as long as it lives. -/
structure SameSession (s s' : WgcfRelaySession) : Prop where
  sessionId : s'.sessionId = s.sessionId
  wireguardReserved : s'.wireguardReserved = s.wireguardReserved
  outboundSocket : s'.outboundSocket = s.outboundSocket
  outboundSocketAddress : s'.outboundSocketAddress = s.outboundSocketAddress

variable {s}

@[refl]
theorem SameSession.refl (s : WgcfRelaySession) : s.SameSession s := ⟨rfl, rfl, rfl, rfl⟩

theorem SameSession.trans {s₁ s₂ s₃ : WgcfRelaySession} (h₁ : s₁.SameSession s₂)
    (h₂ : s₂.SameSession s₃) : s₁.SameSession s₃ :=
  ⟨h₂.1.trans h₁.1, h₂.2.trans h₁.2, h₂.3.trans h₁.3, h₂.4.trans h₁.4⟩

variable (s)

/-- What the attempt to send a packet of the server leaves of the session, whatever comes of
the attempt. -/
def receiving : WgcfRelaySession :=
  { s with totalRxPacketsSinceLastReport := s.totalRxPacketsSinceLastReport + 1 }

/-- What the attempt to send a packet of the client leaves of the session, whatever comes of
the attempt. -/
def sending : WgcfRelaySession :=
  { s with
    sourceAddress := source
    totalTxPacketsSinceLastReport := s.totalTxPacketsSinceLastReport + 1 }

/-- One more dropped packet. -/
def dropping : Direction → WgcfRelaySession
  | .toServer => { s with droppedTxSinceLastReport := s.droppedTxSinceLastReport + 1 }
  | .toClient => { s with droppedRxSinceLastReport := s.droppedRxSinceLastReport + 1 }

/-- The time of the latest packet that was sent. -/
def stamping (now : UInt64) : Direction → WgcfRelaySession
  | .toServer => { s with lastTxTimestampSeconds := now }
  | .toClient => { s with lastRxTimestampSeconds := now }

/-- One packet that is to be passed on to `dest` from the socket `sock`, in either direction.
The session is `unsent` afterwards when there is no address to send the packet to, and
`attempted` when `sendto` is called, up to what comes of that call. -/
inductive Forwarding (dir : Direction) (sock : SocketHandle) (packet : Packet)
    (dest : Option SockAddr) (sid : UInt64) (a : Answers) (unsent attempted : WgcfRelaySession) :
    WgcfRelaySession → List Action → Prop
  | unsent (hdest : dest = none) :
      Forwarding dir sock packet dest sid a unsent attempted unsent []
  | failed {target : SockAddr} {e : Errno} (hdest : dest = some target)
      (hsend : a.sendto = .error e) :
      Forwarding dir sock packet dest sid a unsent attempted
        (if e = .EAGAIN then attempted.dropping dir else attempted)
        [.call (.sendto sock packet target (.error e))]
  | sent {target : SockAddr} {n : ℕ} (hdest : dest = some target) (hsend : a.sendto = .ok n) :
      Forwarding dir sock packet dest sid a unsent attempted (attempted.stamping a.sentAt dir)
        [.call (.sendto sock packet target (.ok n)), .call (.clockGettime a.sentAt),
          .log (.forwarded sid dir a.sentAt)]

/-- **Forwarding to the client, inverted.** -/
theorem forwardToClient_forwarding :
    Forwarding .toClient inbound packet (toLinuxSocketAddress s.sourceAddress) sid a s s.receiving
      (s.forwardToClient inbound packet sid a).1 (s.forwardToClient inbound packet sid a).2 := by
  have hvalid := isSome_toLinuxSocketAddress s.sourceAddress
  rw [forwardToClient, ← hvalid]
  rcases hdest : toLinuxSocketAddress s.sourceAddress with - | target
  · exact .unsent rfl
  · simp only [sendUdpPacket, hdest, Option.isSome_some, if_true]
    rcases hsend : a.sendto with e | n
    · have hfailed : Forwarding .toClient inbound packet (some target) sid a s s.receiving _ _ :=
        .failed rfl hsend
      cases e <;> exact hfailed
    · exact .sent rfl hsend

/-- **Forwarding to the server, inverted.** -/
theorem forwardToServer_forwarding :
    Forwarding .toServer s.outboundSocket packet (toLinuxSocketAddress destination) sid a
      (s.sending source) (s.sending source) (s.forwardToServer destination packet sid source a).1
      (s.forwardToServer destination packet sid source a).2 := by
  rw [forwardToServer, roam_eq]
  rcases hdest : toLinuxSocketAddress destination with - | target
  · simp only [sendUdpPacket, hdest]
    exact .unsent rfl
  · simp only [sendUdpPacket, hdest]
    rcases hsend : a.sendto with e | n
    · have hfailed : Forwarding .toServer s.outboundSocket packet (some target) sid a
          (s.sending source) (s.sending source) _ _ := .failed rfl hsend
      cases e <;> exact hfailed
    · exact .sent rfl hsend

variable {s} {s' unsent attempted : WgcfRelaySession} {dir : Direction} {sock : SocketHandle}
variable {dest : Option SockAddr} {acts : List Action} {packet sid a}

/-- Forwarding changes counters and a timestamp. -/
theorem Forwarding.preserves {P : WgcfRelaySession → Prop}
    (h : Forwarding dir sock packet dest sid a unsent attempted s' acts) (hunsent : P unsent)
    (hattempted : P attempted) (hdropping : P (attempted.dropping dir))
    (hstamping : ∀ now, P (attempted.stamping now dir)) : P s' := by
  cases h with
  | unsent => exact hunsent
  | failed => split <;> assumption
  | sent => exact hstamping _

theorem Forwarding.same (h : Forwarding dir sock packet dest sid a unsent attempted s' acts)
    (hunsent : s.SameSession unsent) (hattempted : s.SameSession attempted) :
    s.SameSession s' :=
  h.preserves hunsent hattempted (hattempted.trans (by cases dir <;> constructor <;> rfl))
    fun _ ↦ hattempted.trans (by cases dir <;> constructor <;> rfl)

variable (s packet sid a)

theorem forwardToClient_same : s.SameSession (s.forwardToClient inbound packet sid a).1 :=
  (s.forwardToClient_forwarding inbound packet sid a).same (.refl s) ⟨rfl, rfl, rfl, rfl⟩

theorem forwardToServer_same :
    s.SameSession (s.forwardToServer destination packet sid source a).1 :=
  (s.forwardToServer_forwarding destination source packet sid a).same ⟨rfl, rfl, rfl, rfl⟩
    ⟨rfl, rfl, rfl, rfl⟩

theorem reportDropped_same : s.SameSession s.reportDropped := by
  rw [reportDropped]
  split <;> constructor <;> rfl

/-- The report of dropped packets does not touch what the expiry test looks at. -/
@[simp]
theorem expired_reportDropped (now : UInt64) : s.reportDropped.expired now = s.expired now := by
  rw [reportDropped]
  split <;> rfl

end WgcfRelaySession

/-! ### Received datagrams -/

/-- The session that a new client gets, before its first packet is forwarded. -/
def newSession (context : WgcfRelayContext) (sid : UInt64) (reserved : UInt32)
    (fromAddress : INetSocketAddress) (sock : SocketHandle) (port : UInt16) (now : UInt64) :
    WgcfRelaySession where
  sessionId := sid
  wireguardReserved := reserved
  clientPeerId := 0
  serverPeerId := 0
  outboundSocket := sock
  outboundSocketAddress :=
    ⟨if context.destinationAddress.address.isIpv4 then INetAddress.ipv4Any
      else INetAddress.ipv6Any, port⟩
  sourceAddress := fromAddress
  lastTxTimestampSeconds := now
  lastRxTimestampSeconds := now

/-- The calls of a creation that fails, after which the kernel is as before. -/
inductive FailedCreation (epoll : SocketHandle) (a : Answers) : List Action → Prop
  | socket {family e} (hsocket : a.socket = .error e) :
      FailedCreation epoll a [.call (.socket family (.error e))]
  | bind {family sock addr e} (hsocket : a.socket = .ok sock) (hbind : a.bind = .error e) :
      FailedCreation epoll a
        [.call (.socket family (.ok sock)), .call (.bind sock addr (.error e)),
          .call (.close sock)]
  | getsockname {family sock addr e} (hsocket : a.socket = .ok sock) (hbind : a.bind = .ok ())
      (hgetsockname : a.getsockname = .error e) :
      FailedCreation epoll a
        [.call (.socket family (.ok sock)), .call (.bind sock addr (.ok ())),
          .call (.getsockname sock (.error e)), .call (.close sock)]
  | epollAdd {family sock addr port e} (hsocket : a.socket = .ok sock) (hbind : a.bind = .ok ())
      (hgetsockname : a.getsockname = .ok port) (hadd : a.epollAdd = .error e) :
      FailedCreation epoll a
        [.call (.socket family (.ok sock)), .call (.bind sock addr (.ok ())),
          .call (.getsockname sock (.ok port)), .call (.epollAdd epoll sock (.error e)),
          .call (.close sock)]

/-- The kernel grants the four calls of a creation, with this socket and this port. -/
structure Answers.Creates (a : Answers) (sock : SocketHandle) (port : UInt16) : Prop where
  socket : a.socket = .ok sock
  bind : a.bind = .ok ()
  getsockname : a.getsockname = .ok port
  epollAdd : a.epollAdd = .ok ()

/-- The actions of a creation that succeeds. -/
def creationActions (epoll : SocketHandle) (family : UInt16) (addr : SockAddr)
    (sid : UInt64) (sock : SocketHandle) (port : UInt16) (now : UInt64) : List Action :=
  [.call (.socket family (.ok sock)), .call (.bind sock addr (.ok ())),
    .call (.getsockname sock (.ok port)), .call (.epollAdd epoll sock (.ok ())),
    .call (.clockGettime now), .log (.created sid now)]

/-- **Creation, inverted.** Either one of the four calls fails and the handler returns, or
the session and its socket are entered into the two tables. -/
theorem createSession_cases (context : WgcfRelayContext) (sid : UInt64) (reserved : UInt32)
    (source : INetSocketAddress) (a : Answers) :
    (∃ acts, FailedCreation context.epollHandle a acts ∧
      createSession context sid reserved source a = (none, acts)) ∨
    ∃ family addr sock port, a.Creates sock port ∧
      createSession context sid reserved source a =
        (some { context with
          sessions := tryEmplace context.sessions sid
            (newSession context sid reserved source sock (ntohs port) a.createdAt)
          fileDescriptorToSessionIdMap :=
            tryEmplace context.fileDescriptorToSessionIdMap sock sid },
        creationActions context.epollHandle family addr sid sock port a.createdAt) := by
  rw [createSession, newOutboundUdpSocket]
  cases h₁ : a.socket with
  | error e => exact .inl ⟨_, .socket h₁, rfl⟩
  | ok sock =>
    cases h₂ : a.bind with
    | error e => exact .inl ⟨_, .bind h₁ h₂, rfl⟩
    | ok u =>
      cases h₃ : a.getsockname with
      | error e => exact .inl ⟨_, .getsockname h₁ h₂ h₃, rfl⟩
      | ok port =>
        cases h₄ : a.epollAdd with
        | error e => exact .inl ⟨_, .epollAdd h₁ h₂ h₃ h₄, rfl⟩
        | ok u' => exact .inr ⟨_, _, sock, port, ⟨h₁, h₂, h₃, h₄⟩, rfl⟩

/-- What a received datagram is to a client. -/
inductive Arrival
  /-- A packet of the client itself, from that source. -/
  | fromClient (source : INetSocketAddress)
  /-- A packet of the server on the socket of the client. -/
  | fromServer
  deriving DecidableEq

/-- What a datagram on `fd` is to the client `sid`, if anything. -/
def arrival (context : WgcfRelayContext) (sid : UInt64) (fd : SocketHandle) (d : Datagram) :
    Option Arrival :=
  if d.addrLen > sizeofSockaddrIn6 then none
  else
    match toSocketAddress d.source with
    | none => none
    | some source =>
      if fd = context.inboundSocket then
        if getSessionIdFromClientPacket d.payload = sid ∧ sid ≠ 0 then some (.fromClient source)
        else none
      else if source = context.destinationAddress ∧
          context.fileDescriptorToSessionIdMap.lookup fd = some sid then some .fromServer
      else none

section Arrivals

variable {context : WgcfRelayContext} {sid sid' : UInt64} {fd : SocketHandle} {d : Datagram}

theorem arrival_eq_fromClient {source : INetSocketAddress} :
    arrival context sid fd d = some (.fromClient source) ↔ d.addrLen ≤ sizeofSockaddrIn6 ∧
      toSocketAddress d.source = some source ∧ fd = context.inboundSocket ∧
        getSessionIdFromClientPacket d.payload = sid ∧ sid ≠ 0 := by
  rw [arrival]
  rcases toSocketAddress d.source with - | source'
  · simp
  · by_cases hlen : d.addrLen ≤ sizeofSockaddrIn6 <;>
      by_cases hfd : fd = context.inboundSocket <;> simp [← not_le, hlen, hfd, and_comm]

theorem arrival_eq_fromServer :
    arrival context sid fd d = some .fromServer ↔ d.addrLen ≤ sizeofSockaddrIn6 ∧
      toSocketAddress d.source = some context.destinationAddress ∧
        fd ≠ context.inboundSocket ∧
          context.fileDescriptorToSessionIdMap.lookup fd = some sid := by
  rw [arrival]
  rcases toSocketAddress d.source with - | source'
  · simp
  · by_cases hlen : d.addrLen ≤ sizeofSockaddrIn6 <;>
      by_cases hfd : fd = context.inboundSocket <;> simp [← not_le, hlen, hfd]

/-- A datagram is for one client at most. -/
theorem arrival_eq_none_of_ne {x : Arrival} (hx : arrival context sid fd d = some x)
    (hne : sid ≠ sid') : arrival context sid' fd d = none := by
  rcases hy : arrival context sid' fd d with - | y
  · rfl
  · exfalso
    cases x with
    | fromClient source =>
      obtain ⟨-, -, hfd, hsid, -⟩ := arrival_eq_fromClient.1 hx
      cases y with
      | fromClient => exact hne (hsid.symm.trans (arrival_eq_fromClient.1 hy).2.2.2.1)
      | fromServer => exact (arrival_eq_fromServer.1 hy).2.2.1 hfd
    | fromServer =>
      obtain ⟨-, -, hfd, hsid⟩ := arrival_eq_fromServer.1 hx
      cases y with
      | fromClient => exact hfd (arrival_eq_fromClient.1 hy).2.2.1
      | fromServer =>
        exact hne (Option.some.inj (hsid.symm.trans (arrival_eq_fromServer.1 hy).2.2.2))

end Arrivals

/-- Every way a received datagram can be handled. -/
inductive DatagramEffect (context : WgcfRelayContext) (fd : SocketHandle) (d : Datagram)
    (a : Answers) : WgcfRelayContext → List Action → Prop
  /-- A datagram that is for no client: an unreadable source, an invalid packet of a client, or
  a packet that the server did not send. -/
  | ignored (harrival : ∀ sid, arrival context sid fd d = none) :
      DatagramEffect context fd d a context []
  /-- A packet of the server on a socket that is not in the second table. -/
  | unknownSocketHandle (harrival : ∀ sid, arrival context sid fd d = none)
      (hfd : fd ≠ context.inboundSocket)
      (hfdMap : context.fileDescriptorToSessionIdMap.lookup fd = none) :
      DatagramEffect context fd d a context [.log (.unknownSocketHandle fd)]
  /-- A packet of a client that has a session. -/
  | fromClient {source : INetSocketAddress} {sid : UInt64} {s : WgcfRelaySession}
      (harrival : arrival context sid fd d = some (.fromClient source))
      (hs : context.sessions.lookup sid = some s) :
      DatagramEffect context fd d a
        { context with
          sessions := context.sessions.insert sid
            (s.forwardToServer context.destinationAddress d.payload sid source a).1 }
        (s.forwardToServer context.destinationAddress d.payload sid source a).2
  /-- A packet of a client that has no session and gets none. -/
  | notCreated {source : INetSocketAddress} {sid : UInt64} {acts : List Action}
      (harrival : arrival context sid fd d = some (.fromClient source))
      (hs : context.sessions.lookup sid = none)
      (hfail : FailedCreation context.epollHandle a acts) :
      DatagramEffect context fd d a context acts
  /-- A packet of a client that gets a new session. -/
  | created {source : INetSocketAddress} {sid : UInt64} {family : UInt16} {addr : SockAddr}
      {sock : SocketHandle} {port : UInt16} {s : WgcfRelaySession}
      (harrival : arrival context sid fd d = some (.fromClient source))
      (hs : context.sessions.lookup sid = none) (hcreates : a.Creates sock port)
      (hnew : s = newSession context sid (typeAndReserved d.payload >>> 8) source sock
        (ntohs port) a.createdAt) :
      DatagramEffect context fd d a
        { context with
          sessions := context.sessions.insert sid
            (s.forwardToServer context.destinationAddress d.payload sid source a).1
          fileDescriptorToSessionIdMap :=
            tryEmplace context.fileDescriptorToSessionIdMap sock sid }
        (creationActions context.epollHandle family addr sid sock port a.createdAt ++
          (s.forwardToServer context.destinationAddress d.payload sid source a).2)
  /-- A packet of the server for a session. -/
  | fromServer {sid : UInt64} {s : WgcfRelaySession}
      (harrival : arrival context sid fd d = some .fromServer)
      (hs : context.sessions.lookup sid = some s) :
      DatagramEffect context fd d a
        { context with
          sessions := context.sessions.insert sid
            (s.forwardToClient context.inboundSocket d.payload sid a).1 }
        (s.forwardToClient context.inboundSocket d.payload sid a).2
  /-- A packet of the server for an id that is not in the first table. -/
  | unknownSessionId {sid : UInt64} (harrival : arrival context sid fd d = some .fromServer)
      (hs : context.sessions.lookup sid = none) :
      DatagramEffect context fd d a context [.log (.unknownSessionId sid)]

/-- A packet of a client, inverted. -/
private theorem handlePacketFromClient_effect {context : WgcfRelayContext} {fd : SocketHandle}
    {d : Datagram} {a : Answers} {source : INetSocketAddress} {sid : UInt64}
    (harrival : arrival context sid fd d = some (.fromClient source)) :
    DatagramEffect context fd d a
      (handlePacketFromClient context d.payload sid source a).1
      (handlePacketFromClient context d.payload sid source a).2 := by
  rcases hs : context.sessions.lookup sid with - | s
  · rcases createSession_cases context sid (typeAndReserved d.payload >>> 8) source a with
      ⟨acts, hfail, hcreate⟩ | ⟨family, addr, sock, port, hcreates, hcreate⟩
    · simp only [handlePacketFromClient, hs, hcreate]
      exact .notCreated harrival hs hfail
    · simp only [handlePacketFromClient, hs, hcreate, tryEmplace_of_lookup_eq_none hs,
        forwardPacketFromClient, Finmap.lookup_insert, Finmap.insert_insert]
      exact .created harrival hs hcreates rfl
  · simp only [handlePacketFromClient, hs, forwardPacketFromClient]
    exact .fromClient harrival hs

/-- **Received datagrams, inverted.** -/
theorem handleDatagram_effect (context : WgcfRelayContext) (fd : SocketHandle) (d : Datagram)
    (a : Answers) :
    DatagramEffect context fd d a (handleDatagram context fd d a).1
      (handleDatagram context fd d a).2 := by
  rw [handleDatagram, Datagram.received_eq]
  split
  · next hlen => exact .ignored fun _ ↦ if_pos hlen
  next hlen =>
  split
  · next hnone => exact .ignored fun _ ↦ by simp [arrival, hnone]
  next source hsource =>
  split
  · next hfd =>
    dsimp only
    split
    · next hzero => exact .ignored fun _ ↦ by simp [arrival, hsource, hfd, hzero, eq_comm]
    · next hne =>
      exact handlePacketFromClient_effect
        (arrival_eq_fromClient.2 ⟨Nat.not_lt.1 hlen, hsource, hfd, rfl, hne⟩)
  next hfd =>
  split
  · next hdest => exact .ignored fun _ ↦ by simp [arrival, hsource, hfd, hdest]
  next hdest =>
  rw [not_not] at hdest
  subst hdest
  split
  · next hnone =>
    exact .unknownSocketHandle (fun _ ↦ by simp [arrival, hfd, hsource, hnone]) hfd hnone
  next sid hfdMap =>
  have harrival : arrival context sid fd d = some .fromServer :=
    arrival_eq_fromServer.2 ⟨Nat.not_lt.1 hlen, hsource, hfd, hfdMap⟩
  rw [handlePacketFromServer]
  split
  · next hs => exact .unknownSessionId harrival hs
  · next s hs => exact .fromServer harrival hs

/-! ### The idle sweep -/

/-- What the sweep leaves of a session. -/
def WgcfRelaySession.swept (now : UInt64) (s : WgcfRelaySession) : Option WgcfRelaySession :=
  if s.expired now then none else some s.reportDropped

@[simp]
theorem WgcfRelaySession.swept_eq_some {now : UInt64} {s s' : WgcfRelaySession} :
    s.swept now = some s' ↔ s.expired now = false ∧ s.reportDropped = s' := by
  simp [swept]

/-- What the sweep does when it visits `sid`. -/
def sweepActions (now : UInt64) (epollDel : SocketHandle → Except Errno Unit)
    (context : WgcfRelayContext) (sid : UInt64) : List Action :=
  match context.sessions.lookup sid with
  | none => []
  | some s =>
    if s.expired now then
      .log (.expired sid) ::
        if 0 ≤ s.outboundSocket then
          [.call (.epollDel context.epollHandle s.outboundSocket (epollDel s.outboundSocket)),
            .call (.close s.outboundSocket)]
        else []
    else []

/-- A log message of the sweep reports the expiry of a session that it removes. -/
theorem mem_sweepActions {now : UInt64} {epollDel : SocketHandle → Except Errno Unit}
    {context : WgcfRelayContext} {order : List UInt64} {m : LogMessage} :
    .log m ∈ order.flatMap (sweepActions now epollDel context) ↔
      ∃ sid ∈ order, ∃ s, context.sessions.lookup sid = some s ∧ s.expired now = true ∧
        m = .expired sid := by
  rw [List.mem_flatMap]
  refine exists_congr fun sid ↦ and_congr_right fun _ ↦ ?_
  rw [sweepActions]
  rcases context.sessions.lookup sid with - | s
  · simp
  · by_cases hexp : s.expired now = true
    · by_cases hsock : 0 ≤ s.outboundSocket <;> simp [hexp, hsock]
    · simp [hexp]

/-- The sweep only deregisters sockets and closes them. -/
theorem eq_of_mem_calls_sweepActions {now : UInt64} {epollDel : SocketHandle → Except Errno Unit}
    {context : WgcfRelayContext} {order : List UInt64} {c : Syscall}
    (hc : c ∈ calls (order.flatMap (sweepActions now epollDel context))) :
    (∃ fd r, c = .epollDel context.epollHandle fd r) ∨ ∃ fd, c = .close fd := by
  rw [mem_calls, List.mem_flatMap] at hc
  obtain ⟨sid, -, hc⟩ := hc
  rw [sweepActions] at hc
  split at hc
  · exact absurd hc List.not_mem_nil
  next s _ =>
  split at hc
  · simp only [List.mem_cons, reduceCtorEq, false_or] at hc
    split at hc
    · simp only [List.mem_cons, List.not_mem_nil, or_false, Action.call.injEq] at hc
      exact hc.imp (fun heq ↦ ⟨_, _, heq⟩) fun heq ↦ ⟨_, heq⟩
    · exact absurd hc List.not_mem_nil
  · exact absurd hc List.not_mem_nil

/-- What a sweep that has visited the sessions `order` has made of the two tables. -/
structure Swept (now : UInt64) (order : List UInt64) (context context' : WgcfRelayContext) :
    Prop where
  sessions : ∀ sid, context'.sessions.lookup sid =
    if sid ∈ order then (context.sessions.lookup sid).bind (·.swept now)
    else context.sessions.lookup sid
  /-- The socket of a removed session is in the second table no more. -/
  fdMap_removed : ∀ {fd sid s}, sid ∈ order → context.sessions.lookup sid = some s →
    s.expired now = true → s.outboundSocket = fd →
      context'.fileDescriptorToSessionIdMap.lookup fd = none
  /-- Every other entry of the second table stays. -/
  fdMap_kept : ∀ {fd}, (∀ sid ∈ order, ∀ s, context.sessions.lookup sid = some s →
    s.expired now = true → s.outboundSocket ≠ fd) →
      context'.fileDescriptorToSessionIdMap.lookup fd =
        context.fileDescriptorToSessionIdMap.lookup fd
  inboundSocket : context'.inboundSocket = context.inboundSocket
  inboundSocketAddress : context'.inboundSocketAddress = context.inboundSocketAddress
  destinationAddress : context'.destinationAddress = context.destinationAddress
  epollHandle : context'.epollHandle = context.epollHandle

variable {now : UInt64} {epollDel : SocketHandle → Except Errno Unit}
variable {context : WgcfRelayContext} {sid : UInt64} {s : WgcfRelaySession}
variable {order : List UInt64}

theorem sweepSession_of_expired (hs : context.sessions.lookup sid = some s)
    (hexp : s.expired now = true) :
    sweepSession now epollDel context sid =
      ({ context with
          sessions := context.sessions.erase sid
          fileDescriptorToSessionIdMap :=
            context.fileDescriptorToSessionIdMap.erase s.outboundSocket },
        sweepActions now epollDel context sid) := by
  have hexp' : s.reportDropped.expired now = true := by rwa [s.expired_reportDropped]
  have hsock := s.reportDropped_same.outboundSocket
  simp only [sweepSession, sweepActions, hs, hexp, hexp', if_true, hsock]

theorem sweepSession_of_not_expired (hs : context.sessions.lookup sid = some s)
    (hexp : s.expired now = false) :
    sweepSession now epollDel context sid =
      ({ context with sessions := context.sessions.insert sid s.reportDropped },
        sweepActions now epollDel context sid) := by
  have hexp' : s.reportDropped.expired now = false := by rwa [s.expired_reportDropped]
  simp [sweepSession, sweepActions, hs, hexp, hexp']

theorem sweepSession_of_none (hs : context.sessions.lookup sid = none) :
    sweepSession now epollDel context sid =
      (context, sweepActions now epollDel context sid) := by
  simp only [sweepSession, sweepActions, hs]

/-- The actions of one iteration. -/
theorem sweepSession_snd (now : UInt64) (epollDel : SocketHandle → Except Errno Unit)
    (context : WgcfRelayContext) (sid : UInt64) :
    (sweepSession now epollDel context sid).2 = sweepActions now epollDel context sid := by
  rcases hs : context.sessions.lookup sid with - | s
  · rw [sweepSession_of_none hs]
  · rcases hexp : s.expired now
    · rw [sweepSession_of_not_expired hs hexp]
    · rw [sweepSession_of_expired hs hexp]

/-- One iteration of the sweep. -/
theorem sweepSession_swept (now : UInt64) (epollDel : SocketHandle → Except Errno Unit)
    (context : WgcfRelayContext) (sid : UInt64) :
    Swept now [sid] context (sweepSession now epollDel context sid).1 := by
  rcases hs : context.sessions.lookup sid with - | s
  · rw [sweepSession_of_none hs]
    refine ⟨fun sid' ↦ ?_, ?_, fun _ ↦ rfl, rfl, rfl, rfl, rfl⟩
    · rcases eq_or_ne sid' sid with rfl | hne
      · simp [hs]
      · simp [hne]
    · intro fd sid' s' hmem hs'
      rw [List.mem_singleton.1 hmem, hs] at hs'
      exact absurd hs' (by simp)
  · rcases hexp : s.expired now
    · rw [sweepSession_of_not_expired hs hexp]
      refine ⟨fun sid' ↦ ?_, ?_, fun _ ↦ rfl, rfl, rfl, rfl, rfl⟩
      · rcases eq_or_ne sid' sid with rfl | hne
        · simp [hs, WgcfRelaySession.swept, hexp]
        · simp [hne, Finmap.lookup_insert_of_ne _ hne]
      · intro fd sid' s' hmem hs' hexp'
        rw [List.mem_singleton.1 hmem, hs] at hs'
        rw [← Option.some.inj hs', hexp] at hexp'
        exact absurd hexp' (by simp)
    · rw [sweepSession_of_expired hs hexp]
      refine ⟨fun sid' ↦ ?_, ?_, fun hkept ↦ ?_, rfl, rfl, rfl, rfl⟩
      · rcases eq_or_ne sid' sid with rfl | hne
        · simp [hs, WgcfRelaySession.swept, hexp]
        · simp [hne, Finmap.lookup_erase_ne hne]
      · intro fd sid' s' hmem hs' _ hfd
        rw [List.mem_singleton.1 hmem, hs] at hs'
        rw [← hfd, ← Option.some.inj hs']
        exact Finmap.lookup_erase _ _
      · exact Finmap.lookup_erase_ne (hkept sid (List.mem_singleton_self _) s hs hexp).symm

theorem Swept.cons {context₁ context₂ context₃ : WgcfRelayContext} (hsid : sid ∉ order)
    (h₁ : Swept now [sid] context₁ context₂) (h₂ : Swept now order context₂ context₃) :
    Swept now (sid :: order) context₁ context₃ := by
  -- the first iteration leaves the sessions still to be visited alone
  have hrest : ∀ sid' ∈ order, context₂.sessions.lookup sid' = context₁.sessions.lookup sid' := by
    intro sid' hmem
    have hne : sid' ≠ sid := fun h ↦ hsid (h ▸ hmem)
    rw [h₁.sessions, if_neg (List.mem_singleton.not.2 hne)]
  refine ⟨fun sid' ↦ ?_, ?_, ?_, h₂.inboundSocket.trans h₁.inboundSocket,
    h₂.inboundSocketAddress.trans h₁.inboundSocketAddress,
    h₂.destinationAddress.trans h₁.destinationAddress, h₂.epollHandle.trans h₁.epollHandle⟩
  · rw [h₂.sessions, h₁.sessions]
    by_cases heq : sid' = sid
    · simp [heq, hsid]
    · simp [heq]
  · intro fd sid' s' hmem hs' hexp hfd
    by_cases hlater : ∃ sid'' ∈ order, ∃ s'', context₁.sessions.lookup sid'' = some s'' ∧
        s''.expired now = true ∧ s''.outboundSocket = fd
    · obtain ⟨sid'', hmem'', s'', hs'', hexp'', hfd''⟩ := hlater
      exact h₂.fdMap_removed hmem'' ((hrest _ hmem'').trans hs'') hexp'' hfd''
    · rw [h₂.fdMap_kept fun sid'' hmem'' s'' hs'' hexp'' hfd'' ↦
        hlater ⟨sid'', hmem'', s'', (hrest _ hmem'').symm.trans hs'', hexp'', hfd''⟩]
      rcases List.mem_cons.1 hmem with rfl | hmem'
      · exact h₁.fdMap_removed (List.mem_singleton_self _) hs' hexp hfd
      · exact absurd ⟨sid', hmem', s', hs', hexp, hfd⟩ hlater
  · intro fd hkept
    rw [h₂.fdMap_kept fun sid'' hmem'' s'' hs'' ↦
        hkept sid'' (List.mem_cons_of_mem _ hmem'') s'' ((hrest _ hmem'').symm.trans hs''),
      h₁.fdMap_kept fun sid'' hmem'' s'' hs'' ↦
        hkept sid'' (List.mem_cons.2 (.inl (List.mem_singleton.1 hmem''))) s'' hs'']

/-- **The sweep is a filter.** Whatever the iteration order, every visited session is judged
by its own timestamps, and what one iteration does depends on the session it visits only. -/
theorem sweepLoop_swept (now : UInt64) (epollDel : SocketHandle → Except Errno Unit)
    (context : WgcfRelayContext) {order : List UInt64} (hnodup : order.Nodup) :
    Swept now order context (sweepLoop now epollDel context order).1 ∧
      (sweepLoop now epollDel context order).2 =
        order.flatMap (sweepActions now epollDel context) := by
  induction order generalizing context with
  | nil => exact ⟨⟨fun _ ↦ rfl, nofun, fun _ ↦ rfl, rfl, rfl, rfl, rfl⟩, rfl⟩
  | cons sid order ih =>
    obtain ⟨hsid, hnodup'⟩ := List.nodup_cons.1 hnodup
    have hfirst := sweepSession_swept now epollDel context sid
    obtain ⟨hrest, hacts⟩ := ih (sweepSession now epollDel context sid).1 hnodup'
    refine ⟨hfirst.cons hsid hrest, ?_⟩
    have hsame : ∀ sid' ∈ order,
        sweepActions now epollDel (sweepSession now epollDel context sid).1 sid' =
          sweepActions now epollDel context sid' := by
      intro sid' hmem
      have hlookup : (sweepSession now epollDel context sid).1.sessions.lookup sid' =
          context.sessions.lookup sid' := by
        have hne : sid' ≠ sid := fun h ↦ hsid (h ▸ hmem)
        rw [hfirst.sessions, if_neg (List.mem_singleton.not.2 hne)]
      rw [sweepActions, sweepActions, hlookup, hfirst.epollHandle]
    calc (sweepLoop now epollDel context (sid :: order)).2
        = (sweepSession now epollDel context sid).2 ++
            (sweepLoop now epollDel (sweepSession now epollDel context sid).1 order).2 := rfl
      _ = sweepActions now epollDel context sid ++
            order.flatMap (sweepActions now epollDel context) := by
          rw [sweepSession_snd, hacts, List.flatMap_congr hsame]
      _ = (sid :: order).flatMap (sweepActions now epollDel context) := rfl

end WgRelay
