import Udpfwd.Common.Process
import Udpfwd.Forwarder.Translation
import Udpfwd.Relay.Translation

/-!
# What is asked for is served

The way back from what is meant to what happens, for a process to which the kernel grants its
sockets.

* `process_serves_configuration` — whatever rules are written to a file of at most a megabyte, a
  process that is called with this file gets to the forwarder with a session for each rule; and as
  long as it runs, what arrives on the inbound socket of a rule goes to its destination;
* `process_serves_command_line` — a process that is called with two addresses gets to the relay; and
  as long as it runs, packets of clients go to the server, and packets of the server to its clients.
-/

open Net Text IoUtils

namespace UdpForward

section Setup

variable {a : ℕ → TargetAnswers} {targets : List UdpForwardTargetInfo}
variable {target : UdpForwardTargetInfo}

/-- The kernel grants both sockets. -/
def TargetAnswers.Granted (b : TargetAnswers) : Prop :=
  ∃ fd₁ fd₂, b = ⟨.success fd₁, .success fd₂⟩

theorem setupTarget_granted (context : UdpForwardContext) (i : ℕ) {b : TargetAnswers}
    (hin : target.inbound.isValid = true) (hout : target.outbound.isValid = true)
    (hb : b.Granted) :
    ∃ context' calls, setupTarget context i target b = (.ok (), context', calls) := by
  obtain ⟨fd₁, fd₂, rfl⟩ := hb
  rw [← isSome_toLinuxSocketAddress, Option.isSome_iff_exists] at hin hout
  obtain ⟨addr₁, haddr₁⟩ := hin
  obtain ⟨addr₂, haddr₂⟩ := hout
  exact ⟨_, _, setupTarget_success haddr₁ haddr₂⟩

theorem setupLoop_granted (context : UdpForwardContext) (i : ℕ)
    (hvalid : ∀ target ∈ targets, target.inbound.isValid = true ∧ target.outbound.isValid = true)
    (ha : ∀ j, i ≤ j → j < i + targets.length → (a j).Granted) :
    ∃ context' calls, setupLoop context a i targets = (.ok (), context', calls) := by
  induction targets generalizing context i with
  | nil => exact ⟨context, [], rfl⟩
  | cons target rest ih =>
    rw [List.forall_mem_cons] at hvalid
    obtain ⟨⟨hin, hout⟩, hrest⟩ := hvalid
    rw [List.length_cons] at ha
    obtain ⟨context₁, calls₁, hfirst⟩ :=
      setupTarget_granted context i hin hout (ha i le_rfl (by omega))
    obtain ⟨context₂, calls₂, hloop⟩ := ih context₁ (i + 1) hrest
      fun j hle hlt ↦ ha j (by omega) (by omega)
    refine ⟨context₂, calls₁ ++ calls₂, ?_⟩
    rw [setupLoop, hfirst]
    dsimp only
    rw [hloop]

/-- `SetupSockets` succeeds when the kernel grants all sockets. -/
theorem setupSockets_granted (epoll : SocketHandle)
    (hvalid : ∀ target ∈ targets, target.inbound.isValid = true ∧ target.outbound.isValid = true)
    (ha : ∀ j < targets.length, (a j).Granted) :
    ∃ context calls, setupSockets {} targets (.ok epoll) a = (.ok (), context, calls) := by
  obtain ⟨context, calls, hloop⟩ := setupLoop_granted
    { ({} : UdpForwardContext) with epollHandle := epoll } 0 hvalid fun j _ hlt ↦ ha j (by omega)
  refine ⟨context, .epollCreate (.ok epoll) :: calls, ?_⟩
  rw [setupSockets]
  dsimp only
  rw [hloop]

end Setup

section Serving

variable {targets : List UdpForwardTargetInfo} {σ : ForwarderState} {p : Polled}

/-- A batch of one event. -/
theorem handleBatch_singleton (context : UdpForwardContext) :
    handleBatch context [p] = handleEvent context p.event := by
  rw [handleBatch]
  rcases handleEvent context p.event with ⟨- | e | -, context', calls⟩
  · show (_, _, calls ++ []) = _
    rw [List.append_nil]
  · rfl
  · rfl

/-- One event can be handled in an iteration of its own. -/
theorem LoopStep.single (hrunning : σ.outcome = .next) (hp : p.fd ∈ σ.kernel.interest) :
    LoopStep σ ⟨.ready [p], (handleEvent σ.context p.event).2.2⟩
      ⟨(handleEvent σ.context p.event).2.1,
        σ.kernel.replay (handleEvent σ.context p.event).2.2,
        (handleEvent σ.context p.event).1⟩ where
  running := hrunning
  enabled := ⟨Nat.one_le_ofNat, List.forall_mem_singleton.2 hp⟩
  handled := handleBatch_singleton σ.context
  kernel := rfl

/-- What arrives on the inbound socket of a target goes to its destination. -/
theorem LoopStep.exists_query {i : ℕ} {s : UdpForwardSession} {d : Datagram}
    (answer : Except Errno ℕ) {dest : SockAddr} (hal : Aligned targets σ.context σ.kernel)
    (hrunning : σ.outcome = .next) (hs : σ.context.sessions[i]? = some s)
    (hread : (d.reception s.inboundSocket).isSome)
    (hdest : toLinuxSocketAddress s.destinationAddress = some dest) :
    ∃ r σ', LoopStep σ r σ' ∧
      r.epollReturn = .ready [⟨s.inboundSocket, false, false, true, .ok d, answer⟩] ∧
      sentBy r.calls = [⟨s.outboundSocket, d.payload, dest⟩] := by
  obtain ⟨reception, hreception⟩ := Option.isSome_iff_exists.1 hread
  have hinterest : s.inboundSocket ∈ σ.kernel.interest :=
    (hal.interest _).2 (mem_descriptors.2 ⟨i, s, hs, s.inboundSocket_mem⟩)
  have hindex := (hal.index s.inboundSocket i).2 ⟨s, hs, s.inboundSocket_mem⟩
  have hhandled : handleDatagram σ.context s.inboundSocket d answer =
      forwardToDestination σ.context i s d.payload reception.source answer := by
    rw [handleDatagram_of_session hreception hindex hs, if_pos rfl]
  obtain ⟨-, hsent⟩ := forwardToDestination_eq σ.context i s d.payload reception.source answer
  rw [filterMap_encode_singleton, hdest, ← hhandled] at hsent
  exact ⟨_, _, LoopStep.single (p := ⟨s.inboundSocket, false, false, true, .ok d, answer⟩)
    hrunning hinterest, rfl, hsent⟩

end Serving

end UdpForward

namespace WgRelay

/-- The kernel grants the inbound socket and the epoll instance. -/
def SetupAnswers.Granted (a : SetupAnswers) : Prop :=
  ∃ inboundSocket epollHandle, a.socket = .ok inboundSocket ∧ a.bind = .ok () ∧
    a.epollCreate = .ok epollHandle ∧ a.epollAdd = .ok ()

/-- The kernel grants the socket `sock` to a new session. -/
structure Answers.Grant (a : Answers) (k : Kernel) (sock : SocketHandle) : Prop where
  socket : a.socket = .ok sock
  fresh : k.Fresh sock
  bind : a.bind = .ok ()
  getsockname : ∃ port, a.getsockname = .ok port
  epollAdd : a.epollAdd = .ok ()

/-- Every session has a client that can be answered. -/
def Answerable (context : WgcfRelayContext) : Prop :=
  ∀ sid session, context.sessions.lookup sid = some session →
    session.sourceAddress.isValid = true

section Serving

variable {inherited : Finset SocketHandle} {context : WgcfRelayContext} {sid : UInt64}
variable {fd sock : SocketHandle} {d : Datagram} {a : Answers} {s : LoopState} {k : Kernel}
variable {session : WgcfRelaySession} {source : INetSocketAddress} {acts : List Action}

/-- `SetupSockets` succeeds when the kernel grants both descriptors. -/
theorem setupSockets_granted {listenAddr : INetSocketAddress} (forwardAddr : INetSocketAddress)
    (hlisten : listenAddr.isValid = true) {b : SetupAnswers} (hb : b.Granted) :
    ∃ context calls, setupSockets {} listenAddr forwardAddr b = (.ok (), context, calls) ∧
      context.destinationAddress = forwardAddr := by
  obtain ⟨inboundSocket, epollHandle, hsocket, hbind, hcreate, hadd⟩ := hb
  rw [← isSome_toLinuxSocketAddress, Option.isSome_iff_exists] at hlisten
  obtain ⟨addr, haddr⟩ := hlisten
  rw [setupSockets, haddr, hsocket, hbind, hcreate, hadd]
  exact ⟨_, _, rfl, rfl⟩

/-! ### Sources -/

/-- A step makes an address the source of a session only if it has received a packet from it. -/
theorem SessionStep.isValid {l : Label} {o o' : Option WgcfRelaySession}
    (hstep : SessionStep context l sid o o')
    (hold : ∀ session, o = some session → session.sourceAddress.isValid = true) :
    ∀ session, o' = some session → session.sourceAddress.isValid = true := by
  have harrived : ∀ {fd d source}, arrival context sid fd d = some (.fromClient source) →
      source.isValid = true := fun harrival ↦
    isValid_of_toSocketAddress (arrival_eq_fromClient.1 harrival).2.1
  intro session' hs'
  cases hstep with
  | untouched => exact hold session' hs'
  | refused | stray | expired => exact absurd hs' (by simp)
  | created hevent harrival | fromClient hevent harrival =>
    obtain rfl := Option.some.inj hs'
    rw [forwardToServer_sourceAddress]
    exact harrived harrival
  | @fromServer _ _ _ session =>
    obtain rfl := Option.some.inj hs'
    rw [forwardToClient_sourceAddress]
    exact hold session rfl
  | @kept _ _ _ session =>
    obtain rfl := Option.some.inj hs'
    rw [reportDropped_sourceAddress]
    exact hold session rfl

theorem Answerable.run {σ₀ σ : RelayState} {h : List Label} (hstart : Answerable σ₀.context)
    (hrun : relay.Run σ₀ h σ) : Answerable σ.context :=
  hrun.invariant (I := fun σ ↦ Answerable σ.context)
    (fun _ _ _ hold hst sid ↦ (Step.session hst sid).isValid (hold sid)) hstart

/-! ### One datagram -/

/-- The calls of a packet that is passed on ask the kernel for nothing. -/
theorem WgcfRelaySession.Forwarding.grantsAll {dir : Direction} {packet : Packet}
    {dest : Option SockAddr} {unsent attempted : WgcfRelaySession}
    (h : Forwarding dir sock packet dest sid a unsent attempted session acts) (k : Kernel) :
    k.GrantsAll (calls acts) := by
  cases h with
  | unsent => exact trivial
  | failed => exact ⟨trivial, trivial⟩
  | sent => exact ⟨trivial, trivial, trivial⟩

/-- A session is created when the kernel grants its socket. -/
theorem createSession_granted (hgrant : a.Grant k sock) (context : WgcfRelayContext) (sid : UInt64)
    (reserved : UInt32) (source : INetSocketAddress) :
    ∃ family addr port, createSession context sid reserved source a =
      (some { context with
        sessions := tryEmplace context.sessions sid
          (newSession context sid reserved source sock (ntohs port) a.createdAt)
        fileDescriptorToSessionIdMap :=
          tryEmplace context.fileDescriptorToSessionIdMap sock sid },
      creationActions context.epollHandle family addr sid sock port a.createdAt) := by
  obtain ⟨port, hport⟩ := hgrant.getsockname
  rw [createSession, newOutboundUdpSocket, hgrant.socket, hgrant.bind, hport, hgrant.epollAdd]
  exact ⟨_, _, port, rfl⟩

theorem handleDatagram_of_fromClient
    (harrival : arrival context sid fd d = some (.fromClient source)) :
    handleDatagram context fd d a = handlePacketFromClient context d.payload sid source a := by
  obtain ⟨hlen, hsource, hfd, rfl, hsid⟩ := arrival_eq_fromClient.1 harrival
  rw [handleDatagram, if_neg (Nat.not_lt.2 hlen), hsource, Datagram.received_eq]
  dsimp only
  rw [if_pos hfd, if_neg hsid]

theorem handleDatagram_of_fromServer (harrival : arrival context sid fd d = some .fromServer) :
    handleDatagram context fd d a = handlePacketFromServer context d.payload sid a := by
  obtain ⟨hlen, hsource, hfd, hfdMap⟩ := arrival_eq_fromServer.1 harrival
  rw [handleDatagram, if_neg (Nat.not_lt.2 hlen), hsource, Datagram.received_eq]
  dsimp only
  rw [if_neg hfd, if_neg (not_not.2 rfl), hfdMap]

/-- One datagram can be handled in an iteration of its own. -/
theorem LoopStep.single (hrunning : s.returned = none) (hfd : fd ∈ s.kernel.interest)
    (hgrants : s.kernel.GrantsAll (calls (handleDatagram s.context fd d a).2)) :
    LoopStep s ⟨.ready (fd, .ok d, a) [], none,
        .call (.recvfrom fd (.ok d)) :: (handleDatagram s.context fd d a).2⟩
      ⟨(handleDatagram s.context fd d a).1, s.kernel.replay
        (calls (.call (.recvfrom fd (.ok d)) :: (handleDatagram s.context fd d a).2)), none⟩ where
  running := hrunning
  enabled := ⟨Nat.one_le_ofNat, List.forall_mem_singleton.2 hfd⟩
  handled := by
    show (_, _, .call (.recvfrom fd (.ok d)) :: (handleDatagram s.context fd d a).2 ++ []) = _
    rw [List.append_nil]
    rfl
  returned := rfl
  granted := ⟨trivial, hgrants⟩
  kernel := rfl

/-- A packet of a client goes to the server, from the socket of its session. The first packet needs
a socket for a new session. -/
theorem LoopStep.exists_fromClient {server : SockAddr}
    (hinv : TableInvariant inherited s.relayState) (hrunning : s.returned = none)
    (hread : (d.reception s.context.inboundSocket).isSome)
    (hsid : getSessionIdFromClientPacket d.payload ≠ 0)
    (hsession : getSessionIdFromClientPacket d.payload ∈ s.context.sessions ∨
      ∃ sock, a.Grant s.kernel sock)
    (hserver : toLinuxSocketAddress s.context.destinationAddress = some server) :
    ∃ r s' session, LoopStep s r s' ∧
      r.epollReturn = .ready (s.context.inboundSocket, .ok d, a) [] ∧
      s'.context.sessions.lookup (getSessionIdFromClientPacket d.payload) = some session ∧
      sends r.actions = [⟨session.outboundSocket, d.payload, server⟩] := by
  obtain ⟨reception, hreception⟩ := Option.isSome_iff_exists.1 hread
  obtain ⟨hlen, hsource, -⟩ := Datagram.reception_eq_some.1 hreception
  have hinbound := (hinv.interest s.context.inboundSocket).2 (.inl rfl)
  have harrival : arrival s.context (getSessionIdFromClientPacket d.payload)
      s.context.inboundSocket d = some (.fromClient reception.source) :=
    arrival_eq_fromClient.2 ⟨hlen, hsource, rfl, rfl, hsid⟩
  have hhandled := handleDatagram_of_fromClient (a := a) harrival
  -- whatever is done before, the packet is sent from the socket of the session
  suffices hpassed : ∃ session, s.kernel.GrantsAll
        (calls (handleDatagram s.context s.context.inboundSocket d a).2) ∧
      (handleDatagram s.context s.context.inboundSocket d a).1.sessions.lookup
        (getSessionIdFromClientPacket d.payload) = some session ∧
      sends (handleDatagram s.context s.context.inboundSocket d a).2 =
        [⟨session.outboundSocket, d.payload, server⟩] by
    obtain ⟨session, hgrants, hs', hsends⟩ := hpassed
    exact ⟨_, _, session, .single hrunning hinbound hgrants, rfl, hs', hsends⟩
  have hforward : ∀ (session : WgcfRelaySession) sid,
      sends (session.forwardToServer s.context.destinationAddress d.payload sid
        reception.source a).2 = [⟨(session.forwardToServer s.context.destinationAddress d.payload
          sid reception.source a).1.outboundSocket, d.payload, server⟩] := by
    intro session sid
    rw [sends_forwardToServer, hserver, (session.forwardToServer_same _ _ _ _ _).outboundSocket]
    rfl
  rw [hhandled, handlePacketFromClient]
  rcases hs : s.context.sessions.lookup (getSessionIdFromClientPacket d.payload) with - | session
  · obtain ⟨sock, hgrant⟩ := hsession.resolve_left (Finmap.lookup_eq_none.1 hs)
    obtain ⟨family, addr, port, hcreate⟩ := createSession_granted hgrant s.context
      (getSessionIdFromClientPacket d.payload) (typeAndReserved d.payload >>> 8) reception.source
    simp only [hcreate, tryEmplace_of_lookup_eq_none hs, forwardPacketFromClient,
      Finmap.lookup_insert]
    refine ⟨_, ?_, rfl, ?_⟩
    · rw [calls_append, Kernel.grantsAll_append]
      exact ⟨⟨hgrant.fresh, trivial, trivial, trivial, trivial, trivial⟩,
        (WgcfRelaySession.forwardToServer_forwarding ..).grantsAll _⟩
    · rw [sends_append, sends_creationActions, List.nil_append]
      exact hforward _ _
  · simp only [forwardPacketFromClient, hs, Finmap.lookup_insert]
    exact ⟨_, (session.forwardToServer_forwarding ..).grantsAll _, rfl, hforward _ _⟩

/-- A packet of the server goes to the client of the session whose socket it has come to. -/
theorem LoopStep.exists_fromServer {client : SockAddr}
    (hinv : TableInvariant inherited s.relayState) (hrunning : s.returned = none)
    (hs : s.context.sessions.lookup sid = some session) (hlen : d.addrLen ≤ sizeofSockaddrIn6)
    (hsource : toSocketAddress d.source = some s.context.destinationAddress)
    (hclient : toLinuxSocketAddress session.sourceAddress = some client) :
    ∃ r s', LoopStep s r s' ∧ r.epollReturn = .ready (session.outboundSocket, .ok d, a) [] ∧
      sends r.actions = [⟨s.context.inboundSocket, d.payload, client⟩] := by
  have hfdMap := hinv.fdMap_of_session hs
  have hmem : session.outboundSocket ∈ s.kernel.interest :=
    (hinv.interest _).2 (.inr (Finmap.mem_of_lookup_eq_some hfdMap))
  have harrival : arrival s.context sid session.outboundSocket d = some .fromServer :=
    arrival_eq_fromServer.2 ⟨hlen, hsource, hinv.outboundSocket_ne_inboundSocket hs, hfdMap⟩
  have hhandled := handleDatagram_of_fromServer (a := a) harrival
  have hacts : (handleDatagram s.context session.outboundSocket d a).2 =
      (session.forwardToClient s.context.inboundSocket d.payload sid a).2 := by
    rw [hhandled, handlePacketFromServer, hs]
  have hforward := session.forwardToClient_forwarding s.context.inboundSocket d.payload sid a
  refine ⟨_, _, .single hrunning hmem (hacts ▸ hforward.grantsAll _), rfl, ?_⟩
  rw [sends_recvfrom, hacts, hforward.sends, hclient]
  rfl

end Serving

end WgRelay

namespace Main

section Serving

variable {env : Environment} {argv0 path file : Bytes} {args : List Bytes} {a : FileAnswers}
variable {inherited : Finset SocketHandle} {ntop : InetNtop} {epoll : SocketHandle}
variable {targets : List UdpForward.UdpForwardTargetInfo}

/-- A process that is called with a file with the text of rules gets to the forwarder. -/
theorem exists_main_forwarding (argv0 : Bytes) (hasks : Asks args udpfwdName [path])
    (hfile : env.file path = some (file, a)) (hlength : file.length ≤ 2 ^ 20)
    (hread : ∃ content, readAtMostOrFail file (mb 1) a = some (.ok content))
    (hvalid : ∀ target ∈ targets, ∀ address ∈ target.addresses, address.isValid = true)
    (hwritable : ∀ target ∈ targets, ∀ address ∈ target.addresses,
      UdpForward.Writable env.pton ntop address)
    (htext : UdpForward.ConfigText ntop targets file) (hepoll : env.epollCreate = .ok epoll)
    (hanswers : ∀ i < targets.length, (env.targetAnswers i).Granted) :
    ∃ context done, (main env argv0 args).2 = some (.forwarding context done) ∧
      UdpForward.Sendable targets ∧
      UdpForward.setupSockets {} targets env.epollCreate env.targetAnswers =
        (.ok (), context, done) := by
  obtain ⟨content, hread⟩ := hread
  obtain rfl : content = file := by
    rw [readAtMostOrFail_eq_ok hread]
    exact List.take_of_length_le hlength
  have hparse : UdpForward.parseConfig env.pton content = .ok targets :=
    UdpForward.parseConfig_eq_ok_iff_lines.2 (htext.forall₂_segments hvalid hwritable)
  have hsockets : ∀ target ∈ targets,
      target.inbound.isValid = true ∧ target.outbound.isValid = true := fun target htarget ↦
    ⟨hvalid target htarget _ List.mem_cons_self,
      hvalid target htarget _ (List.mem_cons_of_mem _ List.mem_cons_self)⟩
  obtain ⟨context, done, hsetup⟩ := UdpForward.setupSockets_granted epoll hsockets hanswers
  rw [← hepoll] at hsetup
  have hmain : main env argv0 args =
      (decide (debugOption ∈ args), some (.forwarding context done)) :=
    (main_eq_iff (by simp)).2 ⟨rfl, _, .inl ⟨hasks, udpfwdRun_eq_forwarding_iff.2 ⟨path, rfl,
      runUdpForwarder_eq_running_iff.2 ⟨content, a, content, targets, hfile, hread, hparse,
        hsetup⟩⟩⟩⟩
  exact ⟨context, done, congrArg Prod.snd hmain, sendable_of_parseConfig hparse, hsetup⟩

/-- As long as the forwarder runs, it has a session for each target. -/
theorem aligned_of_run {context : UdpForward.UdpForwardContext} {done : List Syscall}
    {h : List ProcessLabel} {σ : UdpForward.ForwarderState}
    (hmain : (main env argv0 args).2 = some (.forwarding context done))
    (hsend : UdpForward.Sendable targets)
    (hstart : UdpForward.Started inherited targets
      ⟨context, (Kernel.mk inherited ∅).replay done, .next⟩)
    (hrun : (process env argv0 args inherited).Run .started h (.forwarding σ)) :
    UdpForward.Aligned targets σ.context σ.kernel := by
  cases phase_run hrun with
  | forwarding hmain' _ hworker =>
    rw [hmain, Option.some.injEq, Startup.forwarding.injEq] at hmain'
    obtain ⟨rfl, rfl⟩ := hmain'
    exact hworker.invariant (I := fun σ ↦ UdpForward.Aligned targets σ.context σ.kernel)
      (fun _ _ _ hal hst ↦ hal.loopStep hst hsend) hstart.aligned.1

/-- **Rules that are written are served.** Let the text of any rules with valid addresses be in a
file of at most a megabyte that can be read, and let the kernel grant an epoll instance and two
sockets for each rule. A process that is called with this file gets to the forwarder. There it has a
session for each rule, in order, and as long as it runs, it makes one `sendto` for whatever readable
datagram arrives on the inbound socket of a rule: on its outbound socket, for its destination, with
the datagram unchanged. What the kernel answers to the `sendto` is left open. -/
theorem process_serves_configuration (hasks : Asks args udpfwdName [path])
    (hfile : env.file path = some (file, a)) (hlength : file.length ≤ 2 ^ 20)
    (hread : ∃ content, readAtMostOrFail file (mb 1) a = some (.ok content))
    (hvalid : ∀ target ∈ targets, ∀ address ∈ target.addresses, address.isValid = true)
    (hwritable : ∀ target ∈ targets, ∀ address ∈ target.addresses,
      UdpForward.Writable env.pton ntop address)
    (htext : UdpForward.ConfigText ntop targets file) (hepoll : env.epollCreate = .ok epoll)
    (hanswers : ∀ i < targets.length, (env.targetAnswers i).Granted)
    (hgrants : (Kernel.mk inherited ∅).GrantsAll
      (UdpForward.setupSockets {} targets env.epollCreate env.targetAnswers).2.2) :
    (∃ l σ, (process env argv0 args inherited).Run .started [l] (.forwarding σ)) ∧
    ∀ h σ, (process env argv0 args inherited).Run .started h (.forwarding σ) →
      List.Forall₂ UdpForward.ForTarget targets σ.context.sessions ∧
      (σ.outcome = .next → ∀ (i : ℕ) target s, targets[i]? = some target →
        σ.context.sessions[i]? = some s →
        ∀ (d : Datagram) answer, (d.reception s.inboundSocket).isSome →
          ∃ r σ' dest, (process env argv0 args inherited).step (.forwarding σ) (.forward r)
              (.forwarding σ') ∧
            r.epollReturn = .ready [⟨s.inboundSocket, false, false, true, .ok d, answer⟩] ∧
            toLinuxSocketAddress target.destination = some dest ∧
            sentBy r.calls = [⟨s.outboundSocket, d.payload, dest⟩]) := by
  obtain ⟨context, done, hmain, hsend, hsetup⟩ :=
    exists_main_forwarding argv0 hasks hfile hlength hread hvalid hwritable htext hepoll hanswers
  rw [hsetup] at hgrants
  refine ⟨⟨_, _, .single (ProcessStep.startup hmain hgrants)⟩, ?_⟩
  intro h σ hrun
  have hal := aligned_of_run hmain hsend
    ⟨env.epollCreate, env.targetAnswers, done, hsetup, hgrants, rfl, rfl⟩ hrun
  refine ⟨hal.sessions, fun hrunning i target s htarget hs d answer hreadable ↦ ?_⟩
  have hdest : (toLinuxSocketAddress target.destination).isSome := by
    rw [isSome_toLinuxSocketAddress]
    exact hsend target (List.mem_of_getElem? htarget)
  obtain ⟨dest, hdest⟩ := Option.isSome_iff_exists.1 hdest
  obtain ⟨r, σ', hst, hreturn, hsent⟩ := UdpForward.LoopStep.exists_query answer hal hrunning hs
    hreadable ((hal.forTarget htarget hs).destination ▸ hdest)
  exact ⟨r, σ', dest, ProcessStep.forward hst, hreturn, hdest, hsent⟩

/-- A process that is called with two addresses gets to the relay. -/
theorem exists_main_relaying (argv0 : Bytes) {listen forward : Bytes}
    {listenAddress forwardAddress : INetSocketAddress}
    (hasks : Asks args wgcfrelayName [listen, forward])
    (hlisten : WgRelay.parseSocketAddress env.pton (.ofString listen) = some listenAddress)
    (hforward : WgRelay.parseSocketAddress env.pton (.ofString forward) = some forwardAddress)
    (hanswers : env.relayAnswers.Granted) :
    ∃ context done, (main env argv0 args).2 = some (.relaying context done) ∧
      context.destinationAddress = forwardAddress ∧
      WgRelay.setupSockets {} listenAddress forwardAddress env.relayAnswers =
        (.ok (), context, done) := by
  obtain ⟨-, -, -, -, -, hvalid, -⟩ := WgRelay.parseSocketAddress_eq_some_iff.1 hlisten
  obtain ⟨context, done, hsetup, hdestination⟩ :=
    WgRelay.setupSockets_granted forwardAddress hvalid hanswers
  have hmain : main env argv0 args =
      (decide (debugOption ∈ args), some (.relaying context done)) :=
    (main_eq_iff (by simp)).2 ⟨rfl, _, .inr ⟨hasks, wgcfrelayRun_eq_relaying_iff.2
      ⟨listen, forward, rfl, WgRelay.runWgcfRelay_eq_running_iff.2
        ⟨_, _, hlisten, hforward, hsetup⟩⟩⟩⟩
  exact ⟨context, done, congrArg Prod.snd hmain, hdestination, hsetup⟩

/-- As long as the relay runs, its tables agree, its clients can be answered and its server is the
one that it has been started with. -/
theorem answerable_of_run {context : WgRelay.WgcfRelayContext} {done : List Syscall}
    {h : List ProcessLabel} {s : WgRelay.LoopState}
    (hmain : (main env argv0 args).2 = some (.relaying context done))
    (hgrants : (Kernel.mk inherited ∅).GrantsAll done)
    (hrun : (process env argv0 args inherited).Run .started h (.relaying s)) :
    WgRelay.TableInvariant inherited s.relayState ∧ WgRelay.Answerable s.context ∧
      s.context.destinationAddress = context.destinationAddress := by
  have hstart := started_of_main_relaying hmain hgrants
  cases phase_run hrun with
  | relaying hmain' _ hworker =>
    rw [hmain, Option.some.injEq, Startup.relaying.injEq] at hmain'
    obtain ⟨rfl, rfl⟩ := hmain'
    obtain ⟨hs, _, -, hr, hinv, rfl⟩ :=
      (WgRelay.batches inherited).run ⟨.started hstart, rfl⟩ hworker
    have hempty : WgRelay.Answerable context := by
      intro sid session hs
      rw [show context.sessions = ∅ from hstart.spec.1, Finmap.lookup_empty] at hs
      exact absurd hs (by simp)
    exact ⟨hinv, hempty.run (σ := s.relayState) hr, (WgRelay.fixed_run hr).2⟩

/-- **Two addresses on the command line are served.** Let both be accepted, and let the kernel grant
the inbound socket and an epoll instance. A process that is called with them gets to the relay. As
long as it runs there, it makes one `sendto` for whatever readable packet with a session id arrives
on the inbound socket, with the packet unchanged, for the second address, on the socket of its
session, if there is one or the kernel grants a socket for it; and one for whatever comes from the
second address to the socket of a session, with the packet unchanged, on the inbound socket for the
source of the session. What the kernel answers to the `sendto` is left open. -/
theorem process_serves_command_line {listen forward : Bytes}
    {listenAddress forwardAddress : INetSocketAddress}
    (hasks : Asks args wgcfrelayName [listen, forward])
    (hlisten : WgRelay.parseSocketAddress env.pton (.ofString listen) = some listenAddress)
    (hforward : WgRelay.parseSocketAddress env.pton (.ofString forward) = some forwardAddress)
    (hanswers : env.relayAnswers.Granted)
    (hgrants : (Kernel.mk inherited ∅).GrantsAll
      (WgRelay.setupSockets {} listenAddress forwardAddress env.relayAnswers).2.2) :
    (∃ l s, (process env argv0 args inherited).Run .started [l] (.relaying s)) ∧
    ∃ server, toLinuxSocketAddress forwardAddress = some server ∧
    ∀ h s, (process env argv0 args inherited).Run .started h (.relaying s) → s.returned = none →
      (∀ d a, (d.reception s.context.inboundSocket).isSome →
        WgRelay.getSessionIdFromClientPacket d.payload ≠ 0 →
        (WgRelay.getSessionIdFromClientPacket d.payload ∈ s.context.sessions ∨
          ∃ sock, a.Grant s.kernel sock) →
        ∃ r s' session, (process env argv0 args inherited).step (.relaying s) (.relay r)
            (.relaying s') ∧
          r.epollReturn = .ready (s.context.inboundSocket, .ok d, a) [] ∧
          s'.context.sessions.lookup (WgRelay.getSessionIdFromClientPacket d.payload) =
            some session ∧
          WgRelay.sends r.actions = [⟨session.outboundSocket, d.payload, server⟩]) ∧
      ∀ sid session, s.context.sessions.lookup sid = some session →
        ∀ (d : Datagram) a, d.addrLen ≤ sizeofSockaddrIn6 →
        toSocketAddress d.source = some forwardAddress →
        ∃ r s' client, (process env argv0 args inherited).step (.relaying s) (.relay r)
            (.relaying s') ∧
          r.epollReturn = .ready (session.outboundSocket, .ok d, a) [] ∧
          toLinuxSocketAddress session.sourceAddress = some client ∧
          WgRelay.sends r.actions = [⟨s.context.inboundSocket, d.payload, client⟩] := by
  obtain ⟨context, done, hmain, hdestination, hsetup⟩ :=
    exists_main_relaying argv0 hasks hlisten hforward hanswers
  rw [hsetup] at hgrants
  refine ⟨⟨_, _, .single (ProcessStep.startup hmain hgrants)⟩, ?_⟩
  obtain ⟨server, hserver⟩ : ∃ server, toLinuxSocketAddress forwardAddress = some server := by
    rw [← Option.isSome_iff_exists, isSome_toLinuxSocketAddress]
    obtain ⟨-, -, -, -, -, hvalid, -⟩ := WgRelay.parseSocketAddress_eq_some_iff.1 hforward
    exact hvalid
  refine ⟨server, hserver, fun h s hrun hrunning ↦ ?_⟩
  obtain ⟨hinv, hanswerable, hfixed⟩ := answerable_of_run hmain hgrants hrun
  rw [hdestination] at hfixed
  rw [← hfixed] at hserver
  refine ⟨fun d a hread hsid hsession ↦ ?_, fun sid session hs d a hlen hsource ↦ ?_⟩
  · obtain ⟨r, s', session, hst, hreturn, hs', hsends⟩ :=
      WgRelay.LoopStep.exists_fromClient hinv hrunning hread hsid hsession hserver
    exact ⟨r, s', session, ProcessStep.relay hst, hreturn, hs', hsends⟩
  · obtain ⟨client, hclient⟩ : ∃ client,
        toLinuxSocketAddress session.sourceAddress = some client := by
      rw [← Option.isSome_iff_exists, isSome_toLinuxSocketAddress]
      exact hanswerable sid session hs
    obtain ⟨r, s', hst, hreturn, hsends⟩ := WgRelay.LoopStep.exists_fromServer (a := a) hinv
      hrunning hs hlen (hfixed ▸ hsource) hclient
    exact ⟨r, s', client, ProcessStep.relay hst, hreturn, hclient, hsends⟩

end Serving

/-- A datagram for the second rule of the sample file is served. -/
theorem sampleText_served :
    ∃ r σ' dest, (process sampleEnvironment [] sampleArgs {0, 1, 2}).step
        (.forwarding UdpForward.sampleStart) (.forward r) (.forwarding σ') ∧
      r.epollReturn = .ready [⟨6, false, false, true, .ok WgRelay.sampleDatagram, .ok 32⟩] ∧
      toLinuxSocketAddress ⟨.ipv4 #v[192, 0, 2, 1], 123⟩ = some dest ∧
      sentBy r.calls = [⟨7, WgRelay.sampleDatagram.payload, dest⟩] := by
  have hread : readAtMostOrFail UdpForward.sampleText (mb 1)
      (readable [.upTo 60, .upTo 60, .upTo 0]) = some (.ok UdpForward.sampleText) := by decide
  have hvalid : ∀ target ∈ UdpForward.sampleTargets, ∀ address ∈ target.addresses,
      address.isValid = true := by decide
  have hgrants : (Kernel.mk {0, 1, 2} ∅).GrantsAll (UdpForward.setupSockets {}
      UdpForward.sampleTargets (.ok 3) UdpForward.sampleSetup).2.2 := by decide
  have hasks : Asks sampleArgs udpfwdName [samplePath] := ⟨_, rfl, rfl⟩
  have hfile : sampleEnvironment.file samplePath =
      some (UdpForward.sampleText, readable [.upTo 60, .upTo 60, .upTo 0]) := rfl
  have hanswers : ∀ i < UdpForward.sampleTargets.length,
      (sampleEnvironment.targetAnswers i).Granted := fun i _ ↦ ⟨4 + 2 * i, 5 + 2 * i, rfl⟩
  have hserved := @process_serves_configuration sampleEnvironment []
  obtain ⟨-, hsessions⟩ := hserved hasks hfile (by decide) ⟨_, hread⟩ hvalid
    UdpForward.sampleTargets_writable UdpForward.sampleText_configText rfl hanswers hgrants
  have hrun : (process sampleEnvironment [] sampleArgs {0, 1, 2}).Run .started
      [.startup sampleStartup] (.forwarding UdpForward.sampleStart) :=
    .single (ProcessStep.startup rfl hgrants)
  exact (hsessions _ _ hrun).2 rfl 1 _ _ rfl rfl WgRelay.sampleDatagram (.ok 32) (by decide)

/-- A second packet of the client of the sample relay is served. -/
theorem sampleRelayArgs_served :
    ∃ server, toLinuxSocketAddress WgRelay.sampleServer = some server ∧
      ∃ r s' session, (process sampleEnvironment [] sampleRelayArgs {0, 1, 2}).step
          (.relaying (WgRelay.sampleLive 1000).looping) (.relay r) (.relaying s') ∧
        r.epollReturn = .ready (3, .ok WgRelay.sampleDatagram, WgRelay.sampleAnswers 1001) [] ∧
        s'.context.sessions.lookup WgRelay.sampleSid = some session ∧
        WgRelay.sends r.actions =
          [⟨session.outboundSocket, WgRelay.sampleDatagram.payload, server⟩] := by
  have hasks : Asks sampleRelayArgs wgcfrelayName
      [UdpForward.ascii "[::]:2408", UdpForward.ascii "162.159.192.1:2408"] := ⟨_, rfl, rfl⟩
  have hlisten : WgRelay.parseSocketAddress sampleEnvironment.pton
      (.ofString (UdpForward.ascii "[::]:2408")) = some ⟨INetAddress.ipv6Any, 2408⟩ := rfl
  have hforward : WgRelay.parseSocketAddress sampleEnvironment.pton
      (.ofString (UdpForward.ascii "162.159.192.1:2408")) = some WgRelay.sampleServer := rfl
  have hgrants : (Kernel.mk {0, 1, 2} ∅).GrantsAll (WgRelay.setupSockets {}
      ⟨INetAddress.ipv6Any, 2408⟩ WgRelay.sampleServer sampleEnvironment.relayAnswers).2.2 := by
    decide
  have hserved := @process_serves_command_line sampleEnvironment []
  obtain ⟨-, server, hserver, hpackets⟩ := hserved hasks hlisten hforward
    ⟨3, 4, rfl, rfl, rfl, rfl⟩ hgrants
  exact ⟨server, hserver, (hpackets _ _ sampleRelay_run rfl).1 WgRelay.sampleDatagram
    (WgRelay.sampleAnswers 1001) (by decide) (by decide) (.inl (by decide))⟩

end Main
