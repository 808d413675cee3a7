import Udpfwd.Relay.SessionStep

/-!
# Where the relay sends a datagram

Every `sendto` of the relay passes on the one datagram that the step has received. A packet of
a client leaves from the socket of its session, which is keyed by the reserved bytes of the
packet (`RoutesExactly.keyed`), and a packet of the server goes to the address that the client
of the session was last seen at. What that address is, is read off the history
(`latestSource`), and `latestSource_eq` is the invariant that connects it with the table.
-/

open Net

namespace WgRelay

/-! ### What is sent -/

/-- The calls of `sendto` among the actions. -/
def sends (acts : List Action) : List Sent := sentBy (calls acts)

section Sends

variable {acts acts' : List Action}

@[simp]
theorem sends_append : sends (acts ++ acts') = sends acts ++ sends acts' := by
  simp [sends]

@[simp]
theorem sends_recvfrom {fd : SocketHandle} {r : Except Errno Datagram} :
    sends (.call (.recvfrom fd r) :: acts) = sends acts := rfl

/-- A packet is sent once, if there is an address to send it to. -/
theorem WgcfRelaySession.Forwarding.sends {dir : Direction} {sock : SocketHandle}
    {packet : Packet} {dest : Option SockAddr} {sid : UInt64} {a : Answers}
    {unsent attempted s : WgcfRelaySession}
    (h : Forwarding dir sock packet dest sid a unsent attempted s acts) :
    WgRelay.sends acts = dest.toList.map (⟨sock, packet, ·⟩) := by
  cases h with
  | unsent hdest | failed hdest | sent hdest =>
    rw [hdest]
    rfl

/-- A packet of a client leaves from the socket of its session. -/
theorem sends_forwardToServer (s : WgcfRelaySession) (destination source : INetSocketAddress)
    (packet : Packet) (sid : UInt64) (a : Answers) :
    sends (s.forwardToServer destination packet sid source a).2 =
      (toLinuxSocketAddress destination).toList.map (⟨s.outboundSocket, packet, ·⟩) :=
  (s.forwardToServer_forwarding destination source packet sid a).sends

/-- A packet of a client is not sent, or leaves from the socket that its session has then. -/
theorem WgcfRelaySession.sends_forwardToServer_cases (s : WgcfRelaySession)
    (destination source : INetSocketAddress) (packet : Packet) (sid : UInt64) (a : Answers) :
    sends (s.forwardToServer destination packet sid source a).2 = [] ∨
      ∃ dest, toLinuxSocketAddress destination = some dest ∧
        sends (s.forwardToServer destination packet sid source a).2 =
          [⟨(s.forwardToServer destination packet sid source a).1.outboundSocket, packet,
            dest⟩] := by
  rw [sends_forwardToServer, (s.forwardToServer_same _ _ _ _ _).outboundSocket]
  rcases toLinuxSocketAddress destination with - | dest
  · exact .inl rfl
  · exact .inr ⟨dest, rfl, rfl⟩

/-- A packet of the server leaves from the inbound socket, for the address of the client. -/
theorem sends_forwardToClient (s : WgcfRelaySession) (inbound : SocketHandle) (packet : Packet)
    (sid : UInt64) (a : Answers) :
    sends (s.forwardToClient inbound packet sid a).2 =
      (toLinuxSocketAddress s.sourceAddress).toList.map (⟨inbound, packet, ·⟩) :=
  (s.forwardToClient_forwarding inbound packet sid a).sends

theorem FailedCreation.sends_eq_nil {epoll : SocketHandle} {a : Answers}
    (h : FailedCreation epoll a acts) :
    sends acts = [] := by
  cases h <;> rfl

theorem sends_creationActions {epoll sock : SocketHandle} {family : UInt16} {addr : SockAddr}
    {sid now : UInt64} {port : UInt16} :
    sends (creationActions epoll family addr sid sock port now) = [] := rfl

/-- The sweep sends nothing. -/
theorem sends_sweepActions (now : UInt64) (epollDel : SocketHandle → Except Errno Unit)
    (context : WgcfRelayContext) (order : List UInt64) :
    sends (order.flatMap (sweepActions now epollDel context)) = [] := by
  rw [sends, sentBy, List.filterMap_eq_nil_iff]
  intro c hc
  rcases eq_of_mem_calls_sweepActions hc with ⟨fd, r, rfl⟩ | ⟨fd, rfl⟩ <;> rfl

end Sends

/-! ### Where a client was last seen -/

/-- The source of a valid packet of the client `sid`. -/
def Event.clientSource (inbound : SocketHandle) (sid : UInt64) :
    Event → Option INetSocketAddress
  | .received fd (.ok d) _ =>
    if d.addrLen ≤ sizeofSockaddrIn6 ∧ fd = inbound ∧
        getSessionIdFromClientPacket d.payload = sid ∧ sid ≠ 0 then toSocketAddress d.source
    else none
  | _ => none

/-- The source of the latest valid packet of the client `sid`. -/
def latestSource (inbound : SocketHandle) (sid : UInt64) (h : List Label) :
    Option INetSocketAddress :=
  (h.filterMap (·.event.clientSource inbound sid)).getLast?

section LatestSource

variable {σ₀ σ σ' : RelayState} {h : List Label} {l : Label} {sid : UInt64}
variable {inbound : SocketHandle} {source : INetSocketAddress} {context : WgcfRelayContext}

theorem clientSource_eq_some {e : Event} :
    e.clientSource context.inboundSocket sid = some source ↔
      e.arrival context sid = some (.fromClient source) := by
  rcases e with _ | ⟨fd, _ | d, a⟩
  · simp [Event.clientSource, Event.arrival]
  · simp [Event.clientSource, Event.arrival]
  · show (if _ then _ else _) = some source ↔ arrival context sid fd d = some (.fromClient source)
    rw [arrival_eq_fromClient, Option.ite_none_right_eq_some]
    tauto

theorem latestSource_of_some (hl : l.event.clientSource inbound sid = some source) :
    latestSource inbound sid (h ++ [l]) = some source := by
  simp [latestSource, hl]

theorem latestSource_of_none (hl : l.event.clientSource inbound sid = none) :
    latestSource inbound sid (h ++ [l]) = latestSource inbound sid h := by
  simp [latestSource, hl]

theorem clientSource_eq_none {e : Event}
    (he : ∀ source, e.arrival context sid ≠ some (.fromClient source)) :
    e.clientSource context.inboundSocket sid = none := by
  rw [Option.eq_none_iff_forall_ne_some]
  exact fun source hsource ↦ he source (clientSource_eq_some.1 hsource)

theorem WgcfRelaySession.Forwarding.sourceAddress {dir : Direction} {sock : SocketHandle}
    {packet : Packet} {dest : Option SockAddr} {a : Answers} {acts : List Action}
    {unsent attempted s : WgcfRelaySession}
    (h : Forwarding dir sock packet dest sid a unsent attempted s acts)
    (hunsent : unsent.sourceAddress = source) (hattempted : attempted.sourceAddress = source) :
    s.sourceAddress = source :=
  h.preserves (P := (·.sourceAddress = source)) hunsent hattempted
    (by cases dir <;> exact hattempted) (fun _ ↦ by cases dir <;> exact hattempted)

theorem forwardToServer_sourceAddress (s : WgcfRelaySession)
    (destination source : INetSocketAddress) (packet : Packet) (sid : UInt64) (a : Answers) :
    (s.forwardToServer destination packet sid source a).1.sourceAddress = source :=
  (s.forwardToServer_forwarding destination source packet sid a).sourceAddress rfl rfl

theorem forwardToClient_sourceAddress (s : WgcfRelaySession) (inbound : SocketHandle)
    (packet : Packet) (sid : UInt64) (a : Answers) :
    (s.forwardToClient inbound packet sid a).1.sourceAddress = s.sourceAddress :=
  (s.forwardToClient_forwarding inbound packet sid a).sourceAddress rfl rfl

theorem reportDropped_sourceAddress (s : WgcfRelaySession) :
    s.reportDropped.sourceAddress = s.sourceAddress := by
  rw [WgcfRelaySession.reportDropped]
  split <;> rfl

/-- What a step makes of the address of a session is the source of its client's packet, if it
has received one. -/
theorem SessionStep.latestSource {o : Option WgcfRelaySession} {s' : WgcfRelaySession}
    (hstep : SessionStep context l sid o (some s'))
    (hold : ∀ s, o = some s →
      WgRelay.latestSource context.inboundSocket sid h = some s.sourceAddress) :
    WgRelay.latestSource context.inboundSocket sid (h ++ [l]) = some s'.sourceAddress := by
  cases hstep with
  | untouched harrival =>
    rw [latestSource_of_none (clientSource_eq_none fun _ ↦ by rw [harrival]; nofun)]
    exact hold s' rfl
  | created hevent harrival | fromClient hevent harrival =>
    rw [forwardToServer_sourceAddress]
    exact latestSource_of_some (clientSource_eq_some.2 (by rw [hevent]; exact harrival))
  | @fromServer fd d a s hevent harrival =>
    have hother : ∀ source, l.event.arrival context sid ≠ some (.fromClient source) := by
      intro source heq
      rw [hevent] at heq
      exact absurd (harrival.symm.trans heq) (by simp)
    rw [forwardToClient_sourceAddress, latestSource_of_none (clientSource_eq_none hother)]
    exact hold s rfl
  | @kept now order epollDel s hevent =>
    have hother : ∀ source, l.event.arrival context sid ≠ some (.fromClient source) := by
      rw [hevent]
      nofun
    rw [reportDropped_sourceAddress, latestSource_of_none (clientSource_eq_none hother)]
    exact hold s rfl

/-- The relay keeps its inbound socket and its server. -/
theorem fixed_run (hrun : relay.Run σ₀ h σ) :
    σ.context.inboundSocket = σ₀.context.inboundSocket ∧
      σ.context.destinationAddress = σ₀.context.destinationAddress := by
  induction hrun with
  | nil => exact ⟨rfl, rfl⟩
  | snoc _ hst ih =>
    obtain ⟨hinbound, -, hdestination, -⟩ := Step.fixed hst
    exact ⟨hinbound.trans ih.1, hdestination.trans ih.2⟩

/-- **A session keeps the address that its client was last seen at**, along every run. -/
theorem latestSource_eq {inherited : Finset SocketHandle} (hstart : Started inherited σ₀)
    (hrun : relay.Run σ₀ h σ) {s : WgcfRelaySession}
    (hs : σ.context.sessions.lookup sid = some s) :
    WgRelay.latestSource σ₀.context.inboundSocket sid h = some s.sourceAddress := by
  induction hrun generalizing s with
  | nil =>
    rw [hstart.spec.1] at hs
    exact absurd hs (by simp)
  | snoc hrun hst ih =>
    have hstep := Step.session hst sid
    rw [hs] at hstep
    rw [← (fixed_run hrun).1] at ih ⊢
    exact hstep.latestSource fun s hs ↦ ih hs

end LatestSource

/-! ### Routing -/

/-- The step `l` has received `d` on `fd` and passes it on with the one call `send`. -/
structure Passes (l : Label) (fd : SocketHandle) (d : Datagram) (send : Sent) : Prop where
  received : ∃ a, l.event = .received fd (.ok d) a
  sends : sends l.actions = [send]
  payload : send.payload = d.payload

/-- A datagram of a client, passed on to the server by a step that ends in `σ'`. -/
structure ToServer (context : WgcfRelayContext) (fd : SocketHandle) (d : Datagram)
    (σ' : RelayState) (send : Sent) : Prop where
  received : fd = context.inboundSocket
  length : 32 ≤ d.payload.length
  reserved : reservedBytes d.payload ≠ (0, 0, 0)
  socket_ne : send.socket ≠ context.inboundSocket
  target : toLinuxSocketAddress context.destinationAddress = some send.target
  /-- It leaves from the socket of the session that its reserved bytes select. -/
  socket : ∃ s, σ'.context.sessions.lookup (getSessionIdFromClientPacket d.payload) = some s ∧
    s.outboundSocket = send.socket

/-- A datagram of the server, passed on to a client by a step that starts in `σ` after the
history `h`. -/
structure ToClient (context : WgcfRelayContext) (h : List Label) (σ : RelayState)
    (fd : SocketHandle) (d : Datagram) (send : Sent) : Prop where
  source : toSocketAddress d.source = some context.destinationAddress
  socket : send.socket = context.inboundSocket
  /-- It has arrived on the socket of a live session and goes to the address that the client
  of this session was last seen at; this is the peer that a datagram from there came from, up to
  the scope of an IPv6 address. -/
  target : ∃ sid s source, σ.context.sessions.lookup sid = some s ∧ s.outboundSocket = fd ∧
    latestSource context.inboundSocket sid h = some source ∧
      toLinuxSocketAddress source = some send.target ∧
        ∀ sa, toSocketAddress sa = some source → send.target.peer = { sa.peer with scopeId := 0 }

/-- The relay routes exactly, in a run with the history `h` from `σ₀`. -/
structure RoutesExactly (σ₀ : RelayState) (h : List Label) : Prop where
  /-- A step sends nothing, or passes on the datagram that it has received. -/
  caused : ∀ {past σ l σ'}, relay.StepIn σ₀ h past σ l σ' →
    sends l.actions = [] ∨ ∃ fd d send, Passes l fd d send ∧
      (ToServer σ₀.context fd d σ' send ∨ ToClient σ₀.context past σ fd d send)
  /-- As long as the session of the first of two packets of clients has not expired, they
  leave from the same socket if and only if they have the same reserved bytes. -/
  keyed : ∀ {past l mid τ l' τ'}, relay.StepIn σ₀ h (past ++ l :: mid) τ l' τ' →
    ∀ {fd fd' d d' send send'}, Passes l fd d send → Passes l' fd' d' send' →
      send.socket ≠ σ₀.context.inboundSocket → send'.socket ≠ σ₀.context.inboundSocket →
      (∀ m ∈ mid, .log (.expired (getSessionIdFromClientPacket d.payload)) ∉ m.actions) →
      (send.socket = send'.socket ↔ reservedBytes d.payload = reservedBytes d'.payload)

section Routing

variable {inherited : Finset SocketHandle} {σ₀ σ σ' : RelayState} {h past : List Label}
variable {l : Label} {sid : UInt64} {s : WgcfRelaySession}

/-- What a step of the relay sends. -/
theorem Step.sends_cases (hst : Step σ l σ') :
    sends l.actions = [] ∨ ∃ fd d a sid dest, l.event = .received fd (.ok d) a ∧
      ((∃ source s, arrival σ.context sid fd d = some (.fromClient source) ∧
          σ'.context.sessions.lookup sid = some s ∧
          toLinuxSocketAddress σ.context.destinationAddress = some dest ∧
          sends l.actions = [⟨s.outboundSocket, d.payload, dest⟩]) ∨
        (∃ s, arrival σ.context sid fd d = some .fromServer ∧
          σ.context.sessions.lookup sid = some s ∧
          toLinuxSocketAddress s.sourceAddress = some dest ∧
          sends l.actions = [⟨σ.context.inboundSocket, d.payload, dest⟩])) := by
  rcases hl : l.event with ⟨now, order, epollDel⟩ | ⟨fd, e | d, a⟩
  · obtain ⟨-, -, -, hacts⟩ := hst.sweep hl
    rw [hacts]
    exact .inl (sends_sweepActions now epollDel σ.context order)
  · obtain ⟨-, hacts, -⟩ := hst.noDatagram hl
    rw [hacts]
    exact .inl rfl
  · obtain ⟨-, acts, hacts, heffect⟩ := hst.datagram hl
    rw [hacts, sends_recvfrom]
    generalize σ'.context = context' at heffect ⊢
    cases heffect with
    | ignored | unknownSocketHandle | unknownSessionId => exact .inl rfl
    | notCreated _ _ hfail => exact .inl hfail.sends_eq_nil
    | @fromClient source sid s harrival hs =>
      refine (s.sends_forwardToServer_cases _ _ _ _ _).imp_right fun ⟨dest, hdest, hsends⟩ ↦ ?_
      exact ⟨fd, d, a, sid, dest, rfl, .inl ⟨source, _, harrival, Finmap.lookup_insert _, hdest,
        hsends⟩⟩
    | @created source sid family addr sock port s harrival hs hcreates hnew =>
      rw [sends_append, sends_creationActions, List.nil_append]
      refine (s.sends_forwardToServer_cases _ _ _ _ _).imp_right fun ⟨dest, hdest, hsends⟩ ↦ ?_
      exact ⟨fd, d, a, sid, dest, rfl, .inl ⟨source, _, harrival, Finmap.lookup_insert _, hdest,
        hsends⟩⟩
    | @fromServer sid s harrival hs =>
      rw [sends_forwardToClient]
      rcases hdest : toLinuxSocketAddress s.sourceAddress with - | dest
      · exact .inl rfl
      · exact .inr ⟨fd, d, a, sid, dest, rfl, .inr ⟨s, harrival, hs, hdest, rfl⟩⟩

/-- **Every `sendto` has a cause**: the datagram that the step has received. -/
theorem sends_caused (hstart : Started inherited σ₀) (hpast : relay.Run σ₀ past σ)
    (hst : relay.step σ l σ') : sends l.actions = [] ∨ ∃ fd d send, Passes l fd d send ∧
      (ToServer σ₀.context fd d σ' send ∨ ToClient σ₀.context past σ fd d send) := by
  obtain ⟨hinbound, hdestination⟩ := fixed_run hpast
  rcases Step.sends_cases hst with hnil | ⟨fd, d, a, sid, dest, hl, hcases⟩
  · exact .inl hnil
  refine .inr ⟨fd, d, ?_⟩
  rcases hcases with ⟨source, s, harrival, hs, hdest, hsends⟩ | ⟨s, harrival, hs, hdest, hsends⟩
  · obtain ⟨-, -, hfd, rfl, hne⟩ := arrival_eq_fromClient.1 harrival
    obtain ⟨hlength, hreserved⟩ := getSessionIdFromClientPacket_ne_zero_iff.1 hne
    have hinv := TableInvariant.run hstart (hpast.snoc hst)
    have hsocket : s.outboundSocket ≠ σ₀.context.inboundSocket := by
      rw [← (fixed_run (hpast.snoc hst)).1]
      exact hinv.outboundSocket_ne_inboundSocket hs
    exact ⟨_, ⟨⟨a, hl⟩, hsends, rfl⟩, .inl ⟨hfd.trans hinbound, hlength,
      hreserved, hsocket, hdestination ▸ hdest, s, hs, rfl⟩⟩
  · obtain ⟨-, hsource, -, hfdMap⟩ := arrival_eq_fromServer.1 harrival
    obtain ⟨s', hs', hsock⟩ := (TableInvariant.run hstart hpast).session_of_fdMap hfdMap
    obtain rfl : s = s' := Option.some.inj (hs.symm.trans hs')
    exact ⟨_, ⟨⟨a, hl⟩, hsends, rfl⟩, .inr ⟨hdestination ▸ hsource, hinbound,
      sid, s, _, hs, hsock, latestSource_eq hstart hpast hs, hdest,
      fun _ hsa ↦ peer_eq_of_kept hsa hdest⟩⟩

/-- A session that does not expire keeps its socket. -/
theorem socket_stable (hrun : relay.Run σ h σ') (hs : σ.context.sessions.lookup sid = some s)
    (hlive : ∀ m ∈ h, .log (.expired sid) ∉ m.actions) :
    ∃ s', σ'.context.sessions.lookup sid = some s' ∧ s.SameSession s' := by
  induction hrun with
  | nil => exact ⟨s, hs, .refl s⟩
  | @snoc h τ τ' l hrun hst ih =>
    obtain ⟨s', hs', hsame⟩ := ih fun m hm ↦ hlive m (List.mem_append_left _ hm)
    have hstep := Step.session hst sid
    rw [hs'] at hstep
    rcases hs'' : τ'.context.sessions.lookup sid with - | s''
    · rw [hs''] at hstep
      cases hstep with
      | expired _ _ hlog => exact absurd hlog (hlive l (by simp))
    · rw [hs''] at hstep
      exact ⟨s'', rfl, hsame.trans hstep.same⟩

/-- A packet of a client, sent on from some other socket than the inbound one, goes to the
server. -/
theorem Passes.toServer {fd : SocketHandle} {d : Datagram} {send : Sent}
    (hstart : Started inherited σ₀) (hpast : relay.Run σ₀ past σ) (hst : relay.step σ l σ')
    (hpass : Passes l fd d send) (hsocket : send.socket ≠ σ₀.context.inboundSocket) :
    ToServer σ₀.context fd d σ' send := by
  rcases sends_caused hstart hpast hst with hnil | ⟨fd', d', send', hpass', hroute⟩
  · rw [hpass.sends] at hnil
    exact absurd hnil (by simp)
  obtain ⟨a, hl⟩ := hpass.received
  obtain ⟨a', hl'⟩ := hpass'.received
  rw [hl] at hl'
  cases hl'
  obtain rfl : send = send' := List.head_eq_of_cons_eq (hpass.sends.symm.trans hpass'.sends)
  exact hroute.resolve_right fun hclient ↦ hsocket hclient.socket

/-- **The relay routes exactly**, in every run. -/
theorem relay_routes_exactly (hstart : Started inherited σ₀) (h : List Label) :
    RoutesExactly σ₀ h := by
  refine ⟨fun hin ↦ sends_caused hstart hin.past_run hin.step, ?_⟩
  intro past l mid τ l' τ' hin fd fd' d d' send send' hpass hpass' hsocket hsocket' hlive
  obtain ⟨ρ, hpast, hlater⟩ := hin.past_run.split
  obtain ⟨ρ', hst, hmid⟩ := hlater.exists_of_cons
  have hfirst := hpass.toServer hstart hpast hst hsocket
  have hsecond := hpass'.toServer hstart hin.past_run hin.step hsocket'
  obtain ⟨s, hs, hsock⟩ := hfirst.socket
  obtain ⟨s', hs', hsock'⟩ := hsecond.socket
  -- the session of the first packet is still there after the second one
  obtain ⟨s₁, hs₁, hsame₁⟩ := socket_stable hmid hs hlive
  obtain ⟨s₂, hs₂, hsame₂⟩ : ∃ s₂, τ'.context.sessions.lookup
      (getSessionIdFromClientPacket d.payload) = some s₂ ∧ s₁.SameSession s₂ := by
    have hstep := Step.session hin.step (getSessionIdFromClientPacket d.payload)
    rw [hs₁] at hstep
    rcases hs₂ : τ'.context.sessions.lookup (getSessionIdFromClientPacket d.payload) with - | s₂
    · rw [hs₂] at hstep
      obtain ⟨now, order, epollDel, hsweep, -⟩ := hstep.sweep_of_none
      obtain ⟨a, hl'⟩ := hpass'.received
      rw [hl'] at hsweep
      exact absurd hsweep (by simp)
    · rw [hs₂] at hstep
      exact ⟨s₂, rfl, hstep.same⟩
  have hkey : s₂.outboundSocket = send.socket := by
    rw [hsame₂.outboundSocket, hsame₁.outboundSocket, hsock]
  have hinv := TableInvariant.run hstart hin.run
  rw [← hkey, ← hsock', ← getSessionIdFromClientPacket_eq_iff
    (getSessionIdFromClientPacket_ne_zero_iff.2 ⟨hfirst.length, hfirst.reserved⟩)
    (getSessionIdFromClientPacket_ne_zero_iff.2 ⟨hsecond.length, hsecond.reserved⟩)]
  constructor
  · exact fun heq ↦ hinv.sid_eq_of_outboundSocket_eq hs₂ hs' heq
  · intro heq
    rw [heq, hs'] at hs₂
    rw [Option.some.inj hs₂]

end Routing

/-- Two clients send a packet each, and the server answers the first of them. -/
def twoClients : List Label × RelayState :=
  (execs sampleStart
    [sampleArrival 1000, otherArrival 1001,
      .received 5 (.ok serverDatagram) (sampleAnswers 1002)]).get (by decide)

/-- Each packet leaves from the socket of its client, and the answer goes to the client on whose
socket it has arrived. -/
theorem twoClients_route_exactly :
    relay.Run sampleStart twoClients.1 twoClients.2 ∧
      (twoClients.1.map fun l ↦ sends l.actions) =
        [[⟨5, sampleDatagram.payload, sampleServerAddress⟩],
          [⟨6, otherDatagram.payload, sampleServerAddress⟩],
          [⟨3, serverDatagram.payload, sampleDatagram.source⟩]] ∧
      RoutesExactly sampleStart twoClients.1 :=
  ⟨execs_get_run _, by decide, relay_routes_exactly sampleStart_started _⟩

end WgRelay
