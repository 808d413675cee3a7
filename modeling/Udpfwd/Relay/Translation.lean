import Udpfwd.Relay.Routing
import Udpfwd.Transition.Simulation
import Udpfwd.Translation.Datagrams

/-!
# The relay translates addresses

The relay is an address translator with one channel for every session: the channel is keyed by
the session id, its inner socket is the inbound socket, its outer socket is the one that the
session has opened, and it faces the server of the relay. Every step of the relay is matched by
what the translator does with the same datagram (`translates`), so what holds of every run of
the translator holds of the relay: replies reach the client that asked, and packets are passed
on unchanged, in order and once.
-/

open Net

namespace WgRelay

/-- What happens at the translator. -/
abbrev TranslatorEvent := Translation.Event UInt64 SocketHandle INetSocketAddress Packet

/-- The channel that a packet of a client belongs to. -/
def sessionKey (_ : SocketHandle) (packet : Packet) : Option UInt64 :=
  if getSessionIdFromClientPacket packet = 0 then none
  else some (getSessionIdFromClientPacket packet)

theorem sessionKey_eq_some {fd : SocketHandle} {packet : Packet} {sid : UInt64} :
    sessionKey fd packet = some sid ↔ getSessionIdFromClientPacket packet = sid ∧ sid ≠ 0 := by
  rw [sessionKey, Option.ite_none_left_eq_some, Option.some.injEq]
  constructor
  · rintro ⟨hne, rfl⟩
    exact ⟨rfl, hne⟩
  · rintro ⟨rfl, hne⟩
    exact ⟨hne, rfl⟩

/-- The channel of a session. -/
def WgcfRelaySession.binding (context : WgcfRelayContext) (s : WgcfRelaySession) :
    Translation.Binding SocketHandle INetSocketAddress :=
  ⟨context.inboundSocket, s.outboundSocket, context.destinationAddress, some s.sourceAddress⟩

/-- The channels that are open. -/
def WgcfRelayContext.channels (context : WgcfRelayContext) :
    Translation.Table UInt64 SocketHandle INetSocketAddress :=
  fun sid ↦ (context.sessions.lookup sid).map (·.binding context)

/-- What a step receives, when the source can be read. -/
def Label.receptions (l : Label) :
    List (Translation.Reception SocketHandle INetSocketAddress Packet) :=
  match l.event with
  | .received fd (.ok d) _ => (d.reception fd).toList
  | _ => []

/-- What the translator does to match a step. -/
structure Translates (inbound : SocketHandle) (l : Label) (es : List TranslatorEvent) : Prop where
  received : es.flatMap (·.received) = l.receptions
  sent : (es.flatMap (·.sent)).filterMap encode = sends l.actions
  /-- A channel is opened when a session is created, and closed when it expires. -/
  opened : ∀ sid, (∃ inner outer server, .opened sid inner outer server ∈ es) ↔
    ∃ now, .log (.created sid now) ∈ l.actions
  closed : ∀ sid, .closed sid ∈ es ↔ .log (.expired sid) ∈ l.actions
  /-- Those who ask are the clients. -/
  asked : ∀ sid r s, .up sid r s ∈ es → l.event.clientSource inbound sid = some r.source
  answered : ∀ sid r s, .down sid r (some s) ∈ es → s.socket = inbound
  /-- A sweep receives nothing. -/
  swept : ∀ sid, .closed sid ∈ es → l.receptions = []

section Channels

variable {context : WgcfRelayContext} {sid : UInt64} {s : WgcfRelaySession}
variable {b : Translation.Binding SocketHandle INetSocketAddress}

theorem channels_eq_some :
    context.channels sid = some b ↔
      ∃ s, context.sessions.lookup sid = some s ∧ s.binding context = b :=
  Option.map_eq_some_iff

theorem channels_of_lookup (hs : context.sessions.lookup sid = some s) :
    context.channels sid = some (s.binding context) :=
  channels_eq_some.2 ⟨s, hs, rfl⟩

theorem channels_of_none (hs : context.sessions.lookup sid = none) :
    context.channels sid = none := by
  rw [WgcfRelayContext.channels, hs, Option.map_none]

/-- A session that is entered is a channel that is opened. -/
theorem channels_insert (fdMap : Finmap fun _ : SocketHandle ↦ UInt64) :
    WgcfRelayContext.channels { context with
      sessions := context.sessions.insert sid s, fileDescriptorToSessionIdMap := fdMap } =
      Function.update context.channels sid (some (s.binding context)) := by
  funext sid'
  rcases eq_or_ne sid' sid with rfl | hne
  · rw [Function.update_self, WgcfRelayContext.channels, Finmap.lookup_insert]
    rfl
  · rw [Function.update_of_ne hne, WgcfRelayContext.channels, Finmap.lookup_insert_of_ne _ hne]
    rfl

/-- A packet of a client: somebody asks on the channel. -/
theorem forwardToServer_binding (s : WgcfRelaySession) (destination source : INetSocketAddress)
    (packet : Packet) (sid : UInt64) (a : Answers) :
    (s.forwardToServer destination packet sid source a).1.binding context =
      { s.binding context with peer := some source } := by
  rw [WgcfRelaySession.binding, (s.forwardToServer_same _ _ _ _ _).outboundSocket,
    forwardToServer_sourceAddress]
  rfl

/-- A packet of the server leaves the channel as it is. -/
theorem forwardToClient_binding (s : WgcfRelaySession) (inbound : SocketHandle)
    (packet : Packet) (sid : UInt64) (a : Answers) :
    (s.forwardToClient inbound packet sid a).1.binding context = s.binding context := by
  rw [WgcfRelaySession.binding, (s.forwardToClient_same _ _ _ _).outboundSocket,
    forwardToClient_sourceAddress]
  rfl

/-- The outbound sockets of the sessions are separated. -/
theorem TableInvariant.separated {inherited : Finset SocketHandle} {k : Kernel}
    (hinv : TableInvariant inherited ⟨context, k⟩) : Translation.Separated context.channels := by
  constructor
  · intro sid sid' b b' hb hb' houter
    obtain ⟨s, hs, rfl⟩ := channels_eq_some.1 hb
    obtain ⟨s', hs', rfl⟩ := channels_eq_some.1 hb'
    exact hinv.sid_eq_of_outboundSocket_eq hs hs' houter
  · intro sid sid' b b' hb hb'
    obtain ⟨s, hs, rfl⟩ := channels_eq_some.1 hb
    obtain ⟨s', hs', rfl⟩ := channels_eq_some.1 hb'
    exact hinv.outboundSocket_ne_inboundSocket hs

end Channels

/-! ### Every step is matched -/

/-- Closing channels one after the other. -/
theorem run_closed {sids : List UInt64} (hnodup : sids.Nodup)
    {T : Translation.Table UInt64 SocketHandle INetSocketAddress}
    (hopen : ∀ sid ∈ sids, T sid ≠ none) :
    (Translation.translator sessionKey).Run T (sids.map .closed)
      fun sid ↦ if sid ∈ sids then none else T sid := by
  induction sids generalizing T with
  | nil =>
    simp only [List.not_mem_nil, if_false]
    exact .nil
  | cons sid sids ih =>
    obtain ⟨hsid, hnodup'⟩ := List.nodup_cons.1 hnodup
    obtain ⟨b, hb⟩ := Option.ne_none_iff_exists'.1 (hopen sid List.mem_cons_self)
    have hrest : ∀ sid' ∈ sids, Function.update T sid none sid' ≠ none := by
      intro sid' hmem
      have hne : sid' ≠ sid := fun heq ↦ hsid (heq ▸ hmem)
      rw [Function.update_of_ne hne]
      exact hopen sid' (List.mem_cons_of_mem _ hmem)
    have hlast : (fun sid' ↦ if sid' ∈ sids then none else Function.update T sid none sid') =
        fun sid' ↦ if sid' ∈ sid :: sids then none else T sid' := by
      funext sid'
      rcases eq_or_ne sid' sid with rfl | hne <;> simp [*]
    rw [← hlast]
    exact (ih hnodup' hrest).cons (Translation.Step.closed hb)

/-- The sessions among `order` that a sweep removes. -/
def WgcfRelayContext.expiredIds (context : WgcfRelayContext) (now : UInt64)
    (order : List UInt64) : List UInt64 :=
  order.filter fun sid ↦ (context.sessions.lookup sid).any (·.expired now)

theorem mem_expiredIds {context : WgcfRelayContext} {now sid : UInt64} {order : List UInt64} :
    sid ∈ context.expiredIds now order ↔
      sid ∈ order ∧ ∃ s, context.sessions.lookup sid = some s ∧ s.expired now = true := by
  rw [WgcfRelayContext.expiredIds, List.mem_filter]
  rcases context.sessions.lookup sid with - | s <;> simp

/-- Forwarding logs no creation and no expiry. -/
theorem WgcfRelaySession.Forwarding.eq_of_mem_log {dir : Direction} {sock : SocketHandle}
    {packet : Packet} {dest : Option SockAddr} {sid : UInt64} {a : Answers}
    {unsent attempted s : WgcfRelaySession} {acts : List Action} {m : LogMessage}
    (h : Forwarding dir sock packet dest sid a unsent attempted s acts) (hm : .log m ∈ acts) :
    m = .forwarded sid dir a.sentAt := by
  cases h with
  | unsent => exact absurd hm List.not_mem_nil
  | failed => exact absurd hm (by simp)
  | sent => simpa using hm

/-- No session is created and none expires. -/
def NoTurn (acts : List Action) : Prop :=
  ∀ sid, (∀ now, .log (.created sid now) ∉ acts) ∧ .log (.expired sid) ∉ acts

theorem WgcfRelaySession.Forwarding.noTurn {dir : Direction} {sock : SocketHandle}
    {packet : Packet} {dest : Option SockAddr} {sid : UInt64} {a : Answers}
    {unsent attempted s : WgcfRelaySession} {acts : List Action}
    (h : Forwarding dir sock packet dest sid a unsent attempted s acts) : NoTurn acts :=
  fun _ ↦ ⟨fun _ hm ↦ absurd (h.eq_of_mem_log hm) (by simp),
    fun hm ↦ absurd (h.eq_of_mem_log hm) (by simp)⟩

theorem FailedCreation.noTurn {epoll : SocketHandle} {a : Answers} {acts : List Action}
    (h : FailedCreation epoll a acts) : NoTurn acts := by
  intro sid
  cases h <;> simp

section Steps

variable {inherited : Finset SocketHandle} {σ σ' : RelayState} {l : Label}

/-- A sweep is matched by the closing of the channels of the expired sessions. -/
private theorem Step.translates_sweep {now : UInt64} {order : List UInt64}
    {epollDel : SocketHandle → Except Errno Unit} (hst : Step σ l σ')
    (hl : l.event = .idleSweep now order epollDel) :
    ∃ es, Translates σ.context.inboundSocket l es ∧
      (Translation.translator sessionKey).Run σ.context.channels es σ'.context.channels := by
  obtain ⟨hnodup, horder, hswept, hacts⟩ := hst.sweep hl
  have hlog : ∀ m, .log m ∈ l.actions ↔
      ∃ sid ∈ σ.context.expiredIds now order, m = .expired sid := by
    intro m
    rw [hacts, List.mem_cons, mem_sweepActions]
    simp only [reduceCtorEq, false_or, mem_expiredIds]
    exact exists_congr fun sid ↦ by tauto
  refine ⟨(σ.context.expiredIds now order).map .closed, ?_, ?_⟩
  · constructor
    · simp [List.flatMap_map, Translation.Event.received, Label.receptions, hl]
    · rw [hacts, show ∀ acts, sends (.call (.clockGettime now) :: acts) = sends acts from
        fun _ ↦ rfl, sends_sweepActions]
      simp [List.flatMap_map, Translation.Event.sent]
    · intro sid
      simp [hlog]
    · intro sid
      simp [hlog]
    · simp
    · simp
    · simp [Label.receptions, hl]
  · have hgone : (σ.context.expiredIds now order).Nodup := hnodup.filter _
    have hrun := run_closed (T := σ.context.channels) hgone fun sid hmem ↦ by
      obtain ⟨-, s, hs, -⟩ := mem_expiredIds.1 hmem
      rw [channels_of_lookup hs]
      exact Option.some_ne_none _
    refine (congrArg ((Translation.translator sessionKey).Run _ _) ?_).mp hrun
    funext sid
    show _ = (σ'.context.sessions.lookup sid).map _
    rw [hswept.sessions]
    rcases hs : σ.context.sessions.lookup sid with - | s
    · simp [channels_of_none hs]
    · have hmem : sid ∈ order := (horder sid).2 (Finmap.mem_of_lookup_eq_some hs)
      rcases hexp : s.expired now
      · have hkept : sid ∉ σ.context.expiredIds now order := by
          intro hgone
          obtain ⟨-, s', hs', hexp'⟩ := mem_expiredIds.1 hgone
          obtain rfl := Option.some.inj (hs.symm.trans hs')
          rw [hexp] at hexp'
          exact absurd hexp' (by simp)
        rw [if_neg hkept, channels_of_lookup hs]
        simp [hmem, hexp, WgcfRelaySession.swept, WgcfRelaySession.binding,
          s.reportDropped_same.outboundSocket, reportDropped_sourceAddress,
          hswept.inboundSocket, hswept.destinationAddress]
      · rw [if_pos (mem_expiredIds.2 ⟨hmem, s, hs, hexp⟩)]
        simp [hmem, hexp, WgcfRelaySession.swept]

/-- A datagram that is for no open channel is ignored by the translator. -/
theorem TableInvariant.ignored_step (hinv : TableInvariant inherited σ) {fd : SocketHandle}
    {d : Datagram} {r : Translation.Reception SocketHandle INetSocketAddress Packet}
    (hr : d.reception fd = some r)
    (harrival : ∀ sid s, σ.context.sessions.lookup sid = some s →
      arrival σ.context sid fd d = none) :
    (Translation.translator sessionKey).step σ.context.channels (.ignored r)
      σ.context.channels := by
  obtain ⟨hlen, hsource, hsocket, hpacket⟩ := Datagram.reception_eq_some.1 hr
  refine .ignored (fun sid b hkey hb hinner ↦ ?_) fun sid b hb houter hserver ↦ ?_
  · obtain ⟨s, hs, rfl⟩ := channels_eq_some.1 hb
    rw [sessionKey_eq_some, hpacket] at hkey
    have hclient : arrival σ.context sid fd d = some (.fromClient r.source) :=
      arrival_eq_fromClient.2 ⟨hlen, hsource, hsocket.symm.trans hinner, hkey⟩
    rw [harrival sid s hs] at hclient
    exact absurd hclient (by simp)
  · obtain ⟨s, hs, rfl⟩ := channels_eq_some.1 hb
    have hfd : fd = s.outboundSocket := hsocket.symm.trans houter
    have hserver' : arrival σ.context sid fd d = some .fromServer := by
      refine arrival_eq_fromServer.2 ⟨hlen, hsource.trans (congrArg some hserver), ?_, ?_⟩
      · rw [hfd]
        exact hinv.outboundSocket_ne_inboundSocket hs
      · rw [hfd]
        exact hinv.fdMap_of_session hs
    rw [harrival sid s hs] at hserver'
    exact absurd hserver' (by simp)

/-- A step that logs no change of a session is matched by one event of the translator. -/
private theorem Translates.single {inbound : SocketHandle} {e : TranslatorEvent}
    (hreceived : e.received = l.receptions) (hsent : e.sent.filterMap encode = sends l.actions)
    (hlog : NoTurn l.actions)
    (hasked : ∀ sid r s, e = .up sid r s → l.event.clientSource inbound sid = some r.source)
    (hanswered : ∀ sid r s, e = .down sid r (some s) → s.socket = inbound)
    (hreception : e.received ≠ []) : Translates inbound l [e] := by
  have hopened : ∀ sid inner outer server, e ≠ .opened sid inner outer server := by
    rintro sid inner outer server rfl
    exact hreception rfl
  have hclosed : ∀ sid, e ≠ .closed sid := by
    rintro sid rfl
    exact hreception rfl
  constructor
  · rwa [List.flatMap_singleton]
  · rwa [List.flatMap_singleton]
  · intro sid
    simp only [List.mem_singleton]
    exact ⟨fun ⟨_, _, _, h⟩ ↦ absurd h.symm (hopened _ _ _ _),
      fun ⟨now, h⟩ ↦ absurd h ((hlog sid).1 now)⟩
  · intro sid
    rw [List.mem_singleton]
    exact ⟨fun h ↦ absurd h.symm (hclosed sid), fun h ↦ absurd h (hlog sid).2⟩
  · intro sid r s h
    exact hasked sid r s (List.mem_singleton.1 h).symm
  · intro sid r s h
    exact hanswered sid r s (List.mem_singleton.1 h).symm
  · intro sid h
    exact absurd (List.mem_singleton.1 h).symm (hclosed sid)

/-- A step that receives a datagram and then takes the actions `acts`. -/
structure Label.Receives (l : Label) (fd : SocketHandle) (d : Datagram) (acts : List Action) :
    Prop where
  receptions : l.receptions = (d.reception fd).toList
  sends : sends l.actions = sends acts
  logs : ∀ m, .log m ∈ l.actions ↔ .log m ∈ acts

section Datagrams

variable {fd sock : SocketHandle} {d : Datagram} {a : Answers} {acts : List Action}
variable {r : Translation.Reception SocketHandle INetSocketAddress Packet} {sid : UInt64}
variable {source destination : INetSocketAddress} {s unsent attempted : WgcfRelaySession}

theorem Label.receives_of_actions (hl : l.event = .received fd (.ok d) a)
    (hacts : l.actions = .call (.recvfrom fd (.ok d)) :: acts) : l.Receives fd d acts where
  receptions := by rw [Label.receptions, hl]
  sends := by rw [hacts, sends_recvfrom]
  logs := fun m ↦ by
    rw [hacts, List.mem_cons]
    simp

namespace Label.Receives

theorem noTurn (h : l.Receives fd d acts) (hturn : NoTurn acts) : NoTurn l.actions := by
  intro sid
  simp only [h.logs]
  exact hturn sid

/-- A datagram whose source cannot be read is not seen by the translator. -/
theorem translates_unread (h : l.Receives fd d acts) {inbound : SocketHandle}
    (hr : d.reception fd = none) (hsends : WgRelay.sends acts = []) (hturn : NoTurn acts) :
    Translates inbound l [] where
  received := by
    rw [h.receptions, hr]
    rfl
  sent := by
    rw [h.sends, hsends]
    rfl
  opened := fun sid ↦ ⟨fun ⟨_, _, _, hmem⟩ ↦ absurd hmem List.not_mem_nil,
    fun ⟨now, hm⟩ ↦ absurd hm ((h.noTurn hturn sid).1 now)⟩
  closed := fun sid ↦ iff_of_false List.not_mem_nil (h.noTurn hturn sid).2
  asked := by simp
  answered := by simp
  swept := by simp

/-- A datagram that the relay drops is one that the translator ignores. -/
theorem translates_ignored (h : l.Receives fd d acts) {inbound : SocketHandle}
    (hr : d.reception fd = some r) (hsends : WgRelay.sends acts = []) (hturn : NoTurn acts) :
    Translates inbound l [.ignored r] := by
  refine .single ?_ ?_ (h.noTurn hturn) (by simp) (by simp) (List.cons_ne_nil _ _)
  · rw [h.receptions, hr]
    rfl
  · rw [h.sends, hsends]
    rfl

/-- A packet of a client that is passed on. -/
theorem translates_up (h : l.Receives fd d acts) {inbound : SocketHandle}
    (hr : d.reception fd = some r)
    (hforward : WgcfRelaySession.Forwarding .toServer sock r.packet
      (toLinuxSocketAddress destination) sid a unsent attempted s acts)
    (hasked : l.event.clientSource inbound sid = some r.source) :
    Translates inbound l [.up sid r ⟨sock, r.packet, destination⟩] := by
  refine .single ?_ ?_ (h.noTurn hforward.noTurn) ?_ (by simp) (List.cons_ne_nil _ _)
  · rw [h.receptions, hr]
    rfl
  · rw [h.sends, hforward.sends]
    exact filterMap_encode_singleton _
  · intro sid' r' s' heq
    obtain ⟨rfl, rfl, -⟩ := (Translation.Event.up.injEq ..).mp heq
    exact hasked

/-- A packet of the server that is passed on. -/
theorem translates_down (h : l.Receives fd d acts) {inbound : SocketHandle}
    (hr : d.reception fd = some r)
    (hforward : WgcfRelaySession.Forwarding .toClient inbound r.packet
      (toLinuxSocketAddress source) sid a unsent attempted s acts) :
    Translates inbound l [.down sid r (some ⟨inbound, r.packet, source⟩)] := by
  refine .single ?_ ?_ (h.noTurn hforward.noTurn) (by simp) ?_ (List.cons_ne_nil _ _)
  · rw [h.receptions, hr]
    rfl
  · rw [h.sends, hforward.sends]
    exact filterMap_encode_singleton _
  · intro sid' r' s' heq
    obtain ⟨-, -, hs'⟩ := (Translation.Event.down.injEq ..).mp heq
    rw [← Option.some.inj hs']

/-- The first packet of a client: a channel is opened, and the packet is passed on. -/
theorem translates_opened {epoll : SocketHandle} {family port : UInt16} {addr : SockAddr}
    {inbound : SocketHandle} {forwarded : List Action}
    (h : l.Receives fd d (creationActions epoll family addr sid sock port a.createdAt ++ forwarded))
    (hr : d.reception fd = some r)
    (hforward : WgcfRelaySession.Forwarding .toServer sock r.packet
      (toLinuxSocketAddress destination) sid a unsent attempted s forwarded)
    (hasked : l.event.clientSource inbound sid = some r.source) :
    Translates inbound l [.opened sid inbound sock destination,
      .up sid r ⟨sock, r.packet, destination⟩] := by
  have hlog : ∀ m, .log m ∈ l.actions ↔ m = .created sid a.createdAt ∨ .log m ∈ forwarded := by
    intro m
    simp [h.logs, creationActions]
  constructor
  · rw [h.receptions, hr]
    rfl
  · rw [h.sends, sends_append, sends_creationActions, List.nil_append, hforward.sends]
    exact filterMap_encode_singleton _
  · intro sid'
    simp only [hlog, (hforward.noTurn sid').1]
    simp [eq_comm]
  · intro sid'
    simp only [hlog, (hforward.noTurn sid').2]
    simp
  · rintro sid' r' s' hmem
    obtain ⟨rfl, rfl, -⟩ : sid' = sid ∧ r' = r ∧ _ := by simpa using hmem
    exact hasked
  · simp
  · simp

end Label.Receives

/-- The translator opens a channel with a socket that was not open, and the client asks on it. -/
theorem TableInvariant.run_opened (hinv : TableInvariant inherited σ)
    (hs : σ.context.sessions.lookup sid = none) (hfresh : sock ∉ σ.kernel.openFds)
    (hkey : sessionKey r.socket r.packet = some sid)
    (hinbound : r.socket = σ.context.inboundSocket) :
    (Translation.translator sessionKey).Run σ.context.channels
      [.opened sid σ.context.inboundSocket sock destination,
        .up sid r ⟨sock, r.packet, destination⟩]
      (Function.update σ.context.channels sid
        (some ⟨σ.context.inboundSocket, sock, destination, some r.source⟩)) := by
  have hne : sock ≠ σ.context.inboundSocket := fun heq ↦ hfresh (heq ▸ hinv.inboundSocket_mem)
  have hbefore : ∀ sid' b, σ.context.channels sid' = some b → b.outer ≠ sock ∧
      sock ≠ b.inner ∧ b.outer ≠ σ.context.inboundSocket := by
    intro sid' b hb
    obtain ⟨s', hs', rfl⟩ := channels_eq_some.1 hb
    exact ⟨fun heq ↦ hfresh (heq ▸ hinv.outboundSocket_mem hs'), hne,
      hinv.outboundSocket_ne_inboundSocket hs'⟩
  have hopened : (Translation.translator sessionKey).step σ.context.channels
      (.opened sid σ.context.inboundSocket sock destination) _ :=
    Translation.Step.opened (channels_of_none hs) hne hbefore
  have hasked : (Translation.translator sessionKey).step (Function.update σ.context.channels
      sid (some ⟨σ.context.inboundSocket, sock, destination, none⟩))
      (.up sid r ⟨sock, r.packet, destination⟩) _ :=
    Translation.Step.up hkey (Function.update_self ..) hinbound
  rw [Function.update_idem] at hasked
  exact (LTS.Run.single hasked).cons hopened

/-- A datagram is matched by what the translator does with it. -/
private theorem Step.translates_datagram (hst : Step σ l σ') (hinv : TableInvariant inherited σ)
    (hl : l.event = .received fd (.ok d) a) :
    ∃ es, Translates σ.context.inboundSocket l es ∧
      (Translation.translator sessionKey).Run σ.context.channels es σ'.context.channels := by
  obtain ⟨hfd, acts, hacts, heffect⟩ := hst.datagram hl
  have hreceives := Label.receives_of_actions hl hacts
  generalize σ'.context = context' at heffect ⊢
  cases heffect with
  | ignored harrival =>
    have hturn : NoTurn [] := fun _ ↦ ⟨fun _ ↦ List.not_mem_nil, List.not_mem_nil⟩
    rcases hr : d.reception fd with - | r
    · exact ⟨[], hreceives.translates_unread hr rfl hturn, .nil⟩
    · exact ⟨[.ignored r], hreceives.translates_ignored hr rfl hturn,
        .single (hinv.ignored_step hr fun sid _ _ ↦ harrival sid)⟩
  | unknownSocketHandle _ hne hnone =>
    have hmem := ((hinv.interest fd).1 hfd).resolve_left hne
    exact absurd hmem (Finmap.lookup_eq_none.1 hnone)
  | unknownSessionId harrival hnone =>
    obtain ⟨s, hs, -⟩ := hinv.session_of_fdMap (arrival_eq_fromServer.1 harrival).2.2.2
    rw [hs] at hnone
    exact absurd hnone (by simp)
  | @notCreated source sid acts harrival hs hfail =>
    obtain ⟨hlen, hsource, -⟩ := arrival_eq_fromClient.1 harrival
    have hr := Datagram.reception_of_source fd hlen hsource
    refine ⟨_, hreceives.translates_ignored hr hfail.sends_eq_nil hfail.noTurn,
      .single (hinv.ignored_step hr fun sid' s' hs' ↦ arrival_eq_none_of_ne harrival ?_)⟩
    rintro rfl
    rw [hs] at hs'
    exact absurd hs' (by simp)
  | @fromClient source sid s harrival hs =>
    obtain ⟨hlen, hsource, hinbound, hsid⟩ := arrival_eq_fromClient.1 harrival
    refine ⟨_, hreceives.translates_up (Datagram.reception_of_source fd hlen hsource)
      (s.forwardToServer_forwarding σ.context.destinationAddress source d.payload sid a)
      (clientSource_eq_some.2 (by rw [hl]; exact harrival)), .single ?_⟩
    rw [channels_insert, forwardToServer_binding]
    exact .up (sessionKey_eq_some.2 hsid) (channels_of_lookup hs) hinbound
  | @created source sid family addr sock port s harrival hs hcreates hnew =>
    obtain ⟨hlen, hsource, hinbound, hsid⟩ := arrival_eq_fromClient.1 harrival
    have hforward := s.forwardToServer_forwarding σ.context.destinationAddress source d.payload
      sid a
    rw [show s.outboundSocket = sock by rw [hnew]; rfl] at hforward
    refine ⟨_, hreceives.translates_opened (Datagram.reception_of_source fd hlen hsource) hforward
      (clientSource_eq_some.2 (by rw [hl]; exact harrival)), ?_⟩
    -- the kernel gives the session a descriptor that is not open
    have hfresh : sock ∉ σ.kernel.openFds := by
      have hgrants := hst.granted
      rw [hacts, calls_cons_call, Kernel.grantsAll_cons, calls_append,
        Kernel.grantsAll_append] at hgrants
      obtain ⟨-, hfresh, -, -⟩ := creationActions_kernel σ.context.epollHandle sock family addr
        sid port a.createdAt σ.kernel
      exact (hfresh hgrants.2.1).2
    rw [channels_insert, forwardToServer_binding, hnew]
    exact hinv.run_opened hs hfresh (sessionKey_eq_some.2 hsid) hinbound
  | @fromServer sid s harrival hs =>
    obtain ⟨hlen, hsource, hne, hfdMap⟩ := arrival_eq_fromServer.1 harrival
    obtain ⟨s', hs', hsock⟩ := hinv.session_of_fdMap hfdMap
    obtain rfl := Option.some.inj (hs.symm.trans hs')
    refine ⟨_, hreceives.translates_down (Datagram.reception_of_source fd hlen hsource)
      (s.forwardToClient_forwarding σ.context.inboundSocket d.payload sid a), .single ?_⟩
    rw [channels_insert, forwardToClient_binding,
      Function.update_eq_self_iff.2 (channels_of_lookup hs).symm]
    exact .down (channels_of_lookup hs) hsock.symm rfl

end Datagrams

/-- **The relay refines the translator.** Every step of the relay is matched by what the
translator does with the same datagram. -/
theorem translates (inherited : Finset SocketHandle) (inbound : SocketHandle) :
    LTS.Simulation relay (Translation.translator sessionKey)
      (fun σ T ↦ TableInvariant inherited σ ∧ σ.context.inboundSocket = inbound ∧
        T = σ.context.channels) (Translates inbound) where
  step := by
    rintro σ _ l σ' ⟨hinv, rfl, rfl⟩ hst
    have hinv' := (hinv.step hst).1
    have hinbound := (Step.fixed hst).1
    rcases hl : l.event with ⟨now, order, epollDel⟩ | ⟨fd, e | d, a⟩
    · obtain ⟨es, hmatch, hrun⟩ := Step.translates_sweep hst hl
      exact ⟨es, _, hmatch, hrun, hinv', hinbound, rfl⟩
    · obtain ⟨-, hacts, hcontext⟩ := Step.noDatagram hst hl
      refine ⟨[], _, ⟨?_, ?_, ?_, ?_, by simp, by simp, by simp⟩, .nil, hinv', hinbound,
        by rw [hcontext]⟩
      · rw [Label.receptions, hl]
        rfl
      · rw [hacts]
        rfl
      · simp [hacts]
      · simp [hacts]
    · obtain ⟨es, hmatch, hrun⟩ := Step.translates_datagram hst hinv hl
      exact ⟨es, _, hmatch, hrun, hinv', hinbound, rfl⟩

/-- A relay that starts has no channel. -/
theorem Started.channels (hstart : Started inherited σ) :
    σ.context.channels = fun _ ↦ none := by
  funext sid
  exact channels_of_none (by rw [hstart.spec.1, Finmap.lookup_empty])

end Steps

/-! ### Whole runs -/

section Runs

variable {inherited : Finset SocketHandle} {σ₀ σ σ' : RelayState} {h past later : List Label}
variable {l l' : Label}

/-- **The relay is an address translator**, in every run: its sessions are the channels of a
translator that has received the same datagrams, that has opened and closed channels when the
relay has created and expired sessions, and that has sent the same datagrams. -/
theorem relay_refines_translator (hstart : Started inherited σ₀) (hrun : relay.Run σ₀ h σ) :
    ∃ ess : List (List TranslatorEvent),
      List.Forall₂ (Translates σ₀.context.inboundSocket) h ess ∧
        (Translation.translator sessionKey).Run (fun _ ↦ none) ess.flatten σ.context.channels := by
  obtain ⟨ess, T, hmatches, hr, -, -, rfl⟩ := (translates inherited σ₀.context.inboundSocket).run
    ⟨.started hstart, rfl, rfl⟩ hrun
  rw [hstart.channels] at hr
  exact ⟨ess, hmatches, hr⟩

/-- The first packet of a client opens a channel. -/
theorem sampleLive_refines_translator :
    ∃ ess : List (List TranslatorEvent),
      List.Forall₂ (Translates 3) [⟨sampleArrival 1000, sampleActions 1000⟩] ess ∧
        (Translation.translator sessionKey).Run (fun _ ↦ none) ess.flatten
          (sampleLive 1000).context.channels :=
  relay_refines_translator sampleStart_started (.single (sampleArrival_step 1000))

/-- **Datagrams are passed on unchanged, in order and at most once.** What the relay has sent,
to the server and to its clients, is part of what it has received. -/
theorem relay_payloads_sublist (hstart : Started inherited σ₀) (hrun : relay.Run σ₀ h σ) :
    ((h.flatMap fun l ↦ sends l.actions).map (·.payload)).Sublist
      ((h.flatMap (·.receptions)).map (·.packet)) :=
  payloads_sublist_of_simulation (translates inherited σ₀.context.inboundSocket)
    (fun _ _ hmatch ↦ hmatch.received) (fun _ _ hmatch ↦ hmatch.sent)
    ⟨.started hstart, rfl, rfl⟩ hrun

theorem sampleLive_payloads_sublist :
    ((sends (sampleActions 1000)).map (·.payload)).Sublist [sampleDatagram.payload] :=
  relay_payloads_sublist sampleStart_started (.single (sampleArrival_step 1000))

/-- A packet of a client that was sent on was sent on the channel of its session. -/
theorem Translates.up_of_passes {es : List TranslatorEvent} {inbound : SocketHandle}
    (hmatch : Translates inbound l es) {fd : SocketHandle} {d : Datagram} {send : Sent}
    {source destination : INetSocketAddress} (hpass : Passes l fd d send)
    (hsource : toSocketAddress d.source = some source) (hsocket : send.socket ≠ inbound)
    (htarget : toSocketAddress send.target = some destination) :
    .up (getSessionIdFromClientPacket d.payload) ⟨inbound, source, d.payload⟩
      ⟨send.socket, d.payload, destination⟩ ∈ es := by
  have hsent := hmatch.sent
  rw [hpass.sends] at hsent
  obtain ⟨s, hs, hencode⟩ : ∃ s ∈ es.flatMap (·.sent), encode s = some send := by
    rw [← List.mem_filterMap, hsent]
    exact List.mem_singleton_self _
  obtain ⟨hsock, hpayload, htarget'⟩ := encode_eq_some.1 hencode
  obtain ⟨e, he, hse⟩ := List.mem_flatMap.1 hs
  obtain ⟨a, hl⟩ := hpass.received
  cases e with
  | opened | closed | ignored => exact absurd hse List.not_mem_nil
  | down sid r o =>
    rcases o with - | s'
    · exact absurd hse List.not_mem_nil
    · obtain rfl := List.mem_singleton.1 hse
      exact absurd (hsock.trans (hmatch.answered sid r s he)) hsocket
  | up sid r s' =>
    obtain rfl := List.mem_singleton.1 hse
    have hreception : r ∈ (d.reception fd).toList := by
      have hmem : r ∈ es.flatMap (·.received) :=
        List.mem_flatMap.2 ⟨_, he, List.mem_singleton_self r⟩
      rwa [hmatch.received, Label.receptions, hl] at hmem
    obtain ⟨-, hr, hfd, hpacket⟩ :=
      Datagram.reception_eq_some.1 (Option.mem_toList.1 hreception)
    have hasked := hmatch.asked sid r s he
    rw [hl] at hasked
    obtain ⟨⟨-, hinbound, rfl, -⟩, -⟩ := Option.ite_none_right_eq_some.1 hasked
    -- the event is the one that is claimed, field by field
    have hreq : r = ⟨inbound, source, d.payload⟩ := by
      obtain ⟨socket, source', packet⟩ := r
      obtain rfl := Option.some.inj (hsource.symm.trans hr)
      exact congrArg₂ (Translation.Reception.mk · source ·) (hfd.trans hinbound) hpacket
    have hseq : s = ⟨send.socket, d.payload, destination⟩ := by
      obtain ⟨socket, packet, target⟩ := s
      obtain rfl := Option.some.inj
        (htarget.symm.trans (toSocketAddress_of_toLinuxSocketAddress htarget'))
      exact congrArg₂ (Translation.Sending.mk · · destination) hsock.symm
        (hpayload.symm.trans hpass.payload)
    rwa [← hreq, ← hseq]

/-- A packet of a client that was sent on has come from an address that can be read. -/
theorem Passes.exists_clientSource (hst : Step σ l σ') {fd : SocketHandle} {d : Datagram}
    {send : Sent} (hpass : Passes l fd d send) (hsocket : send.socket ≠ σ.context.inboundSocket) :
    ∃ source, toSocketAddress d.source = some source ∧ l.receptions ≠ [] ∧
      l.event.clientSource σ.context.inboundSocket (getSessionIdFromClientPacket d.payload) =
        some source := by
  obtain ⟨a, hl⟩ := hpass.received
  rcases hst.sends_cases with hnil | ⟨fd', d', a', sid, dest, hl', hcases⟩
  · rw [hpass.sends] at hnil
    exact absurd hnil (by simp)
  rw [hl] at hl'
  cases hl'
  rcases hcases with ⟨source, s, harrival, -⟩ | ⟨s, -, -, -, hsends⟩
  · obtain ⟨hlen, hsource, -, rfl, -⟩ := arrival_eq_fromClient.1 harrival
    refine ⟨source, hsource, ?_, clientSource_eq_some.2 (by rw [hl]; exact harrival)⟩
    rw [Label.receptions, hl]
    simp [Datagram.reception_of_source _ hlen hsource]
  · rw [hpass.sends] at hsends
    exact absurd (congrArg Sent.socket (List.head_eq_of_cons_eq hsends)) hsocket

/-- A step that does not expire a session and in which nobody else asks keeps its channel. -/
theorem Translates.keeps {es : List TranslatorEvent} {inbound : SocketHandle}
    (hmatch : Translates inbound l es) {sid : UInt64} {source : INetSocketAddress}
    (hlive : l.receptions ≠ [] ∨ .log (.expired sid) ∉ l.actions)
    (hsame : ∀ source', l.event.clientSource inbound sid = some source' → source' = source) :
    ∀ e ∈ es, e.Keeps sid source := by
  intro e he
  constructor
  · rintro rfl
    rcases hlive with hreceived | hlive
    · exact hreceived (hmatch.swept _ he)
    · exact hlive ((hmatch.closed _).1 he)
  · rintro r s rfl
    exact hsame _ (hmatch.asked _ r s he)

/-- **Replies reach the client that asked.** Let the relay have passed a packet of a client on to
the server. When the server answers to the socket that the packet left from, the relay makes one
`sendto`, whatever the kernel says to it: on its inbound socket, with the answer unchanged, for the
address that the client asked from, if the session of the client has not expired since and no
packet of the session has come from another address. -/
theorem relay_reply_reaches_client (hstart : Started inherited σ₀)
    (hrun : relay.Run σ₀ (past ++ l :: later) σ) (hst : relay.step σ l' σ')
    {fd : SocketHandle} {d d' : Datagram} {a' : Answers} {send : Sent}
    (hpass : Passes l fd d send) (hsocket : send.socket ≠ σ₀.context.inboundSocket)
    (hlive : ∀ m ∈ later,
      .log (.expired (getSessionIdFromClientPacket d.payload)) ∉ m.actions)
    (hsame : ∀ m ∈ later, ∀ source, m.event.clientSource σ₀.context.inboundSocket
      (getSessionIdFromClientPacket d.payload) = some source →
        toSocketAddress d.source = some source)
    (hreply : l'.event = .received send.socket (.ok d') a')
    (hlen : d'.addrLen ≤ sizeofSockaddrIn6)
    (hserver : toSocketAddress d'.source = toSocketAddress send.target) :
    ∃ source target, toSocketAddress d.source = some source ∧
      toLinuxSocketAddress source = some target ∧
        target.peer = { d.source.peer with scopeId := 0 } ∧
          sends l'.actions = [⟨σ₀.context.inboundSocket, d'.payload, target⟩] := by
  obtain ⟨τ, hpast, hrest⟩ := hrun.split
  obtain ⟨τ', hquery, -⟩ := hrest.exists_of_cons
  have hdestination := toSocketAddress_of_toLinuxSocketAddress
    (hpass.toServer hstart hpast hquery hsocket).target
  have hinbound := (fixed_run hpast).1
  obtain ⟨source, hsource, hreadable, hasked⟩ :=
    hpass.exists_clientSource hquery (hinbound ▸ hsocket)
  rw [hinbound] at hasked
  obtain ⟨target, htarget⟩ := exists_toLinuxSocketAddress hsource
  have hreceptions :
      l'.receptions = [⟨send.socket, σ₀.context.destinationAddress, d'.payload⟩] := by
    rw [Label.receptions, hreply]
    exact congrArg Option.toList
      (Datagram.reception_of_source _ hlen (hserver.trans hdestination))
  have hother : l'.event.clientSource σ₀.context.inboundSocket
      (getSessionIdFromClientPacket d.payload) = none := by
    rw [hreply]
    exact if_neg fun h ↦ hsocket h.2.1
  have hkeeps : ∀ m ∈ l :: later ++ [l'], ∀ es, Translates σ₀.context.inboundSocket m es →
      ∀ e ∈ es, e.Keeps (getSessionIdFromClientPacket d.payload) source := by
    intro m hm es hmatch
    rw [List.cons_append, List.mem_cons, List.mem_append, List.mem_singleton] at hm
    rcases hm with rfl | hm | rfl
    · exact hmatch.keeps (.inl hreadable) fun _ h ↦ Option.some.inj (h.symm.trans hasked)
    · exact hmatch.keeps (.inr (hlive m hm)) fun _ h ↦
        Option.some.inj ((hsame m hm _ h).symm.trans hsource)
    · exact hmatch.keeps (.inl (by rw [hreceptions]; simp)) fun _ h ↦
        absurd (hother.symm.trans h) (by simp)
  have hsep : Translation.Separated σ₀.context.channels := by
    rw [hstart.channels]
    exact .empty
  obtain ⟨es, hmatch, hsent⟩ := Translation.simulated_reply
    (translates inherited σ₀.context.inboundSocket) ⟨.started hstart, rfl, rfl⟩ hsep hrun hst
    (fun es hmatch ↦ hmatch.up_of_passes hpass hsource hsocket hdestination) hkeeps
    (fun es hmatch ↦ hmatch.received.trans hreceptions)
  refine ⟨source, target, hsource, htarget, peer_eq_of_kept hsource htarget, ?_⟩
  rw [← hmatch.sent, hsent, filterMap_encode_singleton, htarget]
  rfl

end Runs

theorem sampleArrival_passes : Passes ⟨sampleArrival 1000, sampleActions 1000⟩ 3 sampleDatagram
    ⟨5, sampleDatagram.payload, sampleServerAddress⟩ :=
  ⟨⟨_, rfl⟩, rfl, rfl⟩

/-- What happens before the server answers: another client asks, the first one asks again, and the
relay sweeps. -/
def meanwhile : List Label × RelayState :=
  (execs (sampleLive 1000)
    [otherArrival 1001, sampleArrival 1002,
      .idleSweep 1003 [otherSid, sampleSid] fun _ ↦ .ok ()]).get (by decide)

/-- The relay after the answer of the server. -/
def afterAnswer : Label × RelayState :=
  (exec meanwhile.2 (.received 5 (.ok serverDatagram) (sampleAnswers 1004))).get (by decide)

/-- The answer goes back to the first client. -/
theorem afterAnswer_reaches_client :
    ∃ source target, toSocketAddress sampleDatagram.source = some source ∧
      toLinuxSocketAddress source = some target ∧
        target.peer = { sampleDatagram.source.peer with scopeId := 0 } ∧
          sends afterAnswer.1.actions = [⟨3, serverDatagram.payload, target⟩] := by
  have hrun : relay.Run sampleStart
      ([] ++ ⟨sampleArrival 1000, sampleActions 1000⟩ :: meanwhile.1) meanwhile.2 :=
    (LTS.Run.single (sampleArrival_step 1000)).append (execs_get_run _)
  have hlive : ∀ m ∈ meanwhile.1,
      .log (.expired (getSessionIdFromClientPacket sampleDatagram.payload)) ∉ m.actions := by
    decide
  have hasked : ∀ m ∈ meanwhile.1, m.event.clientSource sampleStart.context.inboundSocket
      (getSessionIdFromClientPacket sampleDatagram.payload) = none ∨
        m.event.clientSource sampleStart.context.inboundSocket
          (getSessionIdFromClientPacket sampleDatagram.payload) =
            toSocketAddress sampleDatagram.source := by
    decide
  exact relay_reply_reaches_client sampleStart_started hrun (exec_get_step _)
    sampleArrival_passes (by decide) hlive
    (fun m hm source hsource ↦ (hasked m hm).elim
      (fun hnone ↦ absurd (hsource.symm.trans hnone) (by simp))
      fun hsame ↦ hsame.symm.trans hsource)
    (show afterAnswer.1.event = .received 5 (.ok serverDatagram) (sampleAnswers 1004) from rfl)
    (by decide) rfl

end WgRelay
