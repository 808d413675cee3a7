import Udpfwd.Forwarder.Routing
import Udpfwd.Translation.Datagrams

/-!
# The forwarder translates addresses

The forwarder is an address translator with one channel for every target, open from the start:
its key is the position of the target, its inner and outer socket are the inbound and the
outbound socket of the session, and it faces the destination of the target. Every step is
matched by what the translator does with the same datagram (`translates`), so replies reach the
client that asked last, and packets are passed on unchanged, in order and once.
-/

open Net

namespace UdpForward

/-- What happens at the translator. -/
abbrev TranslatorEvent := Translation.Event ℕ SocketHandle INetSocketAddress Packet

/-- The channel of a session. Nobody has asked on it before its source is a valid address. -/
def UdpForwardSession.binding (s : UdpForwardSession) :
    Translation.Binding SocketHandle INetSocketAddress :=
  ⟨s.inboundSocket, s.outboundSocket, s.destinationAddress,
    if s.sourceAddress.isValid then some s.sourceAddress else none⟩

/-- The channels, by the position of their target. -/
def UdpForwardContext.channels (context : UdpForwardContext) :
    Translation.Table ℕ SocketHandle INetSocketAddress :=
  fun i ↦ context.sessions[i]?.map (·.binding)

/-- The channel that a descriptor belongs to. -/
def UdpForwardContext.targetKey (context : UdpForwardContext) (fd : SocketHandle) (_ : Packet) :
    Option ℕ :=
  context.fileDescriptorToSessionIndex.lookup fd

/-- What an event receives, when the source can be read. -/
def Event.receptions :
    Event → List (Translation.Reception SocketHandle INetSocketAddress Packet)
  | .polled fd false false true (.ok d) _ => (d.reception fd).toList
  | _ => []

/-- What the translator does to match a step of a forwarder whose sessions have the sockets of
those in `context`. -/
structure Translates (context : UdpForwardContext) (l : Label) (es : List TranslatorEvent) :
    Prop where
  received : es.flatMap (·.received) = l.event.receptions
  sent : (es.flatMap (·.sent)).filterMap encode = sentBy l.calls
  opened : ∀ i inner outer server, .opened i inner outer server ∉ es
  closed : ∀ i, .closed i ∉ es
  /-- Whatever arrives on the inbound socket of a target asks on its channel. -/
  asks : ∀ i t r, context.sessions[i]? = some t → l.event.receptions = [r] →
    r.socket = t.inboundSocket →
      .up i r ⟨t.outboundSocket, r.packet, t.destinationAddress⟩ ∈ es
  asked : ∀ i r s, .up i r s ∈ es → ∃ t, context.sessions[i]? = some t ∧
    r.socket = t.inboundSocket ∧ l.event.sourceOn t.inboundSocket = some r.source
  answered : ∀ i r s, .down i r (some s) ∈ es → ∃ t, context.sessions[i]? = some t ∧
    s.socket = t.inboundSocket

section Handling

variable {context : UdpForwardContext} {fd : SocketHandle} {d : Datagram}
variable {answer : Except Errno ℕ} {i : ℕ} {s : UdpForwardSession}
variable {r : Translation.Reception SocketHandle INetSocketAddress Packet}

/-- What the worker does with a datagram that belongs to a session. -/
theorem handleDatagram_of_session (hr : d.reception fd = some r)
    (hindex : context.fileDescriptorToSessionIndex.lookup fd = some i)
    (hs : context.sessions[i]? = some s) :
    handleDatagram context fd d answer =
      if fd = s.inboundSocket then forwardToDestination context i s d.payload r.source answer
      else if fd = s.outboundSocket then forwardToSource context s d.payload r.source answer
      else (.next, context, []) := by
  obtain ⟨hlen, hsource, -, -⟩ := Datagram.reception_eq_some.1 hr
  simp only [handleDatagram, Nat.not_lt.2 hlen, if_false, hindex, hsource, hs,
    Datagram.received_eq]

/-- A datagram on the inbound socket is sent to the destination, and its source is noted. -/
theorem forwardToDestination_eq (context : UdpForwardContext) (i : ℕ) (s : UdpForwardSession)
    (packet : Packet) (source : INetSocketAddress) (answer : Except Errno ℕ) :
    (forwardToDestination context i s packet source answer).2.1 =
        { context with sessions := context.sessions.set i { s with sourceAddress := source } } ∧
      sentBy (forwardToDestination context i s packet source answer).2.2 =
        [Translation.Sending.mk s.outboundSocket packet s.destinationAddress].filterMap encode := by
  have hroam : (if s.sourceAddress ≠ source then { s with sourceAddress := source } else s) =
      { s with sourceAddress := source } := by
    split
    · rfl
    · next hsame => rw [← not_not.1 hsame]
  rw [forwardToDestination, hroam, filterMap_encode_singleton]
  rcases toLinuxSocketAddress s.destinationAddress with - | dest <;> simp [sentBy]

/-- A datagram of the destination on the outbound socket is sent to the source. -/
theorem forwardToSource_eq (context : UdpForwardContext) (s : UdpForwardSession)
    (packet : Packet) (answer : Except Errno ℕ) :
    (forwardToSource context s packet s.destinationAddress answer).2.1 = context ∧
      sentBy (forwardToSource context s packet s.destinationAddress answer).2.2 =
        (s.binding.peer.map (Translation.Sending.mk s.inboundSocket packet)).toList.filterMap
          encode := by
  have hvalid := isSome_toLinuxSocketAddress s.sourceAddress
  rw [forwardToSource, UdpForwardSession.binding, ← hvalid]
  rcases hsource : toLinuxSocketAddress s.sourceAddress with - | source
  · simp [sentBy]
  · simp [sentBy, encode, hsource]

/-- An event in which nothing readable is received. -/
theorem handleEvent_of_unread (context : UdpForwardContext) {e : Event}
    (hr : e.receptions = []) :
    (handleEvent context e).2.1 = context ∧ sentBy (handleEvent context e).2.2 = [] := by
  rcases e with e | ⟨fd, epollErr, epollHup, epollIn, received, answer⟩
  · exact ⟨rfl, rfl⟩
  rcases epollErr with - | -
  case true => exact ⟨rfl, rfl⟩
  rcases epollHup with - | -
  case true => exact ⟨rfl, rfl⟩
  rcases epollIn with - | -
  case false => exact ⟨rfl, rfl⟩
  rcases received with e | d
  · exact ⟨rfl, rfl⟩
  have hunread : d.reception fd = none := Option.toList_eq_nil_iff.1 hr
  simp only [handleEvent, Bool.false_eq_true, if_false, if_true]
  rw [handleDatagram]
  split
  · exact ⟨rfl, rfl⟩
  next hlen =>
  split
  · exact ⟨rfl, rfl⟩
  split
  · exact ⟨rfl, rfl⟩
  next source hsource =>
  rw [Datagram.reception_of_source _ (Nat.not_lt.1 hlen) hsource] at hunread
  exact absurd hunread (by simp)

theorem receptions_eq_cons {e : Event}
    {rest : List (Translation.Reception SocketHandle INetSocketAddress Packet)}
    (hr : e.receptions = r :: rest) : ∃ fd d answer,
      e = .polled fd false false true (.ok d) answer ∧ d.reception fd = some r ∧
        e.receptions = [r] := by
  have hnothing : ∀ {e : Event}, e.receptions = [] → e.receptions ≠ r :: rest := by
    intro e he
    simp [he]
  rcases e with e | ⟨fd, epollErr, epollHup, epollIn, received, answer⟩
  · exact absurd hr (hnothing rfl)
  rcases epollErr with - | -
  case true => exact absurd hr (hnothing rfl)
  rcases epollHup with - | -
  case true => exact absurd hr (hnothing rfl)
  rcases epollIn with - | -
  case false => exact absurd hr (hnothing rfl)
  rcases received with e | d
  · exact absurd hr (hnothing rfl)
  have hcons : (d.reception fd).toList = r :: rest := hr
  rcases hd : d.reception fd with - | r'
  · exact absurd hcons (by simp [hd])
  · rw [hd] at hcons
    obtain rfl := List.head_eq_of_cons_eq hcons
    exact ⟨fd, d, answer, rfl, hd, congrArg Option.toList hd⟩

end Handling

/-! ### Every step is matched -/

section Steps

variable {inherited : Finset SocketHandle} {targets : List UdpForwardTargetInfo}
variable {context₀ : UdpForwardContext} {σ₀ σ σ' : ForwarderState} {l : Label} {i : ℕ}
variable {s : UdpForwardSession} {b : Translation.Binding SocketHandle INetSocketAddress}

theorem channels_eq_some {context : UdpForwardContext} :
    context.channels i = some b ↔ ∃ s, context.sessions[i]? = some s ∧ s.binding = b :=
  Option.map_eq_some_iff

theorem channels_of_getElem? {context : UdpForwardContext} (hs : context.sessions[i]? = some s) :
    context.channels i = some s.binding :=
  channels_eq_some.2 ⟨s, hs, rfl⟩

/-- Somebody asks on the channel. -/
theorem channels_set {context : UdpForwardContext} (hs : context.sessions[i]? = some s)
    {sa : SockAddr} {source : INetSocketAddress} (hsource : toSocketAddress sa = some source) :
    UdpForwardContext.channels { context with
      sessions := context.sessions.set i { s with sourceAddress := source } } =
      Function.update context.channels i (some { s.binding with peer := some source }) := by
  have hvalid := isValid_of_toSocketAddress hsource
  obtain ⟨hlt, -⟩ := List.getElem?_eq_some_iff.1 hs
  funext j
  rcases eq_or_ne j i with rfl | hne
  · rw [Function.update_self, UdpForwardContext.channels, List.getElem?_set_self hlt]
    show some (Translation.Binding.mk _ _ _ (if source.isValid then _ else _)) = _
    rw [if_pos hvalid]
    rfl
  · rw [Function.update_of_ne hne, UdpForwardContext.channels, List.getElem?_set_ne hne.symm]
    rfl

/-- The outbound sockets of the sessions are separated. -/
theorem Aligned.separated (hal : Aligned targets σ.context σ.kernel) :
    Translation.Separated σ.context.channels := by
  constructor
  · intro i j b b' hb hb' houter
    obtain ⟨s, hs, rfl⟩ := channels_eq_some.1 hb
    obtain ⟨s', hs', rfl⟩ := channels_eq_some.1 hb'
    exact (hal.unique hs hs' s.outboundSocket_mem
      (show s.outboundSocket ∈ s'.descriptors from
        (show s.outboundSocket = s'.outboundSocket from houter) ▸ s'.outboundSocket_mem)).1
  · intro i j b b' hb hb' heq
    obtain ⟨s, hs, rfl⟩ := channels_eq_some.1 hb
    obtain ⟨s', hs', rfl⟩ := channels_eq_some.1 hb'
    have heq : s.outboundSocket = s'.inboundSocket := heq
    obtain ⟨-, rfl⟩ := hal.unique hs hs' s.outboundSocket_mem (heq ▸ s'.inboundSocket_mem)
    exact hal.inbound_ne_outbound hs heq.symm

/-- A step that opens and closes no channel is matched by one event of the translator. -/
private theorem Translates.single {e : TranslatorEvent}
    (hreceived : e.received = l.event.receptions)
    (hsent : e.sent.filterMap encode = sentBy l.calls) (hreception : e.received ≠ [])
    (hasks : ∀ i t r, context₀.sessions[i]? = some t → l.event.receptions = [r] →
      r.socket = t.inboundSocket → e = .up i r ⟨t.outboundSocket, r.packet, t.destinationAddress⟩)
    (hasked : ∀ i r s, e = .up i r s → ∃ t, context₀.sessions[i]? = some t ∧
      r.socket = t.inboundSocket ∧ l.event.sourceOn t.inboundSocket = some r.source)
    (hanswered : ∀ i r s, e = .down i r (some s) → ∃ t, context₀.sessions[i]? = some t ∧
      s.socket = t.inboundSocket) : Translates context₀ l [e] := by
  constructor
  · rwa [List.flatMap_singleton]
  · rwa [List.flatMap_singleton]
  · rintro i inner outer server h
    exact hreception (List.mem_singleton.1 h ▸ rfl)
  · rintro i h
    exact hreception (List.mem_singleton.1 h ▸ rfl)
  · exact fun i t r ht hr hsocket ↦ List.mem_singleton.2 (hasks i t r ht hr hsocket).symm
  · exact fun i r s h ↦ hasked i r s (List.mem_singleton.1 h).symm
  · exact fun i r s h ↦ hanswered i r s (List.mem_singleton.1 h).symm

/-- What a step does with a datagram that it can read, on a socket of the session `s`. -/
inductive Passing (context : UdpForwardContext) (l : Label)
    (r : Translation.Reception SocketHandle INetSocketAddress Packet) (i : ℕ)
    (s : UdpForwardSession) (context' : UdpForwardContext) : Prop
  | toDestination (hsocket : r.socket = s.inboundSocket)
      (hchannels : context'.channels =
        Function.update context.channels i (some { s.binding with peer := some r.source }))
      (hsent : sentBy l.calls =
        [Translation.Sending.mk s.outboundSocket r.packet s.destinationAddress].filterMap encode)
  | toSource (hne : r.socket ≠ s.inboundSocket) (hsocket : r.socket = s.outboundSocket)
      (hsource : r.source = s.destinationAddress) (hchannels : context'.channels = context.channels)
      (hsent : sentBy l.calls =
        (s.binding.peer.map (⟨s.inboundSocket, r.packet, ·⟩)).toList.filterMap encode)
  /-- Only the destination may answer. -/
  | dropped (hne : r.socket ≠ s.inboundSocket) (hsource : r.source ≠ s.destinationAddress)
      (hchannels : context'.channels = context.channels) (hsent : sentBy l.calls = [])

/-- A step that reads a datagram, inverted. -/
theorem Step.passing (hst : Step σ l σ') (hal : Aligned targets σ.context σ.kernel)
    {r : Translation.Reception SocketHandle INetSocketAddress Packet}
    {rest : List (Translation.Reception SocketHandle INetSocketAddress Packet)}
    (hr : l.event.receptions = r :: rest) :
    l.event.receptions = [r] ∧ l.event.sourceOn r.socket = some r.source ∧
      ∃ i s, σ.context.sessions[i]? = some s ∧ r.socket ∈ s.descriptors ∧
        Passing σ.context l r i s σ'.context := by
  obtain ⟨fd, d, answer, hl, hreception, hreceptions⟩ := receptions_eq_cons hr
  obtain ⟨hlen, hsource, rfl, hpacket⟩ := Datagram.reception_eq_some.1 hreception
  -- the descriptor belongs to a session
  obtain ⟨i, s, hs, hmem⟩ : ∃ (i : ℕ) (s : UdpForwardSession),
      σ.context.sessions[i]? = some s ∧ r.socket ∈ s.descriptors := by
    have henabled := hst.enabled
    rw [hl] at henabled
    exact mem_descriptors.1 ((hal.interest r.socket).1 henabled)
  have hhandled := hst.handled
  rw [hl] at hhandled
  simp only [handleEvent, Bool.false_eq_true, if_false, if_true, handleDatagram_of_session
    hreception ((hal.index r.socket i).2 ⟨s, hs, hmem⟩) hs, Prod.mk.injEq] at hhandled
  obtain ⟨-, hcontext, hcalls⟩ := hhandled
  have hsends : ∀ {calls}, .recvfrom r.socket (.ok d) :: calls = l.calls →
      sentBy l.calls = sentBy calls := fun hcalls ↦ hcalls ▸ rfl
  refine ⟨hreceptions, ?_, i, s, hs, hmem, ?_⟩
  · rw [hl, ← hsource]
    exact if_pos ⟨rfl, hlen⟩
  by_cases hin : r.socket = s.inboundSocket
  · rw [if_pos hin] at hcontext hcalls
    obtain ⟨hcontext', hsent⟩ := forwardToDestination_eq σ.context i s d.payload r.source answer
    refine .toDestination hin ?_ ?_
    · rw [← hcontext, hcontext', channels_set hs hsource]
    · rw [hsends hcalls, hsent, hpacket]
  have hout : r.socket = s.outboundSocket := by
    simpa [UdpForwardSession.descriptors, hin] using hmem
  rw [if_neg hin, if_pos hout] at hcontext hcalls
  by_cases hdest : r.source = s.destinationAddress
  · obtain ⟨hcontext', hsent⟩ := forwardToSource_eq σ.context s d.payload answer
    rw [← hdest] at hcontext' hsent
    refine .toSource hin hout hdest ?_ ?_
    · rw [← hcontext, hcontext']
    · rw [hsends hcalls, hsent, hpacket]
  · rw [forwardToSource, if_pos hdest] at hcontext hcalls
    refine .dropped hin hdest ?_ ?_
    · rw [← hcontext]
    · rw [hsends hcalls]
      rfl

/-- No other channel has the socket. -/
theorem Aligned.eq_binding (hal : Aligned targets σ.context σ.kernel)
    (hs : σ.context.sessions[i]? = some s) {fd : SocketHandle} (hmem : fd ∈ s.descriptors) {j : ℕ}
    (hb : σ.context.channels j = some b) (hfd : fd = b.inner ∨ fd = b.outer) : b = s.binding := by
  obtain ⟨s', hs', rfl⟩ := channels_eq_some.1 hb
  have hmem' : fd ∈ s'.descriptors := by
    rcases hfd with rfl | rfl
    · exact s'.inboundSocket_mem
    · exact s'.outboundSocket_mem
  rw [(hal.unique hs hs' hmem hmem').2]

/-- No other session has the socket, now or before. -/
theorem Aligned.eq_inboundSocket (hal : Aligned targets σ.context σ.kernel)
    (hfixed : σ.context.sessions.map (·.fixed) = context₀.sessions.map (·.fixed))
    (hs : σ.context.sessions[i]? = some s) {fd : SocketHandle} (hmem : fd ∈ s.descriptors) {j : ℕ}
    {t : UdpForwardSession} (ht : context₀.sessions[j]? = some t) (hfd : fd = t.inboundSocket) :
    fd = s.inboundSocket ∧ j = i ∧ t.fixed = s.fixed := by
  obtain ⟨s', hs', hfixed'⟩ := getElem?_of_fixed hfixed.symm ht
  have hfd' : fd = s'.inboundSocket := hfd.trans (congrArg (·.inboundSocket) hfixed').symm
  obtain ⟨rfl, rfl⟩ := hal.unique hs' hs (hfd' ▸ s'.inboundSocket_mem) hmem
  exact ⟨hfd', rfl, hfixed'.symm⟩

/-- A datagram is matched by what the translator does with it. -/
private theorem Step.translates_datagram (hst : Step σ l σ')
    (hal : Aligned targets σ.context σ.kernel)
    (hfixed : σ.context.sessions.map (·.fixed) = context₀.sessions.map (·.fixed))
    (hfds : σ.context.fileDescriptorToSessionIndex = context₀.fileDescriptorToSessionIndex)
    {r : Translation.Reception SocketHandle INetSocketAddress Packet}
    {rest : List (Translation.Reception SocketHandle INetSocketAddress Packet)}
    (hr : l.event.receptions = r :: rest) :
    ∃ es, Translates context₀ l es ∧ (Translation.translator context₀.targetKey).Run
      σ.context.channels es σ'.context.channels := by
  obtain ⟨hreceptions, hsourceOn, i, s, hs, hmem, hpassing⟩ := Step.passing hst hal hr
  have hreceived : ∀ {j t r'}, context₀.sessions[j]? = some t → l.event.receptions = [r'] →
      r'.socket = t.inboundSocket →
        r' = r ∧ r.socket = s.inboundSocket ∧ j = i ∧ t.fixed = s.fixed := by
    intro j t r' ht hr' hfd
    obtain rfl := List.head_eq_of_cons_eq (hr'.symm.trans hreceptions)
    exact ⟨rfl, hal.eq_inboundSocket hfixed hs hmem ht hfd⟩
  obtain ⟨t, ht, hfixedt⟩ := getElem?_of_fixed hfixed hs
  have hinbound : t.inboundSocket = s.inboundSocket := congrArg (·.inboundSocket) hfixedt
  cases hpassing with
  | toDestination hin hchannels hsent =>
    rw [hchannels]
    refine ⟨[.up i r ⟨s.outboundSocket, r.packet, s.destinationAddress⟩],
      .single hreceptions.symm hsent.symm (List.cons_ne_nil _ _) ?_ ?_ (by simp),
      .single (.up ?_ (channels_of_getElem? hs) hin)⟩
    · intro j t' r' ht' hr' hfd
      obtain ⟨rfl, -, rfl, hfixed'⟩ := hreceived ht' hr' hfd
      rw [show t'.outboundSocket = s.outboundSocket from congrArg (·.outboundSocket) hfixed',
        show t'.destinationAddress = s.destinationAddress from
          congrArg (·.destinationAddress) hfixed']
    · intro j r' s' heq
      obtain ⟨rfl, rfl, -⟩ := (Translation.Event.up.injEq ..).mp heq
      refine ⟨t, ht, hin.trans hinbound.symm, ?_⟩
      rw [hinbound, ← hin, hsourceOn]
    · rw [UdpForwardContext.targetKey, ← hfds]
      exact (hal.index r.socket i).2 ⟨s, hs, hmem⟩
  | toSource hne hout hsource hchannels hsent =>
    rw [hchannels]
    refine ⟨[.down i r (s.binding.peer.map (⟨s.inboundSocket, r.packet, ·⟩))],
      .single hreceptions.symm hsent.symm (List.cons_ne_nil _ _) ?_ (by simp) ?_,
      .single (.down (channels_of_getElem? hs) hout hsource)⟩
    · exact fun j t' r' ht' hr' hfd ↦ absurd (hreceived ht' hr' hfd).2.1 hne
    · intro j r' s' heq
      obtain ⟨rfl, rfl, hsome⟩ : i = j ∧ r = r' ∧
          s.binding.peer.map (⟨s.inboundSocket, r.packet, ·⟩) = some s' := by
        simpa using heq
      obtain ⟨a, -, rfl⟩ := Option.map_eq_some_iff.1 hsome
      exact ⟨t, ht, hinbound.symm⟩
  | dropped hne hsource hchannels hsent =>
    rw [hchannels]
    refine ⟨[.ignored r], .single hreceptions.symm hsent.symm (List.cons_ne_nil _ _) ?_ (by simp)
      (by simp), .single (.ignored (fun j b _ hb hsock ↦ ?_) fun j b hb hsock hserver ↦ ?_)⟩
    · exact fun j t' r' ht' hr' hfd ↦ absurd (hreceived ht' hr' hfd).2.1 hne
    · obtain rfl := hal.eq_binding hs hmem hb (.inl hsock)
      exact hne hsock
    · obtain rfl := hal.eq_binding hs hmem hb (.inr hsock)
      exact hsource hserver

/-- **The forwarder refines the translator.** Every step of the forwarder is matched by what the
translator does with the same datagram. -/
theorem translates (targets : List UdpForwardTargetInfo) (context₀ : UdpForwardContext) :
    LTS.Simulation forwarder (Translation.translator context₀.targetKey)
      (fun σ T ↦ Aligned targets σ.context σ.kernel ∧
        σ.context.sessions.map (·.fixed) = context₀.sessions.map (·.fixed) ∧
        σ.context.fileDescriptorToSessionIndex = context₀.fileDescriptorToSessionIndex ∧
        T = σ.context.channels) (Translates context₀) where
  step := by
    rintro σ _ l σ' ⟨hal, hfixed, hfds, rfl⟩ hst
    have hal' := (hal.step hst).1
    obtain ⟨hfixed', hfds', -⟩ := (Step.effect hst).fixed
    have hhandled := Step.handled hst
    rcases hr : l.event.receptions with - | ⟨r, rest⟩
    · obtain ⟨hcontext, hcalls⟩ := handleEvent_of_unread σ.context hr
      rw [hhandled] at hcontext hcalls
      refine ⟨[], _, ⟨hr.symm, hcalls.symm, by simp, by simp, ?_, by simp, by simp⟩, .nil, hal',
        hfixed'.trans hfixed, hfds'.trans hfds, ?_⟩
      · intro i t r _ hr' _
        exact absurd (hr.symm.trans hr') (by simp)
      · rw [show σ'.context = σ.context from hcontext]
    · obtain ⟨es, hmatch, hrun⟩ := Step.translates_datagram hst hal hfixed hfds hr
      exact ⟨es, _, hmatch, hrun, hal', hfixed'.trans hfixed, hfds'.trans hfds, rfl⟩

end Steps

/-! ### Whole runs -/

theorem afterQuery_step : forwarder.step sampleStart afterQuery.1 afterQuery.2 :=
  exec_get_step _

theorem afterReply_step : forwarder.step afterQuery.2 afterReply.1 afterReply.2 :=
  exec_get_step _

section Runs

variable {inherited : Finset SocketHandle} {targets : List UdpForwardTargetInfo}
variable {σ₀ σ σ' : ForwarderState} {h past later : List Label} {l l' : Label}

/-- **The forwarder is an address translator**, in every run. Its channels are open from the
start, one for every target, and nobody has asked on them yet; the translator receives the same
datagrams and sends the same datagrams. -/
theorem forwarder_refines_translator (hstart : Started inherited targets σ₀)
    (hrun : forwarder.Run σ₀ h σ) :
    (∀ i b, σ₀.context.channels i = some b → b.peer = none) ∧
      Translation.Separated σ₀.context.channels ∧
      ∃ ess : List (List TranslatorEvent), List.Forall₂ (Translates σ₀.context) h ess ∧
        (Translation.translator σ₀.context.targetKey).Run σ₀.context.channels ess.flatten
          σ.context.channels := by
  obtain ⟨hal, hsource⟩ := hstart.aligned
  refine ⟨fun i b hb ↦ ?_, hal.separated, ?_⟩
  · obtain ⟨s, hs, rfl⟩ := channels_eq_some.1 hb
    rw [UdpForwardSession.binding, hsource s (List.mem_of_getElem? hs)]
    rfl
  · obtain ⟨ess, T, hmatches, hr, -, -, -, rfl⟩ := (translates targets σ₀.context).run
      ⟨hal, rfl, rfl, rfl⟩ hrun
    exact ⟨ess, hmatches, hr⟩

/-- The query of a client and the reply of the server, at the translator. -/
theorem afterReply_refines_translator :
    ∃ ess : List (List TranslatorEvent),
      List.Forall₂ (Translates sampleStart.context) [afterQuery.1, afterReply.1] ess ∧
        (Translation.translator sampleStart.context.targetKey).Run sampleStart.context.channels
          ess.flatten afterReply.2.context.channels :=
  (forwarder_refines_translator sampleStart_started
    ((LTS.Run.single afterQuery_step).snoc afterReply_step)).2.2

/-- **Datagrams are passed on unchanged, in order and at most once.** -/
theorem forwarder_payloads_sublist (hstart : Started inherited targets σ₀)
    (hrun : forwarder.Run σ₀ h σ) :
    ((h.flatMap fun l ↦ sentBy l.calls).map (·.payload)).Sublist
      ((h.flatMap (·.event.receptions)).map (·.packet)) :=
  payloads_sublist_of_simulation (translates targets σ₀.context)
    (fun _ _ hmatch ↦ hmatch.received) (fun _ _ hmatch ↦ hmatch.sent)
    ⟨hstart.aligned.1, rfl, rfl, rfl⟩ hrun

theorem afterReply_payloads_sublist :
    ([afterQuery.1, afterReply.1].flatMap fun l ↦ sentBy l.calls).map (·.payload) =
        [[1, 2, 3], [4, 5]] ∧
      (([afterQuery.1, afterReply.1].flatMap fun l ↦ sentBy l.calls).map (·.payload)).Sublist
        (([afterQuery.1, afterReply.1].flatMap (·.event.receptions)).map (·.packet)) :=
  ⟨rfl, forwarder_payloads_sublist sampleStart_started
    ((LTS.Run.single afterQuery_step).snoc afterReply_step)⟩

/-- **Replies reach the client that asked.** A datagram has arrived on the inbound socket of a
target. When the destination of the target answers to the outbound socket, one `sendto` is made,
whatever the kernel says to it: on the inbound socket, with the answer unchanged, for the address
that the datagram came from, if nothing has arrived on the inbound socket from another address in
between. -/
theorem forwarder_reply_reaches_client (hstart : Started inherited targets σ₀)
    (hrun : forwarder.Run σ₀ (past ++ l :: later) σ) (hst : forwarder.step σ l' σ') {i : ℕ}
    {t : UdpForwardSession} (ht : σ₀.context.sessions[i]? = some t) {d d' : Datagram}
    {answer answer' : Except Errno ℕ} {source : INetSocketAddress}
    (hquery : l.event = .polled t.inboundSocket false false true (.ok d) answer)
    (hlen : d.addrLen ≤ sizeofSockaddrIn6) (hsource : toSocketAddress d.source = some source)
    (hsame : ∀ m ∈ later, ∀ source', m.event.sourceOn t.inboundSocket = some source' →
      source' = source)
    (hreply : l'.event = .polled t.outboundSocket false false true (.ok d') answer')
    (hlen' : d'.addrLen ≤ sizeofSockaddrIn6)
    (hserver : toSocketAddress d'.source = some t.destinationAddress) :
    ∃ target, toLinuxSocketAddress source = some target ∧
      target.peer = { d.source.peer with scopeId := 0 } ∧
        sentBy l'.calls = [⟨t.inboundSocket, d'.payload, target⟩] := by
  obtain ⟨hal, -⟩ := hstart.aligned
  obtain ⟨target, htarget⟩ := exists_toLinuxSocketAddress hsource
  have hreceptions : l.event.receptions = [⟨t.inboundSocket, source, d.payload⟩] := by
    rw [hquery]
    exact congrArg Option.toList (Datagram.reception_of_source _ hlen hsource)
  have hreceptions' :
      l'.event.receptions = [⟨t.outboundSocket, t.destinationAddress, d'.payload⟩] := by
    rw [hreply]
    exact congrArg Option.toList (Datagram.reception_of_source _ hlen' hserver)
  have hasked : l.event.sourceOn t.inboundSocket = some source := by
    rw [hquery, ← hsource]
    exact if_pos ⟨rfl, hlen⟩
  have hother : l'.event.sourceOn t.inboundSocket = none := by
    rw [hreply]
    exact sourceOn_of_ne (hal.inbound_ne_outbound ht).symm
  have hkeeps : ∀ m ∈ l :: later ++ [l'], ∀ es, Translates σ₀.context m es →
      ∀ e ∈ es, e.Keeps i source := by
    intro m hm es hmatch e he
    refine ⟨?_, ?_⟩
    · rintro rfl
      exact hmatch.closed i he
    · rintro r s rfl
      obtain ⟨t', ht', -, hclient⟩ := hmatch.asked i r s he
      obtain rfl := Option.some.inj (ht.symm.trans ht')
      rw [List.cons_append, List.mem_cons, List.mem_append, List.mem_singleton] at hm
      rcases hm with rfl | hm | rfl
      · exact Option.some.inj (hclient.symm.trans hasked)
      · exact hsame m hm _ hclient
      · exact absurd (hother.symm.trans hclient) (by simp)
  obtain ⟨es, hmatch, hsent⟩ := Translation.simulated_reply (translates targets σ₀.context)
    ⟨hal, rfl, rfl, rfl⟩ hal.separated hrun hst
    (fun es hmatch ↦ hmatch.asks i t _ ht hreceptions rfl) hkeeps
    (fun es hmatch ↦ hmatch.received.trans hreceptions')
  refine ⟨target, htarget, peer_eq_of_kept hsource htarget, ?_⟩
  rw [← hmatch.sent, hsent, filterMap_encode_singleton, htarget]
  rfl

/-- The session of the second target. -/
theorem sampleStart_second : sampleStart.context.sessions[1]? = some
    { inboundSocketAddress := ⟨INetAddress.ipv6Any, 5001⟩
      outboundSocketAddress := ⟨INetAddress.ipv4Any, 0⟩
      destinationAddress := ⟨.ipv4 #v[192, 0, 2, 1], 123⟩
      inboundSocket := 6
      outboundSocket := 7 } := rfl

/-- A datagram for the first target. -/
def otherQuery : Event :=
  .polled 4 false false true (.ok
    { payload := [7, 8]
      source := .in4 (htons 50000) #v[203, 0, 113, 7]
      fits := by decide }) (.ok 2)

/-- After the query somebody asks for the first target. -/
def afterOther : Label × ForwarderState := (exec afterQuery.2 otherQuery).get (by decide)

/-- The client asks once more. -/
def afterSecondQuery : Label × ForwarderState := (exec afterOther.2 sampleQuery).get (by decide)

/-- The reply comes at last. -/
def afterLateReply : Label × ForwarderState :=
  (exec afterSecondQuery.2 sampleReply).get (by decide)

/-- It goes back to the client. -/
theorem afterLateReply_reaches_client :
    ∃ target, toLinuxSocketAddress ⟨.ipv6 (Vector.replicate 16 1), 40000⟩ = some target ∧
      target.peer = ⟨10, htons 40000, List.replicate 16 1, 0⟩ ∧
        sentBy afterLateReply.1.calls = [⟨6, [4, 5], target⟩] := by
  have hrun : forwarder.Run sampleStart
      ([] ++ afterQuery.1 :: [afterOther.1, afterSecondQuery.1]) afterSecondQuery.2 :=
    ((LTS.Run.single afterQuery_step).snoc (exec_get_step _)).snoc (exec_get_step _)
  have hasked : ∀ m ∈ [afterOther.1, afterSecondQuery.1], m.event.sourceOn 6 = none ∨
      m.event.sourceOn 6 = some ⟨.ipv6 (Vector.replicate 16 1), 40000⟩ := by
    decide
  have hquery : afterQuery.1.event = .polled 6 false false true (.ok
      { payload := [1, 2, 3]
        source := .in6 (htons 40000) 0 (Vector.replicate 16 1) 0
        fits := by decide }) (.ok 3) := rfl
  have hreply : afterLateReply.1.event = .polled 7 false false true (.ok
      { payload := [4, 5]
        source := .in4 (htons 123) #v[192, 0, 2, 1]
        fits := by decide }) (.ok 2) := rfl
  exact forwarder_reply_reaches_client sampleStart_started hrun (exec_get_step _)
    sampleStart_second hquery (by decide) rfl
    (fun m hm source' hsource' ↦ (hasked m hm).elim
      (fun hnone ↦ absurd (hsource'.symm.trans hnone) (by simp))
      fun hsame ↦ Option.some.inj (hsource'.symm.trans hsame))
    hreply (by decide) rfl

end Runs

end UdpForward
