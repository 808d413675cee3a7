import Udpfwd.Relay.TableInvariant

/-!
# What one step does to one session

A step of the relay touches at most one session, except for the idle sweep, which judges
every session by itself. `SessionStep` is the step as one session id sees it: the entry
before, the entry after, and the part of the event and of the actions that belongs to it.
What holds of timestamps, counters, addresses and sockets is proved by the cases of this
relation.
-/

open Net

namespace WgRelay

/-- The time at which an event sweeps. -/
def Event.sweepTime : Event → Option UInt64
  | .idleSweep now _ _ => some now
  | .received .. => none

/-- What an event is to the client `sid`, if anything. -/
def Event.arrival (context : WgcfRelayContext) (sid : UInt64) : Event → Option Arrival
  | .received fd (.ok d) _ => WgRelay.arrival context sid fd d
  | _ => none

/-- One step of the relay, as the session id `sid` sees it. -/
inductive SessionStep (context : WgcfRelayContext) (l : Label) (sid : UInt64) :
    Option WgcfRelaySession → Option WgcfRelaySession → Prop
  /-- The step is not about `sid`. -/
  | untouched {o : Option WgcfRelaySession} (harrival : l.event.arrival context sid = none)
      (hsweep : o = none ∨ l.event.sweepTime = none) :
      SessionStep context l sid o o
  /-- The first packet of the client, when no socket can be set up for it. -/
  | refused {fd : SocketHandle} {d : Datagram} {a : Answers} {source : INetSocketAddress}
      {acts : List Action} (hevent : l.event = .received fd (.ok d) a)
      (harrival : arrival context sid fd d = some (.fromClient source))
      (hacts : l.actions = .call (.recvfrom fd (.ok d)) :: acts)
      (hfail : FailedCreation context.epollHandle a acts) :
      SessionStep context l sid none none
  /-- The first packet of the client. -/
  | created {fd : SocketHandle} {d : Datagram} {a : Answers} {source : INetSocketAddress}
      {family : UInt16} {addr : SockAddr} {sock : SocketHandle} {port : UInt16}
      {s : WgcfRelaySession} (hevent : l.event = .received fd (.ok d) a)
      (harrival : arrival context sid fd d = some (.fromClient source))
      (hcreates : a.Creates sock port)
      (hnew : s = newSession context sid (typeAndReserved d.payload >>> 8) source sock
        (ntohs port) a.createdAt)
      (hacts : l.actions = .call (.recvfrom fd (.ok d)) ::
        (creationActions context.epollHandle family addr sid sock port a.createdAt ++
          (s.forwardToServer context.destinationAddress d.payload sid source a).2)) :
      SessionStep context l sid none
        (some (s.forwardToServer context.destinationAddress d.payload sid source a).1)
  /-- A later packet of the client. -/
  | fromClient {fd : SocketHandle} {d : Datagram} {a : Answers} {source : INetSocketAddress}
      {s : WgcfRelaySession} (hevent : l.event = .received fd (.ok d) a)
      (harrival : arrival context sid fd d = some (.fromClient source))
      (hacts : l.actions = .call (.recvfrom fd (.ok d)) ::
        (s.forwardToServer context.destinationAddress d.payload sid source a).2) :
      SessionStep context l sid (some s)
        (some (s.forwardToServer context.destinationAddress d.payload sid source a).1)
  /-- A packet of the server. -/
  | fromServer {fd : SocketHandle} {d : Datagram} {a : Answers} {s : WgcfRelaySession}
      (hevent : l.event = .received fd (.ok d) a)
      (harrival : arrival context sid fd d = some .fromServer)
      (hacts : l.actions = .call (.recvfrom fd (.ok d)) ::
        (s.forwardToClient context.inboundSocket d.payload sid a).2) :
      SessionStep context l sid (some s)
        (some (s.forwardToClient context.inboundSocket d.payload sid a).1)
  /-- A packet of the server for an id that is in the second table only. -/
  | stray {fd : SocketHandle} {d : Datagram} {a : Answers}
      (hevent : l.event = .received fd (.ok d) a)
      (harrival : arrival context sid fd d = some .fromServer)
      (hacts : l.actions =
        [.call (.recvfrom fd (.ok d)), .log (.unknownSessionId sid)]) :
      SessionStep context l sid none none
  /-- An idle sweep that keeps the session. -/
  | kept {now : UInt64} {order : List UInt64} {epollDel : SocketHandle → Except Errno Unit}
      {s : WgcfRelaySession} (hevent : l.event = .idleSweep now order epollDel)
      (hexp : s.expired now = false) :
      SessionStep context l sid (some s) (some s.reportDropped)
  /-- An idle sweep that removes the session. -/
  | expired {now : UInt64} {order : List UInt64} {epollDel : SocketHandle → Except Errno Unit}
      {s : WgcfRelaySession} (hevent : l.event = .idleSweep now order epollDel)
      (hexp : s.expired now = true) (hlog : .log (.expired sid) ∈ l.actions) :
      SessionStep context l sid (some s) none

variable {σ σ' : RelayState} {l : Label}

/-- An idle sweep, as one session sees it. -/
private theorem Step.session_of_sweep {now : UInt64} {order : List UInt64}
    {epollDel : SocketHandle → Except Errno Unit} (hst : Step σ l σ')
    (hl : l.event = .idleSweep now order epollDel) (sid : UInt64) :
    SessionStep σ.context l sid (σ.context.sessions.lookup sid)
      (σ'.context.sessions.lookup sid) := by
  obtain ⟨-, horder, hswept, hacts⟩ := hst.sweep hl
  rw [hswept.sessions]
  rcases hs : σ.context.sessions.lookup sid with - | s
  · simpa using .untouched (by rw [hl]; rfl) (.inl rfl)
  · have hin : sid ∈ order := (horder sid).2 (Finmap.mem_of_lookup_eq_some hs)
    rw [if_pos hin, Option.bind_some]
    rcases hexp : s.expired now
    · simpa [WgcfRelaySession.swept, hexp] using .kept hl hexp
    · have hlog : .log (.expired sid) ∈ l.actions := by
        rw [hacts]
        exact List.mem_cons_of_mem _ (mem_sweepActions.2 ⟨sid, hin, s, hs, hexp, rfl⟩)
      simpa [WgcfRelaySession.swept, hexp] using .expired hl hexp hlog

/-- A received datagram, as one session sees it. -/
private theorem Step.session_of_datagram {fd : SocketHandle} {d : Datagram} {a : Answers}
    (hst : Step σ l σ') (hl : l.event = .received fd (.ok d) a) (sid : UInt64) :
    SessionStep σ.context l sid (σ.context.sessions.lookup sid)
      (σ'.context.sessions.lookup sid) := by
  obtain ⟨-, acts, hacts, heffect⟩ := hst.datagram hl
  generalize σ'.context = context' at heffect
  have hnosweep : l.event.sweepTime = none := by rw [hl]; rfl
  have hquiet : ∀ {sid' x}, arrival σ.context sid' fd d = some x → sid' ≠ sid →
      l.event.arrival σ.context sid = none := by
    intro sid' x hx hne
    rw [hl]
    exact arrival_eq_none_of_ne hx hne
  cases heffect with
  | ignored harrival | unknownSocketHandle harrival =>
    exact .untouched (by rw [hl]; exact harrival sid) (.inr hnosweep)
  | @unknownSessionId sid' harrival hs =>
    rcases eq_or_ne sid' sid with rfl | hother
    · rw [hs]
      exact .stray hl harrival hacts
    · exact .untouched (hquiet harrival hother) (.inr hnosweep)
  | @notCreated source sid' acts harrival hs hfail =>
    rcases eq_or_ne sid' sid with rfl | hother
    · rw [hs]
      exact .refused hl harrival hacts hfail
    · exact .untouched (hquiet harrival hother) (.inr hnosweep)
  | @fromClient source sid' s harrival hs =>
    rcases eq_or_ne sid' sid with rfl | hother
    · rw [hs, Finmap.lookup_insert]
      exact .fromClient hl harrival hacts
    · rw [Finmap.lookup_insert_of_ne _ hother.symm]
      exact .untouched (hquiet harrival hother) (.inr hnosweep)
  | @created source sid' family addr sock port s harrival hs hcreates hnew =>
    rcases eq_or_ne sid' sid with rfl | hother
    · rw [hs, Finmap.lookup_insert]
      exact .created hl harrival hcreates hnew hacts
    · rw [Finmap.lookup_insert_of_ne _ hother.symm]
      exact .untouched (hquiet harrival hother) (.inr hnosweep)
  | @fromServer sid' s harrival hs =>
    rcases eq_or_ne sid' sid with rfl | hother
    · rw [hs, Finmap.lookup_insert]
      exact .fromServer hl harrival hacts
    · rw [Finmap.lookup_insert_of_ne _ hother.symm]
      exact .untouched (hquiet harrival hother) (.inr hnosweep)

/-- **Every step, as one session sees it.** -/
theorem Step.session (hst : Step σ l σ') (sid : UInt64) :
    SessionStep σ.context l sid (σ.context.sessions.lookup sid)
      (σ'.context.sessions.lookup sid) := by
  rcases hl : l.event with ⟨now, order, epollDel⟩ | ⟨fd, e | d, a⟩
  · exact hst.session_of_sweep hl sid
  · obtain ⟨-, -, hcontext⟩ := hst.noDatagram hl
    rw [hcontext]
    exact .untouched (by rw [hl]; rfl) (.inr (by rw [hl]; rfl))
  · exact hst.session_of_datagram hl sid

/-- The addresses and descriptors of the relay itself never change. -/
theorem Step.fixed (hst : Step σ l σ') :
    σ'.context.inboundSocket = σ.context.inboundSocket ∧
      σ'.context.inboundSocketAddress = σ.context.inboundSocketAddress ∧
      σ'.context.destinationAddress = σ.context.destinationAddress ∧
      σ'.context.epollHandle = σ.context.epollHandle := by
  rcases hl : l.event with ⟨now, order, epollDel⟩ | ⟨fd, e | d, a⟩
  · obtain ⟨-, -, hswept, -⟩ := hst.sweep hl
    exact ⟨hswept.inboundSocket, hswept.inboundSocketAddress, hswept.destinationAddress,
      hswept.epollHandle⟩
  · obtain ⟨-, -, hcontext⟩ := hst.noDatagram hl
    rw [hcontext]
    exact ⟨rfl, rfl, rfl, rfl⟩
  · obtain ⟨-, acts, -, heffect⟩ := hst.datagram hl
    generalize σ'.context = context' at heffect
    cases heffect <;> exact ⟨rfl, rfl, rfl, rfl⟩

/-- After a step, no outbound socket is the inbound socket. -/
theorem Step.outboundSocket_ne {inherited : Finset SocketHandle} {sid : UInt64}
    {s : WgcfRelaySession} (hst : Step σ l σ') (hinv : TableInvariant inherited σ')
    (hs : σ'.context.sessions.lookup sid = some s) :
    s.outboundSocket ≠ σ.context.inboundSocket := by
  rw [← hst.fixed.1]
  exact hinv.outboundSocket_ne_inboundSocket hs

/-- Only a sweep that finds it expired removes a session. -/
theorem SessionStep.sweep_of_none {context : WgcfRelayContext} {sid : UInt64} {s : WgcfRelaySession}
    (hstep : SessionStep context l sid (some s) none) :
    ∃ now order epollDel, l.event = .idleSweep now order epollDel ∧ s.expired now = true := by
  cases hstep with
  | expired hl hexp => exact ⟨_, _, _, hl, hexp⟩

/-- A session that is live before and after a step is the same session. -/
theorem SessionStep.same {context : WgcfRelayContext} {sid : UInt64} {s s' : WgcfRelaySession}
    (h : SessionStep context l sid (some s) (some s')) : s.SameSession s' := by
  cases h with
  | untouched => rfl
  | fromClient => exact s.forwardToServer_same _ _ _ _ _
  | fromServer => exact s.forwardToClient_same _ _ _ _
  | kept => exact s.reportDropped_same

end WgRelay
