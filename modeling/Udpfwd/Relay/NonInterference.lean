import Udpfwd.Relay.Routing
import Udpfwd.Transition.Unwinding

/-!
# Sessions do not interfere

A client sees of the relay the idle sweeps, the datagrams that are its own, and what the kernel
answers for these. The descriptors and ports that the kernel picks are hidden from it, and so is
every datagram of another client. `sessions_do_not_interfere` says that nothing else matters to
the client: in two runs in which it sees the same, the relay makes the same calls for it with the
same outcomes, sends the same datagrams for it and makes the same of its session.

`serve` is the relay with this client alone: what becomes of its session, and what is done for
it, as a function of what it sees. A step that the client sees does what `serve` does
(`Step.serve`), and a step that is hidden from it leaves its session alone, so equality of the
session up to its descriptor and its port is an unwinding.
-/

open Net

namespace WgRelay

/-! ### What a client sees -/

/-- What the kernel answered to a call, without the descriptor or port that it picked. -/
inductive Outcome
  | socket (result : Except Errno Unit)
  | bind (result : Except Errno Unit)
  | getsockname (result : Except Errno Unit)
  | epollAdd (result : Except Errno Unit)
  | sendto (result : Except Errno ℕ)
  | clock (now : UInt64)
  deriving DecidableEq

/-- The outcome of a call. -/
def outcomeOf : Syscall → Option Outcome
  | .socket _ r => some (.socket (r.map fun _ ↦ ()))
  | .bind _ _ r => some (.bind r)
  | .getsockname _ r => some (.getsockname (r.map fun _ ↦ ()))
  | .epollAdd _ _ r => some (.epollAdd r)
  | .sendto _ _ _ r => some (.sendto r)
  | .clockGettime now => some (.clock now)
  | _ => none

/-- The outcomes of the calls among the actions. -/
def outcomes (acts : List Action) : List Outcome := (calls acts).filterMap outcomeOf

/-- The answers of the kernel without the descriptor and the port that it picks. -/
def Answers.anonymous (a : Answers) : Answers :=
  { a with
    socket := a.socket.map fun _ ↦ -1
    getsockname := a.getsockname.map fun _ ↦ 0 }

/-- What goes into a step that concerns a client: the reading of a sweep, or a datagram with what
the kernel answers to whatever call the relay makes for it. An answer to a call that is not made
is not looked at. -/
inductive Input
  | sweep (now : UInt64)
  | fromClient (payload : Packet) (source : INetSocketAddress) (answers : Answers)
  | fromServer (payload : Packet) (answers : Answers)

/-- A datagram sent for a client. -/
structure SentFor where
  payload : Packet
  direction : Direction
  target : SockAddr
  deriving DecidableEq

/-- What is done for a client in a step. -/
structure Output where
  outcomes : List Outcome
  datagrams : List SentFor
  deriving DecidableEq

/-- What some actions are to a client, when `dir` is where its sockets lead. -/
def outputOf (dir : SocketHandle → Direction) (acts : List Action) : Output where
  outcomes := outcomes acts
  datagrams := (sends acts).map fun send ↦ ⟨send.payload, dir send.socket, send.target⟩

/-- A packet on the inbound socket goes to a client, any other one to the server. -/
def WgcfRelayContext.direction (context : WgcfRelayContext) (fd : SocketHandle) : Direction :=
  if fd = context.inboundSocket then .toClient else .toServer

/-- The session id `sid` as an observer: it sees the sweeps and the datagrams of its own
client. -/
def observer (sid : UInt64) : LTS.Observer RelayState Label Input Output where
  input σ l :=
    match l.event with
    | .idleSweep now _ _ => some (.sweep now)
    | .received fd (.ok d) a =>
      (arrival σ.context sid fd d).map fun
        | .fromClient source => .fromClient d.payload source a.anonymous
        | .fromServer => .fromServer d.payload a.anonymous
    | .received _ (.error _) _ => none
  output σ l := [outputOf σ.context.direction l.actions]

/-- A session without its descriptor and its port. -/
def WgcfRelaySession.anonymous (s : WgcfRelaySession) : WgcfRelaySession :=
  { s with
    outboundSocket := -1
    outboundSocketAddress := { s.outboundSocketAddress with port := 0 } }

/-- The session of a client, if it has one, without its descriptor and its port. -/
def clientView (sid : UInt64) (σ : RelayState) : Option WgcfRelaySession :=
  (σ.context.sessions.lookup sid).map (·.anonymous)

/-! ### One client alone -/

/-- The kernel grants every call of a creation. -/
def Answers.grantsCreation (a : Answers) : Bool :=
  a.socket.isOk && a.bind.isOk && a.getsockname.isOk && a.epollAdd.isOk

/-- The outcomes of the calls of a creation. -/
def Answers.creation (a : Answers) : List Outcome :=
  match a.socket with
  | .error e => [.socket (.error e)]
  | .ok _ => .socket (.ok ()) ::
    match a.bind with
    | .error e => [.bind (.error e)]
    | .ok _ => .bind (.ok ()) ::
      match a.getsockname with
      | .error e => [.getsockname (.error e)]
      | .ok _ => .getsockname (.ok ()) ::
        match a.epollAdd with
        | .error e => [.epollAdd (.error e)]
        | .ok _ => [.epollAdd (.ok ()), .clock a.createdAt]

/-- What the relay does for the client `sid` and makes of its session, in a step that the client
sees. -/
def serve (destination : INetSocketAddress) (sid : UInt64) :
    Input → Option WgcfRelaySession → Option WgcfRelaySession × Output
  | .sweep now, view => (view.bind (·.swept now), ⟨[.clock now], []⟩)
  | .fromClient payload source a, some s =>
    let (s, acts) := s.forwardToServer destination payload sid source a
    (some s, outputOf (fun _ ↦ .toServer) acts)
  | .fromClient payload source a, none =>
    if a.grantsCreation then
      let s := newSession { destinationAddress := destination } sid
        (typeAndReserved payload >>> 8) source (-1) 0 a.createdAt
      let (s, acts) := s.forwardToServer destination payload sid source a
      let sent := outputOf (fun _ ↦ .toServer) acts
      (some s, { sent with outcomes := a.creation ++ sent.outcomes })
    else (none, ⟨a.creation, []⟩)
  | .fromServer payload a, some s =>
    let (s, acts) := s.forwardToClient (-1) payload sid a
    (some s, outputOf (fun _ ↦ .toClient) acts)
  | .fromServer _ _, none => (none, ⟨[], []⟩)

section Outcomes

variable {acts acts' : List Action} {a : Answers} {epoll sock : SocketHandle} {port : UInt16}

@[simp]
theorem outcomes_append : outcomes (acts ++ acts') = outcomes acts ++ outcomes acts' := by
  simp [outcomes]

@[simp]
theorem outcomes_recvfrom {fd : SocketHandle} {r : Except Errno Datagram} :
    outcomes (.call (.recvfrom fd r) :: acts) = outcomes acts := rfl

/-- Which answers the kernel gives does not depend on what it picks. -/
theorem creation_anonymous (a : Answers) : a.anonymous.creation = a.creation := by
  rcases a with ⟨e | sock, bind, e' | port, epollAdd, createdAt, sendto, sentAt⟩ <;> rfl

theorem grantsCreation_anonymous (a : Answers) :
    a.anonymous.grantsCreation = a.grantsCreation := by
  rcases a with ⟨e | sock, bind, e' | port, epollAdd, createdAt, sendto, sentAt⟩ <;> rfl

theorem Answers.Creates.grantsCreation (h : a.Creates sock port) : a.grantsCreation = true := by
  rw [Answers.grantsCreation, h.socket, h.bind, h.getsockname, h.epollAdd]
  rfl

theorem FailedCreation.grantsCreation (h : FailedCreation epoll a acts) :
    a.grantsCreation = false := by
  cases h <;> simp [Answers.grantsCreation, *, Except.isOk, Except.toBool]

/-- A creation that fails has the outcomes that the answers say. -/
theorem FailedCreation.outcomes_eq (h : FailedCreation epoll a acts) :
    outcomes acts = a.creation := by
  cases h <;> simp [outcomes, outcomeOf, Answers.creation, *, Except.map]

/-- A creation that succeeds has the outcomes that the answers say. -/
theorem Answers.Creates.outcomes_eq (h : a.Creates sock port) {family : UInt16} {addr : SockAddr}
    {sid : UInt64} :
    outcomes (creationActions epoll family addr sid sock port a.createdAt) = a.creation := by
  rw [Answers.creation, h.socket, h.bind, h.getsockname, h.epollAdd]
  rfl

/-- The sweep calls the clock, and otherwise nothing that a client sees. -/
theorem outcomes_sweep (now : UInt64) (epollDel : SocketHandle → Except Errno Unit)
    (context : WgcfRelayContext) (order : List UInt64) :
    outcomes (.call (.clockGettime now) :: order.flatMap (sweepActions now epollDel context)) =
      [.clock now] := by
  have hnil : outcomes (order.flatMap (sweepActions now epollDel context)) = [] := by
    rw [outcomes, List.filterMap_eq_nil_iff]
    intro c hc
    rcases eq_of_mem_calls_sweepActions hc with ⟨fd, r, rfl⟩ | ⟨fd, rfl⟩ <;> rfl
  rw [← hnil]
  rfl

end Outcomes

/-! ### One packet -/

section Forward

variable {s s' : WgcfRelaySession} {a a' : Answers}

theorem dropping_anonymous (s : WgcfRelaySession) (dir : Direction) :
    (s.dropping dir).anonymous = s.anonymous.dropping dir := by
  cases dir <;> rfl

theorem stamping_anonymous (s : WgcfRelaySession) (now : UInt64) (dir : Direction) :
    (s.stamping now dir).anonymous = s.anonymous.stamping now dir := by
  cases dir <;> rfl

/-- Nothing is left to hide in answers without a descriptor and a port. -/
theorem Answers.anonymous_anonymous (a : Answers) : a.anonymous.anonymous = a.anonymous := by
  rcases a with ⟨e | sock, bind, e' | port, epollAdd, createdAt, sendto, sentAt⟩ <;> rfl

/-- What forwarding makes of a session and how its calls come out follows from the answers,
whatever the socket. -/
theorem WgcfRelaySession.Forwarding.congr {dir : Direction} {sock sock' : SocketHandle}
    {packet : Packet} {dest : Option SockAddr} {sid : UInt64} {acts acts' : List Action}
    {unsent attempted unsent' attempted' : WgcfRelaySession}
    (h : Forwarding dir sock packet dest sid a unsent attempted s acts)
    (h' : Forwarding dir sock' packet dest sid a' unsent' attempted' s' acts')
    (ha : a.anonymous = a'.anonymous) (hunsent : unsent.anonymous = unsent'.anonymous)
    (hattempted : attempted.anonymous = attempted'.anonymous) :
    s.anonymous = s'.anonymous ∧ outcomes acts = outcomes acts' := by
  have hsendto : a.sendto = a'.sendto := congrArg (·.sendto) ha
  have hsentAt : a.sentAt = a'.sentAt := congrArg (·.sentAt) ha
  cases h with
  | unsent hdest =>
    cases h' with
    | unsent => exact ⟨hunsent, rfl⟩
    | failed hdest' | sent hdest' => exact absurd (hdest.symm.trans hdest') (by simp)
  | failed hdest hsend =>
    cases h' with
    | unsent hdest' => exact absurd (hdest.symm.trans hdest') (by simp)
    | failed _ hsend' =>
      obtain rfl := Except.error.inj (hsend.symm.trans (hsendto.trans hsend'))
      refine ⟨?_, rfl⟩
      split
      · rw [dropping_anonymous, dropping_anonymous, hattempted]
      · exact hattempted
    | sent _ hsend' =>
      exact absurd (hsend.symm.trans (hsendto.trans hsend')) (by simp)
  | sent hdest hsend =>
    cases h' with
    | unsent hdest' => exact absurd (hdest.symm.trans hdest') (by simp)
    | failed _ hsend' =>
      exact absurd (hsend.symm.trans (hsendto.trans hsend')) (by simp)
    | sent _ hsend' =>
      obtain rfl := Except.ok.inj (hsend.symm.trans (hsendto.trans hsend'))
      rw [stamping_anonymous, stamping_anonymous, hattempted, hsentAt]
      exact ⟨rfl, rfl⟩

variable {dir : SocketHandle → Direction}

/-- A session that only changes in what a client sees has no descriptor and no port to hide. -/
theorem anonymous_of_same (h : s.anonymous.SameSession s') : s'.anonymous = s' := by
  have hsocket := h.outboundSocket
  have haddress := h.outboundSocketAddress
  rcases s' with ⟨_, _, _, _, sock, _, _, _, _, _, _, address, _⟩
  obtain rfl : sock = -1 := hsocket
  obtain rfl : address = { s.outboundSocketAddress with port := 0 } := haddress
  rfl

/-- A packet that is passed on, as its client sees it. -/
theorem WgcfRelaySession.Forwarding.outputOf_eq {way : Direction} {sock : SocketHandle}
    {packet : Packet} {dest : Option SockAddr} {sid : UInt64} {acts : List Action}
    {unsent attempted : WgcfRelaySession}
    (h : Forwarding way sock packet dest sid a unsent attempted s acts) :
    outputOf dir acts = ⟨outcomes acts, dest.toList.map (⟨packet, dir sock, ·⟩)⟩ := by
  rw [outputOf, h.sends, List.map_map]
  rfl

/-- What is done with a packet of a client is the same without its descriptor and its port. -/
theorem forwardToServer_anonymous (s : WgcfRelaySession) (destination source : INetSocketAddress)
    (packet : Packet) (sid : UInt64) (a : Answers)
    (hdir : dir (s.forwardToServer destination packet sid source a).1.outboundSocket =
      .toServer) :
    (s.anonymous.forwardToServer destination packet sid source a.anonymous).1 =
        (s.forwardToServer destination packet sid source a).1.anonymous ∧
      outputOf (fun _ ↦ .toServer)
          (s.anonymous.forwardToServer destination packet sid source a.anonymous).2 =
        outputOf dir (s.forwardToServer destination packet sid source a).2 := by
  have hforward := s.forwardToServer_forwarding destination source packet sid a
  have hforward' :=
    s.anonymous.forwardToServer_forwarding destination source packet sid a.anonymous
  have hsame := s.anonymous.forwardToServer_same destination source packet sid a.anonymous
  obtain ⟨hsession, houtcomes⟩ :=
    hforward'.congr hforward (Answers.anonymous_anonymous a) rfl rfl
  rw [anonymous_of_same hsame] at hsession
  rw [(s.forwardToServer_same _ _ _ _ _).outboundSocket] at hdir
  refine ⟨hsession, ?_⟩
  rw [hforward'.outputOf_eq, hforward.outputOf_eq, houtcomes, hdir]

/-- What is done with a packet of the server is the same without the descriptor and the port of
the client. -/
theorem forwardToClient_anonymous (s : WgcfRelaySession) (inbound : SocketHandle)
    (packet : Packet) (sid : UInt64) (a : Answers) (hdir : dir inbound = .toClient) :
    (s.anonymous.forwardToClient (-1) packet sid a.anonymous).1 =
        (s.forwardToClient inbound packet sid a).1.anonymous ∧
      outputOf (fun _ ↦ .toClient) (s.anonymous.forwardToClient (-1) packet sid a.anonymous).2 =
        outputOf dir (s.forwardToClient inbound packet sid a).2 := by
  have hforward := s.forwardToClient_forwarding inbound packet sid a
  have hforward' := s.anonymous.forwardToClient_forwarding (-1) packet sid a.anonymous
  have hsame := s.anonymous.forwardToClient_same (-1) packet sid a.anonymous
  obtain ⟨hsession, houtcomes⟩ :=
    hforward'.congr hforward (Answers.anonymous_anonymous a) rfl rfl
  rw [anonymous_of_same hsame] at hsession
  refine ⟨hsession, ?_⟩
  rw [hforward'.outputOf_eq, hforward.outputOf_eq, houtcomes, hdir]
  rfl

/-- What the idle sweep makes of a session does not depend on its descriptor. -/
theorem swept_anonymous (s : WgcfRelaySession) (now : UInt64) :
    s.anonymous.swept now = (s.swept now).map (·.anonymous) := by
  have hexp : s.anonymous.expired now = s.expired now := rfl
  have hreport : s.anonymous.reportDropped = s.reportDropped.anonymous := by
    by_cases hdropped : s.droppedRxSinceLastReport ≠ 0 ∨ s.droppedTxSinceLastReport ≠ 0 <;>
      simp [WgcfRelaySession.reportDropped, WgcfRelaySession.anonymous, hdropped]
  rw [WgcfRelaySession.swept, WgcfRelaySession.swept, hexp, hreport]
  split <;> rfl

end Forward

/-! ### The unwinding -/

/-- Two states that the client `sid` cannot tell apart. -/
structure Alike (inherited : Finset SocketHandle) (sid : UInt64) (σ σ' : RelayState) :
    Prop where
  client : clientView sid σ = clientView sid σ'
  destination : σ.context.destinationAddress = σ'.context.destinationAddress
  tables : TableInvariant inherited σ
  tables' : TableInvariant inherited σ'

section Unwinding

variable {inherited : Finset SocketHandle} {sid : UInt64} {σ σ' τ τ' : RelayState}
variable {l l' : Label}

/-- A step that is hidden from a client leaves its session alone. -/
theorem clientView_of_hidden (hst : relay.step σ l τ)
    (hhidden : (observer sid).input σ l = none) : clientView sid τ = clientView sid σ := by
  have hstep := Step.session hst sid
  simp only [clientView]
  generalize σ.context.sessions.lookup sid = o at hstep ⊢
  generalize τ.context.sessions.lookup sid = o' at hstep ⊢
  cases hstep with
  | untouched => rfl
  | refused hevent harrival | created hevent harrival | fromClient hevent harrival
  | fromServer hevent harrival | stray hevent harrival =>
    simp [observer, hevent, harrival] at hhidden
  | kept hevent | expired hevent => simp [observer, hevent] at hhidden

/-- What a client sees going into a step. -/
theorem input_cases {i : Input} (hi : (observer sid).input σ l = some i) :
    (∃ now order epollDel, l.event = .idleSweep now order epollDel ∧ i = .sweep now) ∨
    ∃ fd d a, l.event = .received fd (.ok d) a ∧
      ((∃ source, arrival σ.context sid fd d = some (.fromClient source) ∧
          i = .fromClient d.payload source a.anonymous) ∨
        (arrival σ.context sid fd d = some .fromServer ∧
          i = .fromServer d.payload a.anonymous)) := by
  rcases hl : l.event with ⟨now, order, epollDel⟩ | ⟨fd, e | d, a⟩
  · simp only [observer, hl, Option.some.injEq] at hi
    exact .inl ⟨now, order, epollDel, rfl, hi.symm⟩
  · simp [observer, hl] at hi
  · simp only [observer, hl, Option.map_eq_some_iff] at hi
    obtain ⟨source | -, harrival, rfl⟩ := hi
    · exact .inr ⟨fd, d, a, rfl, .inl ⟨source, harrival, rfl⟩⟩
    · exact .inr ⟨fd, d, a, rfl, .inr ⟨harrival, rfl⟩⟩

/-- A sweep serves a client. -/
theorem Step.serve_sweep {now : UInt64} {order : List UInt64}
    {epollDel : SocketHandle → Except Errno Unit} (hst : relay.step σ l τ)
    (hl : l.event = .idleSweep now order epollDel) :
    clientView sid τ =
        (serve σ.context.destinationAddress sid (.sweep now) (clientView sid σ)).1 ∧
      outputOf σ.context.direction l.actions =
        (serve σ.context.destinationAddress sid (.sweep now) (clientView sid σ)).2 := by
  obtain ⟨-, horder, hswept, hacts⟩ := Step.sweep hst hl
  constructor
  · rw [clientView, clientView, hswept.sessions]
    rcases hs : σ.context.sessions.lookup sid with - | s
    · simp [serve]
    · rw [if_pos ((horder sid).2 (Finmap.mem_of_lookup_eq_some hs))]
      exact (swept_anonymous s now).symm
  · have hsends : sends l.actions = [] := by
      rw [hacts]
      exact sends_sweepActions now epollDel σ.context order
    rw [outputOf, hsends, hacts, outcomes_sweep]
    rfl

/-- A packet of a client serves it. -/
theorem Step.serve_fromClient {fd : SocketHandle} {d : Datagram} {a : Answers}
    {source : INetSocketAddress} (hinv : TableInvariant inherited τ) (hst : relay.step σ l τ)
    (hl : l.event = .received fd (.ok d) a)
    (harrival : arrival σ.context sid fd d = some (.fromClient source)) :
    clientView sid τ = (serve σ.context.destinationAddress sid
        (.fromClient d.payload source a.anonymous) (clientView sid σ)).1 ∧
      outputOf σ.context.direction l.actions = (serve σ.context.destinationAddress sid
        (.fromClient d.payload source a.anonymous) (clientView sid σ)).2 := by
  have hstep := Step.session hst sid
  have houtbound : ∀ s', τ.context.sessions.lookup sid = some s' →
      σ.context.direction s'.outboundSocket = .toServer :=
    fun _ hs' ↦ if_neg (Step.outboundSocket_ne hst hinv hs')
  simp only [clientView]
  generalize σ.context.sessions.lookup sid = o at hstep ⊢
  generalize τ.context.sessions.lookup sid = o' at hstep houtbound ⊢
  cases hstep with
  | untouched hother =>
    rw [hl] at hother
    exact absurd (harrival.symm.trans hother) (by simp)
  | kept hevent | expired hevent =>
    rw [hl] at hevent
    exact absurd hevent (by simp)
  | fromServer hevent hother | stray hevent hother =>
    rw [hl] at hevent
    cases hevent
    exact absurd (harrival.symm.trans hother) (by simp)
  | @refused fd d a source' acts hevent hother hacts hfail =>
    rw [hl] at hevent
    cases hevent
    have hgrants : a.anonymous.grantsCreation = false := by
      rw [grantsCreation_anonymous, hfail.grantsCreation]
    simp only [Option.map_none, serve, hgrants, Bool.false_eq_true, if_false]
    rw [outputOf, hacts, sends_recvfrom, hfail.sends_eq_nil, outcomes_recvfrom, hfail.outcomes_eq,
      creation_anonymous]
    exact ⟨trivial, rfl⟩
  | @created fd d a source' family addr sock port s hevent hother hcreates hnew hacts =>
    rw [hl] at hevent
    cases hevent
    obtain rfl : source = source' := by simpa using harrival.symm.trans hother
    have hgrants : a.anonymous.grantsCreation = true := by
      rw [grantsCreation_anonymous, hcreates.grantsCreation]
    obtain ⟨hsession, houtput⟩ := forwardToServer_anonymous s σ.context.destinationAddress source
      d.payload sid a (houtbound _ rfl)
    have hs : newSession { destinationAddress := σ.context.destinationAddress } sid
        (typeAndReserved d.payload >>> 8) source (-1) 0 a.anonymous.createdAt = s.anonymous := by
      rw [hnew]
      rfl
    simp only [Option.map_none, Option.map_some, serve, hgrants, if_true, hs]
    have hcreation : outcomes (creationActions σ.context.epollHandle family addr sid sock port
        a.createdAt) = a.creation := hcreates.outcomes_eq
    refine ⟨congrArg some hsession.symm, ?_⟩
    rw [houtput, creation_anonymous, ← hcreation, hacts]
    simp [outputOf, sends_creationActions]
  | @fromClient fd d a source' s hevent hother hacts =>
    rw [hl] at hevent
    cases hevent
    obtain rfl : source = source' := by simpa using harrival.symm.trans hother
    obtain ⟨hsession, houtput⟩ := forwardToServer_anonymous s σ.context.destinationAddress source
      d.payload sid a (houtbound _ rfl)
    simp only [Option.map_some, serve]
    refine ⟨congrArg some hsession.symm, ?_⟩
    rw [houtput, hacts]
    simp [outputOf]

/-- A packet of the server for a client serves it. -/
theorem Step.serve_fromServer {fd : SocketHandle} {d : Datagram} {a : Answers}
    (hst : relay.step σ l τ) (hl : l.event = .received fd (.ok d) a)
    (harrival : arrival σ.context sid fd d = some .fromServer) :
    clientView sid τ = (serve σ.context.destinationAddress sid
        (.fromServer d.payload a.anonymous) (clientView sid σ)).1 ∧
      outputOf σ.context.direction l.actions = (serve σ.context.destinationAddress sid
        (.fromServer d.payload a.anonymous) (clientView sid σ)).2 := by
  have hstep := Step.session hst sid
  simp only [clientView]
  generalize σ.context.sessions.lookup sid = o at hstep ⊢
  generalize τ.context.sessions.lookup sid = o' at hstep ⊢
  cases hstep with
  | untouched hother =>
    rw [hl] at hother
    exact absurd (harrival.symm.trans hother) (by simp)
  | kept hevent | expired hevent =>
    rw [hl] at hevent
    exact absurd hevent (by simp)
  | refused hevent hother | created hevent hother | fromClient hevent hother =>
    rw [hl] at hevent
    cases hevent
    exact absurd (harrival.symm.trans hother) (by simp)
  | stray hevent hother hacts =>
    rw [hacts]
    exact ⟨rfl, rfl⟩
  | @fromServer fd d a s hevent hother hacts =>
    rw [hl] at hevent
    cases hevent
    have hdirection : σ.context.direction σ.context.inboundSocket = .toClient := if_pos rfl
    obtain ⟨hsession, houtput⟩ := forwardToClient_anonymous s σ.context.inboundSocket d.payload
      sid a hdirection
    simp only [Option.map_some, serve]
    refine ⟨congrArg some hsession.symm, ?_⟩
    rw [houtput, hacts]
    simp [outputOf]

/-- **A step that a client sees serves it alone**: what becomes of its session and what is done
for it follows from what it sees. -/
theorem Step.serve {i : Input} (hinv : TableInvariant inherited τ) (hst : relay.step σ l τ)
    (hi : (observer sid).input σ l = some i) :
    clientView sid τ =
        (serve σ.context.destinationAddress sid i (clientView sid σ)).1 ∧
      (observer sid).output σ l =
        [(serve σ.context.destinationAddress sid i (clientView sid σ)).2] := by
  suffices hserved : clientView sid τ =
        (WgRelay.serve σ.context.destinationAddress sid i (clientView sid σ)).1 ∧
      outputOf σ.context.direction l.actions =
        (WgRelay.serve σ.context.destinationAddress sid i (clientView sid σ)).2 from
    ⟨hserved.1, congrArg (fun out ↦ [out]) hserved.2⟩
  rcases input_cases hi with ⟨now, order, epollDel, hl, rfl⟩ |
    ⟨fd, d, a, hl, ⟨source, harrival, rfl⟩ | ⟨harrival, rfl⟩⟩
  · exact Step.serve_sweep hst hl
  · exact Step.serve_fromClient hinv hst hl harrival
  · exact Step.serve_fromServer hst hl harrival

/-- **The step conditions.** -/
theorem alike_unwinding (inherited : Finset SocketHandle) (sid : UInt64) :
    relay.Unwinding (observer sid) (Alike inherited sid) where
  hidden_left halike hst hhidden :=
    ⟨(clientView_of_hidden hst hhidden).trans halike.client,
      (Step.fixed hst).2.2.1.trans halike.destination, (halike.tables.step hst).1,
      halike.tables'⟩
  hidden_right halike hst hhidden :=
    ⟨halike.client.trans (clientView_of_hidden hst hhidden).symm,
      halike.destination.trans (Step.fixed hst).2.2.1.symm, halike.tables,
      (halike.tables'.step hst).1⟩
  visible := by
    intro σ σ' l l' τ τ' i halike hst hst' hi hi'
    have htables := (halike.tables.step hst).1
    have htables' := (halike.tables'.step hst').1
    have hdestination : τ.context.destinationAddress = τ'.context.destinationAddress := by
      rw [(Step.fixed hst).2.2.1, (Step.fixed hst').2.2.1, halike.destination]
    obtain ⟨hclient, hout⟩ := Step.serve htables hst hi
    obtain ⟨hclient', hout'⟩ := Step.serve htables' hst' hi'
    rw [halike.client, halike.destination] at hclient hout
    exact ⟨⟨hclient.trans hclient'.symm, hdestination, htables, htables'⟩,
      hout.trans hout'.symm⟩

end Unwinding

/-- **Sessions do not interfere.** Let two runs go on from the same reachable state, and let the
client `sid` see the same sweeps in them and the same datagrams of its own, for which the kernel
has the same answers up to the descriptor and the port that it picks. Then they end in states
with the same session of `sid`, up to its descriptor and its port; and step by step the calls
that are made for the client have the same outcomes and the datagrams that are sent for it are
the same. -/
theorem sessions_do_not_interfere {inherited : Finset SocketHandle} {σ₀ σ₁ σ σ' : RelayState}
    {past h h' : List Label} {sid : UInt64} (hstart : Started inherited σ₀)
    (hreach : relay.Run σ₀ past σ₁) (hrun : relay.Run σ₁ h σ) (hrun' : relay.Run σ₁ h' σ')
    (hseen : (observer sid).inputs RelayState.next σ₁ h =
      (observer sid).inputs RelayState.next σ₁ h') :
    clientView sid σ = clientView sid σ' ∧
      (observer sid).outputs RelayState.next σ₁ h =
        (observer sid).outputs RelayState.next σ₁ h' := by
  have hinv := TableInvariant.run hstart hreach
  obtain ⟨halike, hout⟩ := (alike_unwinding inherited sid).run relay_follows
    ⟨rfl, rfl, hinv, hinv⟩ hrun hrun' hseen
  exact ⟨halike.client, hout⟩

/-- A client sends a packet and is answered, and the relay sweeps. -/
def aloneEvents : List Event :=
  [sampleArrival 1000, .received 5 (.ok serverDatagram) (sampleAnswers 1001),
    .idleSweep 1002 [sampleSid] fun _ ↦ .ok ()]

/-- The same, but another client has come first: the client gets another descriptor and another
port, and an answer to the other one arrives before its own. -/
def amongOthersEvents : List Event :=
  [.received 3 (.ok otherDatagram) (sampleAnswers 999),
    .received 3 (.ok sampleDatagram)
      { sampleAnswers 1000 with socket := .ok 6, getsockname := .ok 0x5678 },
    .received 5 (.ok serverDatagram) (sampleAnswers 1001),
    .received 6 (.ok serverDatagram)
      { sampleAnswers 1001 with socket := .ok 6, getsockname := .ok 0x5678 },
    .idleSweep 1002 [otherSid, sampleSid] fun _ ↦ .error .EINVAL]

/-- The run of these events. -/
def alone : List Label × RelayState := (execs sampleStart aloneEvents).get (by decide)

/-- The run of these events. -/
def amongOthers : List Label × RelayState :=
  (execs sampleStart amongOthersEvents).get (by decide)

/-- The client does not notice the other one. -/
theorem others_unnoticed :
    clientView sampleSid alone.2 = clientView sampleSid amongOthers.2 ∧
      (observer sampleSid).outputs RelayState.next sampleStart alone.1 =
        (observer sampleSid).outputs RelayState.next sampleStart amongOthers.1 :=
  sessions_do_not_interfere sampleStart_started .nil (execs_get_run _) (execs_get_run _)
    rfl

end WgRelay
