import Udpfwd.Relay.Routing
import Udpfwd.Transition.Instrumented

/-!
# The drop statistics of a session

A session counts in 32 bits how many datagrams `sendto` was asked to send for it, in each
direction, and how many of these calls failed with `EAGAIN`. The sweep reports the drops and
resets all four counters, but only when there has been one.

What the counters stand for is an auxiliary variable of the relay, `counting`: unbounded
numbers that are read off the calls of `sendto`, not off the counters. `Counts` is the
invariant. It says that every counter is the number modulo `2 ^ 32`, so the statistics are
exact as long as fewer than `2 ^ 32` calls come between two resets, and in no other state.
-/

open Net

namespace WgRelay

/-! ### What there is to count -/

/-- How many calls of `sendto` were made, and how many of them failed with `EAGAIN`. -/
structure Statistics where
  attempts : ℕ := 0
  dropped : ℕ := 0
  deriving DecidableEq

/-- Further calls. -/
def Statistics.add (n : Statistics) (results : List (Except Errno ℕ)) : Statistics :=
  ⟨n.attempts + results.length, n.dropped + results.count (.error .EAGAIN)⟩

@[simp]
theorem Statistics.add_nil (n : Statistics) : n.add [] = n := rfl

/-- The results of the calls of `sendto` on the socket `handle`. -/
def sendResults (handle : SocketHandle) (acts : List Action) : List (Except Errno ℕ) :=
  (calls acts).filterMap fun
    | .sendto fd _ _ result => if fd = handle then some result else none
    | _ => none

/-- The socket on which an event receives. -/
def Event.receivedOn : Event → Option SocketHandle
  | .received fd _ _ => some fd
  | .idleSweep .. => none

/-- The results of the calls of `sendto` that a step makes for the session with the outbound
socket `sock`: on this socket towards the server, and on the inbound socket towards the client
when the step has received on this socket. -/
def Label.attempts (l : Label) (inbound sock : SocketHandle) :
    Direction → List (Except Errno ℕ)
  | .toServer => sendResults sock l.actions
  | .toClient => if l.event.receivedOn = some sock then sendResults inbound l.actions else []

/-- The step is a sweep that resets the counters of the session. -/
def Label.Resets (l : Label) (s : WgcfRelaySession) : Prop :=
  l.event.sweepTime.isSome ∧ (s.droppedRxSinceLastReport ≠ 0 ∨ s.droppedTxSinceLastReport ≠ 0)

instance (l : Label) (s : WgcfRelaySession) : Decidable (l.Resets s) :=
  inferInstanceAs (Decidable (_ ∧ _))

/-- What a step makes of the numbers of one session, which is `o` before the step and `o'`
after it: they start at zero when the session is created, and when it is reset. -/
def recount (l : Label) (inbound : SocketHandle) (o o' : Option WgcfRelaySession)
    (n : Direction → Statistics) : Direction → Statistics :=
  match o, o' with
  | _, none => fun _ ↦ {}
  | none, some s' => fun dir ↦ ({} : Statistics).add (l.attempts inbound s'.outboundSocket dir)
  | some s, some s' => fun dir ↦
    (if l.Resets s then {} else n dir).add (l.attempts inbound s'.outboundSocket dir)

/-- The relay, with the numbers of every session as an auxiliary variable. -/
def counting : LTS (RelayState × (UInt64 → Direction → Statistics)) Label :=
  relay.instrumented fun σ l σ' n sid ↦
    recount l σ.context.inboundSocket (σ.context.sessions.lookup sid)
      (σ'.context.sessions.lookup sid) (n sid)

/-- Nothing has been sent yet. -/
def noStatistics : UInt64 → Direction → Statistics := fun _ _ ↦ {}

namespace WgcfRelaySession

/-- The counter of the packets in a direction. -/
def totalSinceLastReport (s : WgcfRelaySession) : Direction → UInt32
  | .toServer => s.totalTxPacketsSinceLastReport
  | .toClient => s.totalRxPacketsSinceLastReport

/-- The counter of the dropped packets in a direction. -/
def droppedSinceLastReport (s : WgcfRelaySession) : Direction → UInt32
  | .toServer => s.droppedTxSinceLastReport
  | .toClient => s.droppedRxSinceLastReport

/-- The counters of the session are the numbers they stand for, and no more packets are
reported as dropped than there were. -/
structure StatisticsExact (s : WgcfRelaySession) (n : Direction → Statistics) : Prop where
  total : ∀ dir, (s.totalSinceLastReport dir).toNat = (n dir).attempts
  dropped : ∀ dir, (s.droppedSinceLastReport dir).toNat = (n dir).dropped
  dropped_le : ∀ dir, s.droppedSinceLastReport dir ≤ s.totalSinceLastReport dir

/-- The counters of the session are the numbers they stand for, in 32 bits. -/
structure Counts (s : WgcfRelaySession) (n : Direction → Statistics) : Prop where
  total : ∀ dir, s.totalSinceLastReport dir = .ofNat (n dir).attempts
  dropped : ∀ dir, s.droppedSinceLastReport dir = .ofNat (n dir).dropped
  dropped_le : ∀ dir, (n dir).dropped ≤ (n dir).attempts

variable {s s' : WgcfRelaySession} {n : Direction → Statistics}

/-- Counters of 32 bits are exact exactly when the numbers fit. -/
theorem Counts.statisticsExact_iff (h : s.Counts n) :
    s.StatisticsExact n ↔ ∀ dir, (n dir).attempts < 2 ^ 32 := by
  constructor
  · intro hexact dir
    rw [← hexact.total dir]
    exact UInt32.toNat_lt _
  · intro hfits
    have htotal : ∀ dir, (s.totalSinceLastReport dir).toNat = (n dir).attempts := by
      intro dir
      rw [h.total dir]
      exact UInt32.toNat_ofNat_of_lt' (hfits dir)
    have hdropped : ∀ dir, (s.droppedSinceLastReport dir).toNat = (n dir).dropped := by
      intro dir
      rw [h.dropped dir]
      exact UInt32.toNat_ofNat_of_lt' ((h.dropped_le dir).trans_lt (hfits dir))
    refine ⟨htotal, hdropped, fun dir ↦ ?_⟩
    rw [UInt32.le_iff_toNat_le, htotal, hdropped]
    exact h.dropped_le dir

end WgcfRelaySession

/-! ### The results of one step -/

section Results

variable {handle sock : SocketHandle} {acts acts' : List Action} {l : Label}

@[simp]
theorem sendResults_append :
    sendResults handle (acts ++ acts') = sendResults handle acts ++ sendResults handle acts' := by
  simp [sendResults]

@[simp]
theorem sendResults_recvfrom {fd : SocketHandle} {r : Except Errno Datagram} :
    sendResults handle (.call (.recvfrom fd r) :: acts) = sendResults handle acts := rfl

@[simp]
theorem sendResults_creationActions {epoll : SocketHandle} {family : UInt16} {addr : SockAddr}
    {sid now : UInt64} {port : UInt16} :
    sendResults handle (creationActions epoll family addr sid sock port now) = [] := rfl

/-- What is not sent on a socket has no result there. -/
theorem sendResults_eq_nil (h : ∀ send ∈ sends acts, send.socket ≠ handle) :
    sendResults handle acts = [] := by
  rw [sendResults, List.filterMap_eq_nil_iff]
  intro c hc
  cases c with
  | sendto fd packet dest result =>
    have hmem : ⟨fd, packet, dest⟩ ∈ sends acts := List.mem_filterMap.2 ⟨_, hc, rfl⟩
    exact if_neg (h _ hmem)
  | _ => rfl

theorem Label.attempts_eq_nil (hsends : sends l.actions = []) (inbound sock : SocketHandle)
    (dir : Direction) : l.attempts inbound sock dir = [] := by
  have hnil : ∀ handle, sendResults handle l.actions = [] :=
    fun handle ↦ sendResults_eq_nil (by rw [hsends]; nofun)
  cases dir with
  | toServer => exact hnil sock
  | toClient =>
    show (if _ then _ else _) = _
    rw [hnil, ite_self]

end Results

namespace WgcfRelaySession

variable {s s' unsent attempted : WgcfRelaySession} {n : Direction → Statistics}
variable {dir : Direction} {sock : SocketHandle} {packet : Packet} {dest : Option SockAddr}
variable {sid : UInt64} {a : Answers} {acts : List Action}

/-- A packet is sent on one socket only. -/
theorem Forwarding.sendResults_of_ne {handle : SocketHandle}
    (h : Forwarding dir sock packet dest sid a unsent attempted s' acts) (hne : sock ≠ handle) :
    sendResults handle acts = [] := by
  refine sendResults_eq_nil fun send hsend ↦ ?_
  rw [h.sends, List.mem_map] at hsend
  obtain ⟨target, -, rfl⟩ := hsend
  exact hne

/-- One call of `sendto` in the direction `dir` that is counted, with its result. -/
theorem Counts.call {r : Except Errno ℕ} (hs : s.Counts n)
    (htotal : ∀ dir', s'.totalSinceLastReport dir' =
      s.totalSinceLastReport dir' + if dir' = dir then 1 else 0)
    (hdropped : ∀ dir', s'.droppedSinceLastReport dir' =
      s.droppedSinceLastReport dir' + if dir' = dir ∧ r = .error .EAGAIN then 1 else 0) :
    s'.Counts fun dir' ↦ (n dir').add (if dir' = dir then [r] else []) := by
  refine ⟨fun dir' ↦ ?_, fun dir' ↦ ?_, fun dir' ↦ ?_⟩
  · rw [htotal, hs.total]
    split
    · rw [Statistics.add, List.length_singleton, UInt32.ofNat_add]
      rfl
    · exact UInt32.add_zero _
  · rw [hdropped, hs.dropped, Statistics.add, UInt32.ofNat_add]
    congr 1
    by_cases hdir : dir' = dir <;> by_cases hr : r = .error .EAGAIN <;> simp [hdir, hr]
  · have hle := hs.dropped_le dir'
    have hcount := List.count_le_length (a := Except.error Errno.EAGAIN)
      (l := if dir' = dir then [r] else [])
    exact Nat.add_le_add hle hcount

/-- **Forwarding counts.** The total of the direction is counted up before the packet is sent,
the drops after it. -/
theorem Forwarding.counts (h : Forwarding dir sock packet dest sid a unsent attempted s' acts)
    (hs : s.Counts n) (hunsent : dest = none → unsent = s)
    (htotal : ∀ dir', attempted.totalSinceLastReport dir' =
      s.totalSinceLastReport dir' + if dir' = dir then 1 else 0)
    (hdropped : ∀ dir', attempted.droppedSinceLastReport dir' = s.droppedSinceLastReport dir') :
    s'.Counts fun dir' ↦ (n dir').add (if dir' = dir then sendResults sock acts else []) := by
  cases h with
  | unsent hdest =>
    rw [hunsent hdest]
    simpa [sendResults] using hs
  | @failed target e hdest hsend =>
    have hresults : sendResults sock [.call (.sendto sock packet target (.error e))] =
        [.error e] := by simp [sendResults]
    rw [hresults]
    refine hs.call (fun dir' ↦ ?_) fun dir' ↦ ?_
    · rw [← htotal]
      split <;> cases dir <;> cases dir' <;> rfl
    · rw [← hdropped]
      by_cases he : e = .EAGAIN
      · rw [if_pos he]
        cases dir <;> cases dir' <;> simp [he, dropping, droppedSinceLastReport]
      · simp [he]
  | @sent target m hdest hsend =>
    have hresults : sendResults sock [.call (.sendto sock packet target (.ok m)),
        .call (.clockGettime a.sentAt), .log (.forwarded sid dir a.sentAt)] = [.ok m] := by
      simp [sendResults]
    rw [hresults]
    refine hs.call (fun dir' ↦ ?_) fun dir' ↦ ?_
    · rw [← htotal]
      cases dir <;> cases dir' <;> rfl
    · rw [← hdropped]
      cases dir <;> cases dir' <;> simp [stamping, droppedSinceLastReport]

end WgcfRelaySession

/-! ### The invariant -/

section Invariant

variable {inherited : Finset SocketHandle} {σ₀ σ σ' : RelayState} {l : Label} {h : List Label}
variable {sid : UInt64} {s s' : WgcfRelaySession} {n : Direction → Statistics}
variable {fd sock : SocketHandle} {d : Datagram} {a : Answers} {acts : List Action}

/-- A step that is not about a session makes no attempt for it. -/
theorem Step.attempts_of_untouched (hst : Step σ l σ') (hinv : TableInvariant inherited σ)
    (hs : σ.context.sessions.lookup sid = some s) (hs' : σ'.context.sessions.lookup sid = some s)
    (harrival : l.event.arrival σ.context sid = none) (dir : Direction) :
    l.attempts σ.context.inboundSocket s.outboundSocket dir = [] := by
  obtain ⟨hinv', -, -⟩ := hinv.step hst
  have hown := hinv.outboundSocket_ne_inboundSocket hs
  rcases hst.sends_cases with hnil | ⟨fd, d, a, sid', dest, hl, hcases⟩
  · exact Label.attempts_eq_nil hnil _ _ _
  have hother : sid' ≠ sid := by
    rintro rfl
    rw [hl] at harrival
    rcases hcases with ⟨source, s, hfrom, -⟩ | ⟨s, hfrom, -⟩ <;>
      exact absurd (hfrom.symm.trans harrival) (by simp)
  rcases hcases with ⟨source, s'', hfrom, hs'', -, hsends⟩ | ⟨s'', hfrom, hs'', -, hsends⟩
  · obtain ⟨-, -, hfd, -, -⟩ := arrival_eq_fromClient.1 hfrom
    cases dir with
    | toServer =>
      refine sendResults_eq_nil fun send hsend heq ↦ ?_
      rw [hsends, List.mem_singleton] at hsend
      rw [hsend] at heq
      exact hother (hinv'.sid_eq_of_outboundSocket_eq hs'' hs' heq)
    | toClient =>
      refine if_neg fun heq ↦ ?_
      rw [hl] at heq
      exact hown ((Option.some.inj heq).symm.trans hfd)
  · obtain ⟨-, -, -, hfdMap⟩ := arrival_eq_fromServer.1 hfrom
    cases dir with
    | toServer =>
      refine sendResults_eq_nil fun send hsend heq ↦ ?_
      rw [hsends, List.mem_singleton] at hsend
      rw [hsend] at heq
      exact hown heq.symm
    | toClient =>
      refine if_neg fun heq ↦ ?_
      rw [hl] at heq
      rw [Option.some.inj heq, hinv.fdMap_of_session hs] at hfdMap
      exact hother (Option.some.inj hfdMap).symm

/-- A packet of the client does not arrive on the socket of a session. -/
theorem receivedOn_fromClient {source : INetSocketAddress}
    (hevent : l.event = .received fd (.ok d) a)
    (harrival : arrival σ.context sid fd d = some (.fromClient source))
    (hown : sock ≠ σ.context.inboundSocket) : l.event.receivedOn ≠ some sock := by
  obtain ⟨-, -, hfd, -⟩ := arrival_eq_fromClient.1 harrival
  rw [hevent]
  exact fun heq ↦ hown ((Option.some.inj heq).symm.trans hfd)

/-- A packet of the server arrives on the socket of its session. -/
theorem TableInvariant.receivedOn_fromServer (hinv : TableInvariant inherited σ)
    (hevent : l.event = .received fd (.ok d) a)
    (harrival : arrival σ.context sid fd d = some .fromServer)
    (hs : σ.context.sessions.lookup sid = some s) :
    l.event.receivedOn = some s.outboundSocket := by
  obtain ⟨-, -, -, hfdMap⟩ := arrival_eq_fromServer.1 harrival
  obtain ⟨s', hs', hfd⟩ := hinv.session_of_fdMap hfdMap
  obtain rfl := Option.some.inj (hs.symm.trans hs')
  rw [hevent, hfd]
  rfl

/-- A received datagram resets nothing. -/
theorem not_resets_of_received (hevent : l.event = .received fd (.ok d) a)
    (s : WgcfRelaySession) : ¬ l.Resets s := by
  rintro ⟨hsweep, -⟩
  rw [hevent] at hsweep
  exact absurd hsweep (by simp [Event.sweepTime])

/-- A step that forwards to the server counts the packet, if the address of the server can be
used. -/
theorem WgcfRelaySession.Counts.forwardToServer (hs : s.Counts n) {destination : INetSocketAddress}
    (hvalid : destination.isValid) (inbound : SocketHandle) (source : INetSocketAddress)
    (packet : Packet) (sid : UInt64) (a : Answers)
    (hfd : l.event.receivedOn ≠ some s.outboundSocket)
    (hacts : sendResults s.outboundSocket l.actions =
      sendResults s.outboundSocket (s.forwardToServer destination packet sid source a).2) :
    (s.forwardToServer destination packet sid source a).1.Counts fun dir ↦
      (n dir).add (l.attempts inbound
        (s.forwardToServer destination packet sid source a).1.outboundSocket dir) := by
  have hattempts : ∀ dir, l.attempts inbound s.outboundSocket dir =
      if dir = .toServer then
        sendResults s.outboundSocket (s.forwardToServer destination packet sid source a).2
      else [] := by
    intro dir
    cases dir with
    | toServer => exact hacts
    | toClient => exact if_neg hfd
  simp only [(s.forwardToServer_same destination source packet sid a).outboundSocket, hattempts]
  refine (s.forwardToServer_forwarding destination source packet sid a).counts hs
    (fun hnone ↦ ?_) (fun dir ↦ by cases dir <;> simp [sending, totalSinceLastReport])
    (fun dir ↦ by cases dir <;> rfl)
  rw [← isSome_toLinuxSocketAddress, hnone] at hvalid
  exact absurd hvalid (by simp)

/-- A step that forwards to the client counts the packet. -/
theorem WgcfRelaySession.Counts.forwardToClient (hs : s.Counts n) {inbound : SocketHandle}
    (hown : s.outboundSocket ≠ inbound) (packet : Packet) (sid : UInt64) (a : Answers)
    (hfd : l.event.receivedOn = some s.outboundSocket)
    (hacts : ∀ handle, sendResults handle l.actions =
      sendResults handle (s.forwardToClient inbound packet sid a).2) :
    (s.forwardToClient inbound packet sid a).1.Counts fun dir ↦
      (n dir).add (l.attempts inbound
        (s.forwardToClient inbound packet sid a).1.outboundSocket dir) := by
  have hforwarding := s.forwardToClient_forwarding inbound packet sid a
  have hattempts : ∀ dir, l.attempts inbound s.outboundSocket dir =
      if dir = .toClient then sendResults inbound (s.forwardToClient inbound packet sid a).2
      else [] := by
    intro dir
    cases dir with
    | toServer => exact (hacts _).trans (hforwarding.sendResults_of_ne hown.symm)
    | toClient => exact (if_pos hfd).trans (hacts inbound)
  simp only [(s.forwardToClient_same inbound packet sid a).outboundSocket, hattempts]
  exact hforwarding.counts hs (fun _ ↦ rfl)
    (fun dir ↦ by cases dir <;> simp [receiving, totalSinceLastReport])
    (fun dir ↦ by cases dir <;> rfl)

/-- The report of dropped packets starts the statistics anew. -/
theorem WgcfRelaySession.Counts.reportDropped (hs : s.Counts n)
    (hsweep : l.event.sweepTime.isSome) :
    s.reportDropped.Counts fun dir ↦ if l.Resets s then {} else n dir := by
  rw [WgcfRelaySession.reportDropped]
  by_cases hdrops : s.droppedRxSinceLastReport ≠ 0 ∨ s.droppedTxSinceLastReport ≠ 0
  · have hresets : l.Resets s := ⟨hsweep, hdrops⟩
    simp only [if_pos hdrops, if_pos hresets]
    exact ⟨fun dir ↦ by cases dir <;> rfl, fun dir ↦ by cases dir <;> rfl, fun _ ↦ le_rfl⟩
  · have hkeeps : ¬ l.Resets s := fun hresets ↦ hdrops hresets.2
    simpa only [if_neg hdrops, if_neg hkeeps] using hs

/-- The statistics of a new session are zero. -/
theorem newSession_counts {context : WgcfRelayContext} {reserved : UInt32}
    {source : INetSocketAddress} {port : UInt16} {now : UInt64} :
    (newSession context sid reserved source sock port now).Counts fun _ ↦ {} :=
  ⟨fun dir ↦ by cases dir <;> rfl, fun dir ↦ by cases dir <;> rfl, fun _ ↦ le_rfl⟩

/-- **The step lemma.** What a step makes of the counters of a session, it makes of the numbers
they stand for. -/
theorem Step.counts (hst : Step σ l σ') (hinv : TableInvariant inherited σ)
    (hvalid : σ.context.destinationAddress.isValid)
    (hold : ∀ s, σ.context.sessions.lookup sid = some s → s.Counts n)
    (hs' : σ'.context.sessions.lookup sid = some s') :
    s'.Counts (recount l σ.context.inboundSocket (σ.context.sessions.lookup sid) (some s') n) := by
  obtain ⟨hinv', -, -⟩ := hinv.step hst
  have hown := hst.outboundSocket_ne hinv' hs'
  have hstep := hst.session sid
  rw [hs'] at hstep
  generalize ho : σ.context.sessions.lookup sid = o at hstep hold
  cases hstep with
  | untouched harrival hsweep =>
    have hkeeps : ¬ l.Resets s' := by
      rintro ⟨hsome, -⟩
      rw [hsweep.resolve_left (by simp)] at hsome
      exact absurd hsome (by simp)
    simp only [recount, if_neg hkeeps, hst.attempts_of_untouched hinv ho hs' harrival,
      Statistics.add_nil]
    exact hold s' rfl
  | @created fd d a source family addr sock port s hevent harrival _ hnew hacts =>
    rw [(s.forwardToServer_same _ _ _ _ _).outboundSocket] at hown
    have hzero : s.Counts fun _ ↦ {} := hnew ▸ newSession_counts
    refine hzero.forwardToServer hvalid _ source d.payload sid a
      (receivedOn_fromClient hevent harrival hown) ?_
    rw [hacts, sendResults_recvfrom, sendResults_append, sendResults_creationActions,
      List.nil_append]
  | @fromClient fd d a source s hevent harrival hacts =>
    rw [(s.forwardToServer_same _ _ _ _ _).outboundSocket] at hown
    simp only [recount, if_neg (not_resets_of_received hevent s)]
    refine (hold s rfl).forwardToServer hvalid _ source d.payload sid a
      (receivedOn_fromClient hevent harrival hown) ?_
    rw [hacts, sendResults_recvfrom]
  | @fromServer fd d a s hevent harrival hacts =>
    rw [(s.forwardToClient_same _ _ _ _).outboundSocket] at hown
    simp only [recount, if_neg (not_resets_of_received hevent s)]
    refine (hold s rfl).forwardToClient hown d.payload sid a
      (hinv.receivedOn_fromServer hevent harrival ho) fun handle ↦ ?_
    rw [hacts, sendResults_recvfrom]
  | @kept now order epollDel s hevent =>
    obtain ⟨-, -, -, hacts⟩ := hst.sweep hevent
    have hnil : sends l.actions = [] := by
      rw [hacts]
      exact sends_sweepActions now epollDel σ.context order
    simp only [recount, Label.attempts_eq_nil hnil, Statistics.add_nil]
    exact (hold s rfl).reportDropped (by rw [hevent]; rfl)

/-- The counters of every session stand for what was sent for it. -/
structure Counted (inherited : Finset SocketHandle)
    (p : RelayState × (UInt64 → Direction → Statistics)) : Prop where
  tables : TableInvariant inherited p.1
  server : p.1.context.destinationAddress.isValid
  counts : ∀ sid s, p.1.context.sessions.lookup sid = some s → s.Counts (p.2 sid)

theorem Counted.started (hstart : Started inherited σ₀)
    (hforward : σ₀.context.destinationAddress.isValid) :
    Counted inherited (σ₀, noStatistics) where
  tables := .started hstart
  server := hforward
  counts sid s hs := by
    rw [hstart.spec.1] at hs
    exact absurd hs (by simp)

theorem Counted.step {p q : RelayState × (UInt64 → Direction → Statistics)}
    (h : Counted inherited p) (hst : counting.step p l q) : Counted inherited q where
  tables := (h.tables.step hst.1).1
  server := by
    rw [(Step.fixed hst.1).2.2.1]
    exact h.server
  counts sid s hs := by
    have hnext := Step.counts hst.1 h.tables h.server (h.counts sid) hs
    rw [← hs] at hnext
    rw [hst.2]
    exact hnext

/-- **The counters stand for what was sent**, along every run. -/
theorem Counted.run (hstart : Started inherited σ₀)
    (hforward : σ₀.context.destinationAddress.isValid)
    {numbers : UInt64 → Direction → Statistics}
    (hrun : counting.Run (σ₀, noStatistics) h (σ, numbers)) : Counted inherited (σ, numbers) :=
  hrun.invariant (fun _ _ _ h hst ↦ h.step hst) (.started hstart hforward)

/-- **The statistics are exact exactly as long as they fit.** In every state that a run
reaches, the counters of a session are the numbers of attempts and of drops since it was
created or last reset if and only if fewer than `2 ^ 32` attempts have been made in either
direction. That the address of the server is valid is checked by `RunWgcfRelay`. -/
theorem statistics_exact_iff (hstart : Started inherited σ₀)
    (hforward : σ₀.context.destinationAddress.isValid) (hrun : relay.Run σ₀ h σ) :
    ∃ numbers, counting.Run (σ₀, noStatistics) h (σ, numbers) ∧
      ∀ sid s, σ.context.sessions.lookup sid = some s →
        (s.StatisticsExact (numbers sid) ↔ ∀ dir, (numbers sid dir).attempts < 2 ^ 32) := by
  obtain ⟨numbers, hcounting⟩ := hrun.exists_instrumented noStatistics
  refine ⟨numbers, hcounting, fun sid s hs ↦ ?_⟩
  exact ((Counted.run hstart hforward hcounting).counts sid s hs).statisticsExact_iff

end Invariant

/-- After its first packet, the client has made one attempt. -/
theorem sampleArrival_statistics_exact_iff :
    ∃ numbers, counting.Run (sampleStart, noStatistics) [⟨sampleArrival 1000, sampleActions 1000⟩]
        (sampleLive 1000, numbers) ∧
      ∀ sid s, (sampleLive 1000).context.sessions.lookup sid = some s →
        (s.StatisticsExact (numbers sid) ↔ ∀ dir, (numbers sid dir).attempts < 2 ^ 32) :=
  statistics_exact_iff sampleStart_started (by decide) (.single (sampleArrival_step 1000))

/-! ### A session that is never reset -/

/-- The relay after the first packet, with other counters towards the server. -/
def sampleCounted (total dropped : UInt32) : RelayState where
  context := { (sampleLive 1000).context with
    sessions := Finmap.singleton sampleSid { sampleSession 1000 with
      totalTxPacketsSinceLastReport := total
      droppedTxSinceLastReport := dropped } }
  kernel := (sampleLive 1000).kernel

/-- A later packet of the client is passed on. -/
def passedOn : Label where
  event := sampleArrival 1000
  actions := [.call (.recvfrom 3 (.ok sampleDatagram)),
    .call (.sendto 5 sampleDatagram.payload sampleServerAddress (.ok 32)),
    .call (.clockGettime 1000), .log (.forwarded sampleSid .toServer 1000)]

/-- A later packet of the client is dropped. -/
def droppedOne : Label where
  event := .received 3 (.ok sampleDatagram) { sampleAnswers 1000 with sendto := .error .EAGAIN }
  actions := [.call (.recvfrom 3 (.ok sampleDatagram)),
    .call (.sendto 5 sampleDatagram.payload sampleServerAddress (.error .EAGAIN))]

/-- After the first packet of the client, `n` further ones are passed on and two are dropped. -/
def wrapping (n : ℕ) : List Label :=
  ⟨sampleArrival 1000, sampleActions 1000⟩ :: List.replicate n passedOn ++
    [droppedOne] ++ [droppedOne]

section Wrapping

variable {total dropped : UInt32} (numbers : UInt64 → Direction → Statistics)

theorem passedOn_step : ∃ numbers',
    counting.step (sampleCounted total dropped, numbers) passedOn
      (sampleCounted (total + 1) dropped, numbers') ∧
      numbers' sampleSid .toServer = (numbers sampleSid .toServer).add [.ok 32] :=
  ⟨_, LTS.instrumented_step (exec_step (e := sampleArrival 1000) rfl) numbers, rfl⟩

theorem droppedOne_step : ∃ numbers',
    counting.step (sampleCounted total dropped, numbers) droppedOne
      (sampleCounted (total + 1) (dropped + 1), numbers') ∧
      numbers' sampleSid .toServer =
        (numbers sampleSid .toServer).add [.error .EAGAIN] :=
  ⟨_, LTS.instrumented_step (exec_step (e := droppedOne.event) rfl) numbers, rfl⟩

/-- However many packets are passed on, the session is never reset. -/
theorem passedOn_run (n : ℕ) : ∃ numbers,
    counting.Run (sampleStart, noStatistics)
      (⟨sampleArrival 1000, sampleActions 1000⟩ :: List.replicate n passedOn)
      (sampleCounted (.ofNat (n + 1)) 0, numbers) ∧
      numbers sampleSid .toServer = ⟨n + 1, 0⟩ := by
  induction n with
  | zero => exact ⟨_, .single (LTS.instrumented_step (sampleArrival_step 1000) _), rfl⟩
  | succ n ih =>
    obtain ⟨numbers, hrun, hn⟩ := ih
    obtain ⟨numbers', hst, hn'⟩ := passedOn_step numbers
    rw [← UInt32.ofNat_one, ← UInt32.ofNat_add] at hst
    rw [List.replicate_succ', ← List.cons_append]
    refine ⟨numbers', hrun.snoc hst, ?_⟩
    rw [hn', hn]
    rfl

theorem wrapping_run (n : ℕ) : ∃ numbers,
    counting.Run (sampleStart, noStatistics) (wrapping n)
      (sampleCounted (.ofNat (n + 3)) 2, numbers) ∧
      numbers sampleSid .toServer = ⟨n + 3, 2⟩ := by
  obtain ⟨numbers, hrun, hn⟩ := passedOn_run n
  obtain ⟨numbers', hst, hn'⟩ := droppedOne_step numbers
  obtain ⟨numbers'', hst', hn''⟩ := droppedOne_step numbers'
  refine ⟨numbers'', ?_, ?_⟩
  · rw [show UInt32.ofNat (n + 3) = .ofNat (n + 1) + 1 + 1 by simp [UInt32.ofNat_add, add_assoc]]
    exact (hrun.snoc hst).snoc hst'
  · rw [hn'', hn', hn]
    rfl

/-- **A loss above 100%**: of `2 ^ 32 + 1` packets of a session two are dropped, and the
counters say two of one. -/
theorem wrapping_not_exact : Started {0, 1, 2} sampleStart ∧
    sampleStart.context.destinationAddress.isValid ∧ ∃ numbers,
      counting.Run (sampleStart, noStatistics) (wrapping (2 ^ 32 - 2))
        (sampleCounted 1 2, numbers) ∧
      numbers sampleSid .toServer = ⟨2 ^ 32 + 1, 2⟩ ∧
      ∃ s, (sampleCounted 1 2).context.sessions.lookup sampleSid = some s ∧
        s.totalSinceLastReport .toServer < s.droppedSinceLastReport .toServer ∧
        ¬ s.StatisticsExact (numbers sampleSid) := by
  obtain ⟨numbers, hrun, hn⟩ := wrapping_run (2 ^ 32 - 2)
  refine ⟨sampleStart_started, by decide, numbers, hrun, hn, _, rfl, by decide, fun hexact ↦ ?_⟩
  have htotal := hexact.total .toServer
  rw [hn] at htotal
  exact absurd htotal (by decide)

end Wrapping

end WgRelay
