import Udpfwd.Relay.TableInvariant

/-!
# The idle sweep as a filter

The loop of the sweep erases from the map that it iterates over, and from a second map. What it
leaves is determined by the tables before and by the clock: the sessions that are not expired,
with their entries in the second map (`Filtered`). So the order of the iteration does not show.
-/

open Net

namespace WgRelay

/-- The sockets that are closed, in order. -/
def closedBy (calls : List Syscall) : List SocketHandle :=
  calls.filterMap fun
    | .close fd => some fd
    | _ => none

/-- The two tables are in bijection, and the outbound sockets are descriptors. -/
structure Bijective (context : WgcfRelayContext) : Prop where
  fdMap_of_session : ∀ {sid s}, context.sessions.lookup sid = some s →
    context.fileDescriptorToSessionIdMap.lookup s.outboundSocket = some sid
  session_of_fdMap : ∀ {fd sid}, context.fileDescriptorToSessionIdMap.lookup fd = some sid →
    ∃ s, context.sessions.lookup sid = some s ∧ s.outboundSocket = fd
  outboundSocket_nonneg : ∀ sid s, context.sessions.lookup sid = some s → 0 ≤ s.outboundSocket

/-- `context'` is `context` without the expired sessions, whose sockets are `closed`. -/
structure Filtered (now : UInt64) (context context' : WgcfRelayContext)
    (closed : List SocketHandle) : Prop where
  survives_iff : ∀ sid, (∃ s', context'.sessions.lookup sid = some s') ↔
    ∃ s, context.sessions.lookup sid = some s ∧ s.expired now = false
  /-- The report of dropped packets resets the counters. -/
  survivor : ∀ {sid s s'}, context.sessions.lookup sid = some s →
    context'.sessions.lookup sid = some s' →
      s' = if s.droppedRxSinceLastReport ≠ 0 ∨ s.droppedTxSinceLastReport ≠ 0 then
        { s with
          droppedRxSinceLastReport := 0
          droppedTxSinceLastReport := 0
          totalRxPacketsSinceLastReport := 0
          totalTxPacketsSinceLastReport := 0 }
      else s
  fdMap : ∀ fd sid, context'.fileDescriptorToSessionIdMap.lookup fd = some sid ↔
    context.fileDescriptorToSessionIdMap.lookup fd = some sid ∧
      ∃ s', context'.sessions.lookup sid = some s' ∧ s'.outboundSocket = fd
  closed_nodup : closed.Nodup
  mem_closed : ∀ fd, fd ∈ closed ↔ ∃ sid s, context.sessions.lookup sid = some s ∧
    s.expired now = true ∧ s.outboundSocket = fd
  inboundSocket : context'.inboundSocket = context.inboundSocket
  inboundSocketAddress : context'.inboundSocketAddress = context.inboundSocketAddress
  destinationAddress : context'.destinationAddress = context.destinationAddress
  epollHandle : context'.epollHandle = context.epollHandle

section Sweep

variable {now : UInt64} {context context₁ context₂ : WgcfRelayContext}
variable {epollDel : SocketHandle → Except Errno Unit} {order : List UInt64}
variable {closed closed₁ closed₂ : List SocketHandle} {sid : UInt64} {s : WgcfRelaySession}

/-- The tables of a reachable state are in bijection. -/
theorem TableInvariant.bijective {inherited : Finset SocketHandle} {k : Kernel}
    (h : TableInvariant inherited ⟨context, k⟩) : Bijective context where
  fdMap_of_session := h.fdMap_of_session
  session_of_fdMap := h.session_of_fdMap
  outboundSocket_nonneg := h.outboundSocket_nonneg

theorem Bijective.sid_eq (h : Bijective context) {sid' : UInt64} {s' : WgcfRelaySession}
    (hs : context.sessions.lookup sid = some s) (hs' : context.sessions.lookup sid' = some s')
    (hsock : s.outboundSocket = s'.outboundSocket) : sid = sid' := by
  have hsid := h.fdMap_of_session hs
  rw [hsock, h.fdMap_of_session hs'] at hsid
  exact (Option.some.inj hsid).symm

/-! ### The sockets that are closed -/

theorem closed_singleton_iff {fd : SocketHandle} : Closed now [sid] context fd ↔
    ∃ s, context.sessions.lookup sid = some s ∧ s.expired now = true ∧ s.outboundSocket = fd := by
  simp [Closed]

/-- One iteration closes the socket of the session that it visits, if that is expired. -/
theorem Bijective.closedBy_sweepActions (h : Bijective context)
    (epollDel : SocketHandle → Except Errno Unit) (sid : UInt64) :
    (closedBy (calls (sweepActions now epollDel context sid))).Nodup ∧
      ∀ fd, fd ∈ closedBy (calls (sweepActions now epollDel context sid)) ↔
        Closed now [sid] context fd := by
  rcases calls_sweepActions_cases now epollDel h.outboundSocket_nonneg sid with
    ⟨hcalls, hnone⟩ | ⟨s, hs, hexp, hcalls⟩
  · rw [hcalls]
    exact ⟨List.nodup_nil, fun fd ↦ iff_of_false List.not_mem_nil (hnone fd)⟩
  · rw [hcalls]
    show [s.outboundSocket].Nodup ∧ ∀ fd, fd ∈ [s.outboundSocket] ↔ _
    refine ⟨List.nodup_singleton _, fun fd ↦ ?_⟩
    rw [closed_singleton_iff, List.mem_singleton, eq_comm]
    simp [hs, hexp]

theorem closedBy_flatMap (order : List UInt64) (f : UInt64 → List Action) :
    closedBy (calls (order.flatMap f)) = order.flatMap fun sid ↦ closedBy (calls (f sid)) := by
  rw [closedBy, calls, List.filterMap_flatMap, List.filterMap_flatMap]
  rfl

/-- The sweep closes the sockets of the expired sessions that it visits, each once. -/
theorem Bijective.closedBy_sweep (h : Bijective context) (now : UInt64)
    (epollDel : SocketHandle → Except Errno Unit) (hnodup : order.Nodup) :
    (closedBy (calls (order.flatMap (sweepActions now epollDel context)))).Nodup ∧
      ∀ fd, fd ∈ closedBy (calls (order.flatMap (sweepActions now epollDel context))) ↔
        Closed now order context fd := by
  rw [closedBy_flatMap]
  constructor
  · rw [List.nodup_flatMap]
    refine ⟨fun sid _ ↦ (h.closedBy_sweepActions epollDel sid).1, hnodup.imp fun hne ↦ ?_⟩
    -- two sessions do not share a socket
    intro fd hfd hfd'
    rw [(h.closedBy_sweepActions epollDel _).2, closed_singleton_iff] at hfd hfd'
    obtain ⟨s, hs, -, rfl⟩ := hfd
    obtain ⟨s', hs', -, hsock⟩ := hfd'
    exact hne (h.sid_eq hs hs' hsock.symm)
  · intro fd
    simp only [List.mem_flatMap, (h.closedBy_sweepActions epollDel _).2, closed_singleton_iff]
    exact Iff.rfl

/-! ### What is left -/

/-- What is left is determined: only the order in which sockets are closed may differ. -/
theorem Filtered.unique (h₁ : Filtered now context context₁ closed₁)
    (h₂ : Filtered now context context₂ closed₂) :
    context₁ = context₂ ∧ closed₁.Perm closed₂ := by
  have hlookup : ∀ sid, context₁.sessions.lookup sid = context₂.sessions.lookup sid := by
    intro sid
    have hiff := (h₁.survives_iff sid).trans (h₂.survives_iff sid).symm
    rcases hs₁ : context₁.sessions.lookup sid with - | s₁ <;>
      rcases hs₂ : context₂.sessions.lookup sid with - | s₂
    · rfl
    · simp [hs₁, hs₂] at hiff
    · simp [hs₁, hs₂] at hiff
    · obtain ⟨s, hs, -⟩ := (h₁.survives_iff sid).1 ⟨s₁, hs₁⟩
      rw [h₁.survivor hs hs₁, h₂.survivor hs hs₂]
  have hsessions : context₁.sessions = context₂.sessions := Finmap.ext_lookup hlookup
  have hfdMap : context₁.fileDescriptorToSessionIdMap = context₂.fileDescriptorToSessionIdMap := by
    refine Finmap.ext_lookup fun fd ↦ Option.ext fun sid ↦ ?_
    rw [h₁.fdMap, h₂.fdMap, hsessions]
  have hcontext : context₁ = context₂ := by
    obtain ⟨_, _, _, _, _, _⟩ := context₁
    obtain ⟨_, _, _, _, _, _⟩ := context₂
    rw [WgcfRelayContext.mk.injEq]
    exact ⟨hsessions, h₁.inboundSocket.trans h₂.inboundSocket.symm, hfdMap,
      h₁.inboundSocketAddress.trans h₂.inboundSocketAddress.symm,
      h₁.destinationAddress.trans h₂.destinationAddress.symm,
      h₁.epollHandle.trans h₂.epollHandle.symm⟩
  refine ⟨hcontext, (List.perm_ext_iff_of_nodup h₁.closed_nodup h₂.closed_nodup).2 fun fd ↦ ?_⟩
  rw [h₁.mem_closed, h₂.mem_closed]

/-- The loop filters, in any order in which it visits every session once. -/
theorem Bijective.filtered (h : Bijective context) (now : UInt64)
    (epollDel : SocketHandle → Except Errno Unit) (hnodup : order.Nodup)
    (hkeys : order.toFinset = context.sessions.keys) :
    Filtered now context (sweepLoop now epollDel context order).1
      (closedBy (calls (sweepLoop now epollDel context order).2)) := by
  obtain ⟨hswept, hacts⟩ := sweepLoop_swept now epollDel context hnodup
  rw [hacts]
  obtain ⟨hclosed, hmem⟩ := h.closedBy_sweep now epollDel hnodup
  generalize (sweepLoop now epollDel context order).1 = context' at hswept
  have horder : ∀ {sid s}, context.sessions.lookup sid = some s → sid ∈ order := by
    intro sid s hs
    rw [← List.mem_toFinset, hkeys, Finmap.mem_keys]
    exact Finmap.mem_of_lookup_eq_some hs
  have hsessions : ∀ sid, context'.sessions.lookup sid =
      (context.sessions.lookup sid).bind (·.swept now) := by
    intro sid
    rw [hswept.sessions]
    rcases hs : context.sessions.lookup sid with - | s
    · simp
    · rw [if_pos (horder hs)]
  have hsurvivor : ∀ {sid s s'}, context.sessions.lookup sid = some s →
      context'.sessions.lookup sid = some s' → s.expired now = false ∧ s.reportDropped = s' := by
    intro sid s s' hs hs'
    rw [hsessions, hs] at hs'
    exact WgcfRelaySession.swept_eq_some.1 hs'
  refine ⟨fun sid ↦ ⟨?_, ?_⟩, fun hs hs' ↦ (hsurvivor hs hs').2.symm, fun fd sid ↦ ⟨?_, ?_⟩,
    hclosed, fun fd ↦ ?_, hswept.inboundSocket, hswept.inboundSocketAddress,
    hswept.destinationAddress, hswept.epollHandle⟩
  · rintro ⟨s', hs'⟩
    obtain ⟨s, hs, hsw⟩ := Option.bind_eq_some_iff.1 ((hsessions sid).symm.trans hs')
    exact ⟨s, hs, (WgcfRelaySession.swept_eq_some.1 hsw).1⟩
  · rintro ⟨s, hs, hexp⟩
    refine ⟨s.reportDropped, ?_⟩
    rw [hsessions, hs]
    exact WgcfRelaySession.swept_eq_some.2 ⟨hexp, rfl⟩
  · intro hfd
    have hopen : ¬Closed now order context fd := by
      rintro ⟨sid', hmem', s, hs, hexp, hsock⟩
      rw [hswept.fdMap_removed hmem' hs hexp hsock] at hfd
      exact absurd hfd (by simp)
    rw [hswept.fdMap_kept fun sid' hmem' s hs hexp hsock ↦
      hopen ⟨sid', hmem', s, hs, hexp, hsock⟩] at hfd
    obtain ⟨s, hs, hsock⟩ := h.session_of_fdMap hfd
    have hexp : s.expired now = false :=
      Bool.eq_false_iff.2 fun hexp ↦ hopen ⟨sid, horder hs, s, hs, hexp, hsock⟩
    refine ⟨hfd, s.reportDropped, ?_, s.reportDropped_same.outboundSocket.trans hsock⟩
    rw [hsessions, hs]
    exact WgcfRelaySession.swept_eq_some.2 ⟨hexp, rfl⟩
  · rintro ⟨hfd, s', hs', hsock⟩
    rw [hswept.fdMap_kept, hfd]
    intro sid' _ s'' hs'' hexp hsock'
    have hsid := h.fdMap_of_session hs''
    rw [hsock', hfd] at hsid
    obtain rfl := Option.some.inj hsid
    have hlive := (hsurvivor hs'' hs').1
    rw [hexp] at hlive
    exact absurd hlive (by simp)
  · rw [hmem]
    exact ⟨fun ⟨sid, _, s, hs⟩ ↦ ⟨sid, s, hs⟩, fun ⟨sid, s, hs⟩ ↦ ⟨sid, horder hs.1, s, hs⟩⟩

/-- **The sweep is a filter**, and does not depend on the order of the iteration. The loop ends
in any order, as it is a recursion over the sessions still to be visited; what it leaves and what
it closes is the same in all of them, whatever `EPOLL_CTL_DEL` answers. -/
theorem sweepLoop_filtered (h : Bijective context) (hnodup : order.Nodup)
    (hkeys : order.toFinset = context.sessions.keys) :
    Filtered now context (sweepLoop now epollDel context order).1
        (closedBy (calls (sweepLoop now epollDel context order).2)) ∧
      ∀ order' epollDel', order'.Nodup → order'.toFinset = context.sessions.keys →
        (sweepLoop now epollDel' context order').1 = (sweepLoop now epollDel context order).1 ∧
          (closedBy (calls (sweepLoop now epollDel' context order').2)).Perm
            (closedBy (calls (sweepLoop now epollDel context order).2)) := by
  have hfiltered := h.filtered now epollDel hnodup hkeys
  exact ⟨hfiltered, fun order' epollDel' hnodup' hkeys' ↦
    (h.filtered now epollDel' hnodup' hkeys').unique hfiltered⟩

end Sweep

/-- Two clients with a session each, of which the second is a second younger. -/
def twoLive : List Label × RelayState :=
  (execs sampleStart [sampleArrival 1000, otherArrival 1001]).get (by decide)

/-- A sweep ten minutes later, in which no socket can be deregistered. -/
def twoLiveSweep : WgcfRelayContext × List Action :=
  sweepLoop 1601 (fun _ ↦ .error .EINVAL) twoLive.2.context [sampleSid, otherSid]

/-- The first session is closed and the second is kept, and so they are when they are visited the
other way round. -/
theorem twoLive_swept :
    (sampleSid ∉ twoLiveSweep.1.sessions ∧ otherSid ∈ twoLiveSweep.1.sessions ∧
        closedBy (calls twoLiveSweep.2) = [5]) ∧
      Filtered 1601 twoLive.2.context twoLiveSweep.1 (closedBy (calls twoLiveSweep.2)) ∧
        (sweepLoop 1601 (fun _ ↦ .ok ()) twoLive.2.context [otherSid, sampleSid]).1 =
          twoLiveSweep.1 ∧
        (closedBy (calls (sweepLoop 1601 (fun _ ↦ .ok ()) twoLive.2.context
          [otherSid, sampleSid]).2)).Perm (closedBy (calls twoLiveSweep.2)) := by
  have hrun : relay.Run sampleStart twoLive.1 twoLive.2 := execs_get_run _
  have hbijective := (TableInvariant.run sampleStart_started hrun).bijective
  have hnodup : [sampleSid, otherSid].Nodup := by decide
  have hkeys : [sampleSid, otherSid].toFinset = twoLive.2.context.sessions.keys := by decide
  exact ⟨by decide, (sweepLoop_filtered hbijective hnodup hkeys).1,
    (sweepLoop_filtered hbijective hnodup hkeys).2 [otherSid, sampleSid] _ (by decide) (by decide)⟩

end WgRelay
