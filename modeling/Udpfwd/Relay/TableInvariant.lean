import Udpfwd.Relay.SessionId
import Udpfwd.Relay.System

/-!
# The table invariant of the relay

The relay keeps four things that must agree: the session table, the table from outbound
sockets to session ids, the open descriptors and the interest set of epoll. They are updated
one after the other, by a creation with four failure exits and by a sweep that erases while
it iterates, and the kernel hands out a closed descriptor again. `TableInvariant` says how
they agree. It is kept by the three ways the tables change:

* `TableInvariant.update` — a session is forwarded for, and keeps its identity;
* `TableInvariant.create` — a session is entered together with a fresh socket;
* `TableInvariant.sweep` — the expired sessions go, with their sockets.

`TableInvariant.step` assembles them, and `relay_tables_agree` is what follows for every
reachable state, with the branches of the worker that the invariant makes unreachable.
-/

open Net

namespace WgRelay

/-- The fields of a session that never change agree with its key. -/
structure ValidSession (sid : UInt64) (s : WgcfRelaySession) : Prop where
  sessionId : s.sessionId = sid
  reserved_ne_zero : s.wireguardReserved ≠ 0
  reserved_lt : s.wireguardReserved.toNat < 2 ^ 24
  toNat_sid : sid.toNat = 2 * 2 ^ 32 + s.wireguardReserved.toNat

theorem ValidSession.same {sid : UInt64} {s s' : WgcfRelaySession} (h : ValidSession sid s)
    (hsame : s.SameSession s') : ValidSession sid s' where
  sessionId := hsame.sessionId.trans h.sessionId
  reserved_ne_zero := hsame.wireguardReserved ▸ h.reserved_ne_zero
  reserved_lt := hsame.wireguardReserved ▸ h.reserved_lt
  toNat_sid := hsame.wireguardReserved ▸ h.toNat_sid

/-- The two tables, the open descriptors and the interest set agree. `inherited` are the
descriptors that were open before the relay opened any. -/
structure TableInvariant (inherited : Finset SocketHandle) (σ : RelayState) : Prop where
  valid : ∀ {sid s}, σ.context.sessions.lookup sid = some s → ValidSession sid s
  fdMap_of_session : ∀ {sid s}, σ.context.sessions.lookup sid = some s →
    σ.context.fileDescriptorToSessionIdMap.lookup s.outboundSocket = some sid
  session_of_fdMap : ∀ {fd sid}, σ.context.fileDescriptorToSessionIdMap.lookup fd = some sid →
    ∃ s, σ.context.sessions.lookup sid = some s ∧ s.outboundSocket = fd
  /-- An outbound socket is a socket of its own. -/
  fdMap_own : ∀ {fd}, fd ∈ σ.context.fileDescriptorToSessionIdMap →
    0 ≤ fd ∧ fd ∉ inherited ∧ fd ≠ σ.context.inboundSocket ∧ fd ≠ σ.context.epollHandle
  openFds : ∀ fd, fd ∈ σ.kernel.openFds ↔ fd ∈ inherited ∨ fd = σ.context.inboundSocket ∨
    fd = σ.context.epollHandle ∨ fd ∈ σ.context.fileDescriptorToSessionIdMap
  interest : ∀ fd, fd ∈ σ.kernel.interest ↔ fd = σ.context.inboundSocket ∨
    fd ∈ σ.context.fileDescriptorToSessionIdMap

namespace TableInvariant

variable {inherited : Finset SocketHandle} {context context' : WgcfRelayContext} {k : Kernel}
variable {sid : UInt64} {s s' : WgcfRelaySession} {fd : SocketHandle}

/-- The invariant holds where a run starts. -/
theorem started {σ : RelayState} (h : Started inherited σ) : TableInvariant inherited σ := by
  obtain ⟨hsessions, hfdMap, -, -, -, hopen, hinterest⟩ := h.spec
  constructor
  · intro sid s hs; rw [hsessions] at hs; cases hs
  · intro sid s hs; rw [hsessions] at hs; cases hs
  · intro fd sid hfd; rw [hfdMap] at hfd; cases hfd
  · intro fd hfd; rw [hfdMap] at hfd; exact absurd hfd Finmap.notMem_empty
  · intro fd
    rw [hopen, hfdMap]
    simp only [Finset.mem_insert, Finmap.notMem_empty, or_false]
    tauto
  · intro fd
    rw [hinterest, hfdMap]
    simp only [Finset.mem_singleton, Finmap.notMem_empty, or_false]

variable (h : TableInvariant inherited ⟨context, k⟩)

include h

theorem mem_fdMap (hs : context.sessions.lookup sid = some s) :
    s.outboundSocket ∈ context.fileDescriptorToSessionIdMap :=
  Finmap.mem_iff.2 ⟨sid, h.fdMap_of_session hs⟩

/-- **No two live sessions share a socket.** -/
theorem sid_eq_of_outboundSocket_eq {sid' : UInt64}
    (hs : context.sessions.lookup sid = some s) (hs' : context.sessions.lookup sid' = some s')
    (hsock : s.outboundSocket = s'.outboundSocket) : sid = sid' := by
  have hfd := h.fdMap_of_session hs
  have hfd' := h.fdMap_of_session hs'
  rw [hsock] at hfd
  exact Option.some.inj (hfd.symm.trans hfd')

/-- Outbound sockets are not the inbound socket. -/
theorem outboundSocket_ne_inboundSocket (hs : context.sessions.lookup sid = some s) :
    s.outboundSocket ≠ context.inboundSocket :=
  (h.fdMap_own (h.mem_fdMap hs)).2.2.1

theorem interest_subset_openFds : k.interest ⊆ k.openFds := by
  intro fd hfd
  rw [h.openFds fd]
  rcases (h.interest fd).1 hfd with heq | hmem
  · exact .inr (.inl heq)
  · exact .inr (.inr (.inr hmem))

theorem inboundSocket_mem : context.inboundSocket ∈ k.openFds :=
  (h.openFds _).2 (.inr (.inl rfl))

theorem epollHandle_mem : context.epollHandle ∈ k.openFds :=
  (h.openFds _).2 (.inr (.inr (.inl rfl)))

theorem outboundSocket_mem (hs : context.sessions.lookup sid = some s) :
    s.outboundSocket ∈ k.openFds :=
  (h.openFds _).2 (.inr (.inr (.inr (h.mem_fdMap hs))))

/-! ### The three ways the tables change -/

/-- Forwarding for a session keeps the invariant. -/
theorem update (hs : context.sessions.lookup sid = some s) (hsame : s.SameSession s') :
    TableInvariant inherited
      ⟨{ context with sessions := context.sessions.insert sid s' }, k⟩ where
  valid hs'' := by
    rcases lookup_insert_eq_some_iff.1 hs'' with ⟨rfl, rfl⟩ | ⟨-, hs''⟩
    · exact (h.valid hs).same hsame
    · exact h.valid hs''
  fdMap_of_session hs'' := by
    rcases lookup_insert_eq_some_iff.1 hs'' with ⟨rfl, rfl⟩ | ⟨-, hs''⟩
    · rw [hsame.outboundSocket]
      exact h.fdMap_of_session hs
    · exact h.fdMap_of_session hs''
  session_of_fdMap {fd sid'} hfd := by
    obtain ⟨s'', hs'', hsock⟩ := h.session_of_fdMap hfd
    rcases eq_or_ne sid' sid with rfl | hne
    · rw [show context.sessions.lookup sid' = some s'' from hs'', Option.some.injEq] at hs
      exact ⟨s', Finmap.lookup_insert _, by rw [hsame.outboundSocket, ← hs, hsock]⟩
    · exact ⟨s'', by rw [← hs'']; exact Finmap.lookup_insert_of_ne _ hne, hsock⟩
  fdMap_own := h.fdMap_own
  openFds := h.openFds
  interest := h.interest

/-- Entering a session together with a fresh socket keeps the invariant. -/
theorem create (hs : context.sessions.lookup sid = none) (hfresh : k.Fresh fd)
    (hvalid : ValidSession sid s) (hfd : s.outboundSocket = fd) :
    TableInvariant inherited
      ⟨{ context with
          sessions := context.sessions.insert sid s
          fileDescriptorToSessionIdMap := context.fileDescriptorToSessionIdMap.insert fd sid },
        ⟨insert fd k.openFds, insert fd k.interest⟩⟩ := by
  obtain ⟨hnonneg, hnew⟩ := hfresh
  have hother := (not_congr (h.openFds fd)).1 hnew
  simp only [not_or] at hother
  obtain ⟨hinherited, hinbound, hepoll, hfdMap⟩ := hother
  constructor
  · intro sid' s' hs'
    rcases lookup_insert_eq_some_iff.1 hs' with ⟨rfl, rfl⟩ | ⟨-, hs'⟩
    · exact hvalid
    · exact h.valid hs'
  · intro sid' s' hs'
    rcases lookup_insert_eq_some_iff.1 hs' with ⟨rfl, rfl⟩ | ⟨-, hs'⟩
    · rw [hfd]
      exact Finmap.lookup_insert _
    · have hne' : s'.outboundSocket ≠ fd := fun heq ↦ hfdMap (heq ▸ h.mem_fdMap hs')
      rw [Finmap.lookup_insert_of_ne _ hne']
      exact h.fdMap_of_session hs'
  · intro fd' sid' hfd'
    rcases lookup_insert_eq_some_iff.1 hfd' with ⟨rfl, rfl⟩ | ⟨-, hfd'⟩
    · exact ⟨s, Finmap.lookup_insert _, hfd⟩
    · obtain ⟨s', hs', hsock⟩ := h.session_of_fdMap hfd'
      have hne' : sid' ≠ sid := by
        rintro rfl
        rw [show context.sessions.lookup sid' = some s' from hs'] at hs
        exact absurd hs (by simp)
      exact ⟨s', by rw [Finmap.lookup_insert_of_ne _ hne']; exact hs', hsock⟩
  · intro fd' hfd'
    rcases Finmap.mem_insert.1 hfd' with rfl | hmem
    · exact ⟨hnonneg, hinherited, hinbound, hepoll⟩
    · exact h.fdMap_own hmem
  · intro fd'
    have hopen := h.openFds fd'
    simp only [Finset.mem_insert, Finmap.mem_insert] at hopen ⊢
    tauto
  · intro fd'
    have hinterest := h.interest fd'
    simp only [Finset.mem_insert, Finmap.mem_insert] at hinterest ⊢
    tauto

end TableInvariant

/-! ### The sweep and the kernel -/

section Sweep

variable {now : UInt64} {epollDel : SocketHandle → Except Errno Unit}
variable {context context' : WgcfRelayContext} {order : List UInt64} {k : Kernel}
variable {fd : SocketHandle}

/-- `fd` is the outbound socket of an expired session that the sweep visits. -/
def Closed (now : UInt64) (order : List UInt64) (context : WgcfRelayContext)
    (fd : SocketHandle) : Prop :=
  ∃ sid ∈ order, ∃ s, context.sessions.lookup sid = some s ∧ s.expired now = true ∧
    s.outboundSocket = fd

/-- The calls of one iteration: nothing, or the socket is deregistered and closed. -/
theorem calls_sweepActions_cases (now : UInt64) (epollDel : SocketHandle → Except Errno Unit)
    (hnonneg : ∀ sid s, context.sessions.lookup sid = some s → 0 ≤ s.outboundSocket)
    (sid : UInt64) :
    (calls (sweepActions now epollDel context sid) = [] ∧
        ∀ fd, ¬ Closed now [sid] context fd) ∨
      ∃ s, context.sessions.lookup sid = some s ∧ s.expired now = true ∧
        calls (sweepActions now epollDel context sid) =
          [.epollDel context.epollHandle s.outboundSocket (epollDel s.outboundSocket),
            .close s.outboundSocket] := by
  rw [sweepActions]
  rcases hs : context.sessions.lookup sid with - | s
  · refine .inl ⟨rfl, ?_⟩
    rintro fd ⟨sid', hmem, s', hs', -⟩
    rw [List.mem_singleton.1 hmem, hs] at hs'
    exact absurd hs' (by simp)
  · rcases hexp : s.expired now
    · refine .inl ⟨by simp [hexp], ?_⟩
      rintro fd ⟨sid', hmem, s', hs', hexp', -⟩
      rw [List.mem_singleton.1 hmem, hs, Option.some.injEq] at hs'
      rw [← hs', hexp] at hexp'
      exact absurd hexp' (by simp)
    · exact .inr ⟨s, rfl, hexp, by simp [hexp, hnonneg sid s hs]⟩

/-- Deregistering and closing a socket, whether `EPOLL_CTL_DEL` fails or not. -/
theorem replay_epollDel_close (k : Kernel) (epoll fd : SocketHandle) (r : Except Errno Unit) :
    k.replay [.epollDel epoll fd r, .close fd] =
      ⟨k.openFds.erase fd, k.interest.erase fd⟩ := by
  cases r with
  | error e => rfl
  | ok u => simp [Kernel.after, Kernel.replay]

/-- What the calls of the sweep do to the kernel: exactly the sockets of the expired sessions
are closed. -/
theorem replay_sweep (now : UInt64) (epollDel : SocketHandle → Except Errno Unit)
    (hnonneg : ∀ sid s, context.sessions.lookup sid = some s → 0 ≤ s.outboundSocket)
    (order : List UInt64) (k : Kernel) :
    (∀ fd, fd ∈ (k.replay (calls (order.flatMap (sweepActions now epollDel context)))).openFds ↔
      fd ∈ k.openFds ∧ ¬ Closed now order context fd) ∧
    ∀ fd, fd ∈ (k.replay (calls (order.flatMap (sweepActions now epollDel context)))).interest ↔
      fd ∈ k.interest ∧ ¬ Closed now order context fd := by
  induction order generalizing k with
  | nil => simp [Closed]
  | cons sid order ih =>
    have hcons : ∀ fd, Closed now (sid :: order) context fd ↔
        Closed now [sid] context fd ∨ Closed now order context fd := by
      intro fd
      simp [Closed]
    rw [List.flatMap_cons, calls_append, Kernel.replay_append]
    simp only [hcons, not_or]
    rcases calls_sweepActions_cases now epollDel hnonneg sid with ⟨hnil, hnone⟩ | ⟨s, hs, hexp, hc⟩
    · rw [hnil, Kernel.replay_nil]
      simpa [hnone] using ih k
    · have hclosed : ∀ fd, Closed now [sid] context fd ↔ s.outboundSocket = fd := by
        intro fd
        simp [Closed, hs, hexp]
      obtain ⟨hopen, hinterest⟩ := ih ⟨k.openFds.erase s.outboundSocket,
        k.interest.erase s.outboundSocket⟩
      rw [hc, replay_epollDel_close]
      refine ⟨fun fd ↦ ?_, fun fd ↦ ?_⟩
      · rw [hopen, hclosed, Finset.mem_erase, ne_comm]
        tauto
      · rw [hinterest, hclosed, Finset.mem_erase, ne_comm]
        tauto

/-- The sweep names open descriptors only: it closes every socket once, as no two sessions
share one, and deregisters it before. -/
theorem legalAll_sweep (now : UInt64) (epollDel : SocketHandle → Except Errno Unit)
    (hnonneg : ∀ sid s, context.sessions.lookup sid = some s → 0 ≤ s.outboundSocket)
    (hinj : ∀ sid s sid' s', context.sessions.lookup sid = some s →
      context.sessions.lookup sid' = some s' → s.outboundSocket = s'.outboundSocket → sid = sid')
    (hepoll : ∀ sid s, context.sessions.lookup sid = some s →
      s.outboundSocket ≠ context.epollHandle)
    {order : List UInt64} (hnodup : order.Nodup) {k : Kernel} (hk : context.epollHandle ∈ k.openFds)
    (hopen : ∀ sid ∈ order, ∀ s, context.sessions.lookup sid = some s →
      s.outboundSocket ∈ k.openFds) :
    k.LegalAll (calls (order.flatMap (sweepActions now epollDel context))) := by
  induction order generalizing k with
  | nil => trivial
  | cons sid order ih =>
    obtain ⟨hsid, hnodup'⟩ := List.nodup_cons.1 hnodup
    rw [List.flatMap_cons, calls_append, Kernel.legalAll_append]
    rcases calls_sweepActions_cases now epollDel hnonneg sid with ⟨hnil, -⟩ | ⟨s, hs, -, hc⟩
    · rw [hnil]
      exact ⟨trivial, ih hnodup' hk fun sid' hmem ↦ hopen sid' (List.mem_cons_of_mem _ hmem)⟩
    · rw [hc, replay_epollDel_close]
      have hsock := hopen sid List.mem_cons_self s hs
      refine ⟨?_, ih hnodup' (Finset.mem_erase.2 ⟨(hepoll sid s hs).symm, hk⟩) ?_⟩
      · have hafter : (k.after (.epollDel context.epollHandle s.outboundSocket
            (epollDel s.outboundSocket))).openFds = k.openFds := by
          rcases epollDel s.outboundSocket with e | u <;> rfl
        simp only [Kernel.legalAll_cons, Kernel.legalAll_nil, and_true]
        exact ⟨by simp [Kernel.Legal, Syscall.uses, hk, hsock],
          by simp [Kernel.Legal, Syscall.uses, hafter, hsock]⟩
      · intro sid' hmem s' hs'
        refine Finset.mem_erase.2 ⟨fun heq ↦ ?_, hopen sid' (List.mem_cons_of_mem _ hmem) s' hs'⟩
        exact hsid (hinj sid' s' sid s hs' hs heq ▸ hmem)

end Sweep

namespace TableInvariant

variable {inherited : Finset SocketHandle} {context context' : WgcfRelayContext} {k k' : Kernel}
variable {now : UInt64} {epollDel : SocketHandle → Except Errno Unit} {order : List UInt64}
variable (h : TableInvariant inherited ⟨context, k⟩)

include h

theorem outboundSocket_nonneg (sid : UInt64) (s : WgcfRelaySession)
    (hs : context.sessions.lookup sid = some s) : 0 ≤ s.outboundSocket :=
  (h.fdMap_own (h.mem_fdMap hs)).1

/-- **The sweep keeps the invariant.** -/
theorem sweep (hswept : Swept now order context context')
    (hopen : ∀ fd, fd ∈ k'.openFds ↔ fd ∈ k.openFds ∧ ¬ Closed now order context fd)
    (hinterest : ∀ fd, fd ∈ k'.interest ↔ fd ∈ k.interest ∧ ¬ Closed now order context fd) :
    TableInvariant inherited ⟨context', k'⟩ := by
  -- what is left of a session, and what it was
  have hbefore : ∀ {sid s'}, context'.sessions.lookup sid = some s' →
      ∃ s, context.sessions.lookup sid = some s ∧ s.SameSession s' ∧
        (sid ∈ order → s.expired now = false) := by
    intro sid s' hs'
    rw [hswept.sessions] at hs'
    split at hs'
    · obtain ⟨s, hs, hsw⟩ := Option.bind_eq_some_iff.1 hs'
      obtain ⟨hexp, rfl⟩ := WgcfRelaySession.swept_eq_some.1 hsw
      exact ⟨s, hs, s.reportDropped_same, fun _ ↦ hexp⟩
    · next hmem => exact ⟨s', hs', .refl s', fun hmem' ↦ absurd hmem' hmem⟩
  -- the second table loses exactly the closed sockets
  have hfdMap : ∀ fd, fd ∈ context'.fileDescriptorToSessionIdMap ↔
      fd ∈ context.fileDescriptorToSessionIdMap ∧ ¬ Closed now order context fd := by
    intro fd
    by_cases hclosed : Closed now order context fd
    · obtain ⟨sid, hmem, s, hs, hexp, hfd⟩ := hclosed
      have hnone := hswept.fdMap_removed hmem hs hexp hfd
      simp only [Finmap.lookup_eq_none.1 hnone, false_iff, not_and, not_not]
      exact fun _ ↦ ⟨sid, hmem, s, hs, hexp, hfd⟩
    · have hkept := hswept.fdMap_kept fun sid hmem s hs hexp hfd ↦
        hclosed ⟨sid, hmem, s, hs, hexp, hfd⟩
      simp only [Finmap.mem_iff, hkept, hclosed, not_false_eq_true, and_true]
  constructor
  · intro sid s' hs'
    obtain ⟨s, hs, hsame, -⟩ := hbefore hs'
    exact (h.valid hs).same hsame
  · intro sid s' hs'
    obtain ⟨s, hs, hsame, hexp⟩ := hbefore hs'
    rw [hsame.outboundSocket, hswept.fdMap_kept]
    · exact h.fdMap_of_session hs
    · intro sid' hmem s'' hs'' hexp'' hsock
      obtain rfl := h.sid_eq_of_outboundSocket_eq hs'' hs hsock
      rw [hs, Option.some.injEq] at hs''
      rw [← hs'', hexp hmem] at hexp''
      exact absurd hexp'' (by simp)
  · intro fd sid hfd
    have hopen' := ((hfdMap fd).1 (Finmap.mem_of_lookup_eq_some hfd)).2
    rw [hswept.fdMap_kept fun sid hmem s hs hexp heq ↦
      hopen' ⟨sid, hmem, s, hs, hexp, heq⟩] at hfd
    obtain ⟨s, hs, hsock⟩ := h.session_of_fdMap hfd
    have hs : context.sessions.lookup sid = some s := hs
    by_cases hmem : sid ∈ order
    · have hexp : s.expired now = false := by
        rcases hexp : s.expired now
        · rfl
        · exact absurd ⟨sid, hmem, s, hs, hexp, hsock⟩ hopen'
      refine ⟨s.reportDropped, ?_, s.reportDropped_same.outboundSocket.trans hsock⟩
      rw [hswept.sessions, if_pos hmem, hs]
      exact WgcfRelaySession.swept_eq_some.2 ⟨hexp, rfl⟩
    · exact ⟨s, by rw [hswept.sessions, if_neg hmem, hs], hsock⟩
  · intro fd hfd
    rw [hswept.inboundSocket, hswept.epollHandle]
    exact h.fdMap_own ((hfdMap fd).1 hfd).1
  · intro fd
    rw [hopen, hfdMap, hswept.inboundSocket, hswept.epollHandle, h.openFds fd]
    have hown : Closed now order context fd →
        fd ∉ inherited ∧ fd ≠ context.inboundSocket ∧ fd ≠ context.epollHandle := by
      rintro ⟨sid, -, s, hs, -, rfl⟩
      exact (h.fdMap_own (h.mem_fdMap hs)).2
    tauto
  · intro fd
    rw [hinterest, hfdMap, hswept.inboundSocket, h.interest fd]
    have hown : Closed now order context fd → fd ≠ context.inboundSocket := by
      rintro ⟨sid, -, s, hs, -, rfl⟩
      exact h.outboundSocket_ne_inboundSocket hs
    tauto

end TableInvariant

/-! ### Received datagrams and the kernel -/

/-- The messages of the branches that look for a table entry and do not find it. -/
def LogMessage.reportsBrokenTable : LogMessage → Bool
  | .notFoundAfterCreation _ | .unknownSessionId _ | .unknownSocketHandle _ => true
  | .created .. | .forwarded .. | .expired _ => false

/-- No action reports a broken table. -/
def TablesIntact (acts : List Action) : Prop :=
  ∀ m, .log m ∈ acts → m.reportsBrokenTable = false

section Datagram

variable {inherited : Finset SocketHandle} {context context' : WgcfRelayContext} {k : Kernel}
variable {sid : UInt64} {a : Answers} {acts : List Action}

/-- Forwarding leaves the kernel as it is and names one socket only. -/
theorem WgcfRelaySession.Forwarding.kernel {dir : Direction} {sock : SocketHandle}
    {packet : Packet} {dest : Option SockAddr} {unsent attempted s : WgcfRelaySession}
    (h : Forwarding dir sock packet dest sid a unsent attempted s acts) (k : Kernel) :
    k.replay (calls acts) = k ∧ (sock ∈ k.openFds → k.LegalAll (calls acts)) ∧
      TablesIntact acts := by
  cases h with
  | unsent => exact ⟨rfl, fun _ ↦ trivial, by simp [TablesIntact]⟩
  | failed => exact ⟨rfl, fun hs ↦ by simp [Kernel.Legal, Syscall.uses, hs], by simp [TablesIntact]⟩
  | sent =>
    exact ⟨rfl, fun hs ↦ by simp [Kernel.Legal, Syscall.uses, hs],
      by simp [TablesIntact, LogMessage.reportsBrokenTable]⟩

/-- **A failed creation leaks nothing**: a socket that was opened is closed again. -/
theorem FailedCreation.kernel {epoll : SocketHandle} {a : Answers}
    (h : FailedCreation epoll a acts) (hgrants : k.GrantsAll (calls acts))
    (hsub : k.interest ⊆ k.openFds) (hepoll : epoll ∈ k.openFds) :
    k.replay (calls acts) = k ∧ k.LegalAll (calls acts) ∧ TablesIntact acts := by
  have hclosed : ∀ sock, k.Fresh sock →
      (⟨(insert sock k.openFds).erase sock, k.interest.erase sock⟩ : Kernel) = k := by
    intro sock hfresh
    rw [Finset.erase_insert hfresh.2, Finset.erase_eq_of_notMem fun hmem ↦ hfresh.2 (hsub hmem)]
  cases h with
  | socket =>
    exact ⟨rfl, by simp [Kernel.Legal, Syscall.uses], by simp [TablesIntact]⟩
  | bind | getsockname | epollAdd =>
    simp only [calls_cons_call, Kernel.grantsAll_cons, Kernel.grants_socket_ok] at hgrants
    refine ⟨by simpa using hclosed _ hgrants.1, ?_, by simp [TablesIntact]⟩
    simp [Kernel.Legal, Syscall.uses, hepoll]

/-- A creation that succeeds opens and registers one fresh socket. -/
theorem creationActions_kernel (epoll sock : SocketHandle) (family : UInt16) (addr : SockAddr)
    (sid : UInt64) (port : UInt16) (now : UInt64) (k : Kernel) :
    k.replay (calls (creationActions epoll family addr sid sock port now)) =
        ⟨insert sock k.openFds, insert sock k.interest⟩ ∧
      (k.GrantsAll (calls (creationActions epoll family addr sid sock port now)) → k.Fresh sock) ∧
      (epoll ∈ k.openFds →
        k.LegalAll (calls (creationActions epoll family addr sid sock port now))) ∧
      TablesIntact (creationActions epoll family addr sid sock port now) := by
  refine ⟨by simp [creationActions], fun hgrants ↦ ?_, fun hepoll ↦ ?_, ?_⟩
  · simp only [creationActions, calls_cons_call, Kernel.grantsAll_cons,
      Kernel.grants_socket_ok] at hgrants
    exact hgrants.1
  · simp [creationActions, Kernel.Legal, Syscall.uses, hepoll]
  · simp [creationActions, TablesIntact, LogMessage.reportsBrokenTable]

theorem TablesIntact.append {acts' : List Action} (h : TablesIntact acts)
    (h' : TablesIntact acts') : TablesIntact (acts ++ acts') := by
  intro m hm
  rcases List.mem_append.1 hm with hm | hm
  · exact h m hm
  · exact h' m hm

/-- **A received datagram keeps the invariant**, names open descriptors only and finds every
table entry it looks for. -/
theorem TableInvariant.datagram {fd : SocketHandle} {d : Datagram}
    (h : TableInvariant inherited ⟨context, k⟩) (hfd : fd ∈ k.interest)
    (heffect : DatagramEffect context fd d a context' acts) (hgrants : k.GrantsAll (calls acts)) :
    TableInvariant inherited ⟨context', k.replay (calls acts)⟩ ∧ k.LegalAll (calls acts) ∧
      TablesIntact acts := by
  -- a registered descriptor that is not the inbound socket is in the second table
  have hregistered : fd ≠ context.inboundSocket →
      fd ∈ context.fileDescriptorToSessionIdMap := fun hne ↦
    ((h.interest fd).1 hfd).resolve_left hne
  cases heffect with
  | ignored => exact ⟨h, trivial, by simp [TablesIntact]⟩
  | @fromClient source sid s _ hs =>
    obtain ⟨hk, hlegal, hintact⟩ :=
      (s.forwardToServer_forwarding context.destinationAddress source d.payload sid a).kernel k
    rw [hk]
    exact ⟨h.update hs (s.forwardToServer_same _ _ _ _ _), hlegal (h.outboundSocket_mem hs),
      hintact⟩
  | notCreated _ hs hfail =>
    obtain ⟨hk, hlegal, hintact⟩ :=
      hfail.kernel hgrants h.interest_subset_openFds h.epollHandle_mem
    rw [hk]
    exact ⟨h, hlegal, hintact⟩
  | @created source sid family addr sock port s harrival hs _ hnew =>
    obtain ⟨-, -, -, hsid, hne⟩ := arrival_eq_fromClient.1 harrival
    obtain ⟨hk, hfresh, hlegal, hintact⟩ :=
      creationActions_kernel context.epollHandle sock family addr sid port a.createdAt k
    rw [calls_append] at hgrants ⊢
    rw [Kernel.grantsAll_append, hk] at hgrants
    rw [Kernel.replay_append, Kernel.legalAll_append, hk]
    obtain ⟨hk', hlegal', hintact'⟩ :=
      (s.forwardToServer_forwarding context.destinationAddress source d.payload sid a).kernel
        ⟨insert sock k.openFds, insert sock k.interest⟩
    have hsock : s.outboundSocket = sock := by rw [hnew]; rfl
    have hfresh := hfresh hgrants.1
    have hfdMap : sock ∉ context.fileDescriptorToSessionIdMap := fun hmem ↦
      hfresh.2 ((h.openFds sock).2 (.inr (.inr (.inr hmem))))
    obtain ⟨-, hreserved, htoNat⟩ := getSessionIdFromClientPacket_ne_zero hsid hne
    have hvalid : ValidSession sid s := by
      rw [hnew]
      exact ⟨rfl, hreserved, reservedValue_lt _, htoNat⟩
    have hsame := s.forwardToServer_same context.destinationAddress source d.payload sid a
    rw [tryEmplace_of_notMem hfdMap, hk']
    exact ⟨h.create hs hfresh (hvalid.same hsame) (hsame.outboundSocket.trans hsock),
      ⟨hlegal h.epollHandle_mem, hlegal' (by rw [hsock]; exact Finset.mem_insert_self _ _)⟩,
      hintact.append hintact'⟩
  | @fromServer sid s _ hs =>
    obtain ⟨hk, hlegal, hintact⟩ :=
      (s.forwardToClient_forwarding context.inboundSocket d.payload sid a).kernel k
    rw [hk]
    exact ⟨h.update hs (s.forwardToClient_same _ _ _ _), hlegal h.inboundSocket_mem, hintact⟩
  | unknownSocketHandle _ hne hnone =>
    exact absurd (hregistered hne) (Finmap.lookup_eq_none.1 hnone)
  | unknownSessionId harrival hnone =>
    obtain ⟨s, hs, -⟩ := h.session_of_fdMap (arrival_eq_fromServer.1 harrival).2.2.2
    rw [show context.sessions.lookup _ = some s from hs] at hnone
    exact absurd hnone (by simp)

end Datagram

/-! ### Every step, and every run -/

section Step

variable {inherited : Finset SocketHandle} {σ₀ σ σ' : RelayState} {l : Label}

/-- What a step that handles a datagram is. -/
theorem Step.datagram {fd : SocketHandle} {d : Datagram} {a : Answers}
    (hst : Step σ l σ') (hl : l.event = .received fd (.ok d) a) :
    fd ∈ σ.kernel.interest ∧ ∃ acts, l.actions = .call (.recvfrom fd (.ok d)) :: acts ∧
      DatagramEffect σ.context fd d a σ'.context acts := by
  obtain ⟨henabled, hhandled, -, -⟩ := hst
  rw [hl] at henabled hhandled
  have heffect := handleDatagram_effect σ.context fd d a
  simp only [handleEvent, Except.ok.injEq, Prod.mk.injEq] at hhandled
  rw [hhandled.1] at heffect
  exact ⟨henabled, _, hhandled.2.symm, heffect⟩

/-- What a step whose `recvfrom` fails is. -/
theorem Step.noDatagram {fd : SocketHandle} {e : Errno} {a : Answers}
    (hst : Step σ l σ') (hl : l.event = .received fd (.error e) a) :
    fd ∈ σ.kernel.interest ∧ l.actions = [.call (.recvfrom fd (.error e))] ∧
      σ'.context = σ.context := by
  obtain ⟨henabled, hhandled, -, -⟩ := hst
  rw [hl] at henabled hhandled
  simp only [handleEvent] at hhandled
  split at hhandled
  · simp only [Except.ok.injEq, Prod.mk.injEq] at hhandled
    exact ⟨henabled, hhandled.2.symm, hhandled.1.symm⟩
  · exact absurd hhandled (by simp)

/-- What an idle sweep is. -/
theorem Step.sweep {now : UInt64} {order : List UInt64}
    {epollDel : SocketHandle → Except Errno Unit}
    (hst : Step σ l σ') (hl : l.event = .idleSweep now order epollDel) :
    order.Nodup ∧ (∀ sid, sid ∈ order ↔ sid ∈ σ.context.sessions) ∧
      Swept now order σ.context σ'.context ∧
      l.actions = .call (.clockGettime now) ::
        order.flatMap (sweepActions now epollDel σ.context) := by
  obtain ⟨henabled, hhandled, -, -⟩ := hst
  rw [hl] at henabled hhandled
  obtain ⟨hnodup, hkeys⟩ := henabled
  obtain ⟨hswept, hacts⟩ := sweepLoop_swept now epollDel σ.context hnodup
  simp only [handleEvent, Except.ok.injEq, Prod.mk.injEq] at hhandled
  rw [hhandled.1] at hswept
  rw [hacts] at hhandled
  refine ⟨hnodup, fun sid ↦ ?_, hswept, hhandled.2.symm⟩
  rw [← List.mem_toFinset, hkeys, Finmap.mem_keys]

/-- **Every step keeps the invariant**, names open descriptors only and finds every table
entry it looks for. -/
theorem TableInvariant.step (h : TableInvariant inherited σ) (hst : Step σ l σ') :
    TableInvariant inherited σ' ∧ σ.kernel.LegalAll (calls l.actions) ∧
      TablesIntact l.actions := by
  have hgrants := hst.granted
  have hkernel := hst.kernel
  have hσ' : σ' = ⟨σ'.context, σ'.kernel⟩ := rfl
  rw [hσ', hkernel]
  rcases hl : l.event with ⟨now, order, epollDel⟩ | ⟨fd, e | d, a⟩
  · obtain ⟨hnodup, -, hswept, hacts⟩ := hst.sweep hl
    obtain ⟨hopen, hinterest⟩ :=
      replay_sweep now epollDel h.outboundSocket_nonneg order σ.kernel
    rw [hacts, calls_cons_call, Kernel.replay_cons, Kernel.after_clockGettime,
      Kernel.legalAll_cons, Kernel.after_clockGettime]
    refine ⟨h.sweep hswept hopen hinterest, ⟨by simp [Kernel.Legal, Syscall.uses], ?_⟩, ?_⟩
    · exact legalAll_sweep now epollDel h.outboundSocket_nonneg
        (fun sid s sid' s' hs hs' ↦ h.sid_eq_of_outboundSocket_eq hs hs')
        (fun sid s hs ↦ (h.fdMap_own (h.mem_fdMap hs)).2.2.2) hnodup h.epollHandle_mem
        (fun sid _ s hs ↦ h.outboundSocket_mem hs)
    · intro m hm
      simp only [List.mem_cons, reduceCtorEq, false_or] at hm
      obtain ⟨sid, -, s, -, -, rfl⟩ := mem_sweepActions.1 hm
      rfl
  · obtain ⟨hfd, hacts, hcontext⟩ := hst.noDatagram hl
    rw [hacts, hcontext]
    have hopen := h.interest_subset_openFds hfd
    exact ⟨h, ⟨by simp [Kernel.Legal, Syscall.uses, hopen], trivial⟩, by simp [TablesIntact]⟩
  · obtain ⟨hfd, acts, hacts, heffect⟩ := hst.datagram hl
    rw [hacts, calls_cons_call] at hgrants
    obtain ⟨hinv, hlegal, hintact⟩ := h.datagram hfd heffect hgrants.2
    have hopen := h.interest_subset_openFds hfd
    rw [hacts, calls_cons_call, Kernel.replay_cons, Kernel.after_recvfrom]
    refine ⟨hinv, ⟨by simp [Kernel.Legal, Syscall.uses, hopen], hlegal⟩, ?_⟩
    intro m hm
    exact hintact m (by simpa using hm)

/-- The invariant holds in every reachable state. -/
theorem TableInvariant.run {h : List Label} (hstart : Started inherited σ₀)
    (hrun : relay.Run σ₀ h σ) : TableInvariant inherited σ :=
  hrun.invariant (fun _ _ _ hinv hst ↦ (hinv.step hst).1) (.started hstart)

/-- **The tables of the relay always agree.** In every state that a run reaches from a
successful `SetupSockets`: (a) every session is valid for its key and its socket is in the
second table; (b) every entry of the second table is the socket of its session; (c) the
outbound sockets are pairwise distinct and none is the inbound socket; (d) the descriptors
that the relay has open beside its two own ones, and the descriptors registered beside the
inbound socket, are exactly the sockets of the live sessions. Hence the next step names no
descriptor that is not open, and reaches none of the branches for a missing table entry. -/
theorem relay_tables_agree {h : List Label} (hstart : Started inherited σ₀)
    (hrun : relay.Run σ₀ h σ) :
    (∀ sid s, σ.context.sessions.lookup sid = some s →
      s.sessionId = sid ∧ s.wireguardReserved ≠ 0 ∧ s.wireguardReserved.toNat < 2 ^ 24 ∧
        sid.toNat = 2 * 2 ^ 32 + s.wireguardReserved.toNat ∧
        σ.context.fileDescriptorToSessionIdMap.lookup s.outboundSocket = some sid) ∧
    (∀ fd sid, σ.context.fileDescriptorToSessionIdMap.lookup fd = some sid →
      ∃ s, σ.context.sessions.lookup sid = some s ∧ s.outboundSocket = fd) ∧
    (∀ sid s, σ.context.sessions.lookup sid = some s →
      s.outboundSocket ≠ σ.context.inboundSocket ∧
        ∀ sid' s', σ.context.sessions.lookup sid' = some s' →
          s.outboundSocket = s'.outboundSocket → sid = sid') ∧
    (∀ fd, (fd ∈ σ.kernel.openFds ∧ fd ∉ inherited ∧ fd ≠ σ.context.inboundSocket ∧
        fd ≠ σ.context.epollHandle) ↔
      ∃ sid s, σ.context.sessions.lookup sid = some s ∧ s.outboundSocket = fd) ∧
    (∀ fd, (fd ∈ σ.kernel.interest ∧ fd ≠ σ.context.inboundSocket) ↔
      ∃ sid s, σ.context.sessions.lookup sid = some s ∧ s.outboundSocket = fd) ∧
    ∀ l σ', relay.step σ l σ' → σ.kernel.LegalAll (calls l.actions) ∧ TablesIntact l.actions := by
  have hinv := TableInvariant.run hstart hrun
  have hlive : ∀ fd, fd ∈ σ.context.fileDescriptorToSessionIdMap ↔
      ∃ sid s, σ.context.sessions.lookup sid = some s ∧ s.outboundSocket = fd := by
    intro fd
    constructor
    · intro hmem
      obtain ⟨sid, hfd⟩ := Finmap.mem_iff.1 hmem
      obtain ⟨s, hs, hsock⟩ := hinv.session_of_fdMap hfd
      exact ⟨sid, s, hs, hsock⟩
    · rintro ⟨sid, s, hs, rfl⟩
      exact hinv.mem_fdMap hs
  refine ⟨fun sid s hs ↦ ?_, fun fd sid hfd ↦ hinv.session_of_fdMap hfd, fun sid s hs ↦ ?_,
    fun fd ↦ ?_, fun fd ↦ ?_, fun l σ' hst ↦ (hinv.step hst).2⟩
  · obtain ⟨hid, hne, hlt, htoNat⟩ := hinv.valid hs
    exact ⟨hid, hne, hlt, htoNat, hinv.fdMap_of_session hs⟩
  · exact ⟨hinv.outboundSocket_ne_inboundSocket hs,
      fun sid' s' hs' hsock ↦ hinv.sid_eq_of_outboundSocket_eq hs hs' hsock⟩
  · rw [← hlive, hinv.openFds]
    constructor
    · rintro ⟨h' | h' | h' | h', hinherited, hinbound, hepoll⟩
      · exact absurd h' hinherited
      · exact absurd h' hinbound
      · exact absurd h' hepoll
      · exact h'
    · intro hmem
      exact ⟨.inr (.inr (.inr hmem)), (hinv.fdMap_own hmem).2⟩
  · rw [← hlive, hinv.interest]
    constructor
    · rintro ⟨h' | h', hinbound⟩
      · exact absurd h' hinbound
      · exact h'
    · intro hmem
      exact ⟨.inr hmem, (hinv.fdMap_own hmem).2.2.1⟩

end Step

/-- The tables after the first packet of a client. -/
theorem sampleLive_tables_agree :
    (sampleLive 1000).context.fileDescriptorToSessionIdMap.lookup 5 = some sampleSid :=
  ((relay_tables_agree sampleStart_started (.single (sampleArrival_step 1000))).1
    sampleSid (sampleSession 1000) rfl).2.2.2.2

end WgRelay
