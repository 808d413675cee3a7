import Mathlib.Data.Finset.Card
import Mathlib.Order.Interval.Finset.Nat
import Udpfwd.Relay.Loop
import Udpfwd.Relay.Routing

/-!
# The descriptors of the relay process

From its first call in `SetupSockets` to the return of `RunWorker`, the calls of the process about
sockets and registrations name only descriptors that are open then, whether `SetupSockets` fails,
and wherever in a batch `RunWorker` returns (`relay_process_legal`). Beside what it has inherited it has two descriptors
open and one for each session, and the reserved bytes bound the number of sessions
(`relay_descriptor_census`).
-/

open Net

namespace WgRelay

/-! ### Legality -/

/-- The calls of `SetupSockets` name open descriptors only, however far it gets. -/
theorem setupSockets_legal {context context' : WgcfRelayContext}
    {listenAddr forwardAddr : INetSocketAddress} {a : SetupAnswers} {result : Except Errno Unit}
    {done : List Syscall} {k : Kernel}
    (hsetup : setupSockets context listenAddr forwardAddr a = (result, context', done)) :
    k.LegalAll done := by
  obtain rfl : (setupSockets context listenAddr forwardAddr a).2.2 = done := by rw [hsetup]
  rw [setupSockets]
  rcases haddr : toLinuxSocketAddress listenAddr with - | addr
  · exact trivial
  rcases hsock : a.socket with e | sock
  · simp [Kernel.Legal, Syscall.uses]
  -- the option is set on the new socket, or not at all
  obtain ⟨option, hoption, hlegal, hreplay⟩ : ∃ option : List Syscall,
      option = (if listenAddr.address = INetAddress.ipv6Any then
        [.setIpv6Only sock a.setIpv6Only] else []) ∧
      (Kernel.mk (insert sock k.openFds) k.interest).LegalAll option ∧
      (Kernel.mk (insert sock k.openFds) k.interest).replay option =
        ⟨insert sock k.openFds, k.interest⟩ := by
    refine ⟨_, rfl, ?_⟩
    split <;> simp [Kernel.Legal, Syscall.uses]
  rcases hbind : a.bind with e | u
  · simp [← hoption, hlegal, hreplay, Kernel.Legal, Syscall.uses]
  rcases hcreate : a.epollCreate with e | epoll
  · simp [← hoption, hlegal, hreplay, Kernel.Legal, Syscall.uses]
  rcases hadd : a.epollAdd with e | u'
  · simp [← hoption, hlegal, hreplay, Kernel.Legal, Syscall.uses]
  · simp [← hoption, hlegal, hreplay, Kernel.Legal, Syscall.uses]

section Legality

variable {inherited : Finset SocketHandle} {s₀ s : LoopState} {rs : List Round}

/-- The loop names open descriptors only. -/
theorem runWorker_legal (hinv : TableInvariant inherited s₀.relayState)
    (hrun : runWorker.Run s₀ rs s) :
    TableInvariant inherited s.relayState ∧
      s₀.kernel.LegalAll (calls (rs.flatMap (·.actions))) ∧
        s.kernel = s₀.kernel.replay (calls (rs.flatMap (·.actions))) := by
  induction hrun with
  | nil => exact ⟨hinv, trivial, rfl⟩
  | snoc _ hst ih =>
    obtain ⟨hinv', hlegal, hkernel⟩ := ih
    obtain ⟨hlegal', labels, -, hrun⟩ := LoopStep.handles hst hinv'
    rw [List.flatMap_append, List.flatMap_singleton, calls_append, Kernel.legalAll_append,
      Kernel.replay_append, ← hkernel]
    exact ⟨hrun.invariant (fun _ _ _ hinv hst ↦ (hinv.step hst).1) hinv', ⟨hlegal, hlegal'⟩,
      LoopStep.kernel hst⟩

/-- **The process never names a descriptor that is not open** in a call about a socket or a
registration: not in `SetupSockets`, however far it gets, and not in `RunWorker` up to its
return. -/
theorem relay_process_legal {listenAddr forwardAddr : INetSocketAddress} {a : SetupAnswers}
    {result : Except Errno Unit} {context : WgcfRelayContext} {done : List Syscall}
    (hsetup : setupSockets {} listenAddr forwardAddr a = (result, context, done))
    (hgrants : (Kernel.mk inherited ∅).GrantsAll done) :
    (Kernel.mk inherited ∅).LegalAll done ∧
      (result = .ok () → ∀ rs s,
        runWorker.Run ⟨context, (Kernel.mk inherited ∅).replay done, none⟩ rs s →
          (Kernel.mk inherited ∅).LegalAll (done ++ calls (rs.flatMap (·.actions)))) := by
  have hlegal : (Kernel.mk inherited ∅).LegalAll done := setupSockets_legal hsetup
  refine ⟨hlegal, ?_⟩
  rintro rfl rs s hrun
  have hstart : Started inherited ⟨context, (Kernel.mk inherited ∅).replay done⟩ :=
    ⟨listenAddr, forwardAddr, a, done, hsetup, hgrants, rfl⟩
  rw [Kernel.legalAll_append]
  exact ⟨hlegal, (runWorker_legal (.started hstart) hrun).2.1⟩

end Legality

/-! ### The census -/

section Census

variable {inherited : Finset SocketHandle} {σ₀ σ : RelayState} {h : List Label}

/-- There are as many outbound sockets as sessions. -/
theorem TableInvariant.card_fdMap (hinv : TableInvariant inherited σ) :
    σ.context.fileDescriptorToSessionIdMap.keys.card = σ.context.sessions.keys.card := by
  refine Finset.card_nbij (fun fd ↦
    (σ.context.fileDescriptorToSessionIdMap.lookup fd).getD 0) ?_ ?_ ?_
  · intro fd hfd
    obtain ⟨sid, hsid⟩ := Finmap.mem_iff.1 (Finmap.mem_keys.1 hfd)
    obtain ⟨s, hs, -⟩ := hinv.session_of_fdMap hsid
    show (σ.context.fileDescriptorToSessionIdMap.lookup fd).getD 0 ∈ σ.context.sessions.keys
    rw [hsid]
    exact Finmap.mem_keys.2 (Finmap.mem_of_lookup_eq_some hs)
  · intro fd hfd fd' hfd' heq
    obtain ⟨sid, hsid⟩ := Finmap.mem_iff.1 (Finmap.mem_keys.1 hfd)
    obtain ⟨sid', hsid'⟩ := Finmap.mem_iff.1 (Finmap.mem_keys.1 hfd')
    simp only [hsid, hsid', Option.getD_some] at heq
    subst heq
    obtain ⟨s, hs, rfl⟩ := hinv.session_of_fdMap hsid
    obtain ⟨s', hs', rfl⟩ := hinv.session_of_fdMap hsid'
    rw [Option.some.inj (hs.symm.trans hs')]
  · intro sid hsid
    obtain ⟨s, hs⟩ := Finmap.mem_iff.1 (Finmap.mem_keys.1 hsid)
    exact ⟨s.outboundSocket, Finmap.mem_keys.2 (hinv.mem_fdMap hs), by
      simp [hinv.fdMap_of_session hs]⟩

/-- The reserved bytes are not all zero, so there are fewer sessions than values of them. -/
theorem TableInvariant.card_sessions_lt (hinv : TableInvariant inherited σ) :
    σ.context.sessions.keys.card < 2 ^ 24 := by
  have hinto : σ.context.sessions.keys.card ≤ (Finset.Ico 1 (2 ^ 24)).card := by
    refine Finset.card_le_card_of_injOn (fun sid ↦ sid.toNat - 2 * 2 ^ 32) ?_ ?_
    · intro sid hsid
      obtain ⟨s, hs⟩ := Finmap.mem_iff.1 (Finmap.mem_keys.1 hsid)
      obtain ⟨-, hne, hlt, htoNat⟩ := hinv.valid hs
      have hpos : 0 < s.wireguardReserved.toNat := by
        rw [Nat.pos_iff_ne_zero]
        exact fun hzero ↦ hne (UInt32.toNat_inj.1 hzero)
      show sid.toNat - 2 * 2 ^ 32 ∈ Finset.Ico 1 (2 ^ 24)
      rw [Finset.mem_Ico]
      omega
    · intro sid hsid sid' hsid' heq
      obtain ⟨s, hs⟩ := Finmap.mem_iff.1 (Finmap.mem_keys.1 hsid)
      obtain ⟨s', hs'⟩ := Finmap.mem_iff.1 (Finmap.mem_keys.1 hsid')
      have htoNat := (hinv.valid hs).toNat_sid
      have htoNat' := (hinv.valid hs').toNat_sid
      rw [← UInt64.toNat_inj]
      dsimp only at heq
      omega
  have hcard : (Finset.Ico 1 (2 ^ 24)).card = 2 ^ 24 - 1 := Nat.card_Ico 1 (2 ^ 24)
  omega

/-- The relay keeps its own two descriptors. -/
theorem epollHandle_run (hrun : relay.Run σ₀ h σ) :
    σ.context.epollHandle = σ₀.context.epollHandle := by
  induction hrun with
  | nil => rfl
  | snoc _ hst ih => exact (Step.fixed hst).2.2.2.trans ih

/-- **One descriptor for each session.** In every state that `RunWorker` reaches, the process
has two descriptors open beside those that it has inherited, and one for each session; epoll
watches the inbound socket and one descriptor for each session; and there are fewer than `2 ^ 24`
sessions, whatever packets arrive. -/
theorem relay_descriptor_census {s : LoopState} {rs : List Round}
    (hstart : Started inherited σ₀) (hrun : runWorker.Run σ₀.looping rs s) :
    s.kernel.openFds.card = inherited.card + 2 + s.context.sessions.keys.card ∧
      s.kernel.interest.card = 1 + s.context.sessions.keys.card ∧
      s.context.sessions.keys.card < 2 ^ 24 := by
  obtain ⟨hs, σ, -, hr, hinv, rfl⟩ := (batches inherited).run ⟨.started hstart, rfl⟩ hrun
  obtain ⟨-, -, hinbound, hepoll, hne, -, -⟩ := hstart.spec
  rw [← (fixed_run hr).1, ← epollHandle_run hr] at hne
  rw [← (fixed_run hr).1] at hinbound
  rw [← epollHandle_run hr] at hepoll
  have hfdMap : s.context.fileDescriptorToSessionIdMap.keys.card =
    s.context.sessions.keys.card := hinv.card_fdMap
  have hown : ∀ fd ∈ s.context.fileDescriptorToSessionIdMap.keys, fd ∉ inherited ∧
      fd ≠ s.context.inboundSocket ∧ fd ≠ s.context.epollHandle :=
    fun fd hfd ↦ (hinv.fdMap_own (Finmap.mem_keys.1 hfd)).2
  have hopen : s.kernel.openFds = insert s.context.inboundSocket (insert s.context.epollHandle
      (inherited ∪ s.context.fileDescriptorToSessionIdMap.keys)) := by
    ext fd
    have hmem := hinv.openFds fd
    simp only [Finset.mem_insert, Finset.mem_union, Finmap.mem_keys] at hmem ⊢
    rw [show fd ∈ s.kernel.openFds ↔ _ from hmem]
    tauto
  have hinterest : s.kernel.interest =
      insert s.context.inboundSocket s.context.fileDescriptorToSessionIdMap.keys := by
    ext fd
    rw [Finset.mem_insert, Finmap.mem_keys]
    exact hinv.interest fd
  have hunion : Disjoint inherited s.context.fileDescriptorToSessionIdMap.keys :=
    Finset.disjoint_right.2 fun fd hfd ↦ (hown fd hfd).1
  refine ⟨?_, ?_, hinv.card_sessions_lt⟩
  · rw [hopen, Finset.card_insert_of_notMem, Finset.card_insert_of_notMem,
      Finset.card_union_of_disjoint hunion, hfdMap]
    · omega
    · rw [Finset.mem_union, not_or]
      exact ⟨hepoll, fun hmem ↦ (hown _ hmem).2.2 rfl⟩
    · rw [Finset.mem_insert, Finset.mem_union, not_or, not_or]
      exact ⟨hne, hinbound, fun hmem ↦ (hown _ hmem).2.1 rfl⟩
  · rw [hinterest, Finset.card_insert_of_notMem fun hmem ↦ (hown _ hmem).2.1 rfl, hfdMap]
    omega

end Census

theorem lastRound_legal :
    (Kernel.mk {0, 1, 2} ∅).LegalAll
      ((setupSockets {} ⟨INetAddress.ipv6Any, 2408⟩ sampleServer sampleSetup).2.2 ++
        calls ([firstRound, lastRound].flatMap (·.actions))) := by
  have hsetup : setupSockets {} ⟨INetAddress.ipv6Any, 2408⟩ sampleServer sampleSetup =
      (.ok (), sampleStart.context,
        (setupSockets {} ⟨INetAddress.ipv6Any, 2408⟩ sampleServer sampleSetup).2.2) := rfl
  have hgrants : (Kernel.mk {0, 1, 2} ∅).GrantsAll
      (setupSockets {} ⟨INetAddress.ipv6Any, 2408⟩ sampleServer sampleSetup).2.2 := by decide
  exact (relay_process_legal hsetup hgrants).2 rfl _ _
    ((LTS.Run.single firstRound_step).snoc lastRound_step)

theorem lastRound_descriptor_census :
    (sampleLive 1000).kernel.openFds.card = 3 + 2 + 1 ∧
      (sampleLive 1000).kernel.interest.card = 1 + 1 ∧ 1 < 2 ^ 24 :=
  relay_descriptor_census sampleStart_started
    ((LTS.Run.single firstRound_step).snoc lastRound_step)

end WgRelay
