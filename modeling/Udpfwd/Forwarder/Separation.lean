import Udpfwd.Forwarder.Routing

/-!
# One forwarder for each target

The forwarder keeps its targets apart: the events on the two sockets of a session are handled
as if the session were the only one, and no other event touches it. So a run of the forwarder
is, for each of its targets, a run of a forwarder that has been started for that target alone
(`forwarder_splits`), as long as `RunWorker` does not return; its return ends all of them.
-/

open Net

namespace UdpForward

/-- The context of a forwarder whose only session is `s`. -/
def UdpForwardContext.alone (context : UdpForwardContext) (s : UdpForwardSession) :
    UdpForwardContext where
  sessions := [s]
  fileDescriptorToSessionIndex := tryEmplace (tryEmplace ∅ s.inboundSocket 0) s.outboundSocket 0
  epollHandle := context.epollHandle

/-- The state of a forwarder whose only session is `s`. -/
def ForwarderState.alone (σ : ForwarderState) (s : UdpForwardSession) : ForwarderState where
  context := σ.context.alone s
  kernel := ⟨σ.kernel.openFds, {s.outboundSocket, s.inboundSocket}⟩

/-- The event is on one of the two sockets of `s`. -/
def Event.on (s : UdpForwardSession) : Event → Bool
  | .epollFailed _ => false
  | .polled fd _ _ _ _ _ => fd ∈ s.descriptors

section Alone

variable {context : UdpForwardContext} {s s' : UdpForwardSession} {e : Event} {i : ℕ}
variable {targets : List UdpForwardTargetInfo} {k : Kernel} {fd : SocketHandle}

theorem UdpForwardContext.alone_of_fixed (h : s'.fixed = s.fixed) :
    { context.alone s with sessions := [s'] } = context.alone s' := by
  have hfds := descriptors_of_fixed h
  simp only [UdpForwardSession.descriptors, List.cons.injEq, and_true] at hfds
  simp [UdpForwardContext.alone, hfds]

theorem UdpForwardContext.alone_lookup (hne : s.inboundSocket ≠ s.outboundSocket)
    (hfd : fd ∈ s.descriptors) :
    (context.alone s).fileDescriptorToSessionIndex.lookup fd = some 0 := by
  have hempty : ∀ fd, fd ∉ (∅ : Finmap fun _ : SocketHandle ↦ ℕ) := fun _ ↦ Finmap.notMem_empty
  show (tryEmplace (tryEmplace ∅ s.inboundSocket 0) s.outboundSocket 0).lookup fd = some 0
  rw [lookup_tryEmplace_tryEmplace (hempty _) (hempty _) hne.symm, if_pos]
  simpa [UdpForwardSession.descriptors] using hfd

/-- A datagram on the inbound socket, with the source `from` that it has come from. -/
theorem forwardToDestination_alone {packet : Packet} {fromAddress : INetSocketAddress}
    {answer : Except Errno ℕ} (hlt : i < context.sessions.length) :
    ∃ s', s'.fixed = s.fixed ∧
      (forwardToDestination context i s packet fromAddress answer).2.1.sessions[i]? = some s' ∧
      forwardToDestination (context.alone s) 0 s packet fromAddress answer =
        ((forwardToDestination context i s packet fromAddress answer).1, context.alone s',
          (forwardToDestination context i s packet fromAddress answer).2.2) := by
  obtain ⟨s', hs', hfixed⟩ : ∃ s', s' = (if s.sourceAddress ≠ fromAddress then
      { s with sourceAddress := fromAddress } else s) ∧ s'.fixed = s.fixed := by
    refine ⟨_, rfl, ?_⟩
    split <;> rfl
  have halone : { context.alone s with sessions := (context.alone s).sessions.set 0 s' } =
      context.alone s' := UdpForwardContext.alone_of_fixed hfixed
  refine ⟨s', hfixed, ?_, ?_⟩
  · rw [forwardToDestination, ← hs']
    split <;> exact List.getElem?_set_self hlt
  · rw [forwardToDestination, forwardToDestination, ← hs']
    rw [halone]
    split <;> rfl

/-- A datagram on a socket of a session is handled as if the session were the only one. -/
theorem handleDatagram_alone (d : Datagram) (answer : Except Errno ℕ)
    (hs : context.sessions[i]? = some s)
    (hindex : context.fileDescriptorToSessionIndex.lookup fd = some i)
    (hfd : fd ∈ s.descriptors) (hne : s.inboundSocket ≠ s.outboundSocket) :
    ∃ s', s'.fixed = s.fixed ∧
      (handleDatagram context fd d answer).2.1.sessions[i]? = some s' ∧
      handleDatagram (context.alone s) fd d answer =
        ((handleDatagram context fd d answer).1, context.alone s',
          (handleDatagram context fd d answer).2.2) := by
  have hlt : i < context.sessions.length := (List.getElem?_eq_some_iff.1 hs).1
  have halone : (context.alone s).sessions[0]? = some s := rfl
  have hsame : ∀ outcome calls, ∃ s', s'.fixed = s.fixed ∧ context.sessions[i]? = some s' ∧
      ((outcome, context.alone s, calls) : Outcome × UdpForwardContext × List Syscall) =
        (outcome, context.alone s', calls) := fun _ _ ↦ ⟨s, rfl, hs, rfl⟩
  rw [handleDatagram, handleDatagram, UdpForwardContext.alone_lookup hne hfd, hindex]
  simp only [hs, halone]
  split
  · exact hsame _ _
  rcases toSocketAddress d.source with - | fromAddress
  · exact hsame _ _
  dsimp only
  split
  · exact forwardToDestination_alone hlt
  split
  · rw [forwardToSource, forwardToSource]
    split
    · exact hsame _ _
    split
    · exact hsame _ _
    rcases toLinuxSocketAddress s.sourceAddress with - | dest <;> exact hsame _ _
  · exact hsame _ _

/-- **An event on a socket of a session is handled as if the session were the only one.** -/
theorem handleEvent_alone (hal : Aligned targets context k) (hs : context.sessions[i]? = some s)
    (hon : e.on s = true) :
    ∃ s', s'.fixed = s.fixed ∧ (handleEvent context e).2.1.sessions[i]? = some s' ∧
      handleEvent (context.alone s) e =
        ((handleEvent context e).1, context.alone s', (handleEvent context e).2.2) := by
  rcases e with e | ⟨fd, epollErr, epollHup, epollIn, received, answer⟩
  · exact absurd hon (by simp [Event.on])
  have hfd : fd ∈ s.descriptors := of_decide_eq_true hon
  have hindex := (hal.index fd i).2 ⟨s, hs, hfd⟩
  have hsame : ∀ outcome calls, ∃ s', s'.fixed = s.fixed ∧ context.sessions[i]? = some s' ∧
      ((outcome, context.alone s, calls) : Outcome × UdpForwardContext × List Syscall) =
        (outcome, context.alone s', calls) := fun _ _ ↦ ⟨s, rfl, hs, rfl⟩
  rcases epollErr with - | -
  case true => exact hsame _ _
  rcases epollHup with - | -
  case true => exact hsame _ _
  rcases epollIn with - | -
  case false => exact hsame _ _
  rcases received with e | d
  · exact hsame _ _
  · obtain ⟨s', hfixed, hs', heq⟩ := handleDatagram_alone d answer hs hindex hfd
      (hal.inbound_ne_outbound hs)
    exact ⟨s', hfixed, hs', congrArg (fun r : Outcome × UdpForwardContext × List Syscall ↦
      (r.1, r.2.1, Syscall.recvfrom fd (.ok d) :: r.2.2)) heq⟩

/-- **No other event touches the session.** -/
theorem Effect.session_eq {context' : UdpForwardContext} {outcome : Outcome}
    {calls : List Syscall} (heffect : Effect context e outcome context' calls)
    (hal : Aligned targets context k) (hs : context.sessions[i]? = some s)
    (hon : e.on s = false) : context'.sessions[i]? = some s := by
  cases heffect with
  | dropped | outOfBounds | fromDestination => exact hs
  | @fromSource fd d answer j s' source _ hevent hindex hs' =>
    have hne : j ≠ i := by
      rintro rfl
      obtain ⟨s'', hs'', hfd⟩ := (hal.index fd j).1 hindex
      obtain rfl := Option.some.inj (hs.symm.trans hs'')
      rw [hevent] at hon
      exact of_decide_eq_false hon hfd
    rw [List.getElem?_set_ne hne]
    exact hs

theorem Effect.epollHandle {context' : UdpForwardContext} {outcome : Outcome}
    {calls : List Syscall} (heffect : Effect context e outcome context' calls) :
    context'.epollHandle = context.epollHandle := by
  cases heffect <;> rfl

end Alone

/-! ### Starting for one target -/

/-- The calls for a socket that is set up. -/
def socketCalls (epoll sock : SocketHandle) (addr : SockAddr) : List Syscall :=
  [.socket addr.family (.ok sock), .bind sock addr (.ok ()), .epollAdd epoll sock (.ok ())]

/-- The answers with which a socket is set up. -/
def SocketAnswers.success (sock : SocketHandle) : SocketAnswers :=
  ⟨.ok sock, .ok (), .ok ()⟩

section Setup

variable {context context' : UdpForwardContext} {k : Kernel} {a : ℕ → TargetAnswers}
variable {targets : List UdpForwardTargetInfo} {target : UdpForwardTargetInfo}
variable {calls : List Syscall} {epoll sock : SocketHandle} {address : INetSocketAddress}
variable {inherited : Finset SocketHandle}

theorem setupSocket_success {addr : SockAddr} (haddr : toLinuxSocketAddress address = some addr) :
    setupSocket epoll address (.success sock) = (.ok sock, socketCalls epoll sock addr) := by
  rw [setupSocket, haddr]
  rfl

theorem setupSocket_eq_ok {b : SocketAnswers}
    (h : setupSocket epoll address b = (.ok sock, calls)) :
    ∃ addr, toLinuxSocketAddress address = some addr ∧ calls = socketCalls epoll sock addr := by
  rw [setupSocket] at h
  rcases haddr : toLinuxSocketAddress address with - | addr
  · simp [haddr] at h
  rcases hsock : b.socket with e | sock'
  · simp [haddr, hsock] at h
  rcases hbind : b.bind with e | u
  · simp [haddr, hsock, hbind] at h
  rcases hadd : b.epollAdd with e | u'
  · simp [haddr, hsock, hbind, hadd] at h
  simp only [haddr, hsock, hbind, hadd, Prod.mk.injEq, Except.ok.injEq] at h
  obtain ⟨rfl, rfl⟩ := h
  exact ⟨addr, rfl, rfl⟩

/-- The context with a session for the target. -/
def UdpForwardContext.withSession (context : UdpForwardContext) (i : ℕ)
    (target : UdpForwardTargetInfo) (fd₁ fd₂ : SocketHandle) : UdpForwardContext :=
  { context with
    sessions := context.sessions ++
      [⟨target.inbound, target.outbound, {}, target.destination, fd₁, fd₂⟩]
    fileDescriptorToSessionIndex :=
      tryEmplace (tryEmplace context.fileDescriptorToSessionIndex fd₁ i) fd₂ i }

/-- One iteration of the loop, when the kernel grants both sockets. -/
theorem setupTarget_success {i : ℕ} {fd₁ fd₂ : SocketHandle} {addr₁ addr₂ : SockAddr}
    (haddr₁ : toLinuxSocketAddress target.inbound = some addr₁)
    (haddr₂ : toLinuxSocketAddress target.outbound = some addr₂) :
    setupTarget context i target ⟨.success fd₁, .success fd₂⟩ =
      (.ok (), context.withSession i target fd₁ fd₂,
        socketCalls context.epollHandle fd₁ addr₁ ++
          socketCalls context.epollHandle fd₂ addr₂) := by
  rw [setupTarget, setupSocket_success haddr₁]
  dsimp only
  rw [setupSocket_success haddr₂]
  rfl

theorem setupTarget_eq_ok {i : ℕ} {b : TargetAnswers}
    (h : setupTarget context i target b = (.ok (), context', calls)) :
    ∃ fd₁ fd₂ addr₁ addr₂, toLinuxSocketAddress target.inbound = some addr₁ ∧
      toLinuxSocketAddress target.outbound = some addr₂ ∧
        context' = context.withSession i target fd₁ fd₂ ∧
          calls = socketCalls context.epollHandle fd₁ addr₁ ++
            socketCalls context.epollHandle fd₂ addr₂ := by
  rw [setupTarget] at h
  rcases hin : setupSocket context.epollHandle target.inbound b.inbound with ⟨e | fd₁, calls₁⟩
  · simp [hin] at h
  rcases hout : setupSocket context.epollHandle target.outbound b.outbound with ⟨e | fd₂, calls₂⟩
  · simp [hin, hout] at h
  simp only [hin, hout, Prod.mk.injEq, true_and] at h
  obtain ⟨rfl, rfl⟩ := h
  obtain ⟨addr₁, haddr₁, rfl⟩ := setupSocket_eq_ok hin
  obtain ⟨addr₂, haddr₂, rfl⟩ := setupSocket_eq_ok hout
  exact ⟨fd₁, fd₂, addr₁, addr₂, haddr₁, haddr₂, rfl, rfl⟩

theorem descriptors_withSession (i : ℕ) (fd₁ fd₂ : SocketHandle) :
    (context.withSession i target fd₁ fd₂).descriptors = context.descriptors ++ [fd₁, fd₂] := by
  simp [UdpForwardContext.withSession, UdpForwardContext.descriptors,
    UdpForwardSession.descriptors]

/-- What holds of the old sessions and of the new one holds of all. -/
theorem forall_mem_withSession {i : ℕ} {fd₁ fd₂ : SocketHandle} {P : UdpForwardSession → Prop}
    (hold : ∀ s ∈ context.sessions, P s)
    (hnew : P ⟨target.inbound, target.outbound, {}, target.destination, fd₁, fd₂⟩) :
    ∀ s ∈ (context.withSession i target fd₁ fd₂).sessions, P s :=
  List.forall_mem_append.2 ⟨hold, List.forall_mem_singleton.2 hnew⟩

/-- What `SetupSockets` has done, beside what `Aligned` says. -/
structure Established (inherited : Finset SocketHandle) (context : UdpForwardContext)
    (k : Kernel) : Prop where
  epoll_nonneg : 0 ≤ context.epollHandle
  epoll_notMem : context.epollHandle ∉ inherited
  /-- Only the descriptors of the sessions and the one for epoll have been opened. -/
  openFds : ∀ fd, fd ∈ k.openFds ↔
    fd ∈ inherited ∨ fd = context.epollHandle ∨ fd ∈ context.descriptors
  descriptor : ∀ fd ∈ context.descriptors, 0 ≤ fd ∧ fd ≠ context.epollHandle ∧ fd ∉ inherited
  /-- Both addresses could be turned into socket addresses. -/
  inbound : ∀ s ∈ context.sessions, (toLinuxSocketAddress s.inboundSocketAddress).isSome
  outbound : ∀ s ∈ context.sessions, (toLinuxSocketAddress s.outboundSocketAddress).isSome

/-- One iteration of the loop. -/
theorem Established.setupTarget (h : Established inherited context k) {i : ℕ} {b : TargetAnswers}
    (hsetup : setupTarget context i target b = (.ok (), context', calls))
    (hgrants : k.GrantsAll calls) : Established inherited context' (k.replay calls) := by
  obtain ⟨fd₁, fd₂, addr₁, addr₂, haddr₁, haddr₂, rfl, rfl⟩ := setupTarget_eq_ok hsetup
  rw [Kernel.grantsAll_append] at hgrants
  obtain ⟨⟨⟨hnonneg₁, hfresh₁⟩, -⟩, ⟨hnonneg₂, hfresh₂⟩, -⟩ := hgrants
  have hnew : ∀ {fd}, fd ∉ k.openFds → fd ≠ context.epollHandle ∧ fd ∉ inherited := by
    intro fd hfd
    rw [h.openFds, not_or, not_or] at hfd
    exact ⟨hfd.2.1, hfd.1⟩
  have hfresh₂ : fd₂ ∉ k.openFds := fun hmem ↦ hfresh₂ (Finset.mem_insert_of_mem hmem)
  refine ⟨h.epoll_nonneg, h.epoll_notMem, fun fd ↦ ?_, fun fd hfd ↦ ?_,
    forall_mem_withSession h.inbound ?_, forall_mem_withSession h.outbound ?_⟩
  · show fd ∈ insert fd₂ (insert fd₁ k.openFds) ↔ _ ∨ fd = context.epollHandle ∨ _
    rw [descriptors_withSession, Finset.mem_insert, Finset.mem_insert, h.openFds, List.mem_append,
      List.mem_pair]
    tauto
  · rw [descriptors_withSession, List.mem_append, List.mem_pair] at hfd
    rcases hfd with hfd | rfl | rfl
    · exact h.descriptor fd hfd
    · exact ⟨hnonneg₁, hnew hfresh₁⟩
    · exact ⟨hnonneg₂, hnew hfresh₂⟩
  · rw [haddr₁]
    rfl
  · rw [haddr₂]
    rfl

theorem Established.setupLoop (h : Established inherited context k) {i : ℕ}
    (hsetup : setupLoop context a i targets = (.ok (), context', calls))
    (hgrants : k.GrantsAll calls) : Established inherited context' (k.replay calls) := by
  induction targets generalizing i context k calls with
  | nil =>
    simp only [UdpForward.setupLoop, Prod.mk.injEq, true_and] at hsetup
    obtain ⟨rfl, rfl⟩ := hsetup
    exact h
  | cons target rest ih =>
    obtain ⟨context₁, calls₁, calls₂, hfirst, hrest, rfl⟩ := setupLoop_cons_ok hsetup
    rw [Kernel.grantsAll_append] at hgrants
    rw [Kernel.replay_append]
    exact ih (h.setupTarget hfirst hgrants.1) hrest hgrants.2

theorem Started.established {σ : ForwarderState} (h : Started inherited targets σ) :
    Established inherited σ.context σ.kernel := by
  obtain ⟨epollCreate, a, done, hsetup, hgrants, hkernel, -⟩ := h
  simp only [setupSockets] at hsetup
  rcases epollCreate with e | epollHandle
  · simp at hsetup
  rcases hloop : UdpForward.setupLoop { ({} : UdpForwardContext) with epollHandle := epollHandle }
    a 0 targets with ⟨result, context, calls⟩
  simp only [hloop, Prod.mk.injEq] at hsetup
  obtain ⟨rfl, rfl, rfl⟩ := hsetup
  have hempty : Established inherited { ({} : UdpForwardContext) with epollHandle := epollHandle }
      ⟨insert epollHandle inherited, ∅⟩ := by
    refine ⟨hgrants.1.1, hgrants.1.2, fun fd ↦ ?_, List.forall_mem_nil _, List.forall_mem_nil _,
      List.forall_mem_nil _⟩
    rw [Finset.mem_insert]
    simp [UdpForwardContext.descriptors, or_comm]
  rw [hkernel]
  exact hempty.setupLoop hloop hgrants.2

/-- **Each target could have been set up alone**, with the same descriptors. -/
theorem Started.alone {σ : ForwarderState} {i : ℕ} {s : UdpForwardSession}
    (h : Started inherited targets σ)
    (htarget : targets[i]? = some target) (hs : σ.context.sessions[i]? = some s) :
    ∃ inherited', Started inherited' [target] (σ.alone s) := by
  obtain ⟨hal, hsource⟩ := h.aligned
  have hest := h.established
  have hmem := List.mem_of_getElem? hs
  obtain ⟨hinbound, houtbound, hdestination⟩ := hal.forTarget htarget hs
  obtain ⟨addr₁, haddr₁⟩ := Option.isSome_iff_exists.1 (hest.inbound s hmem)
  obtain ⟨addr₂, haddr₂⟩ := Option.isSome_iff_exists.1 (hest.outbound s hmem)
  have hin := mem_descriptors.2 ⟨i, s, hs, s.inboundSocket_mem⟩
  have hout := mem_descriptors.2 ⟨i, s, hs, s.outboundSocket_mem⟩
  obtain ⟨hnonneg₁, hne₁, -⟩ := hest.descriptor _ hin
  obtain ⟨hnonneg₂, hne₂, -⟩ := hest.descriptor _ hout
  have hne := hal.inbound_ne_outbound hs
  rw [hinbound] at haddr₁
  rw [houtbound] at haddr₂
  refine ⟨σ.kernel.openFds \ {σ.context.epollHandle, s.inboundSocket, s.outboundSocket},
    .ok σ.context.epollHandle, fun _ ↦ ⟨.success s.inboundSocket, .success s.outboundSocket⟩,
    .epollCreate (.ok σ.context.epollHandle) ::
      (socketCalls σ.context.epollHandle s.inboundSocket addr₁ ++
        socketCalls σ.context.epollHandle s.outboundSocket addr₂), ?_, ?_, ?_, rfl⟩
  · have hsession : (⟨target.inbound, target.outbound, {}, target.destination, s.inboundSocket,
        s.outboundSocket⟩ : UdpForwardSession) = s := by
      rw [← hinbound, ← houtbound, ← hdestination, ← hsource s hmem]
    have halone : UdpForwardContext.withSession { ({} : UdpForwardContext) with
        epollHandle := σ.context.epollHandle } 0 target s.inboundSocket s.outboundSocket =
        σ.context.alone s := by
      rw [UdpForwardContext.withSession, hsession]
      rfl
    simp only [setupSockets, UdpForward.setupLoop, setupTarget_success haddr₁ haddr₂, halone,
      List.append_nil]
    rfl
  · refine ⟨⟨hest.epoll_nonneg, by simp⟩, ⟨hnonneg₁, ?_⟩, trivial, trivial, ⟨hnonneg₂, ?_⟩, trivial,
      trivial, trivial⟩
    · show s.inboundSocket ∉ insert σ.context.epollHandle (_ \ _)
      simp [hne₁]
    · show s.outboundSocket ∉ insert s.inboundSocket (insert σ.context.epollHandle (_ \ _))
      simp [hne.symm, hne₂]
  · have hsame : σ.kernel.openFds = insert s.outboundSocket (insert s.inboundSocket
        (insert σ.context.epollHandle (σ.kernel.openFds \
          {σ.context.epollHandle, s.inboundSocket, s.outboundSocket}))) := by
      ext fd
      simp only [Finset.mem_insert, Finset.mem_sdiff, Finset.mem_singleton]
      constructor
      · tauto
      · rintro (rfl | rfl | rfl | hfd)
        · exact hal.openFds _ hout
        · exact hal.openFds _ hin
        · exact (hest.openFds _).2 (.inr (.inl rfl))
        · exact hfd.1
    exact congrArg₂ Kernel.mk hsame rfl

end Setup

/-! ### Runs -/

section Runs

variable {inherited : Finset SocketHandle} {targets : List UdpForwardTargetInfo}
variable {σ₀ σ σ' : ForwarderState} {h : List Label} {l : Label} {s s₀ : UdpForwardSession}
variable {i : ℕ}

/-- A step on a socket of a session is a step of a forwarder that has only this session. -/
theorem Step.alone (hst : Step σ l σ') (hal : Aligned targets σ.context σ.kernel)
    (hnext : σ'.outcome = .next) (hs : σ.context.sessions[i]? = some s)
    (hon : l.event.on s = true) :
    ∃ s', σ'.context.sessions[i]? = some s' ∧ s'.fixed = s.fixed ∧
      Step (σ.alone s) l (σ'.alone s') := by
  obtain ⟨s', hfixed, hs', halone⟩ := handleEvent_alone hal hs hon
  rw [hst.handled] at hs' halone
  obtain ⟨-, -, hkernel⟩ := hst.effect.fixed
  have hdescriptors := descriptors_of_fixed hfixed
  simp only [UdpForwardSession.descriptors, List.cons.injEq, and_true] at hdescriptors
  refine ⟨s', hs', hfixed, rfl, ?_, ?_, ?_⟩
  · rcases he : l.event with e | ⟨fd, epollErr, epollHup, epollIn, received, answer⟩
    · exact trivial
    · rw [he] at hon
      have hfd : fd ∈ s.descriptors := of_decide_eq_true hon
      show fd ∈ ({s.outboundSocket, s.inboundSocket} : Finset SocketHandle)
      simpa [UdpForwardSession.descriptors, or_comm] using hfd
  · rw [hnext] at halone
    rw [show (σ.alone s).context = σ.context.alone s from rfl, halone]
    show (_, σ.context.alone s', _) = (_, σ'.context.alone s', _)
    rw [UdpForwardContext.alone, UdpForwardContext.alone, hst.effect.epollHandle]
    rfl
  · rw [hkernel]
    show Kernel.mk _ _ = Kernel.mk _ _
    rw [hst.kernel, hkernel, hdescriptors.1, hdescriptors.2]

/-- A step on other sockets is none of it. -/
theorem Step.alone_eq (hst : Step σ l σ') (hal : Aligned targets σ.context σ.kernel)
    (hs : σ.context.sessions[i]? = some s) (hon : l.event.on s = false) :
    σ'.context.sessions[i]? = some s ∧ σ'.alone s = σ.alone s := by
  obtain ⟨-, -, hkernel⟩ := hst.effect.fixed
  refine ⟨hst.effect.session_eq hal hs hon, ?_⟩
  rw [ForwarderState.alone, ForwarderState.alone, UdpForwardContext.alone,
    UdpForwardContext.alone, hst.effect.epollHandle, hst.kernel, hkernel]

/-- A run in which `RunWorker` has not returned, seen from one session. -/
theorem alone_run (hal : Aligned targets σ₀.context σ₀.kernel)
    (hs : σ₀.context.sessions[i]? = some s₀) (hrun : forwarder.Run σ₀ h σ)
    (hnext : σ.outcome = .next) :
    ∃ s, σ.context.sessions[i]? = some s ∧ s.fixed = s₀.fixed ∧
      forwarder.Run (σ₀.alone s₀) (h.filter fun l ↦ l.event.on s₀) (σ.alone s) := by
  induction hrun with
  | nil => exact ⟨s₀, hs, rfl, .nil⟩
  | @snoc h ρ σ l hrun hst ih =>
    obtain ⟨s, hs, hfixed, hr⟩ := ih (Step.running hst)
    have halρ : Aligned targets ρ.context ρ.kernel :=
      hrun.invariant (I := fun ρ ↦ Aligned targets ρ.context ρ.kernel)
        (fun _ _ _ hal hst ↦ (hal.step hst).1) hal
    have hsame : l.event.on s = l.event.on s₀ := by
      rcases l.event with e | ⟨fd, epollErr, epollHup, epollIn, received, answer⟩
      · rfl
      · rw [Event.on, Event.on, descriptors_of_fixed hfixed]
    rw [List.filter_append, List.filter_singleton]
    rcases hon : l.event.on s₀ with - | -
    · obtain ⟨hs', hστ⟩ := Step.alone_eq hst halρ hs (hsame.trans hon)
      rw [cond_false, List.append_nil]
      exact ⟨s, hs', hfixed, hστ ▸ hr⟩
    · obtain ⟨s', hs', hfixed', hstep⟩ := Step.alone hst halρ hnext hs (hsame.trans hon)
      exact ⟨s', hs', hfixed'.trans hfixed, hr.snoc hstep⟩

/-- **The forwarder is one forwarder for each target.** In every run in which `RunWorker` has not
returned, the events on the sockets of a target, with all the calls they cause, are a run of a
forwarder that has been started for that target alone, on the same sockets, and they leave its
session as the whole run does. -/
theorem forwarder_splits {target : UdpForwardTargetInfo} (hstart : Started inherited targets σ₀)
    (hrun : forwarder.Run σ₀ h σ) (hnext : σ.outcome = .next)
    (htarget : targets[i]? = some target) (hs : σ₀.context.sessions[i]? = some s₀) :
    (∃ inherited', Started inherited' [target] (σ₀.alone s₀)) ∧
      ∃ s, σ.context.sessions[i]? = some s ∧ s.descriptors = s₀.descriptors ∧
        forwarder.Run (σ₀.alone s₀) (h.filter fun l ↦ l.event.on s₀) (σ.alone s) := by
  obtain ⟨s, hs', hfixed, hr⟩ := alone_run hstart.aligned.1 hs hrun hnext
  exact ⟨hstart.alone htarget hs, s, hs', descriptors_of_fixed hfixed, hr⟩

end Runs

/-- The sessions of the sample forwarder before any datagram. -/
def sampleSession (i : Fin 2) : UdpForwardSession := sampleStart.context.sessions.get i

/-- The first target sees nothing of a query for the second one, which sees all of it. -/
theorem afterQuery_splits :
    (∃ s, afterQuery.2.context.sessions[0]? = some s ∧ s.descriptors = [4, 5] ∧
      forwarder.Run (sampleStart.alone (sampleSession 0)) [] (afterQuery.2.alone s)) ∧
    ∃ s, afterQuery.2.context.sessions[1]? = some s ∧ s.descriptors = [6, 7] ∧
      forwarder.Run (sampleStart.alone (sampleSession 1)) [afterQuery.1]
        (afterQuery.2.alone s) := by
  have hrun : forwarder.Run sampleStart [afterQuery.1] afterQuery.2 := .single (exec_get_step _)
  have hfirst : sampleStart.context.sessions[0]? = some (sampleSession 0) := rfl
  have hsecond : sampleStart.context.sessions[1]? = some (sampleSession 1) := rfl
  exact ⟨(forwarder_splits sampleStart_started hrun rfl rfl hfirst).2,
    (forwarder_splits sampleStart_started hrun rfl rfl hsecond).2⟩

end UdpForward
