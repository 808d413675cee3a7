import Mathlib.Data.List.Nodup
import Mathlib.Data.List.Induction
import Udpfwd.Forwarder.Worker

/-!
# The alignment that `SetupSockets` establishes

The sessions are found in two ways: by their position in the vector, which is the position of
their target in the configuration, and by the index that the hash map has for their two
descriptors. `Aligned` says that the two agree. One iteration of the loop of `SetupSockets`
keeps it for the targets done so far (`Aligned.setupTarget`), because the kernel hands out
descriptors that are not open and every descriptor in the map is.
-/

open Net

namespace UdpForward

/-- The two descriptors of a session. -/
def UdpForwardSession.descriptors (s : UdpForwardSession) : List SocketHandle :=
  [s.inboundSocket, s.outboundSocket]

theorem UdpForwardSession.inboundSocket_mem (s : UdpForwardSession) :
    s.inboundSocket ∈ s.descriptors :=
  List.mem_cons_self

theorem UdpForwardSession.outboundSocket_mem (s : UdpForwardSession) :
    s.outboundSocket ∈ s.descriptors :=
  List.mem_cons_of_mem _ List.mem_cons_self

/-- The descriptors of all sessions, in the order in which they were opened. -/
def UdpForwardContext.descriptors (context : UdpForwardContext) : List SocketHandle :=
  context.sessions.flatMap (·.descriptors)

/-- The session carries the addresses of the target. -/
structure ForTarget (target : UdpForwardTargetInfo) (s : UdpForwardSession) : Prop where
  inbound : s.inboundSocketAddress = target.inbound
  outbound : s.outboundSocketAddress = target.outbound
  destination : s.destinationAddress = target.destination

/-- The sessions, the hash map and the kernel agree. -/
structure Aligned (targets : List UdpForwardTargetInfo) (context : UdpForwardContext)
    (k : Kernel) : Prop where
  /-- The sessions are those of the targets, in order. -/
  sessions : List.Forall₂ ForTarget targets context.sessions
  /-- No descriptor belongs to two sessions, or twice to one. -/
  nodup : context.descriptors.Nodup
  /-- The map is defined on the descriptors of the sessions and gives their positions. -/
  index : ∀ fd i, context.fileDescriptorToSessionIndex.lookup fd = some i ↔
    ∃ s, context.sessions[i]? = some s ∧ fd ∈ s.descriptors
  openFds : ∀ fd ∈ context.descriptors, fd ∈ k.openFds
  interest : ∀ fd, fd ∈ k.interest ↔ fd ∈ context.descriptors

section Setup

variable {context context' : UdpForwardContext} {k : Kernel} {a : ℕ → TargetAnswers}
variable {targets done rest : List UdpForwardTargetInfo} {target : UdpForwardTargetInfo}
variable {calls : List Syscall}

theorem mem_descriptors {fd : SocketHandle} :
    fd ∈ context.descriptors ↔
      ∃ (i : ℕ) (s : UdpForwardSession), context.sessions[i]? = some s ∧ fd ∈ s.descriptors := by
  rw [UdpForwardContext.descriptors, List.mem_flatMap]
  constructor
  · rintro ⟨s, hs, hfd⟩
    obtain ⟨i, hi⟩ := List.getElem?_of_mem hs
    exact ⟨i, s, hi, hfd⟩
  · rintro ⟨i, s, hi, hfd⟩
    exact ⟨s, List.mem_of_getElem? hi, hfd⟩

/-- The session at the position of a target is its session. -/
theorem Aligned.forTarget (h : Aligned targets context k) {i : ℕ} {s : UdpForwardSession}
    (htarget : targets[i]? = some target) (hs : context.sessions[i]? = some s) :
    ForTarget target s := by
  obtain ⟨hlt, rfl⟩ := List.getElem?_eq_some_iff.1 htarget
  obtain ⟨hlt', rfl⟩ := List.getElem?_eq_some_iff.1 hs
  exact (List.forall₂_iff_get.1 h.sessions).2 i hlt hlt'

/-- The calls of a socket that is set up, and what the kernel makes of them. -/
theorem setupSocket_ok {epoll sock : SocketHandle} {address : INetSocketAddress}
    {b : SocketAnswers} (h : setupSocket epoll address b = (.ok sock, calls)) (k : Kernel) :
    (k.GrantsAll calls → k.Fresh sock) ∧
      k.replay calls = ⟨insert sock k.openFds, insert sock k.interest⟩ := by
  rw [setupSocket] at h
  rcases haddr : toLinuxSocketAddress address with - | addr
  · simp [haddr] at h
  rcases hsock : b.socket with e | sock'
  · simp [haddr, hsock] at h
  rcases hbind : b.bind with e | u
  · simp [haddr, hsock, hbind] at h
  rcases hadd : b.epollAdd with e | u'
  · simp [haddr, hsock, hbind, hadd] at h
  simp only [haddr, hsock, hbind, hadd, Prod.mk.injEq, Except.ok.injEq] at h
  obtain ⟨rfl, rfl⟩ := h
  exact ⟨fun hgrants ↦ hgrants.1, by simp⟩

/-- What one iteration of the loop leaves behind when it succeeds. -/
theorem setupTarget_ok {i : ℕ} {b : TargetAnswers}
    (h : setupTarget context i target b = (.ok (), context', calls)) (k : Kernel) :
    ∃ fd₁ fd₂, context'.sessions = context.sessions ++
        [⟨target.inbound, target.outbound, {}, target.destination, fd₁, fd₂⟩] ∧
      context'.fileDescriptorToSessionIndex =
        tryEmplace (tryEmplace context.fileDescriptorToSessionIndex fd₁ i) fd₂ i ∧
      (k.GrantsAll calls → fd₁ ∉ k.openFds ∧ fd₂ ∉ insert fd₁ k.openFds) ∧
      k.replay calls =
        ⟨insert fd₂ (insert fd₁ k.openFds), insert fd₂ (insert fd₁ k.interest)⟩ := by
  rw [setupTarget] at h
  rcases hin : setupSocket context.epollHandle target.inbound b.inbound with ⟨e | fd₁, calls₁⟩
  · simp [hin] at h
  rcases hout : setupSocket context.epollHandle target.outbound b.outbound with ⟨e | fd₂, calls₂⟩
  · simp [hin, hout] at h
  simp only [hin, hout, Prod.mk.injEq, true_and] at h
  obtain ⟨rfl, rfl⟩ := h
  obtain ⟨hfresh₁, hreplay₁⟩ := setupSocket_ok hin k
  obtain ⟨hfresh₂, hreplay₂⟩ := setupSocket_ok hout (k.replay calls₁)
  refine ⟨fd₁, fd₂, rfl, rfl, fun hgrants ↦ ?_, ?_⟩
  · rw [Kernel.grantsAll_append] at hgrants
    have hfresh₂ := (hfresh₂ hgrants.2).2
    rw [hreplay₁] at hfresh₂
    exact ⟨(hfresh₁ hgrants.1).2, hfresh₂⟩
  · rw [Kernel.replay_append, hreplay₂, hreplay₁]

/-- **One iteration keeps the alignment.** -/
theorem Aligned.setupTarget (h : Aligned done context k)
    (hsetup : setupTarget context done.length target (a done.length) = (.ok (), context', calls))
    (hgrants : k.GrantsAll calls) : Aligned (done ++ [target]) context' (k.replay calls) := by
  obtain ⟨fd₁, fd₂, hsessions, hfds, hfresh, hreplay⟩ := setupTarget_ok hsetup k
  obtain ⟨hopen₁, hopen₂⟩ := hfresh hgrants
  rw [Finset.mem_insert, not_or] at hopen₂
  have hdescriptors : context'.descriptors = context.descriptors ++ [fd₁, fd₂] := by
    simp [UdpForwardContext.descriptors, hsessions, UdpForwardSession.descriptors]
  have hnew₁ : fd₁ ∉ context.descriptors := fun hmem ↦ hopen₁ (h.openFds _ hmem)
  have hnew₂ : fd₂ ∉ context.descriptors := fun hmem ↦ hopen₂.2 (h.openFds _ hmem)
  have hunmapped : ∀ {fd}, fd ∉ context.descriptors →
      fd ∉ context.fileDescriptorToSessionIndex := by
    intro fd hfd hmem
    obtain ⟨i, hi⟩ := Finmap.mem_iff.1 hmem
    obtain ⟨s, hs, hmem⟩ := (h.index fd i).1 hi
    exact hfd (mem_descriptors.2 ⟨i, s, hs, hmem⟩)
  have hlength : context.sessions.length = done.length := h.sessions.length_eq.symm
  refine ⟨?_, ?_, fun fd i ↦ ?_, ?_, fun fd ↦ ?_⟩
  · rw [hsessions]
    exact List.rel_append h.sessions (.cons ⟨rfl, rfl, rfl⟩ .nil)
  · rw [hdescriptors, List.nodup_append]
    refine ⟨h.nodup, by simp [Ne.symm hopen₂.1], ?_⟩
    rintro fd hfd fd' hfd' rfl
    simp only [List.mem_cons, List.not_mem_nil, or_false] at hfd'
    rcases hfd' with rfl | rfl
    · exact hnew₁ hfd
    · exact hnew₂ hfd
  · -- the new session has the last position, and its descriptors are new in the map
    have hlookup : context'.fileDescriptorToSessionIndex.lookup fd =
        if fd = fd₁ ∨ fd = fd₂ then some done.length
        else context.fileDescriptorToSessionIndex.lookup fd := by
      rw [hfds]
      exact lookup_tryEmplace_tryEmplace (hunmapped hnew₁) (hunmapped hnew₂) hopen₂.1 fd
    rw [hlookup, hsessions, List.getElem?_append, hlength]
    constructor
    · intro hi
      split at hi
      · next hfd =>
        obtain rfl := Option.some.inj hi
        rw [if_neg (lt_irrefl _), Nat.sub_self]
        exact ⟨_, rfl, by simpa [UdpForwardSession.descriptors] using hfd⟩
      · obtain ⟨s, hs, hfd⟩ := (h.index fd i).1 hi
        obtain ⟨hlt, -⟩ := List.getElem?_eq_some_iff.1 hs
        rw [if_pos (hlength ▸ hlt)]
        exact ⟨s, hs, hfd⟩
    · rintro ⟨s, hs, hfd⟩
      split at hs
      · have hmem : fd ∈ context.descriptors := mem_descriptors.2 ⟨i, s, hs, hfd⟩
        rw [if_neg, h.index]
        · exact ⟨s, hs, hfd⟩
        · rintro (rfl | rfl)
          · exact hnew₁ hmem
          · exact hnew₂ hmem
      · next hge =>
        obtain ⟨hlt, rfl⟩ := List.getElem?_eq_some_iff.1 hs
        simp only [List.length_singleton, Nat.lt_one_iff] at hlt
        rw [if_pos (by simpa [UdpForwardSession.descriptors, hlt] using hfd)]
        exact congrArg some (by omega)
  · rw [hdescriptors, hreplay]
    intro fd hfd
    rcases List.mem_append.1 hfd with hfd | hfd
    · exact Finset.mem_insert_of_mem (Finset.mem_insert_of_mem (h.openFds _ hfd))
    · simp only [List.mem_cons, List.not_mem_nil, or_false] at hfd
      simp only [Finset.mem_insert]
      tauto
  · rw [hdescriptors, hreplay]
    simp only [Finset.mem_insert, List.mem_append, List.mem_cons, List.not_mem_nil, or_false,
      h.interest]
    tauto

/-- The loop of `SetupSockets` succeeds when its first iteration and the rest of it do. -/
theorem setupLoop_cons_ok {i : ℕ}
    (h : setupLoop context a i (target :: rest) = (.ok (), context', calls)) :
    ∃ context₁ calls₁ calls₂,
      setupTarget context i target (a i) = (.ok (), context₁, calls₁) ∧
        setupLoop context₁ a (i + 1) rest = (.ok (), context', calls₂) ∧
        calls = calls₁ ++ calls₂ := by
  rw [setupLoop] at h
  rcases hfirst : setupTarget context i target (a i) with ⟨e | u, context₁, calls₁⟩
  · simp [hfirst] at h
  rcases hrest : setupLoop context₁ a (i + 1) rest with ⟨result, context₂, calls₂⟩
  simp only [hfirst, hrest, Prod.mk.injEq] at h
  obtain ⟨rfl, rfl, rfl⟩ := h
  exact ⟨context₁, calls₁, calls₂, rfl, hrest, rfl⟩

/-- The loop of `SetupSockets` keeps the alignment. -/
theorem Aligned.setupLoop (h : Aligned done context k)
    (hsetup : setupLoop context a done.length targets = (.ok (), context', calls))
    (hgrants : k.GrantsAll calls) : Aligned (done ++ targets) context' (k.replay calls) := by
  induction targets generalizing done context k calls with
  | nil =>
    simp only [UdpForward.setupLoop, Prod.mk.injEq, true_and] at hsetup
    obtain ⟨rfl, rfl⟩ := hsetup
    rwa [List.append_nil]
  | cons target rest ih =>
    obtain ⟨context₁, calls₁, calls₂, hfirst, hrest, rfl⟩ := setupLoop_cons_ok hsetup
    rw [Kernel.grantsAll_append] at hgrants
    have hnext := ih (h.setupTarget hfirst hgrants.1) (by simpa using hrest) hgrants.2
    rw [Kernel.replay_append]
    simpa using hnext

/-- The loop of `SetupSockets` gives no session a source. -/
theorem setupLoop_sourceAddress {i : ℕ} (hsource : ∀ s ∈ context.sessions, s.sourceAddress = {})
    (hsetup : setupLoop context a i targets = (.ok (), context', calls)) :
    ∀ s ∈ context'.sessions, s.sourceAddress = {} := by
  induction targets generalizing context i calls with
  | nil =>
    simp only [setupLoop, Prod.mk.injEq, true_and] at hsetup
    obtain ⟨rfl, -⟩ := hsetup
    exact hsource
  | cons target rest ih =>
    obtain ⟨context₁, calls₁, calls₂, hfirst, hrest, -⟩ := setupLoop_cons_ok hsetup
    refine ih (fun s hs ↦ ?_) hrest
    obtain ⟨fd₁, fd₂, hsessions, -⟩ := setupTarget_ok hfirst ⟨∅, ∅⟩
    rw [hsessions, List.mem_append, List.mem_singleton] at hs
    rcases hs with hs | rfl
    · exact hsource s hs
    · rfl

/-- **`SetupSockets` aligns** the sessions with the targets, the hash map and the kernel, and
no session has a source yet. -/
theorem Started.aligned {inherited : Finset SocketHandle} {σ : ForwarderState}
    (h : Started inherited targets σ) :
    Aligned targets σ.context σ.kernel ∧ ∀ s ∈ σ.context.sessions, s.sourceAddress = {} := by
  obtain ⟨epollCreate, a, done, hsetup, hgrants, hkernel, -⟩ := h
  simp only [setupSockets] at hsetup
  rcases epollCreate with e | epollHandle
  · simp at hsetup
  rcases hloop : UdpForward.setupLoop { ({} : UdpForwardContext) with epollHandle := epollHandle }
    a 0 targets with ⟨result, context, calls⟩
  simp only [hloop, Prod.mk.injEq] at hsetup
  obtain ⟨rfl, rfl, rfl⟩ := hsetup
  have hempty : Aligned [] { ({} : UdpForwardContext) with epollHandle := epollHandle }
      ⟨insert epollHandle inherited, ∅⟩ :=
    ⟨.nil, List.nodup_nil, by simp, by simp [UdpForwardContext.descriptors],
      by simp [UdpForwardContext.descriptors]⟩
  rw [hkernel]
  exact ⟨hempty.setupLoop hloop hgrants.2, setupLoop_sourceAddress (by simp) hloop⟩

end Setup

end UdpForward
