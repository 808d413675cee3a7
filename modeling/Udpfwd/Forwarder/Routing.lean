import Udpfwd.Forwarder.Setup

/-!
# Where the forwarder sends a datagram

`RunWorker` changes nothing but the source addresses of sessions, so the alignment that
`SetupSockets` has established persists (`Aligned.run`). With it every `sendto` is traced back
to the datagram the step has received: from the inbound socket of a target to its destination,
or from its destination, on its outbound socket, to the source that was last seen on its
inbound socket. That source is read off the history (`latestSource`).
-/

open Net

namespace UdpForward

/-! ### What one event can do -/

/-- The part of a session that never changes. -/
def UdpForwardSession.fixed (s : UdpForwardSession) : UdpForwardSession :=
  { s with sourceAddress := {} }

/-- The source of a datagram that a session listening on `fd` takes note of. -/
def Event.sourceOn (fd : SocketHandle) : Event → Option INetSocketAddress
  | .polled fd' false false true (.ok d) _ =>
    if fd' = fd ∧ d.addrLen ≤ sizeofSockaddrIn6 then toSocketAddress d.source else none
  | _ => none

/-- Every way an event can be handled. -/
inductive Effect (context : UdpForwardContext) (e : Event) :
    Outcome → UdpForwardContext → List Syscall → Prop
  /-- Nothing is sent and nothing changes; a source on an inbound socket is not lost. -/
  | dropped {outcome : Outcome} {calls : List Syscall} (hout : outcome ≠ .outOfBounds)
      (hsource : ∀ i s, context.fileDescriptorToSessionIndex.lookup s.inboundSocket = some i →
        context.sessions[i]? = some s → e.sourceOn s.inboundSocket = none)
      (hcalls : calls = [] ∨ ∃ fd r, calls = [.recvfrom fd r]) :
      Effect context e outcome context calls
  /-- The hash map has an index that is no position in the vector. -/
  | outOfBounds {fd : SocketHandle} {i : ℕ}
      (hindex : context.fileDescriptorToSessionIndex.lookup fd = some i)
      (hs : context.sessions[i]? = none) {received : Except Errno Datagram} :
      Effect context e .outOfBounds context [.recvfrom fd received]
  /-- A datagram on an inbound socket. -/
  | fromSource {fd : SocketHandle} {d : Datagram} {answer : Except Errno ℕ} {i : ℕ}
      {s : UdpForwardSession} {source : INetSocketAddress} {outcome : Outcome}
      (hevent : e = .polled fd false false true (.ok d) answer)
      (hindex : context.fileDescriptorToSessionIndex.lookup fd = some i)
      (hs : context.sessions[i]? = some s) (hfd : fd = s.inboundSocket)
      (hsource : e.sourceOn fd = some source) (hout : outcome ≠ .outOfBounds) :
      Effect context e outcome
        { context with sessions := context.sessions.set i { s with sourceAddress := source } }
        (.recvfrom fd (.ok d) :: (toLinuxSocketAddress s.destinationAddress).toList.map
          (.sendto s.outboundSocket d.payload · answer))
  /-- A datagram that the destination has sent to an outbound socket. -/
  | fromDestination {fd : SocketHandle} {d : Datagram} {answer : Except Errno ℕ} {i : ℕ}
      {s : UdpForwardSession} (hevent : e = .polled fd false false true (.ok d) answer)
      (hindex : context.fileDescriptorToSessionIndex.lookup fd = some i)
      (hs : context.sessions[i]? = some s) (hin : fd ≠ s.inboundSocket)
      (hfd : fd = s.outboundSocket)
      (hsource : toSocketAddress d.source = some s.destinationAddress) :
      Effect context e .next context
        (.recvfrom fd (.ok d) :: (toLinuxSocketAddress s.sourceAddress).toList.map
          (.sendto s.inboundSocket d.payload · answer))

/-- A received datagram, inverted. -/
private theorem handleDatagram_effect (context : UdpForwardContext) (fd : SocketHandle)
    (d : Datagram) (answer : Except Errno ℕ) :
    Effect context (.polled fd false false true (.ok d) answer)
      (handleDatagram context fd d answer).1 (handleDatagram context fd d answer).2.1
      (.recvfrom fd (.ok d) :: (handleDatagram context fd d answer).2.2) := by
  -- a datagram that is dropped has no readable source, or is not on an inbound socket
  have hdropped : ∀ {outcome}, outcome ≠ .outOfBounds →
      (∀ i s, context.fileDescriptorToSessionIndex.lookup s.inboundSocket = some i →
        context.sessions[i]? = some s → fd = s.inboundSocket →
        d.addrLen ≤ sizeofSockaddrIn6 → toSocketAddress d.source = none) →
      Effect context (.polled fd false false true (.ok d) answer) outcome context
        [.recvfrom fd (.ok d)] := by
    intro outcome hout hsource
    refine .dropped hout (fun i s hindex hs ↦ ?_) (.inr ⟨_, _, rfl⟩)
    show (if _ then _ else _) = none
    split
    · next h => exact hsource i s hindex hs h.1 h.2
    · rfl
  rw [handleDatagram, Datagram.received_eq]
  split
  · next hlen => exact hdropped nofun fun _ _ _ _ _ hle ↦ absurd hle (Nat.not_le.2 hlen)
  next hlen =>
  rw [Nat.not_lt] at hlen
  split
  · next hnone =>
    refine hdropped nofun fun i s hindex _ hfd ↦ ?_
    rw [← hfd, hnone] at hindex
    exact absurd hindex (by simp)
  next i hindex =>
  split
  · next hnone => exact hdropped nofun fun _ _ _ _ _ _ ↦ hnone
  next source hsource =>
  split
  · next hnone => exact .outOfBounds hindex hnone
  next s hs =>
  have hother : fd ≠ s.inboundSocket → ∀ i' s',
      context.fileDescriptorToSessionIndex.lookup s'.inboundSocket = some i' →
        context.sessions[i']? = some s' → fd ≠ s'.inboundSocket := by
    rintro hne i' s' hindex' hs' rfl
    obtain rfl : i = i' := Option.some.inj (hindex.symm.trans hindex')
    exact hne (congrArg _ (Option.some.inj (hs'.symm.trans hs)))
  split
  · next hfd =>
    have hnoted : Event.sourceOn fd (.polled fd false false true (.ok d) answer) =
        some source := by
      rw [← hsource]
      exact if_pos ⟨rfl, hlen⟩
    have hroam : (if s.sourceAddress ≠ source then { s with sourceAddress := source } else s) =
        { s with sourceAddress := source } := by
      split
      · rfl
      · next hsame => rw [← not_not.1 hsame]
    have heffect : ∀ outcome, outcome ≠ .outOfBounds → Effect context _ outcome _ _ :=
      fun outcome hout ↦ .fromSource rfl hindex hs hfd hnoted hout
    rw [forwardToDestination, hroam]
    rcases hdest : toLinuxSocketAddress s.destinationAddress with - | dest
    · have hreturned := heffect (.returned .EINVAL) nofun
      rw [hdest] at hreturned
      simpa [hdest] using hreturned
    · have hsent := heffect .next nofun
      rw [hdest] at hsent
      simpa [hdest] using hsent
  next hin =>
  split
  · next hfd =>
    rw [forwardToSource]
    split
    · next hdest =>
      exact hdropped nofun fun i' s' hi' hs' heq _ ↦ absurd heq (hother hin i' s' hi' hs')
    next hdest =>
    rw [not_not] at hdest
    have heffect : Effect context (.polled fd false false true (.ok d) answer) .next context _ :=
      .fromDestination rfl hindex hs hin hfd (hdest ▸ hsource)
    have hvalid := isSome_toLinuxSocketAddress s.sourceAddress
    rcases haddr : toLinuxSocketAddress s.sourceAddress with - | addr <;>
      rw [haddr] at heffect hvalid
    · simpa [← hvalid] using heffect
    · simpa [← hvalid, haddr] using heffect
  · exact hdropped nofun fun i' s' hi' hs' heq _ ↦ absurd heq (hother hin i' s' hi' hs')

/-- **Events, inverted.** -/
theorem handleEvent_effect (context : UdpForwardContext) (e : Event) :
    Effect context e (handleEvent context e).1 (handleEvent context e).2.1
      (handleEvent context e).2.2 := by
  have hquiet : ∀ {e outcome calls}, outcome ≠ .outOfBounds →
      (calls = [] ∨ ∃ fd r, calls = [.recvfrom fd r]) → (∀ fd, Event.sourceOn fd e = none) →
        Effect context e outcome context calls :=
    fun hout hcalls hsource ↦ .dropped hout (fun _ _ _ _ ↦ hsource _) hcalls
  rcases e with e | ⟨fd, epollErr, epollHup, epollIn, received, answer⟩
  · exact hquiet nofun (.inl rfl) fun _ ↦ rfl
  rcases epollErr with - | -
  case true => exact hquiet nofun (.inl rfl) fun _ ↦ rfl
  rcases epollHup with - | -
  case true => exact hquiet nofun (.inl rfl) fun _ ↦ rfl
  rcases epollIn with - | -
  case false => exact hquiet nofun (.inl rfl) fun _ ↦ rfl
  rcases received with e | d
  · refine hquiet ?_ (.inr ⟨_, _, rfl⟩) fun _ ↦ rfl
    show (if _ then _ else _) ≠ Outcome.outOfBounds
    split <;> nofun
  · exact handleDatagram_effect context fd d answer

section Effects

variable {context context' : UdpForwardContext} {e : Event} {outcome : Outcome}
variable {calls : List Syscall} {targets : List UdpForwardTargetInfo} {k : Kernel}

/-- An event leaves everything but source addresses alone. -/
theorem Effect.fixed (h : Effect context e outcome context' calls) :
    context'.sessions.map (·.fixed) = context.sessions.map (·.fixed) ∧
      context'.fileDescriptorToSessionIndex = context.fileDescriptorToSessionIndex ∧
        ∀ k : Kernel, k.replay calls = k := by
  have hsend : ∀ (k : Kernel) (socket : SocketHandle) (packet : Packet)
      (answer : Except Errno ℕ) (dest : Option SockAddr),
        k.replay (dest.toList.map (.sendto socket packet · answer)) = k := by
    intro k socket packet answer dest
    rcases dest with - | dest <;> rfl
  cases h with
  | dropped _ _ hcalls =>
    rcases hcalls with rfl | ⟨fd, r, rfl⟩ <;> exact ⟨rfl, rfl, fun _ ↦ rfl⟩
  | outOfBounds => exact ⟨rfl, rfl, fun _ ↦ rfl⟩
  | @fromSource fd d answer i s source outcome _ _ hs =>
    refine ⟨?_, rfl, fun k ↦ hsend k _ _ _ _⟩
    obtain ⟨hlt, rfl⟩ := List.getElem?_eq_some_iff.1 hs
    have hlt' : i < (context.sessions.map (·.fixed)).length := by simpa
    have hsame : ({ context.sessions[i] with sourceAddress := source } :
        UdpForwardSession).fixed = (context.sessions.map (·.fixed))[i] := by
      rw [List.getElem_map]
      rfl
    show (context.sessions.set i _).map _ = _
    rw [List.map_set, hsame, List.set_getElem_self]
  | fromDestination => exact ⟨rfl, rfl, fun k ↦ hsend k _ _ _ _⟩

theorem getElem?_of_fixed
    (hfixed : context'.sessions.map (·.fixed) = context.sessions.map (·.fixed)) {i : ℕ}
    {s' : UdpForwardSession} (hs' : context'.sessions[i]? = some s') :
    ∃ s, context.sessions[i]? = some s ∧ s.fixed = s'.fixed := by
  have hi := congrArg (·[i]?) hfixed
  simp only [List.getElem?_map, hs', Option.map_some] at hi
  obtain ⟨s, hs, heq⟩ := Option.map_eq_some_iff.1 hi.symm
  exact ⟨s, hs, heq⟩

theorem descriptors_of_fixed {s s' : UdpForwardSession} (h : s.fixed = s'.fixed) :
    s.descriptors = s'.descriptors :=
  congrArg (·.descriptors) h

/-- The alignment is about the fixed part of the sessions. -/
theorem Aligned.of_fixed (h : Aligned targets context k)
    (hfixed : context'.sessions.map (·.fixed) = context.sessions.map (·.fixed))
    (hfds : context'.fileDescriptorToSessionIndex = context.fileDescriptorToSessionIndex) :
    Aligned targets context' k := by
  have hdescriptors : context'.descriptors = context.descriptors := by
    have hmap : ∀ l : List UdpForwardSession,
        l.flatMap (·.descriptors) = (l.map (·.fixed)).flatMap (·.descriptors) :=
      fun l ↦ by rw [List.flatMap_map]; rfl
    rw [UdpForwardContext.descriptors, hmap, hfixed, ← hmap]
    rfl
  refine ⟨?_, hdescriptors ▸ h.nodup, fun fd i ↦ ?_, hdescriptors ▸ h.openFds,
    hdescriptors ▸ h.interest⟩
  · have hmap : ∀ l : List UdpForwardSession, List.Forall₂ ForTarget targets l ↔
        List.Forall₂ ForTarget targets (l.map (·.fixed)) := by
      intro l
      rw [List.forall₂_map_right_iff]
      exact ⟨fun hl ↦ hl.imp fun _ _ ht ↦ ⟨ht.1, ht.2, ht.3⟩,
        fun hl ↦ hl.imp fun _ _ ht ↦ ⟨ht.1, ht.2, ht.3⟩⟩
    rw [hmap, hfixed, ← hmap]
    exact h.sessions
  · rw [hfds, h.index]
    constructor
    · rintro ⟨s, hs, hfd⟩
      obtain ⟨s', hs', heq⟩ := getElem?_of_fixed hfixed.symm hs
      exact ⟨s', hs', descriptors_of_fixed heq ▸ hfd⟩
    · rintro ⟨s, hs, hfd⟩
      obtain ⟨s', hs', heq⟩ := getElem?_of_fixed hfixed hs
      exact ⟨s', hs', descriptors_of_fixed heq ▸ hfd⟩

/-- The map gives positions of sessions only. -/
theorem Aligned.getElem?_ne_none (h : Aligned targets context k) {fd : SocketHandle} {i : ℕ}
    (hindex : context.fileDescriptorToSessionIndex.lookup fd = some i) :
    context.sessions[i]? ≠ none := by
  obtain ⟨s, hs, -⟩ := (h.index _ _).1 hindex
  rw [hs]
  nofun

/-- A descriptor belongs to one session. -/
theorem Aligned.unique (h : Aligned targets context k) {fd : SocketHandle} {i j : ℕ}
    {s s' : UdpForwardSession} (hs : context.sessions[i]? = some s)
    (hs' : context.sessions[j]? = some s') (hfd : fd ∈ s.descriptors)
    (hfd' : fd ∈ s'.descriptors) : i = j ∧ s = s' := by
  have hi := (h.index fd i).2 ⟨s, hs, hfd⟩
  have hj := (h.index fd j).2 ⟨s', hs', hfd'⟩
  obtain rfl : i = j := Option.some.inj (hi.symm.trans hj)
  exact ⟨rfl, Option.some.inj (hs.symm.trans hs')⟩

theorem Aligned.eq_of_mem (h : Aligned targets context k) {fd : SocketHandle}
    {s s' : UdpForwardSession} (hs : s ∈ context.sessions) (hs' : s' ∈ context.sessions)
    (hfd : fd ∈ s.descriptors) (hfd' : fd ∈ s'.descriptors) : s = s' := by
  obtain ⟨i, hi⟩ := List.getElem?_of_mem hs
  obtain ⟨j, hj⟩ := List.getElem?_of_mem hs'
  exact (h.unique hi hj hfd hfd').2

/-- The two descriptors of a session differ. -/
theorem Aligned.inbound_ne_outbound (h : Aligned targets context k) {i : ℕ}
    {s : UdpForwardSession} (hs : context.sessions[i]? = some s) :
    s.inboundSocket ≠ s.outboundSocket := by
  have hnodup := (List.nodup_flatMap.1 h.nodup).1 s (List.mem_of_getElem? hs)
  simpa [UdpForwardSession.descriptors] using hnodup

end Effects

/-! ### Runs -/

/-- The latest source that a session listening on `fd` has taken note of. -/
def latestSource (fd : SocketHandle) (h : List Label) : Option INetSocketAddress :=
  (h.filterMap (·.event.sourceOn fd)).getLast?

/-- What a step that follows the history `h` may send. -/
structure Routed (context : UdpForwardContext) (h : List Label) (l : Label) : Prop where
  /-- A send passes on the datagram that the step has received, and there is no other. -/
  caused : ∀ send ∈ sentBy l.calls, sentBy l.calls = [send] ∧
    (∃ fd d answer, l.event = .polled fd false false true (.ok d) answer ∧
      send.payload = d.payload) ∧
    ∃ s ∈ context.sessions, send.socket ∈ s.descriptors
  /-- From an outbound socket it goes to the destination of the target. -/
  toDestination : ∀ send ∈ sentBy l.calls, ∀ s ∈ context.sessions,
    send.socket = s.outboundSocket →
      toLinuxSocketAddress s.destinationAddress = some send.target ∧
      ∃ d answer, l.event = .polled s.inboundSocket false false true (.ok d) answer
  /-- From an inbound socket goes what the destination has sent to the outbound one, to the
  latest source; so nothing is sent there before a source is known. The latest source is the peer
  that a datagram from there came from, up to the scope of an IPv6 address. -/
  toSource : ∀ send ∈ sentBy l.calls, ∀ s ∈ context.sessions, send.socket = s.inboundSocket →
    (∃ d answer, l.event = .polled s.outboundSocket false false true (.ok d) answer ∧
      toSocketAddress d.source = some s.destinationAddress) ∧
    ∃ source, latestSource s.inboundSocket h = some source ∧
      toLinuxSocketAddress source = some send.target ∧
        ∀ sa, toSocketAddress sa = some source → send.target.peer = { sa.peer with scopeId := 0 }

section Runs

variable {inherited : Finset SocketHandle} {targets : List UdpForwardTargetInfo}
variable {σ₀ σ σ' : ForwarderState} {h : List Label} {l : Label} {fd fd' : SocketHandle}

theorem Step.effect (hst : Step σ l σ') :
    Effect σ.context l.event σ'.outcome σ'.context l.calls := by
  have heffect := handleEvent_effect σ.context l.event
  rwa [hst.handled] at heffect

/-- **The alignment persists.** -/
theorem Aligned.step (hal : Aligned targets σ.context σ.kernel) (hst : Step σ l σ') :
    Aligned targets σ'.context σ'.kernel ∧ σ'.outcome ≠ .outOfBounds := by
  have heffect := hst.effect
  obtain ⟨hfixed, hfds, hkernel⟩ := heffect.fixed
  rw [hst.kernel, hkernel]
  refine ⟨hal.of_fixed hfixed hfds, ?_⟩
  generalize σ'.outcome = outcome, σ'.context = context', l.calls = calls at heffect
  cases heffect with
  | dropped hout | fromSource _ _ _ _ _ hout => exact hout
  | fromDestination => nofun
  | outOfBounds hindex hnone => exact absurd hnone (hal.getElem?_ne_none hindex)

theorem sourceOn_of_ne {d : Datagram} {answer : Except Errno ℕ} (hne : fd ≠ fd') :
    Event.sourceOn fd' (.polled fd false false true (.ok d) answer) = none :=
  if_neg fun h ↦ hne h.1

theorem latestSource_snoc : latestSource fd (h ++ [l]) =
    (l.event.sourceOn fd).or (latestSource fd h) := by
  rw [latestSource, List.filterMap_append, List.getLast?_append]
  rcases hl : l.event.sourceOn fd with - | source <;> simp [hl, latestSource]

/-- Every session has the latest source that it has taken note of. -/
def SourcesLatest (h : List Label) (σ : ForwarderState) : Prop :=
  ∀ s ∈ σ.context.sessions, (latestSource s.inboundSocket h).getD {} = s.sourceAddress

theorem SourcesLatest.step (hlatest : SourcesLatest h σ)
    (hal : Aligned targets σ.context σ.kernel) (hst : Step σ l σ') :
    SourcesLatest (h ++ [l]) σ' := by
  have heffect := hst.effect
  rw [SourcesLatest]
  generalize σ'.outcome = outcome, σ'.context = context', l.calls = calls at heffect
  intro s hs
  rw [latestSource_snoc]
  cases heffect with
  | dropped _ hsource =>
    obtain ⟨i, hi⟩ := List.getElem?_of_mem hs
    have hindex := (hal.index s.inboundSocket i).2 ⟨s, hi, List.mem_cons_self⟩
    rw [hsource i s hindex hi, Option.none_or]
    exact hlatest s hs
  | outOfBounds hindex hnone => exact absurd hnone (hal.getElem?_ne_none hindex)
  | @fromSource fd d answer i t source outcome hevent _ ht hfd hsource =>
    obtain ⟨j, hj⟩ := List.getElem?_of_mem hs
    rw [List.getElem?_set] at hj
    split at hj
    · -- the session that has noted the source
      split at hj
      · obtain rfl := Option.some.inj hj
        show ((Event.sourceOn t.inboundSocket l.event).or _).getD {} = source
        rw [← hfd, hsource]
        rfl
      · exact absurd hj (by simp)
    · next hne =>
      have hother : fd ≠ s.inboundSocket := by
        rintro rfl
        exact hne (hal.unique ht hj (hfd ▸ List.mem_cons_self) List.mem_cons_self).1
      rw [hevent, sourceOn_of_ne hother, Option.none_or]
      exact hlatest s (List.mem_of_getElem? hj)
  | @fromDestination fd d answer i t hevent _ ht hin hfd _ =>
    obtain ⟨j, hj⟩ := List.getElem?_of_mem hs
    have hother : fd ≠ s.inboundSocket := by
      rintro rfl
      obtain ⟨-, rfl⟩ := hal.unique ht hj (by simp [hfd, UdpForwardSession.descriptors])
        List.mem_cons_self
      exact hin rfl
    rw [hevent, sourceOn_of_ne hother, Option.none_or]
    exact hlatest s hs

theorem Routed.of_eq {context : UdpForwardContext} {send : Sent} (hsend : sentBy l.calls = [send])
    (hcaused : ∃ fd d answer, l.event = .polled fd false false true (.ok d) answer ∧
      send.payload = d.payload) (hsession : ∃ s ∈ context.sessions, send.socket ∈ s.descriptors)
    (hdestination : ∀ s ∈ context.sessions, send.socket = s.outboundSocket →
      toLinuxSocketAddress s.destinationAddress = some send.target ∧
        ∃ d answer, l.event = .polled s.inboundSocket false false true (.ok d) answer)
    (hsource : ∀ s ∈ context.sessions, send.socket = s.inboundSocket →
      (∃ d answer, l.event = .polled s.outboundSocket false false true (.ok d) answer ∧
        toSocketAddress d.source = some s.destinationAddress) ∧
      ∃ source, latestSource s.inboundSocket h = some source ∧
        toLinuxSocketAddress source = some send.target) : Routed context h l := by
  refine ⟨?_, ?_, ?_⟩ <;> intro send' hsend' <;>
    rw [hsend, List.mem_singleton] at hsend' <;> subst hsend'
  · exact ⟨hsend, hcaused, hsession⟩
  · exact hdestination
  · intro s hs hsocket
    obtain ⟨harrived, source, hlatest, htarget⟩ := hsource s hs hsocket
    exact ⟨harrived, source, hlatest, htarget, fun _ hsa ↦ peer_eq_of_kept hsa htarget⟩

/-- **Every step routes exactly.** -/
theorem Step.routed (hlatest : SourcesLatest h σ) (hal : Aligned targets σ.context σ.kernel)
    (hst : Step σ l σ') : Routed σ.context h l := by
  have heffect := hst.effect
  generalize σ'.outcome = outcome, σ'.context = context' at heffect
  have hnothing : sentBy l.calls = [] → Routed σ.context h l := by
    intro hnil
    constructor <;> simp [hnil]
  have hsent : ∀ (socket : SocketHandle) (packet : Packet) (answer : Except Errno ℕ)
      (dest : Option SockAddr), sentBy (dest.toList.map (.sendto socket packet · answer)) =
        dest.toList.map (⟨socket, packet, ·⟩) := by
    intro socket packet answer dest
    rcases dest with - | dest <;> rfl
  generalize hcalls : l.calls = calls at heffect
  cases heffect with
  | dropped _ _ hquiet =>
    rcases hquiet with rfl | ⟨fd, r, rfl⟩ <;> exact hnothing (by rw [hcalls]; rfl)
  | outOfBounds => exact hnothing (by rw [hcalls]; rfl)
  | @fromSource fd d answer i t source outcome hevent _ ht hfd hsource =>
    have hmem := List.mem_of_getElem? ht
    have hsend : sentBy l.calls = (toLinuxSocketAddress t.destinationAddress).toList.map
        (⟨t.outboundSocket, d.payload, ·⟩) := by
      rw [hcalls]
      exact hsent _ _ _ _
    rcases hdest : toLinuxSocketAddress t.destinationAddress with - | dest <;>
      rw [hdest] at hsend
    · exact hnothing hsend
    refine .of_eq hsend ⟨fd, d, answer, hevent, rfl⟩ ⟨t, hmem, t.outboundSocket_mem⟩ ?_ ?_
    · intro s hs (heq : t.outboundSocket = s.outboundSocket)
      obtain rfl := hal.eq_of_mem hmem hs t.outboundSocket_mem (heq ▸ s.outboundSocket_mem)
      exact ⟨hdest, d, answer, hfd ▸ hevent⟩
    · intro s hs (heq : t.outboundSocket = s.inboundSocket)
      obtain rfl := hal.eq_of_mem hmem hs t.outboundSocket_mem (heq ▸ s.inboundSocket_mem)
      exact absurd heq.symm (hal.inbound_ne_outbound ht)
  | @fromDestination fd d answer i t hevent _ ht _ hfd hsource =>
    have hmem := List.mem_of_getElem? ht
    have hsend : sentBy l.calls = (toLinuxSocketAddress t.sourceAddress).toList.map
        (⟨t.inboundSocket, d.payload, ·⟩) := by
      rw [hcalls]
      exact hsent _ _ _ _
    rcases hdest : toLinuxSocketAddress t.sourceAddress with - | dest <;> rw [hdest] at hsend
    · exact hnothing hsend
    refine .of_eq hsend ⟨fd, d, answer, hevent, rfl⟩ ⟨t, hmem, t.inboundSocket_mem⟩ ?_ ?_
    · intro s hs (heq : t.inboundSocket = s.outboundSocket)
      obtain rfl := hal.eq_of_mem hmem hs t.inboundSocket_mem (heq ▸ s.outboundSocket_mem)
      exact absurd heq (hal.inbound_ne_outbound ht)
    · intro s hs (heq : t.inboundSocket = s.inboundSocket)
      obtain rfl := hal.eq_of_mem hmem hs t.inboundSocket_mem (heq ▸ s.inboundSocket_mem)
      refine ⟨⟨d, answer, hfd ▸ hevent, hsource⟩, ?_⟩
      -- a session that sends to its source has one
      have hlast := hlatest t hmem
      rcases hl : latestSource t.inboundSocket h with - | source <;> rw [hl] at hlast
      · rw [← hlast] at hdest
        cases hdest
      · rw [← hlast] at hdest
        exact ⟨source, rfl, hdest⟩

/-- What holds along every run. -/
theorem aligned_run (hstart : Started inherited targets σ₀) (hrun : forwarder.Run σ₀ h σ) :
    Aligned targets σ.context σ.kernel ∧
      σ.context.sessions.map (·.fixed) = σ₀.context.sessions.map (·.fixed) ∧
      σ.context.fileDescriptorToSessionIndex = σ₀.context.fileDescriptorToSessionIndex ∧
      SourcesLatest h σ ∧ σ.outcome ≠ .outOfBounds := by
  induction hrun with
  | nil =>
    obtain ⟨hal, hsource⟩ := hstart.aligned
    obtain ⟨-, -, -, -, -, -, hout⟩ := hstart
    exact ⟨hal, rfl, rfl, fun s hs ↦ (hsource s hs).symm, by rw [hout]; nofun⟩
  | snoc _ hst ih =>
    obtain ⟨hal, hfixed, hfds, hlatest, -⟩ := ih
    obtain ⟨hal', hout⟩ := hal.step hst
    obtain ⟨hfixed', hfds', -⟩ := (Step.effect hst).fixed
    exact ⟨hal', hfixed'.trans hfixed, hfds'.trans hfds, hlatest.step hal hst, hout⟩

/-- **The forwarder is aligned and routes exactly.** Let `SetupSockets` have returned `0` for
`targets`. In every state that a run of `RunWorker` reaches, the sessions carry the addresses
of the targets at their positions; all their descriptors are distinct; the hash map is defined
on these descriptors and gives the position of the session; none of this has changed since
`SetupSockets`; no access to the vector was out of bounds; and whatever the next step sends is
routed by the session it belongs to. -/
theorem forwarder_routes_exactly (hstart : Started inherited targets σ₀)
    (hrun : forwarder.Run σ₀ h σ) :
    σ.context.sessions.length = targets.length ∧
    (∀ (i : ℕ) target, targets[i]? = some target → ∃ s, σ.context.sessions[i]? = some s ∧
      s.inboundSocketAddress = target.inbound ∧ s.outboundSocketAddress = target.outbound ∧
        s.destinationAddress = target.destination) ∧
    (σ.context.sessions.flatMap fun s ↦ [s.inboundSocket, s.outboundSocket]).Nodup ∧
    (∀ fd i, σ.context.fileDescriptorToSessionIndex.lookup fd = some i ↔
      ∃ s, σ.context.sessions[i]? = some s ∧ (fd = s.inboundSocket ∨ fd = s.outboundSocket)) ∧
    (σ.context.sessions.map (·.fixed) = σ₀.context.sessions.map (·.fixed) ∧
      σ.context.fileDescriptorToSessionIndex = σ₀.context.fileDescriptorToSessionIndex) ∧
    σ.outcome ≠ .outOfBounds ∧
    ∀ l σ', forwarder.step σ l σ' → Routed σ.context h l := by
  obtain ⟨hal, hfixed, hfds, hlatest, hout⟩ := aligned_run hstart hrun
  refine ⟨hal.sessions.length_eq.symm, fun i target htarget ↦ ?_, hal.nodup, fun fd i ↦ ?_,
    ⟨hfixed, hfds⟩, hout, fun l σ' hst ↦ Step.routed hlatest hal hst⟩
  · obtain ⟨hlt, htarget⟩ := List.getElem?_eq_some_iff.1 htarget
    have hlt' : i < σ.context.sessions.length := hal.sessions.length_eq ▸ hlt
    have hfor := hal.sessions.get hlt hlt'
    rw [List.get_eq_getElem, List.get_eq_getElem, htarget] at hfor
    exact ⟨_, List.getElem?_eq_getElem hlt', hfor.inbound, hfor.outbound, hfor.destination⟩
  · rw [hal.index]
    simp [UdpForwardSession.descriptors]

end Runs

/-- The reply of the server goes to the source of the query. -/
theorem afterReply_routed :
    sentBy afterReply.1.calls = [⟨6, [4, 5], .in6 (htons 40000) 0 (Vector.replicate 16 1) 0⟩] ∧
      Routed afterQuery.2.context [afterQuery.1] afterReply.1 :=
  ⟨rfl, (forwarder_routes_exactly sampleStart_started (.single (exec_get_step _))).2.2.2.2.2.2
    _ _ (exec_get_step _)⟩

end UdpForward
