import Udpfwd.Relay.Routing
import Udpfwd.Transition.Stuttering

/-!
# Sessions that cannot be created

The first packet of a client makes four calls to the kernel before there is a session:
`socket`, `bind`, `getsockname` and `epoll_ctl(EPOLL_CTL_ADD)`. Each of them may fail, and
each failure has to give back what the calls before it have got. It does: a step in which one
of these calls fails is a stuttering step that sends nothing (`Step.of_creationFails`), so
whatever comes later, a run goes as if the packet had never arrived (`failed_creation_atomic`).
-/

open Net

namespace WgRelay

/-- The call belongs to the creation of a session, and has failed. -/
def failsCreation : Syscall → Bool
  | .socket _ (.error _) | .bind _ _ (.error _) | .getsockname _ (.error _)
  | .epollAdd _ _ (.error _) => true
  | _ => false

/-- A call of the creation of a session has failed. -/
def CreationFails (acts : List Action) : Prop := ∃ c ∈ calls acts, failsCreation c

/-- The datagrams that a run has sent. -/
def sentIn (h : List Label) : List Sent := h.flatMap fun l ↦ sends l.actions

section Calls

variable {acts acts' : List Action} {sid : UInt64}

@[simp]
theorem creationFails_nil : ¬ CreationFails [] := nofun

@[simp]
theorem creationFails_cons_call {c : Syscall} :
    CreationFails (.call c :: acts) ↔ failsCreation c ∨ CreationFails acts := by
  simp [CreationFails]

@[simp]
theorem creationFails_cons_log {m : LogMessage} :
    CreationFails (.log m :: acts) ↔ CreationFails acts := Iff.rfl

@[simp]
theorem creationFails_append :
    CreationFails (acts ++ acts') ↔ CreationFails acts ∨ CreationFails acts' := by
  simp [CreationFails, or_and_right, exists_or]

/-- Forwarding creates no socket. -/
theorem WgcfRelaySession.Forwarding.not_creationFails {dir : Direction} {sock : SocketHandle}
    {packet : Packet} {dest : Option SockAddr} {a : Answers}
    {unsent attempted s : WgcfRelaySession}
    (h : Forwarding dir sock packet dest sid a unsent attempted s acts) :
    ¬ CreationFails acts := by
  cases h <;> simp [failsCreation]

theorem not_creationFails_creationActions {epoll sock : SocketHandle} {family : UInt16}
    {addr : SockAddr} {port : UInt16} {now : UInt64} :
    ¬ CreationFails (creationActions epoll family addr sid sock port now) := by
  simp [creationActions, failsCreation]

/-- The sweep creates no socket. -/
theorem not_creationFails_sweepActions {now : UInt64}
    {epollDel : SocketHandle → Except Errno Unit} {context : WgcfRelayContext}
    {order : List UInt64} :
    ¬ CreationFails (order.flatMap (sweepActions now epollDel context)) := by
  rintro ⟨c, hc, hfails⟩
  rcases eq_of_mem_calls_sweepActions hc with ⟨fd, r, rfl⟩ | ⟨fd, rfl⟩ <;>
    exact absurd hfails (by simp [failsCreation])

end Calls

section Steps

variable {inherited : Finset SocketHandle} {σ₀ σ σ' : RelayState} {l : Label} {h : List Label}

/-- Only the first packet of a client can make a call of the creation fail, and then there is
no session afterwards. -/
theorem Step.failedCreation (hst : Step σ l σ') (hfail : CreationFails l.actions) :
    σ'.context = σ.context ∧ ∃ fd d a acts, l.actions = .call (.recvfrom fd (.ok d)) :: acts ∧
      FailedCreation σ.context.epollHandle a acts := by
  rcases hl : l.event with ⟨now, order, epollDel⟩ | ⟨fd, e | d, a⟩
  · obtain ⟨-, -, -, hacts⟩ := hst.sweep hl
    rw [hacts, creationFails_cons_call] at hfail
    exact absurd (hfail.resolve_left (by simp [failsCreation])) not_creationFails_sweepActions
  · obtain ⟨-, hacts, -⟩ := hst.noDatagram hl
    rw [hacts] at hfail
    simp [failsCreation] at hfail
  · obtain ⟨-, acts, hacts, heffect⟩ := hst.datagram hl
    rw [hacts, creationFails_cons_call] at hfail
    replace hfail := hfail.resolve_left (by simp [failsCreation])
    generalize σ'.context = context' at heffect ⊢
    cases heffect with
    | ignored | unknownSocketHandle | unknownSessionId => simp at hfail
    | notCreated _ _ hfailed => exact ⟨rfl, fd, d, a, acts, hacts, hfailed⟩
    | @fromClient source sid s =>
      exact absurd hfail (s.forwardToServer_forwarding _ _ _ _ _).not_creationFails
    | @fromServer sid s =>
      exact absurd hfail (s.forwardToClient_forwarding _ _ _ _).not_creationFails
    | @created source sid family addr sock port s =>
      rw [creationFails_append] at hfail
      exact absurd (hfail.resolve_left not_creationFails_creationActions)
        (s.forwardToServer_forwarding _ _ _ _ _).not_creationFails

/-- **A failed creation is a stuttering step.** The tables are as before, the socket is closed
and no longer registered, and nothing has been sent. -/
theorem Step.of_creationFails (hst : Step σ l σ') (hinv : TableInvariant inherited σ)
    (hfail : CreationFails l.actions) : σ' = σ ∧ sends l.actions = [] := by
  obtain ⟨hcontext, fd, d, a, acts, hacts, hfailed⟩ := hst.failedCreation hfail
  have hgranted := hst.granted
  have hkernel := hst.kernel
  rw [hacts, calls_cons_call] at hgranted hkernel
  rw [Kernel.grantsAll_cons, Kernel.after_recvfrom] at hgranted
  rw [Kernel.replay_cons, Kernel.after_recvfrom] at hkernel
  obtain ⟨hsame, -, -⟩ :=
    hfailed.kernel hgranted.2 hinv.interest_subset_openFds hinv.epollHandle_mem
  constructor
  · rw [show σ' = ⟨σ'.context, σ'.kernel⟩ from rfl, hcontext, hkernel, hsame]
  · rw [hacts, sends_recvfrom]
    exact hfailed.sends_eq_nil

/-- The failed creations of a run send nothing. -/
theorem sends_of_creationFails (hstart : Started inherited σ₀) (hrun : relay.Run σ₀ h σ) :
    ∀ l ∈ h, CreationFails l.actions → sends l.actions = [] := by
  intro l' hl' hfail
  induction hrun with
  | nil => exact absurd hl' List.not_mem_nil
  | snoc hrun hst ih =>
    rcases List.mem_append.1 hl' with hl' | hl'
    · exact ih hl'
    · rw [List.mem_singleton.1 hl'] at hfail ⊢
      exact (Step.of_creationFails hst (.run hstart hrun) hfail).2

/-- **A failed creation leaves no trace.** In every state that a run reaches, a step in which
`socket`, `bind`, `getsockname` or `epoll_ctl(EPOLL_CTL_ADD)` fails for the first packet of a
client leaves both tables, the open descriptors and the interest set as they are, and sends
nothing. And whichever of these steps are taken out of a run, what is left is a run that
reaches the same state and sends the same datagrams. -/
theorem failed_creation_atomic (hstart : Started inherited σ₀) (hrun : relay.Run σ₀ h σ) :
    (∀ l σ', relay.step σ l σ' → CreationFails l.actions →
      σ'.context.sessions = σ.context.sessions ∧
        σ'.context.fileDescriptorToSessionIdMap = σ.context.fileDescriptorToSessionIdMap ∧
        σ'.kernel.openFds = σ.kernel.openFds ∧ σ'.kernel.interest = σ.kernel.interest ∧
        sends l.actions = []) ∧
    ∀ kept failed, Interleaved True kept failed h → (∀ l ∈ failed, CreationFails l.actions) →
      relay.Run σ₀ kept σ ∧ sentIn h = sentIn kept := by
  have hstep : ∀ t l u, TableInvariant inherited t → relay.step t l u →
      TableInvariant inherited u := fun t l u ht hst ↦ (ht.step hst).1
  refine ⟨fun l σ' hst hfail ↦ ?_, fun kept failed hin hfailed ↦ ⟨?_, ?_⟩⟩
  · obtain ⟨rfl, hsends⟩ := Step.of_creationFails hst (.run hstart hrun) hfail
    exact ⟨rfl, rfl, rfl, rfl, hsends⟩
  · refine hrun.deinterleave hstep (fun t ht l hl u hst ↦ ?_) (.started hstart) hin
    exact (Step.of_creationFails hst ht (hfailed l hl)).1
  · exact hin.flatMap_eq fun l hl ↦
      sends_of_creationFails hstart hrun l (hin.extra_subset hl) (hfailed l hl)

end Steps

/-- The first packet of the client, when the process has no descriptor left. -/
def exhausted : Label where
  event := .received 3 (.ok sampleDatagram) { sampleAnswers 900 with socket := .error (.other 24) }
  actions := [.call (.recvfrom 3 (.ok sampleDatagram)), .call (.socket 2 (.error (.other 24)))]

/-- The client has to try again, and that is all. -/
theorem exhausted_unnoticed :
    relay.Run sampleStart [⟨sampleArrival 1000, sampleActions 1000⟩] (sampleLive 1000) ∧
      sentIn [exhausted, ⟨sampleArrival 1000, sampleActions 1000⟩] =
        sentIn [⟨sampleArrival 1000, sampleActions 1000⟩] := by
  have hrun : relay.Run sampleStart [exhausted, ⟨sampleArrival 1000, sampleActions 1000⟩]
      (sampleLive 1000) :=
    .cons (exec_step (e := exhausted.event) rfl) (.single (sampleArrival_step 1000))
  have hin : Interleaved True [⟨sampleArrival 1000, sampleActions 1000⟩] [exhausted]
      [exhausted, ⟨sampleArrival 1000, sampleActions 1000⟩] :=
    .insert (fun _ ↦ trivial) (.keep .nil)
  refine (failed_creation_atomic sampleStart_started hrun).2 _ _ hin fun l hl ↦ ?_
  rw [List.mem_singleton.1 hl]
  simp [exhausted, failsCreation]

end WgRelay
