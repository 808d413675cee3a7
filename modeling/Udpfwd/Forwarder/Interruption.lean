import Udpfwd.Forwarder.Routing
import Udpfwd.Transition.Stuttering

/-!
# Interrupted calls in the forwarder

A signal makes `epoll_wait` or `recvfrom` fail with `EINTR`. `RunWorker` goes on when this
happens to `recvfrom`, and the worker of the relay goes on in both cases; but any failure of
`epoll_wait` makes `RunWorker` return. So the interruptions in a run of the forwarder do not
show exactly when `epoll_wait` is none of the interrupted calls
(`interruptions_invisible_iff`).
-/

namespace UdpForward

/-- A call of `RunWorker` that a signal interrupts. -/
inductive Interruption
  | epollWait
  /-- The descriptor was reported readable; the answer is the one `sendto` would have given. -/
  | recvfrom (fd : SocketHandle) (answer : Except Errno ℕ)

/-- What the worker sees of an interruption. -/
def Interruption.event : Interruption → Event
  | .epollWait => .epollFailed .EINTR
  | .recvfrom fd answer => .polled fd false false true (.error .EINTR) answer

/-- What the worker does when it is interrupted. -/
def Interruption.label : Interruption → Label
  | .epollWait => ⟨.epollFailed .EINTR, []⟩
  | .recvfrom fd answer =>
    ⟨.polled fd false false true (.error .EINTR) answer, [.recvfrom fd (.error .EINTR)]⟩

@[simp]
theorem Interruption.label_event (i : Interruption) : i.label.event = i.event := by
  cases i <;> rfl

/-- What a run has sent, in order. -/
def sentIn (h : List Label) : List Sent := h.flatMap fun l ↦ sentBy l.calls

/-- The events `es` make the worker do what it has done in the run with the history `h` from
`σ₀` to `σ`: it handles them all, sends the same datagrams, ends in the same context and has
not returned unless it had. -/
def Unnoticed (σ₀ : ForwarderState) (h : List Label) (σ : ForwarderState) (es : List Event) :
    Prop :=
  ∃ h' σ', forwarder.Run σ₀ h' σ' ∧ h'.map Label.event = es ∧ sentIn h' = sentIn h ∧
    σ'.context = σ.context ∧ (σ.outcome = .next → σ'.outcome = .next)

section Interruptions

variable {σ₀ σ σ' : ForwarderState} {h : List Label} {l : Label} {es : List Event}
variable {is : List Interruption} {outcome : Outcome}

/-- The descriptors that `epoll_wait` may report never change. -/
theorem Step.interest_eq (hst : forwarder.step σ l σ') :
    σ'.kernel.interest = σ.kernel.interest := by
  rw [hst.kernel, (Step.effect hst).fixed.2.2]

/-- An interrupted `recvfrom` stutters. -/
theorem recvfrom_stutters {fd : SocketHandle} {answer : Except Errno ℕ}
    (hrunning : σ.outcome = .next) (hfd : fd ∈ σ.kernel.interest) :
    forwarder.step σ (Interruption.recvfrom fd answer).label σ := by
  refine ⟨hrunning, hfd, ?_, rfl⟩
  show (_, _, _) = (_, _, _)
  rw [hrunning]
  rfl

/-- An interrupted `epoll_wait` ends the worker. -/
theorem Step.returned_of_epollWait (hst : forwarder.step σ l σ')
    (hl : l.event = Interruption.epollWait.event) : σ'.outcome = .returned .EINTR := by
  have hhandled := hst.handled
  rw [hl] at hhandled
  exact (congrArg Prod.fst hhandled).symm

/-- Nothing follows when the worker has returned. -/
theorem Run.eq_nil_of_returned (hrun : forwarder.Run σ h σ') (hout : σ.outcome ≠ .next) :
    h = [] := by
  cases h with
  | nil => rfl
  | cons l h =>
    obtain ⟨t, hst, -⟩ := hrun.exists_of_cons
    exact absurd hst.running hout

/-- A worker that handles every event although it was interrupted, and has not returned when
it had not, was not interrupted in `epoll_wait`. -/
theorem not_epollWait_of_run {es' : List Event}
    (hin : Interleaved (outcome = .next) es (is.map Interruption.event) es')
    (hrun : forwarder.Run σ₀ h σ') (hevents : h.map Label.event = es')
    (hout : outcome = .next → σ'.outcome = .next) : ∀ i ∈ is, i ≠ .epollWait := by
  generalize hextra : is.map Interruption.event = extra at hin
  induction hin generalizing is h σ₀ with
  | nil =>
    rw [List.map_eq_nil_iff] at hextra
    subst hextra
    exact fun i hi ↦ absurd hi (by simp)
  | keep _ ih =>
    rw [List.map_eq_cons_iff] at hevents
    obtain ⟨l, h, rfl, -, hevents⟩ := hevents
    obtain ⟨t, -, hrun⟩ := hrun.exists_of_cons
    exact ih hrun hevents hextra
  | insert hend hin ih =>
    rw [List.map_eq_cons_iff] at hextra hevents
    obtain ⟨i, is, rfl, hi, hextra⟩ := hextra
    obtain ⟨l, h, rfl, hl, hevents⟩ := hevents
    obtain ⟨t, hst, hrun⟩ := hrun.exists_of_cons
    rw [List.forall_mem_cons]
    refine ⟨?_, ih hrun hevents hextra⟩
    rintro rfl
    -- the worker has returned, so the interruption is behind all events
    have hreturned := Step.returned_of_epollWait hst (hl.trans hi.symm)
    obtain rfl := Run.eq_nil_of_returned hrun (by rw [hreturned]; nofun)
    obtain rfl := hrun.eq_of_nil
    rw [← hevents, List.map_nil] at hin
    have hnext := hout (hend hin.eq_nil_of_whole.1)
    rw [hreturned] at hnext
    exact absurd hnext (by simp)

/-- **Interruptions are invisible except in `epoll_wait`.** Take a run of the worker, and let
signals interrupt calls at any points of it, `recvfrom` on descriptors that `epoll_wait` may
report; behind the last event there is such a point only if the worker has not returned. The
worker does the same as without them if and only if none of the calls is `epoll_wait`. -/
theorem interruptions_invisible_iff (hrun : forwarder.Run σ₀ h σ)
    (henabled : ∀ i ∈ is, i.event.Enabled σ₀)
    (hin : Interleaved (σ.outcome = .next) (h.map Label.event) (is.map Interruption.event) es) :
    Unnoticed σ₀ h σ es ↔ ∀ i ∈ is, i ≠ .epollWait := by
  constructor
  · rintro ⟨h', σ', hrun', hevents, -, -, hout⟩
    exact not_epollWait_of_run hin hrun' hevents hout
  intro hrecvfrom
  have hstutter : ∀ t : ForwarderState, t.kernel.interest = σ₀.kernel.interest →
      t.outcome = .next → ∀ l ∈ is.map Interruption.label, forwarder.step t l t := by
    intro t hinterest hrunning l hl
    obtain ⟨i, hi, rfl⟩ := List.mem_map.1 hl
    cases i with
    | epollWait => exact absurd rfl (hrecvfrom _ hi)
    | recvfrom fd answer => exact recvfrom_stutters hrunning (hinterest ▸ henabled _ hi)
  have hinterest : ∀ t l u, t.kernel.interest = σ₀.kernel.interest → forwarder.step t l u →
      u.kernel.interest = σ₀.kernel.interest :=
    fun t l u ht hst ↦ (Step.interest_eq hst).trans ht
  have hlabels : is.map Interruption.event = (is.map Interruption.label).map Label.event := by
    simp
  rw [hlabels] at hin
  obtain ⟨h', rfl, hin'⟩ := hin.exists_of_map
  have hquiet : ∀ l ∈ is.map Interruption.label, sentBy l.calls = [] := by
    intro l hl
    obtain ⟨i, -, rfl⟩ := List.mem_map.1 hl
    cases i <;> rfl
  refine ⟨h', σ, ?_, rfl, hin'.flatMap_eq hquiet, rfl, id⟩
  have hlast : σ.kernel.interest = σ₀.kernel.interest :=
    LTS.Run.invariant (I := fun t ↦ t.kernel.interest = σ₀.kernel.interest) hinterest rfl hrun
  exact hrun.interleave hinterest (fun t l u ht hst ↦ hstutter t ht hst.running)
    (hstutter σ hlast) rfl hin'

end Interruptions

/-- A signal arrives while `recvfrom` is called for the query, and one for the reply. -/
theorem recvfrom_interrupted_unnoticed :
    Unnoticed sampleStart [afterQuery.1, afterReply.1] afterReply.2
      [(Interruption.recvfrom 6 (.ok 3)).event, sampleQuery,
        (Interruption.recvfrom 7 (.ok 2)).event, sampleReply] := by
  have hrun : forwarder.Run sampleStart [afterQuery.1, afterReply.1] afterReply.2 :=
    .cons (exec_get_step _) (.single (exec_get_step _))
  have hin : Interleaved (afterReply.2.outcome = .next) [sampleQuery, sampleReply]
      ([Interruption.recvfrom 6 (.ok 3), .recvfrom 7 (.ok 2)].map Interruption.event)
      [(Interruption.recvfrom 6 (.ok 3)).event, sampleQuery,
        (Interruption.recvfrom 7 (.ok 2)).event, sampleReply] :=
    .insert nofun (.keep (.insert nofun (.keep .nil)))
  exact (interruptions_invisible_iff hrun (by decide) hin).2 (by simp)

/-- A signal arrives while the worker waits for the reply, which is then not forwarded. -/
theorem epollWait_interrupted_noticed :
    Started {0, 1, 2} sampleTargets sampleStart ∧
      forwarder.Run sampleStart [afterQuery.1, afterReply.1] afterReply.2 ∧
      Interleaved (afterReply.2.outcome = .next) [sampleQuery, sampleReply]
        [Interruption.epollWait.event] [sampleQuery, Interruption.epollWait.event, sampleReply] ∧
      ¬Unnoticed sampleStart [afterQuery.1, afterReply.1] afterReply.2
        [sampleQuery, Interruption.epollWait.event, sampleReply] := by
  have hin : Interleaved (afterReply.2.outcome = .next) [sampleQuery, sampleReply]
      ([Interruption.epollWait].map Interruption.event)
      [sampleQuery, Interruption.epollWait.event, sampleReply] :=
    .keep (.insert nofun (.keep .nil))
  refine ⟨sampleStart_started, .cons (exec_get_step _) (.single (exec_get_step _)), hin, ?_⟩
  rintro ⟨h', σ', hrun, hevents, -, -, hout⟩
  exact not_epollWait_of_run hin hrun hevents hout _ (List.mem_singleton_self _) rfl

end UdpForward
