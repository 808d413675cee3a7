import Udpfwd.Relay.SessionStep

/-!
# The activity of a session, read off the calls

A session is active when it is created and when one of its packets is forwarded. Both end in a
call that succeeds and a reading of the clock: the `epoll_ctl` that registers the new socket,
and the `sendto` of the packet (`activeTimes`). Whose activity it is, and in which direction,
follows from the datagram that the step handles, so the time of the latest activity is a function
of the history of a run, in either direction or in both (`lastActivity`); the timestamps in the
session table have no part in it.

`timestamps_eq_lastActivity` is the invariant: the two timestamps that a live session keeps
are the times of its latest activity in the two directions. Under a clock that never goes
back the later of the two is the time of its latest activity (`lastActivity_any_eq_max`).
-/

open Net

namespace WgRelay

/-- The clock readings among the actions. -/
def clockReadings (acts : List Action) : List UInt64 :=
  (calls acts).filterMap fun
    | .clockGettime now => some now
    | _ => none

/-- What a run has done. -/
def actionsOf (h : List Label) : List Action := h.flatMap (·.actions)

/-- The clock readings of a run never decrease. -/
def ClockMonotone (h : List Label) : Prop := (clockReadings (actionsOf h)).Pairwise (· ≤ ·)

instance : DecidablePred ClockMonotone := fun _ ↦ inferInstanceAs (Decidable (List.Pairwise _ _))

/-- The times, among some calls, at which a session is created or, with `forwards`, a packet is
sent: each is the reading of the clock right after the call that has succeeded. -/
def activeTimes (forwards : Bool) : List Syscall → List UInt64
  | .epollAdd _ _ (.ok _) :: .clockGettime now :: cs => now :: activeTimes forwards cs
  | .sendto _ _ _ (.ok _) :: .clockGettime now :: cs =>
    if forwards then now :: activeTimes forwards cs else activeTimes forwards cs
  | _ :: cs => activeTimes forwards cs
  | [] => []

/-- The way that a packet goes. -/
def Arrival.direction : Arrival → Direction
  | .fromClient _ => .toServer
  | .fromServer => .toClient

/-- The times of activity of `sid` in a step, in one of the directions `dirs`. A creation is an
activity in both. -/
def Label.activity (context : WgcfRelayContext) (sid : UInt64) (dirs : Direction → Bool)
    (l : Label) : List UInt64 :=
  match l.event.arrival context sid with
  | none => []
  | some x => activeTimes (dirs x.direction) (calls l.actions)

/-- The times of activity of `sid` in a history from `σ₀`, oldest first. -/
def activityTimes (σ₀ : RelayState) (sid : UInt64) (dirs : Direction → Bool) (h : List Label) :
    List UInt64 :=
  LTS.trace RelayState.next (fun σ l ↦ l.activity σ.context sid dirs) σ₀ h

/-- The direction from the client to the server. -/
def toServer : Direction → Bool := (· = .toServer)

/-- The direction from the server to the client. -/
def toClient : Direction → Bool := (· = .toClient)

/-- Either direction. -/
def anyDirection : Direction → Bool := fun _ ↦ true

/-- The time of the latest activity of a session in a history. -/
def lastActivity (σ₀ : RelayState) (sid : UInt64) (dirs : Direction → Bool) (h : List Label) :
    Option UInt64 :=
  (activityTimes σ₀ sid dirs h).getLast?

section Lists

variable {acts acts' : List Action} {h h' : List Label} {l : Label}

@[simp]
theorem actionsOf_singleton : actionsOf [l] = l.actions := by
  simp [actionsOf]

@[simp]
theorem actionsOf_append : actionsOf (h ++ h') = actionsOf h ++ actionsOf h' :=
  List.flatMap_append

@[simp]
theorem clockReadings_append :
    clockReadings (acts ++ acts') = clockReadings acts ++ clockReadings acts' := by
  simp [clockReadings]

theorem ClockMonotone.left (hc : ClockMonotone (h ++ h')) : ClockMonotone h := by
  rw [ClockMonotone, actionsOf_append, clockReadings_append] at hc
  exact (List.pairwise_append.1 hc).1

end Lists

section Times

variable {σ₀ σ : RelayState} {context : WgcfRelayContext} {sid : UInt64}
variable {dirs : Direction → Bool} {h : List Label} {l : Label}

theorem Label.activity_of_none (hnone : l.event.arrival context sid = none) :
    l.activity context sid dirs = [] := by
  rw [activity, hnone]

theorem Label.activity_of_some {x : Arrival} (hx : l.event.arrival context sid = some x) :
    l.activity context sid dirs = activeTimes (dirs x.direction) (calls l.actions) := by
  rw [activity, hx]

theorem Label.activity_of_received {fd : SocketHandle} {d : Datagram} {a : Answers} {x : Arrival}
    (hevent : l.event = .received fd (.ok d) a) (hx : arrival context sid fd d = some x) :
    l.activity context sid dirs = activeTimes (dirs x.direction) (calls l.actions) := by
  refine activity_of_some ?_
  rw [hevent]
  exact hx

theorem lastActivity_snoc (hrun : relay.Run σ₀ h σ) :
    lastActivity σ₀ sid dirs (h ++ [l]) =
      (l.activity σ.context sid dirs).getLast?.or (lastActivity σ₀ sid dirs h) := by
  rw [lastActivity, activityTimes, hrun.trace_snoc relay_follows, List.getLast?_append]
  rfl

/-- A step without an activity of a session leaves its latest activity alone. -/
theorem lastActivity_of_nil (hrun : relay.Run σ₀ h σ) (hl : l.activity σ.context sid dirs = []) :
    lastActivity σ₀ sid dirs (h ++ [l]) = lastActivity σ₀ sid dirs h := by
  rw [lastActivity_snoc hrun, hl]
  rfl

/-- Every activity has a clock reading of its own. -/
theorem activeTimes_sublist (forwards : Bool) (acts : List Action) :
    (activeTimes forwards (calls acts)).Sublist (clockReadings acts) := by
  rw [clockReadings]
  generalize calls acts = cs
  induction cs using activeTimes.induct forwards with
  | case1 _ _ _ now cs ih => exact ih.cons_cons now
  | case2 _ _ _ _ now cs hforwards ih =>
    rw [activeTimes, if_pos hforwards]
    exact ih.cons_cons now
  | case3 _ _ _ _ now cs hforwards ih =>
    rw [activeTimes, if_neg hforwards]
    exact ih.cons now
  | case4 c cs hadd hsend ih =>
    rw [activeTimes]
    · exact ih.trans (List.Sublist.filterMap _ (List.sublist_cons_self c cs))
    all_goals assumption
  | case5 => exact List.Sublist.refl _

/-- Forwarding counts in addition to creation. -/
theorem activeTimes_sublist_true (forwards : Bool) (cs : List Syscall) :
    (activeTimes forwards cs).Sublist (activeTimes true cs) := by
  cases forwards with
  | true => exact List.Sublist.refl _
  | false =>
    induction cs using activeTimes.induct false with
    | case1 _ _ _ now cs ih => exact ih.cons_cons now
    | case2 _ _ _ _ now cs hforwards => exact absurd hforwards (by simp)
    | case3 _ _ _ _ now cs _ ih => exact ih.cons now
    | case4 c cs hadd hsend ih =>
      rw [activeTimes, activeTimes]
      · exact ih
      all_goals assumption
    | case5 => exact List.Sublist.refl _

theorem Label.activity_sublist (context : WgcfRelayContext) (sid : UInt64)
    (dirs : Direction → Bool) (l : Label) :
    (l.activity context sid dirs).Sublist (clockReadings l.actions) := by
  rcases hx : l.event.arrival context sid with - | x
  · rw [activity_of_none hx]
    exact List.nil_sublist _
  · rw [activity_of_some hx]
    exact activeTimes_sublist _ _

/-- Every activity of a history has a clock reading of its own. -/
theorem activityTimes_sublist (σ₀ : RelayState) (sid : UInt64) (dirs : Direction → Bool)
    (h : List Label) : (activityTimes σ₀ sid dirs h).Sublist (clockReadings (actionsOf h)) := by
  induction h generalizing σ₀ with
  | nil => exact List.Sublist.refl _
  | cons l h ih =>
    rw [show actionsOf (l :: h) = l.actions ++ actionsOf h from rfl, clockReadings_append]
    exact (l.activity_sublist σ₀.context sid dirs).append (ih _)

/-- An activity in one direction is an activity. -/
theorem Label.activity_sublist_any (context : WgcfRelayContext) (sid : UInt64)
    (dirs : Direction → Bool) (l : Label) :
    (l.activity context sid dirs).Sublist (l.activity context sid anyDirection) := by
  rcases hx : l.event.arrival context sid with - | x
  · rw [activity_of_none hx]
    exact List.nil_sublist _
  · rw [activity_of_some hx, activity_of_some hx]
    exact activeTimes_sublist_true _ _

theorem activityTimes_sublist_any (σ₀ : RelayState) (sid : UInt64) (dirs : Direction → Bool)
    (h : List Label) :
    (activityTimes σ₀ sid dirs h).Sublist (activityTimes σ₀ sid anyDirection h) := by
  induction h generalizing σ₀ with
  | nil => exact List.Sublist.refl _
  | cons l h ih => exact (l.activity_sublist_any σ₀.context sid dirs).append (ih _)

theorem Label.activity_eq_nil_of_any (dirs : Direction → Bool)
    (hany : l.activity context sid anyDirection = []) : l.activity context sid dirs = [] :=
  List.sublist_nil.1 (hany ▸ l.activity_sublist_any context sid dirs)

end Times

/-! ### What one step adds -/

/-- The timestamp that a session keeps for a direction. -/
def WgcfRelaySession.timestamp (s : WgcfRelaySession) : Direction → UInt64
  | .toServer => s.lastTxTimestampSeconds
  | .toClient => s.lastRxTimestampSeconds

theorem WgcfRelaySession.stamping_timestamp (s : WgcfRelaySession) (now : UInt64)
    (dir dir' : Direction) :
    (s.stamping now dir).timestamp dir' = if dir = dir' then now else s.timestamp dir' := by
  cases dir <;> cases dir' <;> rfl

theorem WgcfRelaySession.reportDropped_timestamp (s : WgcfRelaySession) (dir : Direction) :
    s.reportDropped.timestamp dir = s.timestamp dir := by
  rw [reportDropped]
  split <;> cases dir <;> rfl

/-- A forwarded packet is an activity in its direction exactly when the timestamp is new. -/
theorem WgcfRelaySession.Forwarding.timestamp_eq {dir : Direction} {sock : SocketHandle}
    {packet : Packet} {dest : Option SockAddr} {sid t : UInt64} {a : Answers}
    {unsent attempted s : WgcfRelaySession} {acts : List Action}
    (h : Forwarding dir sock packet dest sid a unsent attempted s acts) (dir' : Direction)
    (hunsent : unsent.timestamp dir' = t) (hattempted : attempted.timestamp dir' = t) :
    s.timestamp dir' = (activeTimes (dir = dir') (calls acts)).getLast?.getD t := by
  cases h with
  | unsent => exact hunsent
  | failed => split <;> cases dir <;> cases dir' <;> exact hattempted
  | sent =>
    rw [stamping_timestamp, hattempted]
    by_cases hdir : dir = dir' <;> simp [activeTimes, hdir]

theorem activeTimes_recvfrom {fd : SocketHandle} {r : Except Errno Datagram} {forwards : Bool}
    {acts : List Action} :
    activeTimes forwards (calls (.call (.recvfrom fd r) :: acts)) =
      activeTimes forwards (calls acts) := rfl

/-- A creation is an activity whichever directions count. -/
theorem activeTimes_creationActions {epoll sock : SocketHandle} {family : UInt16}
    {addr : SockAddr} {sid now : UInt64} {port : UInt16} {forwards : Bool} {acts : List Action} :
    activeTimes forwards (calls (creationActions epoll family addr sid sock port now ++ acts)) =
      now :: activeTimes forwards (calls acts) := rfl

/-- A creation that fails is none. -/
theorem FailedCreation.activeTimes_eq_nil {epoll : SocketHandle} {a : Answers}
    {acts : List Action} (h : FailedCreation epoll a acts) (forwards : Bool) :
    activeTimes forwards (calls acts) = [] := by
  cases h <;> rfl

/-! ### The timestamps of a session -/

/-- The timestamps of a live session are the times of its latest activity. -/
def TimestampsExact (σ₀ : RelayState) (h : List Label) (σ : RelayState) : Prop :=
  ∀ sid s, σ.context.sessions.lookup sid = some s →
    lastActivity σ₀ sid toServer h = some s.lastTxTimestampSeconds ∧
      lastActivity σ₀ sid toClient h = some s.lastRxTimestampSeconds

/-- What a step adds to the activity of a session is what it makes of its timestamps. -/
theorem SessionStep.timestamp {context : WgcfRelayContext} {l : Label} {sid : UInt64}
    {o : Option WgcfRelaySession} {s' : WgcfRelaySession} {last : Option UInt64}
    (hstep : SessionStep context l sid o (some s')) (dir : Direction)
    (hold : ∀ s, o = some s → last = some (s.timestamp dir)) :
    (l.activity context sid (· = dir)).getLast?.or last = some (s'.timestamp dir) := by
  cases hstep with
  | untouched harrival =>
    rw [Label.activity_of_none harrival]
    exact hold s' rfl
  | @created fd d a source family addr sock port s hevent harrival _ hnew hacts =>
    have hs : (s.sending source).timestamp dir = a.createdAt := by
      rw [hnew]
      cases dir <;> rfl
    have hforward := s.forwardToServer_forwarding context.destinationAddress source d.payload sid a
    rw [Label.activity_of_received hevent harrival, hacts, activeTimes_recvfrom,
      activeTimes_creationActions, List.getLast?_cons, Option.some_or,
      hforward.timestamp_eq dir hs hs]
    rfl
  | @fromClient fd d a source s hevent harrival hacts =>
    have hforward := s.forwardToServer_forwarding context.destinationAddress source d.payload sid a
    have hs : (s.sending source).timestamp dir = s.timestamp dir := by cases dir <;> rfl
    rw [Label.activity_of_received hevent harrival, hacts, activeTimes_recvfrom, hold s rfl,
      Option.or_some, hforward.timestamp_eq dir hs hs]
    rfl
  | @fromServer fd d a s hevent harrival hacts =>
    have hforward := s.forwardToClient_forwarding context.inboundSocket d.payload sid a
    have hs : s.receiving.timestamp dir = s.timestamp dir := by cases dir <;> rfl
    rw [Label.activity_of_received hevent harrival, hacts, activeTimes_recvfrom, hold s rfl,
      Option.or_some, hforward.timestamp_eq dir rfl hs]
    rfl
  | @kept now order epollDel s hevent =>
    rw [Label.activity_of_none (by rw [hevent]; rfl), s.reportDropped_timestamp]
    exact hold s rfl

/-- **The timestamps are exact** along every run, whatever the clock does. -/
theorem timestamps_eq_lastActivity {inherited : Finset SocketHandle} {σ₀ σ : RelayState}
    {h : List Label} (hstart : Started inherited σ₀) (hrun : relay.Run σ₀ h σ) :
    TimestampsExact σ₀ h σ := by
  refine hrun.historyInvariant (J := TimestampsExact σ₀) ?_
    fun h σ l σ' hrun hold hst sid s' hs' ↦ ?_
  · intro sid s hs
    rw [hstart.spec.1] at hs
    exact absurd hs (by simp)
  · have hstep := Step.session hst sid
    rw [hs'] at hstep
    rw [lastActivity_snoc hrun, lastActivity_snoc hrun]
    exact ⟨hstep.timestamp .toServer fun s hs ↦ (hold sid s hs).1,
      hstep.timestamp .toClient fun s hs ↦ (hold sid s hs).2⟩

/-! ### A clock that never goes back -/

section Monotone

variable {σ₀ σ : RelayState} {sid t : UInt64} {h : List Label} {l : Label}

/-- The activities of a session are those in the one direction or those in the other. -/
theorem Label.activity_any (context : WgcfRelayContext) (sid : UInt64) (l : Label) :
    l.activity context sid anyDirection = l.activity context sid toServer ∨
      l.activity context sid anyDirection = l.activity context sid toClient := by
  rcases hx : l.event.arrival context sid with - | x
  · rw [activity_of_none hx, activity_of_none hx]
    exact .inl rfl
  · simp only [activity_of_some hx]
    cases x with
    | fromClient source => exact .inl rfl
    | fromServer => exact .inr rfl

/-- The latest activity is the latest one in one of the two directions. -/
theorem lastActivity_any (σ₀ : RelayState) (sid : UInt64) (h : List Label) :
    lastActivity σ₀ sid anyDirection h = lastActivity σ₀ sid toServer h ∨
      lastActivity σ₀ sid anyDirection h = lastActivity σ₀ sid toClient h := by
  induction h using List.reverseRecOn with
  | nil => exact .inl rfl
  | append_singleton h l ih =>
    have hsnoc : ∀ dirs, lastActivity σ₀ sid dirs (h ++ [l]) =
        (l.activity (h.foldl RelayState.next σ₀).context sid dirs).getLast?.or
          (lastActivity σ₀ sid dirs h) := by
      intro dirs
      rw [lastActivity, activityTimes, LTS.trace_append, List.getLast?_append, LTS.trace,
        LTS.trace, List.append_nil]
      rfl
    simp only [hsnoc]
    generalize (h.foldl RelayState.next σ₀).context = context
    rcases hany : (l.activity context sid anyDirection).getLast? with - | t
    · have hnil := List.getLast?_eq_none_iff.1 hany
      rw [Label.activity_eq_nil_of_any toServer hnil, Label.activity_eq_nil_of_any toClient hnil]
      exact ih
    · rcases l.activity_any context sid with heq | heq <;> rw [← heq, hany]
      · exact .inl rfl
      · exact .inr rfl

/-- When times of activity never decrease, the latest activity is the later of the latest
activities in the two directions. -/
theorem lastActivity_eq_max {tx rx : UInt64} (hclock : ClockMonotone h)
    (htx : lastActivity σ₀ sid toServer h = some tx)
    (hrx : lastActivity σ₀ sid toClient h = some rx) :
    ∃ t, lastActivity σ₀ sid anyDirection h = some t ∧ t.toNat = max tx.toNat rx.toNat := by
  have hsorted := hclock.sublist (activityTimes_sublist σ₀ sid anyDirection h)
  have hle : ∀ {dirs t t'}, lastActivity σ₀ sid dirs h = some t' →
      lastActivity σ₀ sid anyDirection h = some t → t'.toNat ≤ t.toNat := by
    intro dirs t t' ht' ht
    have hmem := (activityTimes_sublist_any σ₀ sid dirs h).subset (List.mem_of_getLast? ht')
    obtain ⟨times, htimes⟩ := List.getLast?_eq_some_iff.1 ht
    rw [htimes] at hsorted hmem
    rcases List.mem_append.1 hmem with hmem | hmem
    · exact (List.pairwise_append.1 hsorted).2.2 t' hmem t (List.mem_singleton_self t)
    · rw [List.mem_singleton.1 hmem]
  rcases lastActivity_any σ₀ sid h with heq | heq
  · have ht := heq.trans htx
    exact ⟨tx, ht, (max_eq_left (hle hrx ht)).symm⟩
  · have ht := heq.trans hrx
    exact ⟨rx, ht, (max_eq_right (hle htx ht)).symm⟩

/-- **Under a clock that never goes back** the latest activity of a live session is the later
of its two timestamps. -/
theorem lastActivity_any_eq_max {inherited : Finset SocketHandle}
    (hstart : Started inherited σ₀) (hrun : relay.Run σ₀ h σ)
    (hclock : ClockMonotone h) {s : WgcfRelaySession}
    (hs : σ.context.sessions.lookup sid = some s) :
    ∃ t, lastActivity σ₀ sid anyDirection h = some t ∧
      t.toNat = max s.lastTxTimestampSeconds.toNat s.lastRxTimestampSeconds.toNat := by
  obtain ⟨htx, hrx⟩ := timestamps_eq_lastActivity hstart hrun sid s hs
  exact lastActivity_eq_max hclock htx hrx

/-- A later clock reading is no earlier than an activity. -/
theorem lastActivity_le {now : UInt64} {dirs : Direction → Bool}
    (hclock : ClockMonotone (h ++ [l])) (ht : lastActivity σ₀ sid dirs h = some t)
    (hnow : now ∈ clockReadings l.actions) : t ≤ now := by
  rw [ClockMonotone, actionsOf_append, actionsOf_singleton, clockReadings_append] at hclock
  exact (List.pairwise_append.1 hclock).2.2 t
    ((activityTimes_sublist σ₀ sid dirs h).subset (List.mem_of_getLast? ht)) now hnow

end Monotone

end WgRelay
