import Udpfwd.Relay.Expiry

/-!
# Reclaiming idle sessions on a busy relay

`RunWorker` sweeps only in an iteration whose `epoll_wait` returned nothing. Whether an idle
session is ever removed therefore depends on the traffic of everybody else.

`live_iff` says which sessions a history leaves alive: those that no sweep since their latest
activity found expired. `reclaimsIdle_iff` reads off when the table holds no session that has
been idle for long: in exactly those runs in which such a sweep has taken place in time.
-/

open Net

namespace WgRelay

/-! ### Sweeps since the latest activity -/

/-- The times of the sweeps of a run. -/
def sweepTimes (h : List Label) : List UInt64 := h.filterMap (·.event.sweepTime)

/-- The times of the sweeps since the latest activity of `sid`, in a history from `σ₀`. -/
def sweepsSince (σ₀ : RelayState) (sid : UInt64) (h : List Label) : List UInt64 :=
  let steps := LTS.trace RelayState.next
    (fun σ l ↦ [(l.activity σ.context sid anyDirection, l.event.sweepTime)]) σ₀ h
  steps.foldl (fun times (active, swept) ↦ if active = [] then times ++ swept.toList else []) []

section Since

variable {σ₀ σ σ' : RelayState} {h : List Label} {l : Label} {now sid : UInt64}

theorem sweepsSince_snoc (hrun : relay.Run σ₀ h σ) : sweepsSince σ₀ sid (h ++ [l]) =
    if l.activity σ.context sid anyDirection = [] then
      sweepsSince σ₀ sid h ++ l.event.sweepTime.toList else [] := by
  rw [sweepsSince, hrun.trace_snoc relay_follows, List.foldl_append]
  rfl

theorem Event.eq_of_sweepTime {e : Event} (he : e.sweepTime = some now) :
    ∃ order epollDel, e = .idleSweep now order epollDel := by
  cases e with
  | idleSweep now' order epollDel =>
    obtain rfl := Option.some.inj he
    exact ⟨order, epollDel, rfl⟩
  | received => cases he

/-- A session is live after every activity, and without an activity only a sweep changes
which sessions are live. -/
theorem SessionStep.isSome {context : WgcfRelayContext} {o o' : Option WgcfRelaySession}
    (hstep : SessionStep context l sid o o') (hl : l.event.sweepTime = none) :
    o'.isSome = (o.isSome || !(l.activity context sid anyDirection).isEmpty) := by
  cases hstep with
  | untouched harrival => simp [Label.activity_of_none harrival]
  | @refused fd d a source acts hevent harrival hacts hfail =>
    rw [Label.activity_of_received hevent harrival, hacts, activeTimes_recvfrom,
      hfail.activeTimes_eq_nil]
    rfl
  | stray hevent harrival hacts =>
    rw [Label.activity_of_received hevent harrival, hacts]
    rfl
  | @created fd d a source family addr sock port s hevent harrival _ _ hacts =>
    rw [Label.activity_of_received hevent harrival, hacts, activeTimes_recvfrom,
      activeTimes_creationActions]
    rfl
  | fromClient | fromServer => simp
  | kept hevent | expired hevent =>
    rw [hevent] at hl
    cases hl

/-- **Which sessions are live** after a history, under a clock that never goes back: those
that no sweep since their latest activity has found to be inactive in some direction. -/
theorem live_iff {inherited : Finset SocketHandle} (hstart : Started inherited σ₀)
    (hrun : relay.Run σ₀ h σ) (hclock : ClockMonotone h) (sid : UInt64) :
    sid ∈ σ.context.sessions ↔
      ∃ tx rx, lastActivity σ₀ sid toServer h = some tx ∧ lastActivity σ₀ sid toClient h = some rx ∧
        ∀ r ∈ sweepsSince σ₀ sid h, r.toNat ≤ tx.toNat + 600 ∧ r.toNat ≤ rx.toNat + 600 := by
  induction hrun with
  | nil =>
    rw [hstart.spec.1]
    simp [lastActivity, activityTimes, LTS.trace, Finmap.notMem_empty]
  | @snoc h σ σ' l hrun hst ih =>
    have hbefore := ih hclock.left
    rcases hl : l.event.sweepTime with - | now
    · have hstep := (Step.session hst sid).isSome hl
      by_cases hact : l.activity σ.context sid anyDirection = []
      · rw [sweepsSince_snoc hrun, if_pos hact, hl, Option.toList_none, List.append_nil,
          lastActivity_of_nil hrun (Label.activity_eq_nil_of_any _ hact),
          lastActivity_of_nil hrun (Label.activity_eq_nil_of_any _ hact), ← hbefore]
        rw [← Finmap.lookup_isSome, ← Finmap.lookup_isSome, hstep, hact]
        simp
      · -- right after an activity the session is live, and no sweep has come since
        rw [sweepsSince_snoc hrun, if_neg hact, ← Finmap.lookup_isSome, hstep]
        have hlive : (σ'.context.sessions.lookup sid).isSome := by
          rw [hstep]
          simp [hact]
        obtain ⟨s, hs⟩ := Option.isSome_iff_exists.1 hlive
        obtain ⟨htx, hrx⟩ := timestamps_eq_lastActivity hstart (hrun.snoc hst) sid s hs
        exact ⟨fun _ ↦ ⟨_, _, htx, hrx, List.forall_mem_nil _⟩, fun _ ↦ by simp [hact]⟩
    · obtain ⟨order, epollDel, hevent⟩ := Event.eq_of_sweepTime hl
      have hnil : ∀ dirs, l.activity σ.context sid dirs = [] :=
        fun _ ↦ Label.activity_of_none (by rw [hevent]; rfl)
      rw [sweepsSince_snoc hrun, if_pos (hnil _), hl, Option.toList_some,
        lastActivity_of_nil hrun (hnil _), lastActivity_of_nil hrun (hnil _)]
      rcases hs : σ.context.sessions.lookup sid with - | s
      · -- a sweep creates no session
        have hgone : sid ∉ σ.context.sessions := Finmap.lookup_eq_none.1 hs
        have hgone' : sid ∉ σ'.context.sessions := by
          obtain ⟨-, -, hswept, -⟩ := Step.sweep hst hevent
          rw [← Finmap.lookup_eq_none, hswept.sessions, hs]
          simp
        rw [iff_false_left hgone']
        rw [iff_false_left hgone] at hbefore
        rintro ⟨tx, rx, htx, hrx, hall⟩
        exact hbefore ⟨tx, rx, htx, hrx, fun r hr ↦ hall r (List.mem_append_left _ hr)⟩
      · obtain ⟨t, tx, rx, -, htx, hrx, -, hremoved⟩ :=
          SweepIn.removed_iff_activity hstart hclock ⟨l, _, _, .last hrun hst, hevent⟩ hs
        have hlive := hbefore.1 (Finmap.mem_of_lookup_eq_some hs)
        simp only [htx, hrx, Option.some.injEq, exists_and_left, exists_eq_left'] at hlive ⊢
        rw [← not_iff_not, ← Finmap.lookup_eq_none, hremoved]
        constructor
        · intro hold hall
          obtain ⟨hletx, hlerx⟩ := hall now (by simp)
          omega
        · intro hnot
          by_contra hyoung
          refine hnot fun r hr ↦ ?_
          rcases List.mem_append.1 hr with hr | hr
          · exact hlive r hr
          · rw [List.mem_singleton.1 hr]
            omega

/-- The clock is read at every sweep. -/
theorem sweepTimes_subset (hrun : relay.Run σ₀ h σ) :
    sweepTimes h ⊆ clockReadings (actionsOf h) := by
  induction hrun with
  | nil => exact List.nil_subset _
  | @snoc h σ σ' l _ hst ih =>
    intro r hr
    rw [actionsOf_append, actionsOf_singleton, clockReadings_append, List.mem_append]
    rw [sweepTimes, List.filterMap_append, List.mem_append] at hr
    refine hr.imp (fun hr ↦ ih hr) fun hr ↦ ?_
    obtain ⟨order, epollDel, hevent⟩ := Event.eq_of_sweepTime (e := l.event) (by simpa using hr)
    obtain ⟨-, -, -, hacts⟩ := Step.sweep hst hevent
    rw [hacts]
    exact List.mem_cons_self

/-- A sweep that is later than the latest activity has come since. -/
theorem mem_sweepsSince (hrun : relay.Run σ₀ h σ) (hclock : ClockMonotone h) {r : UInt64}
    (hr : r ∈ sweepTimes h) (hlater : ∀ t, lastActivity σ₀ sid anyDirection h = some t → t < r) :
    r ∈ sweepsSince σ₀ sid h := by
  induction hrun with
  | nil => cases hr
  | @snoc h σ σ' l hrun hst ih =>
    rw [sweepTimes, List.filterMap_append, List.mem_append] at hr
    rw [sweepsSince_snoc hrun]
    by_cases hact : l.activity σ.context sid anyDirection = []
    · rw [if_pos hact, List.mem_append]
      rw [lastActivity_of_nil hrun hact] at hlater
      refine hr.imp (fun hr ↦ ih hclock.left hr hlater) fun hr ↦ ?_
      simpa using hr
    · -- the last step is an activity, later than every sweep before it
      exfalso
      obtain ⟨t, ht⟩ := List.getLast?_isSome.2 hact |> Option.isSome_iff_exists.1
      have hlast : lastActivity σ₀ sid anyDirection (h ++ [l]) = some t := by
        rw [lastActivity_snoc hrun, ht, Option.some_or]
      have hlt := hlater t hlast
      have hread := (l.activity_sublist σ.context sid anyDirection).subset
        (List.mem_of_getLast? ht)
      rcases hr with hr | hr
      · rw [ClockMonotone, actionsOf_append, actionsOf_singleton, clockReadings_append] at hclock
        have hle := (List.pairwise_append.1 hclock).2.2 r (sweepTimes_subset hrun hr) t hread
        rw [UInt64.lt_iff_toNat_lt] at hlt
        rw [UInt64.le_iff_toNat_le] at hle
        omega
      · obtain ⟨order, epollDel, hevent⟩ := Event.eq_of_sweepTime (e := l.event) (by simpa using hr)
        exact hact (Label.activity_of_none (by rw [hevent]; rfl))

end Since

/-! ### The iterations of `RunWorker` -/

/-- One iteration of `while (true)`. -/
structure Iteration where
  /-- The time at which `epoll_wait` returned. -/
  returnedAt : UInt64
  epollReturn : EpollReturn
  labels : List Label

/-- The clock readings of an iteration. -/
def Iteration.readings (it : Iteration) : List UInt64 :=
  it.returnedAt :: clockReadings (actionsOf it.labels)

/-- The iteration handles what `epoll_wait` has returned, at most the 16 entries of `events`,
one after the other. -/
structure IterationStep (σ : RelayState) (it : Iteration) (σ' : RelayState) : Prop where
  events : it.epollReturn.events = .ok (it.labels.map (·.event))
  batch : it.labels.length ≤ 16
  run : relay.Run σ it.labels σ'

/-- `RunWorker`, iteration by iteration. -/
def worker : LTS RelayState Iteration where
  step := IterationStep

/-- The history of a run of iterations. -/
def historyOf (its : List Iteration) : List Label := its.flatMap (·.labels)

/-- The clock readings of the run never decrease. -/
def WorkerClockMonotone (its : List Iteration) : Prop :=
  (its.flatMap (·.readings)).Pairwise (· ≤ ·)

/-- Successive returns of `epoll_wait` are at most one second apart. -/
def ReturnsEverySecond (its : List Iteration) : Prop :=
  its.IsChain fun it it' ↦ it'.returnedAt.toNat ≤ it.returnedAt.toNat + 1

section Iterations

variable {σ₀ σ σ' : RelayState} {its past : List Iteration} {it : Iteration}

@[simp]
theorem historyOf_append {its' : List Iteration} :
    historyOf (its ++ its') = historyOf its ++ historyOf its' :=
  List.flatMap_append

/-- A run of iterations is a run of the relay. -/
theorem worker_run (hrun : worker.Run σ₀ its σ) : relay.Run σ₀ (historyOf its) σ := by
  induction hrun with
  | nil => exact .nil
  | @snoc its σ σ' it _ hst ih =>
    rw [historyOf_append, show historyOf [it] = it.labels by simp [historyOf]]
    exact ih.append hst.run

/-- The readings of an iteration contain those of its steps. -/
theorem clockMonotone_historyOf (hclock : WorkerClockMonotone its) :
    ClockMonotone (historyOf its) := by
  refine hclock.sublist ?_
  clear hclock
  induction its with
  | nil => exact List.Sublist.refl _
  | cons it its ih =>
    rw [show historyOf (it :: its) = it.labels ++ historyOf its from rfl, actionsOf_append,
      clockReadings_append, List.flatMap_cons]
    exact (List.sublist_cons_self _ _).append ih

theorem clockMonotone_of_stepIn (hin : worker.StepIn σ₀ its past σ it σ')
    (hclock : WorkerClockMonotone its) : ClockMonotone (historyOf (past ++ [it])) := by
  obtain ⟨future, rfl⟩ := hin.exists_append
  rw [WorkerClockMonotone, List.flatMap_append] at hclock
  exact clockMonotone_historyOf (List.pairwise_append.1 hclock).1

end Iterations

/-! ### The promise -/

/-- After every iteration, every session in the table has been active at most 602 seconds
before any clock reading of the iteration. -/
def ReclaimsIdle (σ₀ : RelayState) (its : List Iteration) : Prop :=
  ∀ {past σ it σ'}, worker.StepIn σ₀ its past σ it σ' → ∀ now ∈ it.readings,
    ∀ sid ∈ σ'.context.sessions, ∃ t,
      lastActivity σ₀ sid anyDirection (historyOf (past ++ [it])) = some t ∧
        now.toNat ≤ t.toNat + 602

/-- Whenever a client has been idle for more than 602 seconds, an `epoll_wait` has returned
nothing since its latest activity, more than 600 seconds after one of the two directions was
last active. -/
def SweptInTime (σ₀ : RelayState) (its : List Iteration) : Prop :=
  ∀ {past σ it σ'}, worker.StepIn σ₀ its past σ it σ' → ∀ now ∈ it.readings, ∀ sid tx rx,
    lastActivity σ₀ sid toServer (historyOf (past ++ [it])) = some tx →
    lastActivity σ₀ sid toClient (historyOf (past ++ [it])) = some rx →
    max tx.toNat rx.toNat + 602 < now.toNat →
      ∃ r ∈ sweepsSince σ₀ sid (historyOf (past ++ [it])), min tx.toNat rx.toNat + 600 < r.toNat

section Promise

variable {inherited : Finset SocketHandle} {σ₀ : RelayState} {its : List Iteration}

theorem sweptInTime_of_reclaimsIdle (hstart : Started inherited σ₀)
    (hclock : WorkerClockMonotone its) (hlaw : ReclaimsIdle σ₀ its) : SweptInTime σ₀ its := by
  intro past σ it σ' hin now hnow sid tx rx htx hrx hidle
  have hrun := worker_run hin.run
  have hclock' := clockMonotone_of_stepIn hin hclock
  have hgone : sid ∉ σ'.context.sessions := by
    intro hmem
    obtain ⟨s, hs⟩ := Finmap.mem_iff.1 hmem
    obtain ⟨htx', hrx'⟩ := timestamps_eq_lastActivity hstart hrun sid s hs
    obtain ⟨t, ht, hmax⟩ := lastActivity_any_eq_max hstart hrun hclock' hs
    obtain ⟨t', ht', hle⟩ := hlaw hin now hnow sid hmem
    obtain rfl : t = t' := Option.some.inj (ht.symm.trans ht')
    rw [← Option.some.inj (htx.symm.trans htx'), ← Option.some.inj (hrx.symm.trans hrx')] at hmax
    omega
  rw [live_iff hstart hrun hclock'] at hgone
  by_contra hnone
  refine hgone ⟨tx, rx, htx, hrx, fun r hr ↦ ?_⟩
  have hle : ¬ min tx.toNat rx.toNat + 600 < r.toNat := fun hlt ↦ hnone ⟨r, hr, hlt⟩
  omega

theorem reclaimsIdle_of_sweptInTime (hstart : Started inherited σ₀)
    (hclock : WorkerClockMonotone its) (hswept : SweptInTime σ₀ its) : ReclaimsIdle σ₀ its := by
  intro past σ it σ' hin now hnow sid hmem
  have hrun := worker_run hin.run
  have hclock' := clockMonotone_of_stepIn hin hclock
  obtain ⟨s, hs⟩ := Finmap.mem_iff.1 hmem
  obtain ⟨tx, rx, htx, hrx, hyoung⟩ := (live_iff hstart hrun hclock' sid).1 hmem
  obtain ⟨htx', hrx'⟩ := timestamps_eq_lastActivity hstart hrun sid s hs
  obtain ⟨t, ht, hmax⟩ := lastActivity_any_eq_max hstart hrun hclock' hs
  rw [← Option.some.inj (htx.symm.trans htx'), ← Option.some.inj (hrx.symm.trans hrx')] at hmax
  refine ⟨t, ht, ?_⟩
  by_contra hidle
  obtain ⟨r, hr, hlt⟩ := hswept hin now hnow sid tx rx htx hrx (by omega)
  have hle := hyoung r hr
  omega

/-- **Idle sessions are reclaimed exactly when a sweep comes in time**, in every run of
`RunWorker` under a clock that never goes back. -/
theorem reclaimsIdle_iff (hstart : Started inherited σ₀) (hclock : WorkerClockMonotone its) :
    ReclaimsIdle σ₀ its ↔ SweptInTime σ₀ its :=
  ⟨sweptInTime_of_reclaimsIdle hstart hclock, reclaimsIdle_of_sweptInTime hstart hclock⟩

/-- **A relay that sweeps at least every two seconds** reclaims its idle sessions. -/
theorem reclaimsIdle_of_frequent_sweeps (hstart : Started inherited σ₀)
    (hclock : WorkerClockMonotone its)
    (hfrequent : ∀ {past σ it σ'}, worker.StepIn σ₀ its past σ it σ' → ∀ now ∈ it.readings,
      (∃ r₀ ∈ clockReadings (actionsOf (historyOf (past ++ [it]))), r₀.toNat + 2 < now.toNat) →
        ∃ r ∈ sweepTimes (historyOf (past ++ [it])), now.toNat ≤ r.toNat + 2) :
    ReclaimsIdle σ₀ its := by
  refine reclaimsIdle_of_sweptInTime hstart hclock fun hin now hnow sid tx rx htx hrx hidle ↦ ?_
  have hrun := worker_run hin.run
  have hclock' := clockMonotone_of_stepIn hin hclock
  have hread := (activityTimes_sublist σ₀ sid toServer _).subset (List.mem_of_getLast? htx)
  obtain ⟨r, hr, hle⟩ := hfrequent hin now hnow ⟨tx, hread, by omega⟩
  refine ⟨r, mem_sweepsSince hrun hclock' hr fun t ht ↦ ?_, by omega⟩
  obtain ⟨t', ht', hmax⟩ := lastActivity_eq_max hclock' htx hrx
  obtain rfl : t = t' := Option.some.inj (ht.symm.trans ht')
  rw [UInt64.lt_iff_toNat_lt]
  omega

/-! ### A relay that is never idle -/

/-- A datagram that is too short for a WireGuard packet. -/
def shortDatagram : Datagram where
  payload := []
  source := sampleDatagram.source
  fits := by decide

/-- The iteration, at the time `now`, in which only that datagram has arrived. -/
def busyIteration (now : UInt64) : Iteration where
  returnedAt := now
  epollReturn := .ready (3, .ok shortDatagram, sampleAnswers now) []
  labels := [⟨.received 3 (.ok shortDatagram) (sampleAnswers now),
    [.call (.recvfrom 3 (.ok shortDatagram))]⟩]

/-- The iteration in which the client of `sampleLive` sends its first packet. -/
def firstIteration : Iteration where
  returnedAt := 1000
  epollReturn := .ready (3, .ok sampleDatagram, sampleAnswers 1000) []
  labels := [⟨sampleArrival 1000, sampleActions 1000⟩]

/-- The time of the `i`-th return of `epoll_wait`, eleven in every second. -/
def returnTime (i : ℕ) : UInt64 := .ofNat (1000 + i / 11)

/-- After its first packet the client falls silent, but `n` other datagrams keep coming. -/
def neverIdle (n : ℕ) : List Iteration :=
  firstIteration :: (List.range n).map fun i ↦ busyIteration (returnTime (i + 1))

theorem firstIteration_step : worker.step sampleStart firstIteration (sampleLive 1000) :=
  ⟨rfl, by decide, .single (sampleArrival_step 1000)⟩

/-- Short datagrams change nothing. -/
theorem busyIteration_step (now : UInt64) :
    worker.step (sampleLive 1000) (busyIteration now) (sampleLive 1000) :=
  ⟨rfl, Nat.le_of_ble_eq_true rfl,
    .single (exec_step (e := .received 3 (.ok shortDatagram) _) rfl)⟩

theorem neverIdle_succ (n : ℕ) :
    neverIdle (n + 1) = neverIdle n ++ [busyIteration (returnTime (n + 1))] := by
  rw [neverIdle, List.range_succ, List.map_append]
  rfl

/-- However many short datagrams arrive, the session of the client stays. -/
theorem neverIdle_run (n : ℕ) : worker.Run sampleStart (neverIdle n) (sampleLive 1000) := by
  induction n with
  | zero => exact .single firstIteration_step
  | succ n ih =>
    rw [neverIdle_succ]
    exact ih.snoc (busyIteration_step _)

/-- The short datagrams are no activity. -/
theorem neverIdle_lastActivity (n : ℕ) :
    lastActivity sampleStart sampleSid anyDirection (historyOf (neverIdle n)) = some 1000 := by
  induction n with
  | zero => rfl
  | succ n ih =>
    rw [neverIdle_succ, historyOf_append]
    exact (lastActivity_of_nil (worker_run (neverIdle_run n)) rfl).trans ih

theorem toNat_returnTime {i : ℕ} (hi : i ≤ 6633) : (returnTime i).toNat = 1000 + i / 11 :=
  UInt64.toNat_ofNat_of_lt (show _ < 2 ^ 64 by omega)

/-- All clock readings of the run. -/
theorem neverIdle_readings (n : ℕ) : (neverIdle n).flatMap (·.readings) =
    1000 :: 1000 :: (List.range (n + 1)).map returnTime := by
  induction n with
  | zero => rfl
  | succ n ih =>
    rw [neverIdle_succ, List.flatMap_append, ih, List.range_succ (n := n + 1), List.map_append]
    rfl

theorem neverIdle_returnedAt (n : ℕ) :
    (neverIdle n).map (·.returnedAt) = (List.range (n + 1)).map returnTime := by
  induction n with
  | zero => rfl
  | succ n ih =>
    rw [neverIdle_succ, List.map_append, ih, List.range_succ (n := n + 1), List.map_append]
    rfl

theorem neverIdle_clock {n : ℕ} (hn : n ≤ 6633) : WorkerClockMonotone (neverIdle n) := by
  have hle : ∀ {i j}, j ≤ n → i ≤ j → returnTime i ≤ returnTime j := by
    intro i j hj hij
    rw [UInt64.le_iff_toNat_le, toNat_returnTime (by omega), toNat_returnTime (by omega)]
    omega
  have hsorted : ((List.range (n + 1)).map returnTime).Pairwise (· ≤ ·) := by
    rw [List.pairwise_map]
    refine List.pairwise_lt_range.imp_of_mem fun {i j} _ hj hij ↦ ?_
    exact hle (Nat.lt_succ_iff.1 (List.mem_range.1 hj)) hij.le
  have hfirst : ∀ t ∈ (List.range (n + 1)).map returnTime, 1000 ≤ t := by
    intro t ht
    obtain ⟨i, hi, rfl⟩ := List.mem_map.1 ht
    exact hle (Nat.lt_succ_iff.1 (List.mem_range.1 hi)) (Nat.zero_le i)
  rw [WorkerClockMonotone, neverIdle_readings, List.pairwise_cons, List.pairwise_cons]
  refine ⟨fun t ht ↦ ?_, hfirst, hsorted⟩
  rcases List.mem_cons.1 ht with rfl | ht
  · exact UInt64.le_refl _
  · exact hfirst t ht

theorem neverIdle_returns {n : ℕ} (hn : n ≤ 6633) : ReturnsEverySecond (neverIdle n) := by
  have hchain : ((neverIdle n).map (·.returnedAt)).IsChain
      fun t t' ↦ t'.toNat ≤ t.toNat + 1 := by
    rw [neverIdle_returnedAt, List.isChain_map, List.isChain_range]
    intro i hi
    rw [toNat_returnTime (by omega), toNat_returnTime (by omega)]
    omega
  exact (List.isChain_map _).1 hchain

/-- **A session that has been idle for 603 seconds is still there** when some datagram, if
only an invalid one, has arrived every tenth of a second. -/
theorem neverIdle_not_reclaimsIdle : Started {0, 1, 2} sampleStart ∧
    worker.Run sampleStart (neverIdle 6633) (sampleLive 1000) ∧
      WorkerClockMonotone (neverIdle 6633) ∧ ReturnsEverySecond (neverIdle 6633) ∧
        ¬ ReclaimsIdle sampleStart (neverIdle 6633) := by
  refine ⟨sampleStart_started, neverIdle_run _, neverIdle_clock le_rfl, neverIdle_returns le_rfl,
    fun hlaw ↦ ?_⟩
  have hin : worker.StepIn sampleStart (neverIdle 6633) (neverIdle 6632) (sampleLive 1000)
      (busyIteration (returnTime 6633)) (sampleLive 1000) :=
    ⟨[], neverIdle_succ 6632, neverIdle_run 6632, busyIteration_step _⟩
  obtain ⟨t, ht, hle⟩ := hlaw hin (returnTime 6633) List.mem_cons_self sampleSid (by decide)
  rw [← neverIdle_succ, neverIdle_lastActivity] at ht
  rw [← Option.some.inj ht, toNat_returnTime le_rfl] at hle
  exact absurd hle (by decide)

/-- In this run neither side holds: no `epoll_wait` ever returns nothing. -/
theorem neverIdle_reclaimsIdle_iff :
    ReclaimsIdle sampleStart (neverIdle 6633) ↔ SweptInTime sampleStart (neverIdle 6633) :=
  reclaimsIdle_iff sampleStart_started (neverIdle_clock le_rfl)

end Promise

end WgRelay
