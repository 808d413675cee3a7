import Udpfwd.Relay.Activity

/-!
# When a session expires

The documentation promises that a session is deleted when it has been inactive for more than
ten minutes. The sweep tests the two directions separately and deletes the session when
*either* of them is older than that, in unsigned arithmetic.

* `expiresByInactivity_iff`: under a clock that never goes back, the relay keeps its promise
  exactly in those runs in which every sweep finds the two directions of every session on the
  same side of the limit; a session with traffic in one direction only is deleted in use.
* `agesExact_iff`: under an arbitrary clock, the ages that the sweep computes are exact in
  exactly those runs in which no sweep reads a time before an activity of a live session.
-/

open Net

namespace WgRelay

/-! ### The sweeps of a run -/

/-- After the history `past`, the run `h` from `σ₀` sweeps at the time `now`, which takes `σ`
to `σ'`. -/
def SweepIn (σ₀ : RelayState) (h past : List Label) (σ : RelayState) (now : UInt64)
    (σ' : RelayState) : Prop :=
  ∃ l order epollDel, relay.StepIn σ₀ h past σ l σ' ∧ l.event = .idleSweep now order epollDel

section Sweeps

variable {σ₀ σ σ' : RelayState} {h h' past : List Label} {l : Label} {now sid : UInt64}
variable {s : WgcfRelaySession}

theorem SweepIn.past_run (hsweep : SweepIn σ₀ h past σ now σ') : relay.Run σ₀ past σ := by
  obtain ⟨l, order, epollDel, hin, -⟩ := hsweep
  exact hin.past_run

theorem SweepIn.append (hsweep : SweepIn σ₀ h past σ now σ') :
    SweepIn σ₀ (h ++ h') past σ now σ' := by
  obtain ⟨l, order, epollDel, hin, hl⟩ := hsweep
  exact ⟨l, order, epollDel, hin.append, hl⟩

/-- The clock of a run is read at its sweeps. -/
theorem SweepIn.clock (hsweep : SweepIn σ₀ h past σ now σ') (hclock : ClockMonotone h) :
    ∃ l, ClockMonotone (past ++ [l]) ∧ now ∈ clockReadings l.actions := by
  obtain ⟨l, order, epollDel, hin, hl⟩ := hsweep
  obtain ⟨-, -, -, hacts⟩ := Step.sweep hin.step hl
  refine ⟨l, ?_, ?_⟩
  · obtain ⟨future, rfl⟩ := hin.exists_append
    exact hclock.left
  · rw [hacts]
    exact List.mem_cons_self

/-- A sweep removes exactly the sessions that fail its test. -/
theorem SweepIn.removed_iff (hsweep : SweepIn σ₀ h past σ now σ')
    (hs : σ.context.sessions.lookup sid = some s) :
    σ'.context.sessions.lookup sid = none ↔ s.expired now = true := by
  obtain ⟨l, order, epollDel, hin, hl⟩ := hsweep
  obtain ⟨-, horder, hswept, -⟩ := Step.sweep hin.step hl
  have hmem : sid ∈ order := (horder sid).2 (Finmap.mem_of_lookup_eq_some hs)
  rw [hswept.sessions, if_pos hmem, hs, Option.bind_some]
  by_cases hexp : s.expired now = true <;> simp [WgcfRelaySession.swept, hexp]

end Sweeps

/-! ### Ages -/

section Ages

variable {s : WgcfRelaySession} {now t : UInt64}

/-- The unsigned subtraction is exact, truncated at zero, unless it wraps. -/
theorem toNat_sub_eq_iff : (now - t).toNat = now.toNat - t.toNat ↔ t ≤ now := by
  have hnow := now.toNat_lt
  have ht := t.toNat_lt
  rw [UInt64.toNat_sub, UInt64.le_iff_toNat_le]
  omega

/-- The test of the sweep, when neither subtraction wraps. -/
theorem expired_iff (htx : s.lastTxTimestampSeconds ≤ now) (hrx : s.lastRxTimestampSeconds ≤ now) :
    s.expired now = true ↔ 600 < now.toNat - s.lastRxTimestampSeconds.toNat ∨
      600 < now.toNat - s.lastTxTimestampSeconds.toNat := by
  rw [← toNat_sub_eq_iff.2 htx, ← toNat_sub_eq_iff.2 hrx]
  simp [WgcfRelaySession.expired, UInt64.lt_iff_toNat_lt]

end Ages

/-! ### Expiry by inactivity -/

/-- What the documentation promises of a run. -/
structure ExpiresByInactivity (σ₀ : RelayState) (h : List Label) : Prop where
  /-- A sweep removes a session if and only if its latest activity is more than 600 seconds
  ago. -/
  removed_iff : ∀ {past σ now σ'}, SweepIn σ₀ h past σ now σ' →
    ∀ sid s, σ.context.sessions.lookup sid = some s →
      ∃ t, lastActivity σ₀ sid anyDirection past = some t ∧
        (σ'.context.sessions.lookup sid = none ↔ 600 < now.toNat - t.toNat)
  /-- A session that is active at least once in 600 seconds keeps its socket and its port. -/
  kept : ∀ {past during rest σ σ'}, h = past ++ during ++ rest → relay.Run σ₀ past σ →
    relay.Run σ during σ' → ∀ sid s, σ.context.sessions.lookup sid = some s →
      (∀ mid τ now τ', SweepIn σ₀ (past ++ during) (past ++ mid) τ now τ' →
        ∃ t, lastActivity σ₀ sid anyDirection (past ++ mid) = some t ∧
          now.toNat - t.toNat ≤ 600) →
      ∃ s', σ'.context.sessions.lookup sid = some s' ∧ s.SameSession s'

/-- At every sweep of a run, the latest activities of a live session in the two directions
are on the same side of the limit. -/
def DirectionsAgree (σ₀ : RelayState) (h : List Label) : Prop :=
  ∀ {past σ now σ'}, SweepIn σ₀ h past σ now σ' → ∀ sid tx rx, sid ∈ σ.context.sessions →
    lastActivity σ₀ sid toServer past = some tx → lastActivity σ₀ sid toClient past = some rx →
      (600 < now.toNat - tx.toNat ↔ 600 < now.toNat - rx.toNat)

section Inactivity

variable {inherited : Finset SocketHandle} {σ₀ σ σ' : RelayState} {h past : List Label}
variable {now sid : UInt64} {s : WgcfRelaySession}

/-- **What a sweep does under a clock that never goes back**, in terms of the history: it
removes a session when either direction has been inactive for more than 600 seconds. -/
theorem SweepIn.removed_iff_activity (hstart : Started inherited σ₀) (hclock : ClockMonotone h)
    (hsweep : SweepIn σ₀ h past σ now σ') (hs : σ.context.sessions.lookup sid = some s) :
    ∃ t tx rx, lastActivity σ₀ sid anyDirection past = some t ∧
      lastActivity σ₀ sid toServer past = some tx ∧ lastActivity σ₀ sid toClient past = some rx ∧
      t.toNat = max tx.toNat rx.toNat ∧
      (σ'.context.sessions.lookup sid = none ↔
        600 < now.toNat - rx.toNat ∨ 600 < now.toNat - tx.toNat) := by
  have hrun := hsweep.past_run
  obtain ⟨l, hclock', hnow⟩ := hsweep.clock hclock
  obtain ⟨htx, hrx⟩ := timestamps_eq_lastActivity hstart hrun sid s hs
  obtain ⟨t, ht, hmax⟩ := lastActivity_any_eq_max hstart hrun hclock'.left hs
  refine ⟨t, _, _, ht, htx, hrx, hmax, ?_⟩
  rw [hsweep.removed_iff hs]
  exact expired_iff (lastActivity_le hclock' htx hnow) (lastActivity_le hclock' hrx hnow)

/-- When a sweep removes a session only because it is inactive, an active session stays. -/
theorem kept_of_removed_iff {during : List Label}
    (hlaw : ∀ {mid τ now τ'}, SweepIn σ₀ (past ++ during) mid τ now τ' →
      ∀ s, τ.context.sessions.lookup sid = some s →
        ∃ t, lastActivity σ₀ sid anyDirection mid = some t ∧
          (τ'.context.sessions.lookup sid = none ↔ 600 < now.toNat - t.toNat))
    (hpast : relay.Run σ₀ past σ) (hduring : relay.Run σ during σ')
    (hs : σ.context.sessions.lookup sid = some s)
    (hactive : ∀ mid τ now τ', SweepIn σ₀ (past ++ during) (past ++ mid) τ now τ' →
      ∃ t, lastActivity σ₀ sid anyDirection (past ++ mid) = some t ∧ now.toNat - t.toNat ≤ 600) :
    ∃ s', σ'.context.sessions.lookup sid = some s' ∧ s.SameSession s' := by
  induction hduring with
  | nil => exact ⟨s, hs, .refl s⟩
  | @snoc during τ τ' l hduring hst ih =>
    have hextend : ∀ {mid υ now υ'}, SweepIn σ₀ (past ++ during) mid υ now υ' →
        SweepIn σ₀ (past ++ (during ++ [l])) mid υ now υ' := by
      intro mid υ now υ' hsweep
      rw [← List.append_assoc]
      exact hsweep.append
    obtain ⟨s', hs', hsame⟩ := ih (fun hsweep ↦ hlaw (hextend hsweep))
      fun mid υ now υ' hsweep ↦ hactive mid υ now υ' (hextend hsweep)
    have hstep := Step.session hst sid
    rw [hs'] at hstep
    rcases hs'' : τ'.context.sessions.lookup sid with - | s''
    · -- only a sweep removes a session, and this one finds it active
      rw [hs''] at hstep
      obtain ⟨now, order, epollDel, hl, -⟩ := hstep.sweep_of_none
      have hsweep : SweepIn σ₀ (past ++ (during ++ [l])) (past ++ during) τ now τ' := by
        rw [← List.append_assoc]
        exact ⟨l, order, epollDel, .last (hpast.append hduring) hst, hl⟩
      obtain ⟨t, ht, hremoved⟩ := hlaw hsweep s' hs'
      obtain ⟨t', ht', hle⟩ := hactive during τ now τ' hsweep
      obtain rfl : t = t' := Option.some.inj (ht.symm.trans ht')
      exact absurd (hremoved.1 hs'') (by omega)
    · rw [hs''] at hstep
      exact ⟨s'', rfl, hsame.trans hstep.same⟩

/-- **The relay expires sessions by inactivity exactly when the two directions agree**, in
every run under a clock that never goes back. -/
theorem expiresByInactivity_iff (hstart : Started inherited σ₀) (hclock : ClockMonotone h) :
    ExpiresByInactivity σ₀ h ↔ DirectionsAgree σ₀ h := by
  constructor
  · intro hlaw past τ now τ' hsweep sid tx rx hmem htx hrx
    obtain ⟨s, hs⟩ := Finmap.mem_iff.1 hmem
    obtain ⟨t, ht, hremoved⟩ := hlaw.removed_iff hsweep sid s hs
    obtain ⟨t', tx', rx', ht', htx', hrx', hmax, hremoved'⟩ :=
      hsweep.removed_iff_activity hstart hclock hs
    obtain rfl : t = t' := Option.some.inj (ht.symm.trans ht')
    obtain rfl : tx = tx' := Option.some.inj (htx.symm.trans htx')
    obtain rfl : rx = rx' := Option.some.inj (hrx.symm.trans hrx')
    have hboth : 600 < now.toNat - t.toNat ↔
        600 < now.toNat - rx.toNat ∨ 600 < now.toNat - tx.toNat :=
      hremoved.symm.trans hremoved'
    omega
  · intro hagree
    have hlaw : ∀ {past τ now τ'}, SweepIn σ₀ h past τ now τ' →
        ∀ sid s, τ.context.sessions.lookup sid = some s →
          ∃ t, lastActivity σ₀ sid anyDirection past = some t ∧
            (τ'.context.sessions.lookup sid = none ↔ 600 < now.toNat - t.toNat) := by
      intro past τ now τ' hsweep sid s hs
      obtain ⟨t, tx, rx, ht, htx, hrx, hmax, hremoved⟩ :=
        hsweep.removed_iff_activity hstart hclock hs
      have hsides := hagree hsweep sid tx rx (Finmap.mem_of_lookup_eq_some hs) htx hrx
      refine ⟨t, ht, hremoved.trans ?_⟩
      omega
    refine ⟨hlaw, ?_⟩
    rintro past during rest τ τ' rfl hpast hduring sid s hs hactive
    exact kept_of_removed_iff (fun hsweep s hs ↦ hlaw hsweep.append sid s hs) hpast hduring hs
      hactive

/-- The second packet of a client whose server is silent. -/
def silentServerPacket : Label where
  event := sampleArrival 1600
  actions := [.call (.recvfrom 3 (.ok sampleDatagram)),
    .call (.sendto 5 sampleDatagram.payload sampleServerAddress (.ok 32)),
    .call (.clockGettime 1600), .log (.forwarded sampleSid .toServer 1600)]

/-- The sweep one second later. -/
def silentServerSweep : Label where
  event := .idleSweep 1601 [sampleSid] fun _ ↦ .ok ()
  actions := [.call (.clockGettime 1601), .log (.expired sampleSid),
    .call (.epollDel 4 5 (.ok ())), .call (.close 5)]

/-- A run in which the server never answers: the client sends a packet at 1000 and one at
1600, and the relay sweeps at 1601. -/
def silentServer : List Label :=
  [⟨sampleArrival 1000, sampleActions 1000⟩, silentServerPacket, silentServerSweep]

/-- The relay before the sweep. -/
def silentServerLive : RelayState where
  context := { (sampleLive 1000).context with
    sessions := Finmap.singleton sampleSid
      { sampleSession 1000 with
        lastTxTimestampSeconds := 1600
        totalTxPacketsSinceLastReport := 2 } }
  kernel := (sampleLive 1000).kernel

/-- The relay after the sweep. -/
def silentServerSwept : RelayState where
  context := { sampleStart.context with sessions := ∅, fileDescriptorToSessionIdMap := ∅ }
  kernel := ⟨{4, 3, 0, 1, 2}, {3}⟩

theorem silentServer_steps : relay.step (sampleLive 1000) silentServerPacket silentServerLive ∧
    relay.step silentServerLive silentServerSweep silentServerSwept :=
  ⟨exec_step (e := silentServerPacket.event) rfl, exec_step (e := silentServerSweep.event) rfl⟩

theorem silentServer_clock : ClockMonotone silentServer := by
  decide

theorem silentServer_sweep : SweepIn sampleStart silentServer (silentServer.take 2)
    silentServerLive 1601 silentServerSwept :=
  ⟨silentServerSweep, _, _, ⟨[], rfl,
    .cons (sampleArrival_step 1000) (.single silentServer_steps.1), silentServer_steps.2⟩, rfl⟩

/-- A client that sends a packet every 600 seconds loses its session when the server is
silent. -/
theorem silentServer_not_expiresByInactivity :
    Started {0, 1, 2} sampleStart ∧ relay.Run sampleStart silentServer silentServerSwept ∧
      ClockMonotone silentServer ∧ ¬ ExpiresByInactivity sampleStart silentServer := by
  refine ⟨sampleStart_started, ?_, silentServer_clock, fun hlaw ↦ ?_⟩
  · exact .cons (sampleArrival_step 1000)
      (.cons silentServer_steps.1 (.single silentServer_steps.2))
  · obtain ⟨t, ht, hremoved⟩ := hlaw.removed_iff silentServer_sweep sampleSid _ rfl
    obtain rfl : 1600 = t := Option.some.inj ht
    exact absurd (hremoved.1 rfl) (by decide)

/-- The same run, and its one sweep: there the two directions do not agree. -/
theorem silentServer_expiresByInactivity_iff :
    ExpiresByInactivity sampleStart silentServer ↔ DirectionsAgree sampleStart silentServer :=
  expiresByInactivity_iff sampleStart_started silentServer_clock

end Inactivity

/-! ### The arithmetic of ages -/

/-- The ages that the sweeps of a run compute are exact. -/
structure AgesExact (σ₀ : RelayState) (h : List Label) : Prop where
  /-- A session that is recently active in both directions is kept. -/
  recent_kept : ∀ {past σ now σ'}, SweepIn σ₀ h past σ now σ' →
    ∀ sid s, σ.context.sessions.lookup sid = some s →
      now.toNat ≤ s.lastTxTimestampSeconds.toNat + 600 →
      now.toNat ≤ s.lastRxTimestampSeconds.toNat + 600 →
        sid ∈ σ'.context.sessions
  /-- The two subtractions are the exact differences, truncated at zero. -/
  age_eq : ∀ {past σ now σ'}, SweepIn σ₀ h past σ now σ' →
    ∀ sid s, σ.context.sessions.lookup sid = some s →
      (now - s.lastRxTimestampSeconds).toNat =
          now.toNat - s.lastRxTimestampSeconds.toNat ∧
        (now - s.lastTxTimestampSeconds).toNat =
          now.toNat - s.lastTxTimestampSeconds.toNat

/-- No sweep of a run reads a time before an activity of a live session. -/
def SweepsAfterActivity (σ₀ : RelayState) (h : List Label) : Prop :=
  ∀ {past σ now σ'}, SweepIn σ₀ h past σ now σ' → ∀ sid ∈ σ.context.sessions,
    ∀ t, lastActivity σ₀ sid toServer past = some t ∨ lastActivity σ₀ sid toClient past = some t →
      t ≤ now

/-- **The ages are exact exactly when no sweep reads a time before an activity**, in every
run, whatever the clock does. -/
theorem agesExact_iff {inherited : Finset SocketHandle} {σ₀ : RelayState} {h : List Label}
    (hstart : Started inherited σ₀) : AgesExact σ₀ h ↔ SweepsAfterActivity σ₀ h := by
  have hexact : ∀ {past τ now τ'}, SweepIn σ₀ h past τ now τ' → TimestampsExact σ₀ past τ := by
    intro past τ now τ' hsweep
    exact timestamps_eq_lastActivity hstart hsweep.past_run
  constructor
  · intro hages past τ now τ' hsweep sid hmem t ht
    obtain ⟨s, hs⟩ := Finmap.mem_iff.1 hmem
    obtain ⟨htx, hrx⟩ := hexact hsweep sid s hs
    obtain ⟨hage_rx, hage_tx⟩ := hages.age_eq hsweep sid s hs
    rcases ht with ht | ht
    · rw [ht, Option.some.injEq] at htx
      rw [htx]
      exact toNat_sub_eq_iff.1 hage_tx
    · rw [ht, Option.some.injEq] at hrx
      rw [hrx]
      exact toNat_sub_eq_iff.1 hage_rx
  · intro hafter
    have hle : ∀ {past τ now τ'}, SweepIn σ₀ h past τ now τ' → ∀ {sid s},
        τ.context.sessions.lookup sid = some s →
          s.lastTxTimestampSeconds ≤ now ∧ s.lastRxTimestampSeconds ≤ now := by
      intro past τ now τ' hsweep sid s hs
      obtain ⟨htx, hrx⟩ := hexact hsweep sid s hs
      have hmem := Finmap.mem_of_lookup_eq_some hs
      exact ⟨hafter hsweep sid hmem _ (.inl htx), hafter hsweep sid hmem _ (.inr hrx)⟩
    refine ⟨?_, ?_⟩
    · intro past τ now τ' hsweep sid s hs htx hrx
      obtain ⟨hletx, hlerx⟩ := hle hsweep hs
      by_contra hgone
      have hexp := (hsweep.removed_iff hs).1 (Finmap.lookup_eq_none.2 hgone)
      rw [expired_iff hletx hlerx] at hexp
      omega
    · intro past τ now τ' hsweep sid s hs
      obtain ⟨hletx, hlerx⟩ := hle hsweep hs
      exact ⟨toNat_sub_eq_iff.2 hlerx, toNat_sub_eq_iff.2 hletx⟩

/-- A sweep one second before the session was created, after the clock was set back. -/
def clockSetBack : Label where
  event := .idleSweep 999 [sampleSid] fun _ ↦ .ok ()
  actions := [.call (.clockGettime 999), .log (.expired sampleSid),
    .call (.epollDel 4 5 (.ok ())), .call (.close 5)]

theorem clockSetBack_sweep : SweepIn sampleStart
    [⟨sampleArrival 1000, sampleActions 1000⟩, clockSetBack]
    [⟨sampleArrival 1000, sampleActions 1000⟩] (sampleLive 1000) 999 silentServerSwept :=
  ⟨clockSetBack, _, _, ⟨[], rfl, .single (sampleArrival_step 1000),
    exec_step (e := clockSetBack.event) rfl⟩, rfl⟩

/-- When the clock is set back by one second, a session just created is removed. -/
theorem clockSetBack_not_agesExact : Started {0, 1, 2} sampleStart ∧
    ¬ AgesExact sampleStart [⟨sampleArrival 1000, sampleActions 1000⟩, clockSetBack] := by
  refine ⟨sampleStart_started, fun hages ↦ ?_⟩
  have hkept := hages.recent_kept clockSetBack_sweep sampleSid (sampleSession 1000) rfl
    (by decide) (by decide)
  exact absurd hkept (by decide)

theorem clockSetBack_agesExact_iff :
    AgesExact sampleStart [⟨sampleArrival 1000, sampleActions 1000⟩, clockSetBack] ↔
      SweepsAfterActivity sampleStart [⟨sampleArrival 1000, sampleActions 1000⟩, clockSetBack] :=
  agesExact_iff sampleStart_started

end WgRelay
