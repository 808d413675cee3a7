import Udpfwd.Common.Main
import Udpfwd.Forwarder.Loop
import Udpfwd.Relay.Descriptors

/-!
# The process

The whole program, from the command line to its exit, as one transition system: `main` up to the
call of `RunWorker`, the iterations of the worker, and the return from it. What is known of the
parts is put together here.

* `process_legal` — no call about a socket or a registration names a descriptor that is not open;
* `process_exit_code` — it exits with 1 before a worker has run, with a message, and with 0 after a
  worker has met its first failure, and not in another way;
* `process_forwards_configuration` and `process_relays_command_line` — a process that has reached a
  worker is the forwarder of its configuration file, or the relay of its command line.
-/

open Net Text

namespace Main

/-- A state of the process. -/
inductive ProcessState
  /-- `main` has not been called. -/
  | started
  | forwarding (σ : UdpForward.ForwarderState)
  | relaying (s : WgRelay.LoopState)
  | exited (code : ℤ)

/-- What one step of the process is. -/
inductive ProcessLabel
  /-- `main`, up to the call of `RunWorker`. -/
  | startup (main : Startup)
  /-- An iteration of `udpfwd::RunWorker`. -/
  | forward (r : UdpForward.Round)
  /-- An iteration of `wgrelay::RunWorker`. -/
  | relay (r : WgRelay.Round)
  /-- `RunWorker` has returned. -/
  | exit

/-- The calls of a step about sockets, registrations with epoll and the clock. `epoll_wait` and the
calls that read the configuration file are not recorded. -/
def ProcessLabel.calls : ProcessLabel → List Syscall
  | .startup main => main.calls
  | .forward r => r.calls
  | .relay r => WgRelay.calls r.actions
  | .exit => []

/-- The first failure that is reported to a worker. -/
def ProcessLabel.failure? : ProcessLabel → Option Errno
  | .forward r => r.epollReturn.failure?
  | .relay r => r.epollReturn.failure?
  | .startup _ | .exit => none

/-- The kernel after the calls of `main`. -/
def Startup.kernel (inherited : Finset SocketHandle) (startup : Startup) : Kernel :=
  (Kernel.mk inherited ∅).replay startup.calls

/-- What follows on `main`. -/
def Startup.state (inherited : Finset SocketHandle) (startup : Startup) : ProcessState :=
  match startup with
  | .returned code _ _ => .exited code
  | .forwarding context _ => .forwarding ⟨context, startup.kernel inherited, .next⟩
  | .relaying context _ => .relaying ⟨context, startup.kernel inherited, none⟩

/-- One step of the process that is called with `argv0` and `args` and that has the descriptors
`inherited` open. Both `RunUdpForwarder` and `RunWgcfRelay` return 0 after `RunWorker`. -/
inductive ProcessStep (env : Environment) (argv0 : Bytes) (args : List Bytes)
    (inherited : Finset SocketHandle) : ProcessState → ProcessLabel → ProcessState → Prop
  | startup {startup : Startup} (hmain : (main env argv0 args).2 = some startup)
      (hgrants : (Kernel.mk inherited ∅).GrantsAll startup.calls) :
      ProcessStep env argv0 args inherited .started (.startup startup) (startup.state inherited)
  | forward {σ σ' : UdpForward.ForwarderState} {r : UdpForward.Round}
      (hst : UdpForward.runWorker.step σ r σ') :
      ProcessStep env argv0 args inherited (.forwarding σ) (.forward r) (.forwarding σ')
  | forwardReturned {σ : UdpForward.ForwarderState} {e : Errno}
      (hreturned : σ.outcome = .returned e) :
      ProcessStep env argv0 args inherited (.forwarding σ) .exit (.exited 0)
  | relay {s s' : WgRelay.LoopState} {r : WgRelay.Round} (hst : WgRelay.runWorker.step s r s') :
      ProcessStep env argv0 args inherited (.relaying s) (.relay r) (.relaying s')
  | relayReturned {s : WgRelay.LoopState} {e : Errno} (hreturned : s.returned = some e) :
      ProcessStep env argv0 args inherited (.relaying s) .exit (.exited 0)

/-- The process. -/
def process (env : Environment) (argv0 : Bytes) (args : List Bytes)
    (inherited : Finset SocketHandle) : LTS ProcessState ProcessLabel where
  step := ProcessStep env argv0 args inherited

/-! ### The phases of a run -/

/-- How far a run has come, and its history. -/
inductive Phase (env : Environment) (argv0 : Bytes) (args : List Bytes)
    (inherited : Finset SocketHandle) : List ProcessLabel → ProcessState → Prop
  | started : Phase env argv0 args inherited [] .started
  /-- `main` has returned without a worker. -/
  | returned {code : ℤ} {log : List Message} {calls : List Syscall}
      (hmain : (main env argv0 args).2 = some (.returned code log calls)) :
      Phase env argv0 args inherited [.startup (.returned code log calls)] (.exited code)
  | forwarding {context : UdpForward.UdpForwardContext} {done : List Syscall}
      {rs : List UdpForward.Round} {σ : UdpForward.ForwarderState}
      (hmain : (main env argv0 args).2 = some (.forwarding context done))
      (hgrants : (Kernel.mk inherited ∅).GrantsAll done)
      (hrun : UdpForward.runWorker.Run
        ⟨context, (Kernel.mk inherited ∅).replay done, .next⟩ rs σ) :
      Phase env argv0 args inherited (.startup (.forwarding context done) :: rs.map .forward)
        (.forwarding σ)
  | forwarded {h : List ProcessLabel} {σ : UdpForward.ForwarderState} {e : Errno}
      (hphase : Phase env argv0 args inherited h (.forwarding σ))
      (hreturned : σ.outcome = .returned e) :
      Phase env argv0 args inherited (h ++ [.exit]) (.exited 0)
  | relaying {context : WgRelay.WgcfRelayContext} {done : List Syscall}
      {rs : List WgRelay.Round} {s : WgRelay.LoopState}
      (hmain : (main env argv0 args).2 = some (.relaying context done))
      (hgrants : (Kernel.mk inherited ∅).GrantsAll done)
      (hrun : WgRelay.runWorker.Run ⟨context, (Kernel.mk inherited ∅).replay done, none⟩ rs s) :
      Phase env argv0 args inherited (.startup (.relaying context done) :: rs.map .relay)
        (.relaying s)
  | relayed {h : List ProcessLabel} {s : WgRelay.LoopState} {e : Errno}
      (hphase : Phase env argv0 args inherited h (.relaying s))
      (hreturned : s.returned = some e) :
      Phase env argv0 args inherited (h ++ [.exit]) (.exited 0)

section Phases

variable {env : Environment} {argv0 : Bytes} {args : List Bytes} {inherited : Finset SocketHandle}
variable {h : List ProcessLabel} {s t : ProcessState} {l : ProcessLabel}

/-- A step leads from one phase to the next. -/
theorem Phase.step (hphase : Phase env argv0 args inherited h s)
    (hst : (process env argv0 args inherited).step s l t) :
    Phase env argv0 args inherited (h ++ [l]) t := by
  cases hst with
  | @startup startup hmain hgrants =>
    obtain rfl : h = [] := by
      cases hphase
      rfl
    rcases startup with ⟨code, log, calls⟩ | ⟨context, done⟩ | ⟨context, done⟩
    · exact .returned hmain
    · exact .forwarding hmain hgrants .nil
    · exact .relaying hmain hgrants .nil
  | forward hst =>
    cases hphase with
    | forwarding hmain hgrants hrun =>
      have hnext := Phase.forwarding hmain hgrants (hrun.snoc hst)
      rwa [List.map_append, ← List.cons_append] at hnext
  | forwardReturned hreturned => exact .forwarded hphase hreturned
  | relay hst =>
    cases hphase with
    | relaying hmain hgrants hrun =>
      have hnext := Phase.relaying hmain hgrants (hrun.snoc hst)
      rwa [List.map_append, ← List.cons_append] at hnext
  | relayReturned hreturned => exact .relayed hphase hreturned

theorem phase_run (hrun : (process env argv0 args inherited).Run .started h s) :
    Phase env argv0 args inherited h s := by
  induction hrun with
  | nil => exact .started
  | snoc _ hst ih => exact ih.step hst

end Phases

/-! ### What a run has done -/

section Runs

variable {env : Environment} {argv0 : Bytes} {args : List Bytes} {inherited : Finset SocketHandle}
variable {h : List ProcessLabel} {s : ProcessState}

/-- The destinations in an accepted configuration are addresses. -/
theorem sendable_of_parseConfig {pton : InetPton} {cfgContent : Bytes}
    {targets : List UdpForward.UdpForwardTargetInfo}
    (h : UdpForward.parseConfig pton cfgContent = .ok targets) : UdpForward.Sendable targets := by
  intro target htarget
  obtain ⟨line, -, hline⟩ := (UdpForward.parseConfig_eq_ok_iff_lines.1 h).exists_left htarget
  obtain ⟨a₁, p₁, a₂, p₂, a₃, p₃, -, -, -, ⟨-, hvalid⟩, -⟩ :=
    UdpForward.parseLine_eq_ok_iff_parts.1 hline
  exact hvalid

/-- The forwarder has been started for targets that it can send to. -/
theorem started_of_main_forwarding {context : UdpForward.UdpForwardContext} {done : List Syscall}
    (hmain : (main env argv0 args).2 = some (.forwarding context done))
    (hgrants : (Kernel.mk inherited ∅).GrantsAll done) :
    ∃ targets, UdpForward.Sendable targets ∧ UdpForward.Started inherited targets
      ⟨context, (Kernel.mk inherited ∅).replay done, .next⟩ := by
  obtain ⟨path, file, a, targets, -, -, -, hparse, hsetup⟩ := exists_of_main_forwarding hmain
  exact ⟨targets, sendable_of_parseConfig hparse, env.epollCreate, env.targetAnswers, done, hsetup,
    hgrants, rfl, rfl⟩

/-- The relay has been started. -/
theorem started_of_main_relaying {context : WgRelay.WgcfRelayContext} {done : List Syscall}
    (hmain : (main env argv0 args).2 = some (.relaying context done))
    (hgrants : (Kernel.mk inherited ∅).GrantsAll done) :
    WgRelay.Started inherited ⟨context, (Kernel.mk inherited ∅).replay done⟩ := by
  obtain ⟨listen, forward, a, b, -, -, -, hsetup⟩ := exists_of_main_relaying hmain
  exact ⟨a, b, env.relayAnswers, done, hsetup, hgrants, rfl⟩

/-- The calls of `main` name open descriptors only. -/
theorem Startup.Sound.legal {startup : Startup} (h : startup.Sound env) :
    (Kernel.mk inherited ∅).LegalAll startup.calls := by
  rcases h.calls with hnil | ⟨targets, hcalls⟩ | ⟨a, b, hcalls⟩
  · rw [hnil]
    exact trivial
  · rw [hcalls]
    exact UdpForward.setupSockets_legal targets env.epollCreate env.targetAnswers _
  · rw [hcalls]
    exact WgRelay.setupSockets_legal rfl

theorem Phase.legal (hphase : Phase env argv0 args inherited h s) :
    (Kernel.mk inherited ∅).LegalAll (h.flatMap (·.calls)) := by
  induction hphase with
  | started => exact trivial
  | returned hmain =>
    rw [List.flatMap_singleton]
    exact (main_sound hmain).legal
  | @forwarding context done rs σ hmain hgrants hrun =>
    obtain ⟨targets, -, hstart⟩ := started_of_main_forwarding hmain hgrants
    obtain ⟨hlegal, -⟩ := UdpForward.runWorker_legal hstart.aligned.1 hrun
    rw [List.flatMap_cons, List.flatMap_map, Kernel.legalAll_append]
    exact ⟨(main_sound hmain).legal, hlegal⟩
  | forwarded _ _ ih =>
    rw [List.flatMap_append, Kernel.legalAll_append]
    exact ⟨ih, trivial⟩
  | @relaying context done rs s hmain hgrants hrun =>
    have hstart := started_of_main_relaying hmain hgrants
    obtain ⟨-, hlegal, -⟩ := WgRelay.runWorker_legal (.started hstart) hrun
    rw [List.flatMap_cons, List.flatMap_map, Kernel.legalAll_append]
    rw [WgRelay.calls, List.filterMap_flatMap] at hlegal
    exact ⟨(main_sound hmain).legal, hlegal⟩
  | relayed _ _ ih =>
    rw [List.flatMap_append, Kernel.legalAll_append]
    exact ⟨ih, trivial⟩

/-- **The process never names a descriptor that is not open** in a call that is recorded
(`ProcessLabel.calls`), whatever its command line and its configuration are, whatever the kernel
answers and whatever arrives. -/
theorem process_legal (hrun : (process env argv0 args inherited).Run .started h s) :
    (Kernel.mk inherited ∅).LegalAll (h.flatMap (·.calls)) :=
  (phase_run hrun).legal

/-- Whether the rounds of a worker report a failure, seen in the history. -/
theorem forall_failure_iff {ρ : Type} (round : ρ → ProcessLabel) {startup : Startup} {rs : List ρ} :
    (∀ l ∈ .startup startup :: rs.map round, l.failure? = none) ↔
      ∀ r ∈ rs, (round r).failure? = none := by
  rw [List.forall_mem_cons, List.forall_mem_map]
  exact and_iff_right rfl

/-- The first failure of a worker, seen in the history. -/
theorem exists_failure {ρ : Type} (round : ρ → ProcessLabel) {startup : Startup} {rs : List ρ}
    {e : Errno} (h : ∃ past r, rs = past ++ [r] ∧ (∀ m ∈ past, (round m).failure? = none) ∧
      (round r).failure? = some e) :
    ∃ past l, .startup startup :: rs.map round = past ++ [l] ∧
      (∀ m ∈ past, m.failure? = none) ∧ l.failure? = some e := by
  obtain ⟨past, r, rfl, hpast, hr⟩ := h
  exact ⟨.startup startup :: past.map round, round r, by simp,
    (forall_failure_iff round).2 hpast, hr⟩

/-- How the forwarder goes on, seen in the history. -/
theorem Phase.outcome {σ : UdpForward.ForwarderState}
    (hphase : Phase env argv0 args inherited h (.forwarding σ)) :
    (σ.outcome = .next ↔ ∀ l ∈ h, l.failure? = none) ∧
      ∀ e, σ.outcome = .returned e → ∃ past l, h = past ++ [l] ∧
        (∀ m ∈ past, m.failure? = none) ∧ l.failure? = some e := by
  cases hphase with
  | forwarding hmain hgrants hrun =>
    obtain ⟨targets, hsend, hstart⟩ := started_of_main_forwarding hmain hgrants
    obtain ⟨hgoes, hstops⟩ := UdpForward.runWorker_outcome hstart.aligned.1 rfl hsend hrun
    exact ⟨hgoes.trans (forall_failure_iff ProcessLabel.forward).symm,
      fun e he ↦ exists_failure ProcessLabel.forward ((hstops e).1 he)⟩

/-- How the relay goes on, seen in the history. -/
theorem Phase.returned_iff {s : WgRelay.LoopState}
    (hphase : Phase env argv0 args inherited h (.relaying s)) :
    (s.returned = none ↔ ∀ l ∈ h, l.failure? = none) ∧
      ∀ e, s.returned = some e → ∃ past l, h = past ++ [l] ∧
        (∀ m ∈ past, m.failure? = none) ∧ l.failure? = some e := by
  cases hphase with
  | relaying hmain hgrants hrun =>
    obtain ⟨hgoes, hstops⟩ := WgRelay.runWorker_returned rfl hrun
    exact ⟨hgoes.trans (forall_failure_iff ProcessLabel.relay).symm,
      fun e he ↦ exists_failure ProcessLabel.relay ((hstops e).1 he)⟩

/-- **The exit codes.** The process exits with 1 when it gives up before a worker has run, and then
it has logged a message; with 0 when the worker has met its first failure, of `epoll_wait` or
`recvfrom` or reported for a descriptor, right before; and not in another way. -/
theorem process_exit_code {code : ℤ}
    (hrun : (process env argv0 args inherited).Run .started h (.exited code)) :
    (code = 1 ∧ ∃ log calls, h = [.startup (.returned 1 log calls)] ∧ log ≠ []) ∨
      (code = 0 ∧ ∃ past l e, h = past ++ [l, .exit] ∧ (∀ m ∈ past, m.failure? = none) ∧
        l.failure? = some e) := by
  cases phase_run hrun with
  | @returned code log calls hmain =>
    obtain ⟨rfl, hlog⟩ := (main_sound hmain).returned _ _ _ rfl
    exact .inl ⟨rfl, log, calls, rfl, hlog⟩
  | @forwarded h σ e hphase hreturned =>
    obtain ⟨past, l, rfl, hpast, hl⟩ := hphase.outcome.2 e hreturned
    exact .inr ⟨rfl, past, l, e, List.append_assoc _ _ _, hpast, hl⟩
  | @relayed h s e hphase hreturned =>
    obtain ⟨past, l, rfl, hpast, hl⟩ := hphase.returned_iff.2 e hreturned
    exact .inr ⟨rfl, past, l, e, List.append_assoc _ _ _, hpast, hl⟩

/-- The history is that of the forwarder for the targets, in batches. -/
def Forwards (env : Environment) (inherited : Finset SocketHandle)
    (targets : List UdpForward.UdpForwardTargetInfo) (h : List ProcessLabel)
    (σ : UdpForward.ForwarderState) : Prop :=
  ∃ σ₀ done rs hs, UdpForward.Started inherited targets σ₀ ∧
    UdpForward.setupSockets {} targets env.epollCreate env.targetAnswers =
      (.ok (), σ₀.context, done) ∧
    h = .startup (.forwarding σ₀.context done) :: rs.map .forward ∧
    List.Forall₂ UdpForward.HandlesBatch rs hs ∧ UdpForward.forwarder.Run σ₀ hs.flatten σ

/-- The history is that of the relay for the two addresses, in batches. -/
def Relays (env : Environment) (inherited : Finset SocketHandle)
    (listenAddress forwardAddress : INetSocketAddress) (h : List ProcessLabel)
    (s : WgRelay.LoopState) : Prop :=
  ∃ σ₀ done rs hs, WgRelay.Started inherited σ₀ ∧
    WgRelay.setupSockets {} listenAddress forwardAddress env.relayAnswers =
      (.ok (), σ₀.context, done) ∧
    h = .startup (.relaying σ₀.context done) :: rs.map .relay ∧
    List.Forall₂ WgRelay.HandlesBatch rs hs ∧ WgRelay.relay.Run σ₀ hs.flatten s.relayState

/-- **A process that forwards does what its configuration says.** Its command line names one file,
and what it has done is a run of the forwarder for the rules in the first megabyte of that file, in
the order of the lines. It goes on as long as no failure has been reported. -/
theorem process_forwards_configuration {σ : UdpForward.ForwarderState}
    (hpton : env.pton.Documented)
    (hrun : (process env argv0 args inherited).Run .started h (.forwarding σ)) :
    ∃ path file a targets, Asks args udpfwdName [path] ∧ env.file path = some (file, a) ∧
      List.Forall₂ (UdpForward.LooseLine env.pton) (UdpForward.segments (file.take (2 ^ 20)))
        targets ∧
      Forwards env inherited targets h σ ∧ (σ.outcome = .next ↔ ∀ l ∈ h, l.failure? = none) := by
  have hphase := phase_run hrun
  have houtcome := hphase.outcome.1
  cases hphase with
  | @forwarding context done rs σ hmain hgrants hworker =>
    obtain ⟨path, file, a, targets, hasks, hfile, -, hparse, hsetup⟩ :=
      exists_of_main_forwarding hmain
    have hstart : UdpForward.Started inherited targets
        ⟨context, (Kernel.mk inherited ∅).replay done, .next⟩ :=
      ⟨env.epollCreate, env.targetAnswers, done, hsetup, hgrants, rfl, rfl⟩
    have hsend := sendable_of_parseConfig hparse
    obtain ⟨hs, σ', hbatches, hr, -, rfl⟩ := (UdpForward.batches hsend).run
      ⟨hstart.aligned.1, rfl⟩ hworker
    exact ⟨path, file, a, targets, hasks, hfile, (UdpForward.parseConfig_eq_ok_iff hpton).1 hparse,
      ⟨_, done, rs, hs, hstart, hsetup, rfl, hbatches, hr⟩, houtcome⟩

/-- **A process that relays does what its command line says.** What it has done is a run of the
relay between the two addresses on the command line, and it goes on as long as no failure has been
reported. -/
theorem process_relays_command_line {s : WgRelay.LoopState}
    (hrun : (process env argv0 args inherited).Run .started h (.relaying s)) :
    ∃ listen forward a b, Asks args wgcfrelayName [listen, forward] ∧
      WgRelay.parseSocketAddress env.pton (.ofString listen) = some a ∧
      WgRelay.parseSocketAddress env.pton (.ofString forward) = some b ∧
      Relays env inherited a b h s ∧ (s.returned = none ↔ ∀ l ∈ h, l.failure? = none) := by
  have hphase := phase_run hrun
  have hreturned := hphase.returned_iff.1
  cases hphase with
  | @relaying context done rs s hmain hgrants hworker =>
    obtain ⟨listen, forward, a, b, hasks, hlisten, hforward, hsetup⟩ :=
      exists_of_main_relaying hmain
    have hstart : WgRelay.Started inherited ⟨context, (Kernel.mk inherited ∅).replay done⟩ :=
      started_of_main_relaying hmain hgrants
    obtain ⟨hs, σ, hbatches, hr, -, rfl⟩ := (WgRelay.batches inherited).run
      ⟨.started hstart, rfl⟩ hworker
    exact ⟨listen, forward, a, b, hasks, hlisten, hforward,
      ⟨_, done, rs, hs, hstart, hsetup, rfl, hbatches, hr⟩, hreturned⟩

end Runs

/-! ### Two runs -/

/-- What `main` does for `udpfwd -d config.txt`. -/
def sampleStartup : Startup :=
  .forwarding UdpForward.sampleStart.context
    (UdpForward.setupSockets {} UdpForward.sampleTargets (.ok 3) UdpForward.sampleSetup).2.2

/-- What the process does until a hang-up is reported. -/
def sampleHistory : List ProcessLabel :=
  [.startup sampleStartup, .forward UdpForward.sampleRound]

theorem sampleHistory_run :
    (process sampleEnvironment [] sampleArgs {0, 1, 2}).Run .started sampleHistory
      (.forwarding UdpForward.afterRound) := by
  have hmain : (main sampleEnvironment [] sampleArgs).2 = some sampleStartup := rfl
  have hgrants : (Kernel.mk {0, 1, 2} ∅).GrantsAll sampleStartup.calls := by decide
  exact (LTS.Run.single (ProcessStep.startup hmain hgrants)).snoc
    (ProcessStep.forward UdpForward.sampleRound_step)

theorem sampleHistory_exit :
    (process sampleEnvironment [] sampleArgs {0, 1, 2}).Run .started (sampleHistory ++ [.exit])
      (.exited 0) :=
  sampleHistory_run.snoc (ProcessStep.forwardReturned (e := .inputOutput) rfl)

theorem sampleHistory_legal :
    (Kernel.mk {0, 1, 2} ∅).LegalAll
      (List.flatMap (·.calls) (sampleHistory ++ [ProcessLabel.exit])) :=
  process_legal sampleHistory_exit

theorem sampleHistory_exit_code :
    ∃ past l e, sampleHistory ++ [ProcessLabel.exit] = past ++ [l, .exit] ∧
      (∀ m ∈ past, m.failure? = none) ∧ l.failure? = some e :=
  ((process_exit_code sampleHistory_exit).resolve_left (by simp)).2

theorem sampleHistory_forwards :
    ∃ path file a targets, Asks sampleArgs udpfwdName [path] ∧
      sampleEnvironment.file path = some (file, a) ∧
      List.Forall₂ (UdpForward.LooseLine UdpForward.samplePton)
        (UdpForward.segments (file.take (2 ^ 20))) targets ∧
      Forwards sampleEnvironment {0, 1, 2} targets sampleHistory UdpForward.afterRound ∧
      (UdpForward.afterRound.outcome = .next ↔ ∀ l ∈ sampleHistory, l.failure? = none) :=
  process_forwards_configuration UdpForward.samplePton_documented sampleHistory_run

/-- `wgcfrelay [::]:2408 162.159.192.1:2408` -/
def sampleRelayArgs : List Bytes :=
  [wgcfrelayName, UdpForward.ascii "[::]:2408", UdpForward.ascii "162.159.192.1:2408"]

/-- What `main` does for this command line. -/
def sampleRelayStartup : Startup :=
  .relaying WgRelay.sampleStart.context (WgRelay.setupSockets {} ⟨INetAddress.ipv6Any, 2408⟩
    WgRelay.sampleServer WgRelay.sampleSetup).2.2

theorem sampleRelay_run :
    (process sampleEnvironment [] sampleRelayArgs {0, 1, 2}).Run .started
      [.startup sampleRelayStartup, .relay WgRelay.firstRound]
      (.relaying (WgRelay.sampleLive 1000).looping) := by
  have hmain : (main sampleEnvironment [] sampleRelayArgs).2 = some sampleRelayStartup := rfl
  have hgrants : (Kernel.mk {0, 1, 2} ∅).GrantsAll sampleRelayStartup.calls := by decide
  exact (LTS.Run.single (ProcessStep.startup hmain hgrants)).snoc
    (ProcessStep.relay WgRelay.firstRound_step)

theorem sampleRelay_relays :
    ∃ listen forward a b, Asks sampleRelayArgs wgcfrelayName [listen, forward] ∧
      WgRelay.parseSocketAddress UdpForward.samplePton (.ofString listen) = some a ∧
      WgRelay.parseSocketAddress UdpForward.samplePton (.ofString forward) = some b ∧
      Relays sampleEnvironment {0, 1, 2} a b
        [.startup sampleRelayStartup, .relay WgRelay.firstRound]
        (WgRelay.sampleLive 1000).looping ∧
      ((WgRelay.sampleLive 1000).looping.returned = none ↔
        ∀ l ∈ [ProcessLabel.startup sampleRelayStartup, .relay WgRelay.firstRound],
          l.failure? = none) :=
  process_relays_command_line sampleRelay_run

end Main
