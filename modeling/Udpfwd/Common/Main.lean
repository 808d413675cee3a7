import Udpfwd.Forwarder.ConfigErrors
import Udpfwd.Forwarder.ConfigFile
import Udpfwd.Forwarder.ConfigRoundTrip
import Udpfwd.Relay.CommandLine

/-!
# The command line of the process

`main` looks its first argument up among the applets. Each applet drops every `-d` from the other
arguments and counts what is left: one path for the forwarder, two addresses for the relay. So
`-d` may stand anywhere, but nothing else that starts with a dash may: the `-f` and `-r` of the
usage texts count as arguments.

`main_enters_worker_iff` says which command lines, configurations and answers of the kernel lead
to `RunWorker`, and with what.
-/

open Net Text IoUtils

namespace Main

/-- `-d` -/
def debugOption : Bytes := [0x2D, 0x64]

/-- `udpfwd` -/
def udpfwdName : Bytes := [0x75, 0x64, 0x70, 0x66, 0x77, 0x64]

/-- `wgcfrelay` -/
def wgcfrelayName : Bytes := [0x77, 0x67, 0x63, 0x66, 0x72, 0x65, 0x6C, 0x61, 0x79]

/-- What the process logs before a worker runs. -/
inductive Message
  /-- `Usage: {} <applet> [args...]` -/
  | usage (argv0 : Bytes)
  /-- `Available applets:` -/
  | availableApplets
  /-- `    {}` -/
  | appletName (name : Bytes)
  /-- `Unknown applet: {}` -/
  | unknownApplet (name : Bytes)
  /-- `Run {} with no arguments for usage` -/
  | runWithNoArguments (argv0 : Bytes)
  /-- `Usage for udpfwd:`, `    {} udpfwd -f [-d] path/to/config.txt` and
  `    Example: {} udpfwd -f config.txt`. -/
  | udpfwdUsage (argv0 : Bytes)
  /-- `Usage for wgcfrelay:`, `    {} udpfwd -r [-d] listen:port forward:port` and
  `    Example: {} udpfwd -r [::]:51820 10.0.0.1:37000`. -/
  | wgcfrelayUsage (argv0 : Bytes)
  /-- `Unexpected number of arguments, run command with no arguments for usage` -/
  | unexpectedNumberOfArguments
  | udpForward (message : UdpForward.LogMessage)
  | wgcfRelay (message : WgRelay.StartupMessage)
  deriving DecidableEq

/-- How far the process gets, and the system calls about sockets that it has made. -/
inductive Startup
  | returned (code : ℤ) (log : List Message) (calls : List Syscall)
  /-- `udpfwd::RunWorker` is entered. -/
  | forwarding (context : UdpForward.UdpForwardContext) (calls : List Syscall)
  /-- `wgrelay::RunWorker` is entered. -/
  | relaying (context : WgRelay.WgcfRelayContext) (calls : List Syscall)

def Startup.calls : Startup → List Syscall
  | .returned _ _ calls | .forwarding _ calls | .relaying _ calls => calls

def Startup.ofForwarder : UdpForward.Startup → Startup
  | .returned code log calls => .returned code (log.map .udpForward) calls
  | .running context calls => .forwarding context calls

def Startup.ofRelay : WgRelay.Startup → Startup
  | .returned code log calls => .returned code (log.map .wgcfRelay) calls
  | .running context calls => .relaying context calls

/-- What the process finds, and the kernel's answers until a worker runs. -/
structure Environment where
  pton : InetPton
  /-- The regular file under a path, if there is one. -/
  file : Bytes → Option (Bytes × FileAnswers)
  epollCreate : Except Errno SocketHandle
  targetAnswers : ℕ → UdpForward.TargetAnswers
  relayAnswers : WgRelay.SetupAnswers

/-- `RunUdpForwarder`, up to the call of `RunWorker`, unless it is still reading. -/
def runUdpForwarder (env : Environment) (configFilePath : Bytes) : Option UdpForward.Startup :=
  match env.file configFilePath with
  | none =>
    some (UdpForward.runUdpForwarder env.pton false (.ok []) env.epollCreate env.targetAnswers)
  | some (file, a) => UdpForward.runOnFile env.pton file a env.epollCreate env.targetAnswers

/-- What the entries of both applets do with their arguments, and whether `-d` is among them. -/
def appletEntry (usage : Bytes → Message) (run : Environment → List Bytes → Option Startup)
    (env : Environment) (argv0 : Bytes) (args : List Bytes) : Bool × Option Startup :=
  if args = [] then (false, some (.returned 1 [usage argv0] []))
  else (decide (debugOption ∈ args), run env (args.filter (· ≠ debugOption)))

/-- What `udpfwd_entry` does with the arguments that are not `-d`. -/
def udpfwdRun (env : Environment) : List Bytes → Option Startup
  | [configFilePath] => (runUdpForwarder env configFilePath).map .ofForwarder
  | _ => some (.returned 1 [.unexpectedNumberOfArguments] [])

/-- `udpfwd_entry`. -/
def udpfwdEntry : Environment → Bytes → List Bytes → Bool × Option Startup :=
  appletEntry .udpfwdUsage udpfwdRun

/-- What `wgcfrelay_entry` does with the arguments that are not `-d`. -/
def wgcfrelayRun (env : Environment) : List Bytes → Option Startup
  | [listenAddressString, forwardAddressString] =>
    some (.ofRelay (WgRelay.runWgcfRelay env.pton (.ofString listenAddressString)
      (.ofString forwardAddressString) env.relayAnswers))
  | _ => some (.returned 1 [.unexpectedNumberOfArguments] [])

/-- `wgcfrelay_entry`. -/
def wgcfrelayEntry : Environment → Bytes → List Bytes → Bool × Option Startup :=
  appletEntry .wgcfrelayUsage wgcfrelayRun

/-- `Applet`. -/
structure Applet where
  name : Bytes
  entry : Environment → Bytes → List Bytes → Bool × Option Startup

def applets : List Applet := [⟨udpfwdName, udpfwdEntry⟩, ⟨wgcfrelayName, wgcfrelayEntry⟩]

/-- `main`, with `argv[0]` and the other arguments, up to the call of `RunWorker`: whether
`SetDebug(true)` has been called, and how far it gets, unless it is still reading. -/
def main (env : Environment) (argv0 : Bytes) : List Bytes → Bool × Option Startup
  | [] => (false, some (.returned 1
      (.usage argv0 :: .availableApplets :: applets.map (.appletName ·.name)) []))
  | appletName :: args =>
    match applets.find? (·.name == appletName) with
    | none => (false, some (.returned 1 [.unknownApplet appletName, .runWithNoArguments argv0] []))
    | some applet => applet.entry env argv0 args

/-- The command line asks for an applet with these arguments, beside any number of `-d`. -/
def Asks (args : List Bytes) (applet : Bytes) (operands : List Bytes) : Prop :=
  ∃ rest, args = applet :: rest ∧ rest.filter (· ≠ debugOption) = operands

section Startup

variable {env : Environment} {argv0 path : Bytes} {args rest operands : List Bytes} {debug : Bool}
variable {forwarder : UdpForward.UdpForwardContext} {relay : WgRelay.WgcfRelayContext}
variable {calls : List Syscall} {startup : Startup}

/-! ### What the applets do with their operands -/

/-- The configurations with which the forwarder runs. -/
theorem runUdpForwarder_eq_running_iff :
    runUdpForwarder env path = some (.running forwarder calls) ↔
      ∃ file a content targets, env.file path = some (file, a) ∧
        readAtMostOrFail file (mb 1) a = some (.ok content) ∧
        UdpForward.parseConfig env.pton content = .ok targets ∧
        UdpForward.setupSockets {} targets env.epollCreate env.targetAnswers =
          (.ok (), forwarder, calls) := by
  rw [runUdpForwarder]
  rcases hfile : env.file path with - | ⟨file, a⟩
  · simp [UdpForward.runUdpForwarder]
  constructor
  · intro h
    obtain ⟨content, targets, hread, hparse, hsetup⟩ := UdpForward.runOnFile_eq_running h
    exact ⟨file, a, content, targets, rfl, hread, hparse, hsetup⟩
  · rintro ⟨_, _, content, targets, ⟨⟩, hread, hparse, hsetup⟩
    simp [UdpForward.runOnFile, readAsString8AtMostOrFail, hread, UdpForward.runUdpForwarder,
      hparse, hsetup]

theorem Startup.ofForwarder_eq_forwarding_iff {st : UdpForward.Startup} :
    Startup.ofForwarder st = .forwarding forwarder calls ↔ st = .running forwarder calls := by
  rcases st with ⟨code, log, calls⟩ | ⟨context, calls⟩ <;> simp [Startup.ofForwarder]

theorem Startup.ofForwarder_ne_relaying {st : UdpForward.Startup} :
    Startup.ofForwarder st ≠ .relaying relay calls := by
  rcases st with ⟨code, log, calls⟩ | ⟨context, calls⟩ <;> simp [Startup.ofForwarder]

theorem Startup.ofRelay_eq_relaying_iff {st : WgRelay.Startup} :
    Startup.ofRelay st = .relaying relay calls ↔ st = .running relay calls := by
  rcases st with ⟨code, log, calls⟩ | ⟨context, calls⟩ <;> simp [Startup.ofRelay]

theorem Startup.ofRelay_ne_forwarding {st : WgRelay.Startup} :
    Startup.ofRelay st ≠ .forwarding forwarder calls := by
  rcases st with ⟨code, log, calls⟩ | ⟨context, calls⟩ <;> simp [Startup.ofRelay]

theorem udpfwdRun_eq_forwarding_iff :
    udpfwdRun env operands = some (.forwarding forwarder calls) ↔
      ∃ path, operands = [path] ∧ runUdpForwarder env path = some (.running forwarder calls) := by
  match operands with
  | [] => simp [udpfwdRun]
  | [path] => simp [udpfwdRun, Startup.ofForwarder_eq_forwarding_iff]
  | _ :: _ :: _ => simp [udpfwdRun]

theorem udpfwdRun_ne_relaying : udpfwdRun env operands ≠ some (.relaying relay calls) := by
  match operands with
  | [] => simp [udpfwdRun]
  | [path] => simp [udpfwdRun, Startup.ofForwarder_ne_relaying]
  | _ :: _ :: _ => simp [udpfwdRun]

theorem wgcfrelayRun_eq_relaying_iff :
    wgcfrelayRun env operands = some (.relaying relay calls) ↔
      ∃ listen forward, operands = [listen, forward] ∧
        WgRelay.runWgcfRelay env.pton (.ofString listen) (.ofString forward) env.relayAnswers =
          .running relay calls := by
  match operands with
  | [] => simp [wgcfrelayRun]
  | [_] => simp [wgcfrelayRun]
  | [listen, forward] => simp [wgcfrelayRun, Startup.ofRelay_eq_relaying_iff]
  | _ :: _ :: _ :: _ => simp [wgcfrelayRun]

theorem wgcfrelayRun_ne_forwarding :
    wgcfrelayRun env operands ≠ some (.forwarding forwarder calls) := by
  match operands with
  | [] => simp [wgcfrelayRun]
  | [_] => simp [wgcfrelayRun]
  | [listen, forward] => simp [wgcfrelayRun, Startup.ofRelay_ne_forwarding]
  | _ :: _ :: _ :: _ => simp [wgcfrelayRun]

/-! ### What `main` does -/

/-- Which entry is called. -/
theorem main_cons {applet : Bytes} :
    main env argv0 (applet :: rest) =
      if applet = udpfwdName then udpfwdEntry env argv0 rest
      else if applet = wgcfrelayName then wgcfrelayEntry env argv0 rest
      else (false, some (.returned 1 [.unknownApplet applet, .runWithNoArguments argv0] [])) := by
  rw [main, applets, List.find?_cons, List.find?_cons]
  by_cases hudpfwd : applet = udpfwdName
  · rw [hudpfwd]
    rfl
  by_cases hwgcfrelay : applet = wgcfrelayName
  · rw [hwgcfrelay]
    rfl
  rw [beq_eq_false_iff_ne.2 (Ne.symm hudpfwd), beq_eq_false_iff_ne.2 (Ne.symm hwgcfrelay),
    if_neg hudpfwd, if_neg hwgcfrelay]
  rfl

/-- `-d` is the name of no applet. -/
theorem debugOption_mem_cons {applet : Bytes} (h : applet = udpfwdName ∨ applet = wgcfrelayName) :
    decide (debugOption ∈ applet :: rest) = decide (debugOption ∈ rest) := by
  rw [decide_eq_decide, List.mem_cons]
  refine or_iff_right ?_
  rcases h with rfl | rfl <;> decide

/-- An entry that gets to its worker has done so with the arguments that are not `-d`. -/
theorem appletEntry_eq_iff {usage : Bytes → Message}
    {run : Environment → List Bytes → Option Startup}
    (hworker : ∀ code log calls, startup ≠ .returned code log calls)
    (hempty : run env [] ≠ some startup) :
    appletEntry usage run env argv0 rest = (debug, some startup) ↔
      debug = decide (debugOption ∈ rest) ∧
        run env (rest.filter (· ≠ debugOption)) = some startup := by
  rw [appletEntry]
  split
  · next hrest =>
    rw [hrest]
    refine iff_of_false ?_ fun h ↦ hempty h.2
    intro heq
    simp only [Prod.mk.injEq, Option.some.injEq] at heq
    exact hworker _ _ _ heq.2.symm
  · rw [Prod.mk.injEq, eq_comm]

/-- `main` gets to a worker through the entry of its applet. -/
theorem main_eq_iff (hworker : ∀ code log calls, startup ≠ .returned code log calls) :
    main env argv0 args = (debug, some startup) ↔
      debug = decide (debugOption ∈ args) ∧
        ∃ operands, (Asks args udpfwdName operands ∧ udpfwdRun env operands = some startup) ∨
          (Asks args wgcfrelayName operands ∧ wgcfrelayRun env operands = some startup) := by
  rcases args with - | ⟨applet, rest⟩
  · refine iff_of_false ?_ ?_
    · intro heq
      simp only [main, Prod.mk.injEq, Option.some.injEq] at heq
      exact hworker _ _ _ heq.2.symm
    · rintro ⟨-, operands, ⟨⟨_, hnil, -⟩, -⟩ | ⟨⟨_, hnil, -⟩, -⟩⟩ <;>
        exact List.cons_ne_nil _ _ hnil.symm
  have hne : udpfwdName ≠ wgcfrelayName := by decide
  have husage : ∀ run : Option Startup,
      run = some (.returned 1 [.unexpectedNumberOfArguments] []) → run ≠ some startup := by
    rintro _ rfl heq
    exact hworker _ _ _ (Option.some.inj heq).symm
  rw [main_cons]
  split
  · next hname =>
    subst hname
    rw [udpfwdEntry, appletEntry_eq_iff hworker (husage _ rfl),
      debugOption_mem_cons (.inl rfl)]
    simp [Asks, hne]
  split
  · next hname =>
    subst hname
    rw [wgcfrelayEntry, appletEntry_eq_iff hworker (husage _ rfl),
      debugOption_mem_cons (.inr rfl)]
    simp [Asks, hne.symm]
  · next hudpfwd hwgcfrelay =>
    refine iff_of_false ?_ ?_
    · intro heq
      simp only [Prod.mk.injEq, Option.some.injEq] at heq
      exact hworker _ _ _ heq.2.symm
    · rintro ⟨-, operands, ⟨⟨_, hargs, -⟩, -⟩ | ⟨⟨_, hargs, -⟩, -⟩⟩
      · exact hudpfwd (List.cons.inj hargs).1
      · exact hwgcfrelay (List.cons.inj hargs).1

/-- What a command line and a configuration that lead to the forwarder are. -/
theorem exists_of_main_forwarding
    (h : (main env argv0 args).2 = some (.forwarding forwarder calls)) :
    ∃ path file a targets, Asks args udpfwdName [path] ∧ env.file path = some (file, a) ∧
      readAtMostOrFail file (mb 1) a = some (.ok (file.take (2 ^ 20))) ∧
      UdpForward.parseConfig env.pton (file.take (2 ^ 20)) = .ok targets ∧
      UdpForward.setupSockets {} targets env.epollCreate env.targetAnswers =
        (.ok (), forwarder, calls) := by
  obtain ⟨-, operands, ⟨hasks, hrun⟩ | ⟨-, hrun⟩⟩ := (main_eq_iff (by simp)).1 (Prod.ext rfl h)
  · obtain ⟨path, rfl, hrunning⟩ := udpfwdRun_eq_forwarding_iff.1 hrun
    obtain ⟨file, a, content, targets, hfile, hread, hparse, hsetup⟩ :=
      runUdpForwarder_eq_running_iff.1 hrunning
    obtain rfl : content = file.take (2 ^ 20) := readAtMostOrFail_eq_ok hread
    exact ⟨path, file, a, targets, hasks, hfile, hread, hparse, hsetup⟩
  · exact absurd hrun wgcfrelayRun_ne_forwarding

/-- What a command line that leads to the relay is. -/
theorem exists_of_main_relaying (h : (main env argv0 args).2 = some (.relaying relay calls)) :
    ∃ listen forward a b, Asks args wgcfrelayName [listen, forward] ∧
      WgRelay.parseSocketAddress env.pton (.ofString listen) = some a ∧
      WgRelay.parseSocketAddress env.pton (.ofString forward) = some b ∧
      WgRelay.setupSockets {} a b env.relayAnswers = (.ok (), relay, calls) := by
  obtain ⟨-, operands, ⟨-, hrun⟩ | ⟨hasks, hrun⟩⟩ := (main_eq_iff (by simp)).1 (Prod.ext rfl h)
  · exact absurd hrun udpfwdRun_ne_relaying
  · obtain ⟨listen, forward, rfl, hrunning⟩ := wgcfrelayRun_eq_relaying_iff.1 hrun
    obtain ⟨a, b, hlisten, hforward, hsetup⟩ := WgRelay.runWgcfRelay_eq_running_iff.1 hrunning
    exact ⟨listen, forward, a, b, hasks, hlisten, hforward, hsetup⟩

/-- **Which command lines and configurations lead to a worker.** The forwarder is entered exactly
when the applet is `udpfwd`, one argument is left without every `-d`, it is the path of a regular
file that can be read, every line in its first megabyte passes for a rule, and the sockets of these
rules can be set up; the relay exactly when the applet is `wgcfrelay`, two arguments are left, both
are read as an address and a port, and the sockets can be set up. -/
theorem main_enters_worker_iff (hpton : env.pton.Documented) :
    (∀ debug forwarder calls, main env argv0 args = (debug, some (.forwarding forwarder calls)) ↔
      debug = decide (debugOption ∈ args) ∧
        ∃ path file a targets, Asks args udpfwdName [path] ∧ env.file path = some (file, a) ∧
          readAtMostOrFail file (mb 1) a = some (.ok (file.take (2 ^ 20))) ∧
          List.Forall₂ (UdpForward.LooseLine env.pton)
            (UdpForward.segments (file.take (2 ^ 20))) targets ∧
          UdpForward.setupSockets {} targets env.epollCreate env.targetAnswers =
            (.ok (), forwarder, calls)) ∧
    (∀ debug relay calls, main env argv0 args = (debug, some (.relaying relay calls)) ↔
      debug = decide (debugOption ∈ args) ∧
        ∃ listen forward a b, Asks args wgcfrelayName [listen, forward] ∧
          WgRelay.parseSocketAddress env.pton (.ofString listen) = some a ∧
          WgRelay.parseSocketAddress env.pton (.ofString forward) = some b ∧
          WgRelay.setupSockets {} a b env.relayAnswers = (.ok (), relay, calls)) := by
  refine ⟨fun debug forwarder calls ↦ ⟨fun h ↦ ?_, ?_⟩, fun debug relay calls ↦ ⟨fun h ↦ ?_, ?_⟩⟩
  · obtain ⟨path, file, a, targets, hasks, hfile, hread, hparse, hsetup⟩ :=
      exists_of_main_forwarding (congrArg Prod.snd h)
    exact ⟨((main_eq_iff (by simp)).1 h).1, path, file, a, targets, hasks, hfile, hread,
      (UdpForward.parseConfig_eq_ok_iff hpton).1 hparse, hsetup⟩
  · rintro ⟨hdebug, path, file, a, targets, hasks, hfile, hread, hlines, hsetup⟩
    have hparse := (UdpForward.parseConfig_eq_ok_iff hpton).2 hlines
    have hrun := runUdpForwarder_eq_running_iff.2
      ⟨file, a, _, targets, hfile, hread, hparse, hsetup⟩
    exact (main_eq_iff (by simp)).2
      ⟨hdebug, _, .inl ⟨hasks, udpfwdRun_eq_forwarding_iff.2 ⟨path, rfl, hrun⟩⟩⟩
  · exact ⟨((main_eq_iff (by simp)).1 h).1, exists_of_main_relaying (congrArg Prod.snd h)⟩
  · rintro ⟨hdebug, listen, forward, a, b, hasks, hlisten, hforward, hsetup⟩
    have hrun := WgRelay.runWgcfRelay_eq_running_iff.2 ⟨a, b, hlisten, hforward, hsetup⟩
    exact (main_eq_iff (by simp)).2
      ⟨hdebug, _, .inr ⟨hasks, wgcfrelayRun_eq_relaying_iff.2 ⟨listen, forward, rfl, hrun⟩⟩⟩

end Startup

/-! ### How `main` ends without a worker -/

/-- What may have happened before a worker runs. -/
structure Startup.Sound (env : Environment) (startup : Startup) : Prop where
  /-- `main` returns 1 with a message. -/
  returned : ∀ code log calls, startup = .returned code log calls → code = 1 ∧ log ≠ []
  /-- The calls are those of one `SetupSockets`, if there are any. -/
  calls : startup.calls = [] ∨
    (∃ targets, startup.calls =
      (UdpForward.setupSockets {} targets env.epollCreate env.targetAnswers).2.2) ∨
    ∃ a b, startup.calls = (WgRelay.setupSockets {} a b env.relayAnswers).2.2

section Sound

variable {env : Environment} {argv0 path : Bytes} {args rest operands : List Bytes}
variable {startup : Startup}

theorem Startup.Sound.refused (message : Message) (log : List Message) :
    Startup.Sound env (.returned 1 (message :: log) []) where
  returned code log' calls heq := by
    obtain ⟨rfl, rfl, -⟩ := Startup.returned.inj heq
    exact ⟨rfl, List.cons_ne_nil _ _⟩
  calls := .inl rfl

/-- The sockets are set up, or not. -/
theorem Startup.Sound.forwarder (targets : List UdpForward.UdpForwardTargetInfo) :
    Startup.Sound env (.ofForwarder
      (match UdpForward.setupSockets {} targets env.epollCreate env.targetAnswers with
      | (.error _, _, calls) => .returned 1 [.failedToSetupSockets] calls
      | (.ok _, context, calls) => .running context calls)) := by
  rcases hsetup : UdpForward.setupSockets {} targets env.epollCreate env.targetAnswers with
    ⟨e | u, context, calls⟩
  all_goals
    refine ⟨fun code log calls heq ↦ ?_, .inr (.inl ⟨targets, by rw [hsetup]; rfl⟩)⟩
    cases heq
  exact ⟨rfl, List.cons_ne_nil _ _⟩

theorem Startup.Sound.relay (a b : INetSocketAddress) :
    Startup.Sound env (.ofRelay
      (match WgRelay.setupSockets {} a b env.relayAnswers with
      | (.error _, _, calls) => .returned 1 [.failedToSetupSockets] calls
      | (.ok _, context, calls) => .running context calls)) := by
  rcases hsetup : WgRelay.setupSockets {} a b env.relayAnswers with ⟨e | u, context, calls⟩
  all_goals
    refine ⟨fun code log calls heq ↦ ?_, .inr (.inr ⟨a, b, by rw [hsetup]; rfl⟩)⟩
    cases heq
  exact ⟨rfl, List.cons_ne_nil _ _⟩

theorem runUdpForwarder_sound {st : UdpForward.Startup} (h : runUdpForwarder env path = some st) :
    Startup.Sound env (.ofForwarder st) := by
  rw [runUdpForwarder] at h
  split at h
  · obtain rfl := Option.some.inj h
    exact .refused _ _
  rw [UdpForward.runOnFile, Option.map_eq_some_iff] at h
  obtain ⟨e | content, -, rfl⟩ := h
  · exact .refused _ _
  rw [UdpForward.runUdpForwarder, if_neg (by simp)]
  rcases hparse : UdpForward.parseConfig env.pton content with log | targets
  · obtain ⟨message, log, rfl⟩ := UdpForward.exists_log_eq_cons hparse
    exact .refused _ _
  · exact .forwarder targets

theorem runWgcfRelay_sound (listen forward : StringView) :
    Startup.Sound env
      (.ofRelay (WgRelay.runWgcfRelay env.pton listen forward env.relayAnswers)) := by
  rw [WgRelay.runWgcfRelay]
  rcases WgRelay.parseSocketAddress env.pton listen with - | a
  · exact .refused _ _
  rcases WgRelay.parseSocketAddress env.pton forward with - | b
  · exact .refused _ _
  · exact .relay a b

theorem udpfwdRun_sound (h : udpfwdRun env operands = some startup) : startup.Sound env := by
  rw [udpfwdRun.eq_def] at h
  split at h
  · obtain ⟨st, hst, rfl⟩ := Option.map_eq_some_iff.1 h
    exact runUdpForwarder_sound hst
  · obtain rfl := Option.some.inj h
    exact .refused _ _

theorem wgcfrelayRun_sound (h : wgcfrelayRun env operands = some startup) : startup.Sound env := by
  rw [wgcfrelayRun.eq_def] at h
  split at h <;> obtain rfl := Option.some.inj h
  · exact runWgcfRelay_sound _ _
  · exact .refused _ _

theorem appletEntry_sound {usage : Bytes → Message}
    {run : Environment → List Bytes → Option Startup}
    (hrun : ∀ {operands startup}, run env operands = some startup → startup.Sound env)
    (h : (appletEntry usage run env argv0 rest).2 = some startup) : startup.Sound env := by
  rw [appletEntry] at h
  split at h
  · obtain rfl := Option.some.inj h
    exact .refused _ _
  · exact hrun h

/-- **What `main` may have done before a worker runs.** -/
theorem main_sound (h : (main env argv0 args).2 = some startup) : startup.Sound env := by
  rcases args with - | ⟨applet, rest⟩
  · obtain rfl := Option.some.inj h
    exact .refused _ _
  rw [main_cons] at h
  split at h
  · exact appletEntry_sound udpfwdRun_sound h
  split at h
  · exact appletEntry_sound wgcfrelayRun_sound h
  · obtain rfl := Option.some.inj h
    exact .refused _ _

end Sound

/-! ### A command line -/

/-- `config.txt` -/
def samplePath : Bytes := UdpForward.ascii "config.txt"

/-- A system with one configuration file, of two rules, in which every call succeeds. -/
def sampleEnvironment : Environment where
  pton := UdpForward.samplePton
  file path := if path = samplePath then some (UdpForward.sampleText, readable [.upTo 60, .upTo 60,
    .upTo 0]) else none
  epollCreate := .ok 3
  targetAnswers := UdpForward.sampleSetup
  relayAnswers := ⟨.ok 3, .ok (), .ok (), .ok 4, .ok ()⟩

/-- `udpfwd -d config.txt` -/
def sampleArgs : List Bytes := [udpfwdName, debugOption, samplePath]

theorem sampleArgs_enters_worker :
    main sampleEnvironment [] sampleArgs = (true, some (.forwarding UdpForward.sampleStart.context
      (UdpForward.setupSockets {} UdpForward.sampleTargets (.ok 3)
        UdpForward.sampleSetup).2.2)) := by
  have hparse : UdpForward.parseConfig UdpForward.samplePton (UdpForward.sampleText.take (2 ^ 20)) =
      .ok UdpForward.sampleTargets := by decide
  refine ((main_enters_worker_iff UdpForward.samplePton_documented).1 _ _ _).2 ⟨by decide,
    samplePath, _, _, UdpForward.sampleTargets, ⟨_, rfl, by decide⟩, rfl, by decide, ?_, rfl⟩
  exact (UdpForward.parseConfig_eq_ok_iff UdpForward.samplePton_documented).1 hparse

end Main
