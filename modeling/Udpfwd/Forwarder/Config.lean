import Udpfwd.Forwarder.Worker
import Udpfwd.Net.AddressText
import Udpfwd.Text.Split

/-!
# The configuration of the forwarder

`RunUdpForwarder` as the source has it, up to the point where the worker starts to run, and the
grammar of the configuration. A line is meant to be six fields, an address and a port three
times (`StrictLine`). The loop accepts more (`LooseLine`), because each of the functions that it
is made of is more liberal: an empty last piece is left out, `strtol` skips blanks, takes a sign
and makes 0 of nothing, and `inet_pton` stops at a NUL.

* `parseLine_eq_ok_iff` — the lines that the loop accepts, and what it makes of them;
* `acceptsExactly_iff` — it accepts exactly the grammar except on the texts of which every line
  is accepted and some line is not in the grammar.
-/

open Net Text

namespace UdpForward

/-- `,` -/
def comma : UInt8 := 0x2C

/-- What the regular expression `[\\r\\n;]` matches. -/
def isSeparator (c : UInt8) : Bool := c == 0x0D || c == 0x0A || c == 0x3B

/-- What `RunUdpForwarder` logs. -/
inductive LogMessage
  /-- `File {} does not exist` -/
  | fileDoesNotExist
  /-- `Failed to read file {}: {}` -/
  | failedToReadFile
  /-- `Invalid line: {}` -/
  | invalidLine (line : Bytes)
  /-- `Expected format: inbound-addr,inbound-port,outbound-addr,outbound-port,dest-addr,dest-port` -/
  | expectedFormat
  /-- `Failed to setup sockets` -/
  | failedToSetupSockets
  deriving DecidableEq

/-! ### The parsing loop -/

/-- The body of the loop over the lines: the target, or what is logged before `return 1`. -/
def parseLine (pton : InetPton) (line : Bytes) : Except (List LogMessage) UdpForwardTargetInfo :=
  match splitStringWithRegex line (· == comma) with
  | [part₀, part₁, part₂, part₃, part₄, part₅] =>
    let inbound := INetAddress.fromString pton part₀
    let outbound := INetAddress.fromString pton part₂
    let destination := INetAddress.fromString pton part₄
    match parseUInt16 (.ofString part₁), parseUInt16 (.ofString part₃),
      parseUInt16 (.ofString part₅) with
    | some inboundPort, some outboundPort, some destinationPort =>
      if inbound.isValid ∧ outbound.isValid ∧ destination.isValid then
        .ok ⟨⟨inbound, inboundPort⟩, ⟨outbound, outboundPort⟩, ⟨destination, destinationPort⟩⟩
      else .error [.invalidLine line, .expectedFormat]
    | _, _, _ => .error [.invalidLine line, .expectedFormat]
  | _ => .error [.invalidLine line]

/-- The loop over the lines, which adds to `targets`. -/
def parseLines (pton : InetPton) (targets : List UdpForwardTargetInfo) :
    List Bytes → Except (List LogMessage) (List UdpForwardTargetInfo)
  | [] => .ok targets
  | line :: lines =>
    if line = [] then parseLines pton targets lines
    else
      match parseLine pton line with
      | .error log => .error log
      | .ok target => parseLines pton (targets ++ [target]) lines

/-- The lines of the content of the file, and the loop over them. -/
def parseConfig (pton : InetPton) (cfgContent : Bytes) :
    Except (List LogMessage) (List UdpForwardTargetInfo) :=
  parseLines pton [] (splitStringWithRegex cfgContent isSeparator)

/-- How far `RunUdpForwarder` gets, and the system calls about sockets that it has made. -/
inductive Startup
  | returned (code : ℤ) (log : List LogMessage) (calls : List Syscall)
  /-- `RunWorker` is entered. -/
  | running (context : UdpForwardContext) (calls : List Syscall)

/-- `RunUdpForwarder` up to the call of `RunWorker`, for a file that is there or not and that can
be read or not. -/
def runUdpForwarder (pton : InetPton) (isRegularFileExists : Bool)
    (cfgContent : Except Errno Bytes) (epollCreate : Except Errno SocketHandle)
    (a : ℕ → TargetAnswers) : Startup :=
  if !isRegularFileExists then .returned 1 [.fileDoesNotExist] []
  else
    match cfgContent with
    | .error _ => .returned 1 [.failedToReadFile] []
    | .ok cfgContent =>
      match parseConfig pton cfgContent with
      | .error log => .returned 1 log []
      | .ok targets =>
        match setupSockets {} targets epollCreate a with
        | (.error _, _, calls) => .returned 1 [.failedToSetupSockets] calls
        | (.ok _, context, calls) => .running context calls

/-! ### The grammar -/

/-- The non-empty segments between the separators. -/
def segments (cfgContent : Bytes) : List Bytes :=
  (cfgContent.splitOnP isSeparator).filter (· ≠ [])

/-- A port text: decimal digits, for a number up to 65535. -/
def PortText (s : Bytes) (port : UInt16) : Prop :=
  s ≠ [] ∧ (∀ c ∈ s, isdigit c = true) ∧ decimal s = port.toNat

/-- What passes for a port text: nothing, for 0, or a numeral with blanks and a sign. -/
def LoosePortText (s : Bytes) (port : UInt16) : Prop :=
  (s = [] ∧ port = 0) ∨ ∃ n : Numeral, s = n.text ∧ n.value = port.toNat

/-- Three times an address and a port, without commas. -/
def FieldsOf (address : Bytes → INetAddress → Prop) (port : Bytes → UInt16 → Prop)
    (fields : List Bytes) (target : UdpForwardTargetInfo) : Prop :=
  ∃ a₁ p₁ a₂ p₂ a₃ p₃, fields = [a₁, p₁, a₂, p₂, a₃, p₃] ∧ (∀ f ∈ fields, comma ∉ f) ∧
    (address a₁ target.inbound.address ∧ port p₁ target.inbound.port) ∧
    (address a₂ target.outbound.address ∧ port p₂ target.outbound.port) ∧
    (address a₃ target.destination.address ∧ port p₃ target.destination.port)

/-- A line of the grammar: six fields separated by five commas. -/
def StrictLine (pton : InetPton) (line : Bytes) (target : UdpForwardTargetInfo) : Prop :=
  ∃ fields, FieldsOf (AddressText pton) PortText fields target ∧
    line = [comma].intercalate fields

/-- What passes for a line: the fields may be liberal, and a comma may follow the last one; it
has to, if the last one is empty. -/
def LooseLine (pton : InetPton) (line : Bytes) (target : UdpForwardTargetInfo) : Prop :=
  ∃ fields, FieldsOf (LooseAddressText pton) LoosePortText fields target ∧
    ((line = [comma].intercalate fields ∧ fields.getLast? ≠ some []) ∨
      line = [comma].intercalate fields ++ [comma])

/-- The loop accepts the content exactly if it is in the grammar, and makes of it what the
grammar says; otherwise `RunUdpForwarder` returns 1 before it creates a socket. -/
structure AcceptsExactly (pton : InetPton) (cfgContent : Bytes) : Prop where
  accepts_iff : (∃ targets, parseConfig pton cfgContent = .ok targets) ↔
    ∀ line ∈ segments cfgContent, ∃ target, StrictLine pton line target
  targets : ∀ targets, parseConfig pton cfgContent = .ok targets →
    List.Forall₂ (StrictLine pton) (segments cfgContent) targets
  returns : (¬∃ targets, parseConfig pton cfgContent = .ok targets) → ∀ epollCreate a,
    ∃ log, runUdpForwarder pton true (.ok cfgContent) epollCreate a = .returned 1 log []

/-! ### What the loop accepts -/

section Loop

variable {pton : InetPton} {line : Bytes} {lines : List Bytes} {target : UdpForwardTargetInfo}
  {targets done : List UdpForwardTargetInfo} {cfgContent : Bytes}

theorem parseUInt16_ofString_eq_some_iff {s : Bytes} {port : UInt16} :
    parseUInt16 (.ofString s) = some port ↔ LoosePortText s port :=
  parseUInt16_eq_some_iff

/-- What the body of the loop makes of the parts of a line. -/
theorem parseLine_eq_ok_iff_parts :
    parseLine pton line = .ok target ↔
      ∃ a₁ p₁ a₂ p₂ a₃ p₃,
        splitStringWithRegex line (· == comma) = [a₁, p₁, a₂, p₂, a₃, p₃] ∧
        ((INetAddress.fromString pton a₁ = target.inbound.address ∧
            target.inbound.address.isValid = true) ∧
          parseUInt16 (.ofString p₁) = some target.inbound.port) ∧
        ((INetAddress.fromString pton a₂ = target.outbound.address ∧
            target.outbound.address.isValid = true) ∧
          parseUInt16 (.ofString p₂) = some target.outbound.port) ∧
        ((INetAddress.fromString pton a₃ = target.destination.address ∧
            target.destination.address.isValid = true) ∧
          parseUInt16 (.ofString p₃) = some target.destination.port) := by
  constructor
  · intro h
    rw [parseLine] at h
    split at h
    · next a₁ p₁ a₂ p₂ a₃ p₃ hparts =>
      dsimp only at h
      split at h
      · next n₁ n₂ n₃ hp₁ hp₂ hp₃ =>
        split at h
        · next hvalid =>
          obtain rfl := Except.ok.inj h
          exact ⟨a₁, p₁, a₂, p₂, a₃, p₃, hparts, ⟨⟨rfl, hvalid.1⟩, hp₁⟩, ⟨⟨rfl, hvalid.2.1⟩, hp₂⟩,
            ⟨rfl, hvalid.2.2⟩, hp₃⟩
        · exact absurd h (by simp)
      · exact absurd h (by simp)
    · exact absurd h (by simp)
  · rintro ⟨a₁, p₁, a₂, p₂, a₃, p₃, hparts, ⟨⟨h₁, hv₁⟩, hp₁⟩, ⟨⟨h₂, hv₂⟩, hp₂⟩, ⟨h₃, hv₃⟩, hp₃⟩
    simp only [parseLine, hparts, hp₁, hp₂, hp₃, h₁, h₂, h₃]
    rw [if_pos ⟨hv₁, hv₂, hv₃⟩]

/-- **The body of the loop accepts what passes for a line.** -/
theorem parseLine_eq_ok_iff (hpton : pton.Documented) :
    parseLine pton line = .ok target ↔ LooseLine pton line target := by
  rw [parseLine_eq_ok_iff_parts]
  simp only [hpton.fromString_eq_iff, parseUInt16_ofString_eq_some_iff,
    splitStringWithRegex_eq_iff]
  constructor
  · rintro ⟨a₁, p₁, a₂, p₂, a₃, p₃, ⟨-, hcomma, hline⟩, hfields⟩
    refine ⟨_, ⟨a₁, p₁, a₂, p₂, a₃, p₃, rfl, hcomma, hfields⟩, hline.imp_left ?_⟩
    exact fun ⟨hline, hlast⟩ ↦ ⟨hline, fun hnil ↦ absurd (hlast hnil) (by simp)⟩
  · rintro ⟨fields, ⟨a₁, p₁, a₂, p₂, a₃, p₃, rfl, hcomma, hfields⟩, hline⟩
    refine ⟨a₁, p₁, a₂, p₂, a₃, p₃, ⟨List.cons_ne_nil _ _, hcomma, hline.imp_left ?_⟩, hfields⟩
    exact fun ⟨hline, hlast⟩ ↦ ⟨hline, fun hnil ↦ absurd hnil hlast⟩

/-- The loop goes through the lines that are not empty, and stops at the first one that it does
not accept. -/
theorem parseLines_eq_ok_iff :
    parseLines pton done lines = .ok targets ↔
      ∃ rest, targets = done ++ rest ∧
        List.Forall₂ (fun line target ↦ parseLine pton line = .ok target)
          (lines.filter (· ≠ [])) rest := by
  induction lines generalizing done with
  | nil =>
    constructor
    · rintro ⟨⟩
      exact ⟨[], (List.append_nil _).symm, .nil⟩
    · rintro ⟨rest, rfl, hrest⟩
      obtain rfl := List.forall₂_nil_left_iff.1 hrest
      rw [List.append_nil]
      rfl
  | cons line lines ih =>
    rw [parseLines]
    split
    · next hempty =>
      rw [ih, hempty]
      rfl
    · next hne =>
      rw [List.filter_cons_of_pos (by simpa using hne)]
      rcases hline : parseLine pton line with log | target
      · simp [List.forall₂_cons_left_iff, hline]
      · simp only [ih, List.forall₂_cons_left_iff, hline, Except.ok.injEq]
        constructor
        · rintro ⟨rest, rfl, hrest⟩
          exact ⟨target :: rest, by simp, target, rest, rfl, hrest, rfl⟩
        · rintro ⟨_, rfl, _, rest, rfl, hrest, rfl⟩
          exact ⟨rest, by simp, hrest⟩

/-- **The loop accepts the contents every line of which passes for one.** -/
theorem parseConfig_eq_ok_iff (hpton : pton.Documented) :
    parseConfig pton cfgContent = .ok targets ↔
      List.Forall₂ (LooseLine pton) (segments cfgContent) targets := by
  have hsegments : (splitStringWithRegex cfgContent isSeparator).filter (· ≠ []) =
      segments cfgContent := filter_splitStringWithRegex cfgContent isSeparator
  rw [parseConfig, parseLines_eq_ok_iff, hsegments]
  simp only [List.nil_append, parseLine_eq_ok_iff hpton]
  exact ⟨fun ⟨_, h, hrest⟩ ↦ h ▸ hrest, fun h ↦ ⟨targets, rfl, h⟩⟩

/-- A text is read in one way. -/
theorem LooseLine.unique (hpton : pton.Documented) {target' : UdpForwardTargetInfo}
    (h : LooseLine pton line target) (h' : LooseLine pton line target') : target = target' :=
  Except.ok.inj (((parseLine_eq_ok_iff hpton).2 h).symm.trans ((parseLine_eq_ok_iff hpton).2 h'))

end Loop

/-! ### The grammar and the loop -/

section Grammar

variable {pton : InetPton} {line s : Bytes} {target : UdpForwardTargetInfo}
  {targets : List UdpForwardTargetInfo} {cfgContent : Bytes} {port : UInt16}

theorem PortText.loose (h : PortText s port) : LoosePortText s port := by
  obtain ⟨hne, hdigits, hvalue⟩ := h
  let n : Numeral := ⟨[], .none, s, List.forall_mem_nil _, hdigits, hne⟩
  exact .inr ⟨n, rfl, congrArg Nat.cast hvalue⟩

theorem StrictLine.loose (h : StrictLine pton line target) : LooseLine pton line target := by
  obtain ⟨_, ⟨a₁, p₁, a₂, p₂, a₃, p₃, rfl, hcomma, h₁, h₂, h₃⟩, hline⟩ := h
  refine ⟨_, ⟨a₁, p₁, a₂, p₂, a₃, p₃, rfl, hcomma, ⟨h₁.1.loose, h₁.2.loose⟩,
    ⟨h₂.1.loose, h₂.2.loose⟩, h₃.1.loose, h₃.2.loose⟩, .inl ⟨hline, fun hlast ↦ ?_⟩⟩
  exact h₃.2.1 (Option.some.inj hlast)

/-- A list is related to some list if each of its members is related to something. -/
theorem exists_forall₂_iff {α β : Type*} {R : α → β → Prop} {l : List α} :
    (∃ l', List.Forall₂ R l l') ↔ ∀ x ∈ l, ∃ y, R x y := by
  induction l with
  | nil => exact ⟨fun _ ↦ nofun, fun _ ↦ ⟨[], .nil⟩⟩
  | cons x l ih =>
    rw [List.forall_mem_cons, ← ih]
    constructor
    · rintro ⟨_, h⟩
      obtain ⟨y, l', hy, hl', rfl⟩ := List.forall₂_cons_left_iff.1 h
      exact ⟨⟨y, hy⟩, l', hl'⟩
    · rintro ⟨⟨y, hy⟩, l', hl'⟩
      exact ⟨y :: l', .cons hy hl'⟩

/-- The contents that the loop accepts are those every line of which passes for one. -/
theorem exists_parseConfig_iff (hpton : pton.Documented) :
    (∃ targets, parseConfig pton cfgContent = .ok targets) ↔
      ∀ line ∈ segments cfgContent, ∃ target, LooseLine pton line target := by
  simp only [parseConfig_eq_ok_iff hpton]
  exact exists_forall₂_iff

/-- `RunUdpForwarder` creates no socket for a content that the loop does not accept. -/
theorem runUdpForwarder_of_not_accepted
    (h : ¬∃ targets, parseConfig pton cfgContent = .ok targets)
    (epollCreate : Except Errno SocketHandle) (a : ℕ → TargetAnswers) :
    ∃ log, runUdpForwarder pton true (.ok cfgContent) epollCreate a = .returned 1 log [] := by
  rcases hparse : parseConfig pton cfgContent with log | targets
  · refine ⟨log, ?_⟩
    simp [runUdpForwarder, hparse]
  · exact absurd ⟨targets, hparse⟩ h

/-- **The forwarder accepts exactly its grammar except on the contents of which every line is
accepted and some line is not in the grammar.** -/
theorem acceptsExactly_iff (hpton : pton.Documented) :
    AcceptsExactly pton cfgContent ↔
      (∃ line ∈ segments cfgContent, ¬∃ target, LooseLine pton line target) ∨
        ∀ line ∈ segments cfgContent, ∃ target, StrictLine pton line target := by
  have haccepts : (∃ targets, parseConfig pton cfgContent = .ok targets) ↔ _ :=
    exists_parseConfig_iff hpton
  constructor
  · intro h
    by_cases hloose : ∃ targets, parseConfig pton cfgContent = .ok targets
    · exact .inr (h.accepts_iff.1 hloose)
    · rw [haccepts, not_forall₂] at hloose
      obtain ⟨line, hline, hnot⟩ := hloose
      exact .inl ⟨line, hline, hnot⟩
  · rintro (⟨line, hline, hnot⟩ | hstrict)
    · -- a line that does not even pass for one is not in the grammar either
      have hrefused : ¬∃ targets, parseConfig pton cfgContent = .ok targets :=
        fun h ↦ hnot (haccepts.1 h line hline)
      refine ⟨⟨fun h ↦ absurd h hrefused, fun h ↦ ?_⟩, fun targets h ↦ ?_,
        runUdpForwarder_of_not_accepted⟩
      · obtain ⟨target, htarget⟩ := h line hline
        exact absurd ⟨target, htarget.loose⟩ hnot
      · exact absurd ⟨targets, h⟩ hrefused
    · -- the targets that the grammar gives are those that the loop makes of the lines
      obtain ⟨strict, hgrammar⟩ := exists_forall₂_iff.2 hstrict
      have hparse : parseConfig pton cfgContent = .ok strict :=
        (parseConfig_eq_ok_iff hpton).2 (hgrammar.imp fun _ _ h ↦ h.loose)
      refine ⟨⟨fun _ ↦ hstrict, fun _ ↦ ⟨strict, hparse⟩⟩, fun targets h ↦ ?_,
        runUdpForwarder_of_not_accepted⟩
      obtain rfl := Except.ok.inj (hparse.symm.trans h)
      exact hgrammar

end Grammar

/-! ### A line with an empty port -/

/-- A number of dotted decimal: up to three digits, no leading zero, at most 255. -/
def sampleOctet (s : Bytes) : Option UInt8 :=
  if s ≠ [] ∧ s.all isdigit = true ∧ (s.head? = some 0x30 → s.length = 1) ∧ s.length ≤ 3 ∧
      decimal s ≤ 255 then
    some (.ofNat (decimal s))
  else none

/-- `inet_pton` for the texts in dotted decimal, and of the IPv6 texts for `::` only. -/
def samplePton : InetPton where
  v4 s :=
    match s.splitOn dot with
    | [a, b, c, d] =>
      match sampleOctet a, sampleOctet b, sampleOctet c, sampleOctet d with
      | some a, some b, some c, some d => some #v[a, b, c, d]
      | _, _, _, _ => none
    | _ => none
  v6 s := if s = [colon, colon] then some (Vector.replicate 16 0) else none

theorem sampleOctet_isdigit {s : Bytes} {n : UInt8} (h : sampleOctet s = some n) :
    ∀ c ∈ s, isdigit c = true := by
  rw [sampleOctet, Option.ite_none_right_eq_some] at h
  exact List.all_eq_true.1 h.1.2.1

theorem samplePton_documented : samplePton.Documented where
  v4_chars {s a} h c hc := by
    simp only [samplePton] at h
    split at h
    · next b₁ b₂ b₃ b₄ hsplit =>
      obtain ⟨-, -, hs⟩ := splitOn_eq_iff.1 hsplit
      split at h
      · next h₁ h₂ h₃ h₄ =>
        simp only [hs, List.intercalate_cons_cons, List.intercalate_singleton, List.mem_append,
          List.mem_singleton, or_assoc] at hc
        rcases hc with hc | hc | hc | hc | hc | hc | hc
        · exact .inl (sampleOctet_isdigit h₁ c hc)
        · exact .inr hc
        · exact .inl (sampleOctet_isdigit h₂ c hc)
        · exact .inr hc
        · exact .inl (sampleOctet_isdigit h₃ c hc)
        · exact .inr hc
        · exact .inl (sampleOctet_isdigit h₄ c hc)
      · exact absurd h (by simp)
    · exact absurd h (by simp)
  v6_chars {s a} h c hc := by
    simp only [samplePton, Option.ite_none_right_eq_some] at h
    rw [h.1] at hc
    simp at hc
    exact .inr (.inl hc)
  v6_colon {s a} h := by
    simp only [samplePton, Option.ite_none_right_eq_some] at h
    rw [h.1]
    exact List.mem_cons_self

/-- The bytes of an ASCII text. -/
def ascii (s : String) : Bytes := s.toList.map fun c ↦ c.toNat.toUInt8

/-- A line without the inbound port. -/
def sampleLine : Bytes := ascii "127.0.0.1,,0.0.0.0,0,192.0.2.1,53"

/-- That line, and a line of the grammar. -/
def sampleConfig : Bytes :=
  sampleLine ++ ascii "\r\n127.0.0.1,5353,::,0,192.0.2.1,53\r\n"

/-- The inbound port becomes 0: the first rule listens on a port that the system chooses. -/
theorem parse_sampleConfig : parseConfig samplePton sampleConfig = .ok
    [⟨⟨.ipv4 #v[127, 0, 0, 1], 0⟩, ⟨.ipv4 #v[0, 0, 0, 0], 0⟩, ⟨.ipv4 #v[192, 0, 2, 1], 53⟩⟩,
      ⟨⟨.ipv4 #v[127, 0, 0, 1], 5353⟩, ⟨.ipv6 (Vector.replicate 16 0), 0⟩,
        ⟨.ipv4 #v[192, 0, 2, 1], 53⟩⟩] := by
  decide

/-- **The forwarder does not accept exactly its grammar**: it accepts a line with an empty port. -/
theorem sampleConfig_not_acceptsExactly : ¬AcceptsExactly samplePton sampleConfig := by
  intro h
  have hmem : sampleLine ∈ segments sampleConfig := by decide
  obtain ⟨target, _, ⟨a₁, p₁, a₂, p₂, a₃, p₃, rfl, hcomma, ⟨-, hport⟩, -⟩, hline⟩ :=
    h.accepts_iff.1 ⟨_, parse_sampleConfig⟩ sampleLine hmem
  have hfields := splitOn_eq_iff.2 ⟨List.cons_ne_nil _ _, hcomma, hline⟩
  have hsplit : sampleLine.splitOn comma = [ascii "127.0.0.1", [], ascii "0.0.0.0", ascii "0",
      ascii "192.0.2.1", ascii "53"] := by decide
  rw [hsplit] at hfields
  obtain ⟨-, hempty, -⟩ := List.cons.inj hfields |>.imp_right List.cons.inj
  exact hport.1 hempty.symm

theorem sampleConfig_acceptsExactly_iff :
    AcceptsExactly samplePton sampleConfig ↔
      (∃ line ∈ segments sampleConfig, ¬∃ target, LooseLine samplePton line target) ∨
        ∀ line ∈ segments sampleConfig, ∃ target, StrictLine samplePton line target :=
  acceptsExactly_iff samplePton_documented

end UdpForward
