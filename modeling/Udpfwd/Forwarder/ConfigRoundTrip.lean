import Udpfwd.Forwarder.Config
import Udpfwd.Net.AddressFormat
import Udpfwd.Text.Format

/-!
# Configurations that are written and read

A list of rules as text, and that the loop of `RunUdpForwarder` reads it back. IPv6 addresses
may be in brackets, and anything that the separators can make is allowed between the lines.
-/

open Net Text

namespace UdpForward

/-- The three addresses of a rule. -/
def UdpForwardTargetInfo.addresses (target : UdpForwardTargetInfo) : List INetAddress :=
  [target.inbound.address, target.outbound.address, target.destination.address]

/-- An address as a field, with brackets around an IPv6 address or not. -/
def addressField (ntop : InetNtop) (bracketed : Bool) (a : INetAddress) : Bytes :=
  if bracketed = true ∧ a.isIpv6 = true then
    leftBracket :: (a.toString ntop ++ [rightBracket])
  else a.toString ntop

/-- Which of the three addresses are to be in brackets. -/
structure Brackets where
  inbound : Bool
  outbound : Bool
  destination : Bool

/-- The six fields of a rule. -/
def fieldsText (ntop : InetNtop) (brackets : Brackets) (target : UdpForwardTargetInfo) :
    List Bytes :=
  [addressField ntop brackets.inbound target.inbound.address,
    format target.inbound.port.toNat,
    addressField ntop brackets.outbound target.outbound.address,
    format target.outbound.port.toNat,
    addressField ntop brackets.destination target.destination.address,
    format target.destination.port.toNat]

/-- A rule as a line. -/
def lineText (ntop : InetNtop) (brackets : Brackets) (target : UdpForwardTargetInfo) : Bytes :=
  [comma].intercalate (fieldsText ntop brackets target)

/-- The texts of a list of rules. -/
inductive ConfigText (ntop : InetNtop) : List UdpForwardTargetInfo → Bytes → Prop
  /-- What may follow the last line. -/
  | nil (run : Bytes) (hrun : ∀ c ∈ run, isSeparator c = true) : ConfigText ntop [] run
  /-- A line, with what may precede it. What follows it starts with a separator. -/
  | cons (run : Bytes) {rest : Bytes} {target : UdpForwardTargetInfo}
      {targets : List UdpForwardTargetInfo} (brackets : Brackets)
      (hrun : ∀ c ∈ run, isSeparator c = true)
      (hrest : ∀ c ∈ rest.head?, isSeparator c = true) (h : ConfigText ntop targets rest) :
      ConfigText ntop (target :: targets) (run ++ lineText ntop brackets target ++ rest)

/-- What is relied on for an address in a configuration: it can be read back, and neither a
comma nor a separator is part of its text. -/
structure Writable (pton : InetPton) (ntop : InetNtop) (a : INetAddress) : Prop extends
    ReadsBack pton ntop a where
  comma_notMem : comma ∉ a.toString ntop
  not_isSeparator : ∀ c ∈ a.toString ntop, isSeparator c = false

section Fields

variable {pton : InetPton} {ntop : InetNtop} {a : INetAddress} {bracketed : Bool}
variable {brackets : Brackets} {target : UdpForwardTargetInfo} {c : UInt8}

/-- **A field is read back.** -/
theorem fromString_addressField (h : ReadsBack pton ntop a) (ha : a.isValid = true) :
    INetAddress.fromString pton (addressField ntop bracketed a) = a := by
  rw [addressField]
  split
  · next hbrackets => exact h.fromString_bracketed hbrackets.2
  · exact h.fromString_toString ha

theorem mem_addressField (hc : c ∈ addressField ntop bracketed a) :
    c = leftBracket ∨ c = rightBracket ∨ c ∈ a.toString ntop := by
  rw [addressField] at hc
  split at hc
  · rw [List.mem_cons, List.mem_append, List.mem_singleton] at hc
    tauto
  · exact .inr (.inr hc)

/-- What a field consists of. -/
theorem mem_fieldsText {f : Bytes} (hf : f ∈ fieldsText ntop brackets target) (hc : c ∈ f) :
    c = leftBracket ∨ c = rightBracket ∨ isdigit c = true ∨
      ∃ a ∈ target.addresses, c ∈ a.toString ntop := by
  have haddress : ∀ {bracketed a}, a ∈ target.addresses → c ∈ addressField ntop bracketed a →
      c = leftBracket ∨ c = rightBracket ∨ isdigit c = true ∨
        ∃ a ∈ target.addresses, c ∈ a.toString ntop := by
    intro bracketed a ha hc
    rcases mem_addressField hc with h | h | h
    · exact .inl h
    · exact .inr (.inl h)
    · exact .inr (.inr (.inr ⟨a, ha, h⟩))
  simp only [fieldsText, List.mem_cons, List.not_mem_nil, or_false] at hf
  rcases hf with rfl | rfl | rfl | rfl | rfl | rfl
  · exact haddress (by simp [UdpForwardTargetInfo.addresses]) hc
  · exact .inr (.inr (.inl (isdigit_of_mem_format hc)))
  · exact haddress (by simp [UdpForwardTargetInfo.addresses]) hc
  · exact .inr (.inr (.inl (isdigit_of_mem_format hc)))
  · exact haddress (by simp [UdpForwardTargetInfo.addresses]) hc
  · exact .inr (.inr (.inl (isdigit_of_mem_format hc)))

theorem comma_ne_of_isdigit (h : isdigit c = true) : c ≠ comma := by
  rintro rfl
  exact absurd h (by decide)

theorem isSeparator_eq_false_of_isdigit (h : isdigit c = true) : isSeparator c = false := by
  have hne : ∀ d : UInt8, isdigit d = false → c ≠ d := by
    rintro d hd rfl
    rw [h] at hd
    exact absurd hd (by simp)
  simp [isSeparator, hne 0x0D (by decide), hne 0x0A (by decide), hne 0x3B (by decide)]

theorem comma_notMem_fieldsText (h : ∀ a ∈ target.addresses, Writable pton ntop a) :
    ∀ f ∈ fieldsText ntop brackets target, comma ∉ f := by
  intro f hf hc
  rcases mem_fieldsText hf hc with h' | h' | h' | ⟨a, ha, h'⟩
  · exact absurd h' (by decide)
  · exact absurd h' (by decide)
  · exact comma_ne_of_isdigit h' rfl
  · exact (h a ha).comma_notMem h'

/-- There is no separator in a line. -/
theorem not_isSeparator_of_mem_lineText (h : ∀ a ∈ target.addresses, Writable pton ntop a)
    (hc : c ∈ lineText ntop brackets target) : isSeparator c = false := by
  rw [lineText] at hc
  have hmem : c = comma ∨ ∃ f ∈ fieldsText ntop brackets target, c ∈ f := by
    simpa [fieldsText, List.intercalate, List.intersperse, or_comm, or_assoc, or_left_comm] using hc
  rcases hmem with rfl | ⟨f, hf, hc⟩
  · decide
  rcases mem_fieldsText hf hc with rfl | rfl | h' | ⟨a, ha, h'⟩
  · decide
  · decide
  · exact isSeparator_eq_false_of_isdigit h'
  · exact (h a ha).not_isSeparator c h'

theorem lineText_ne_nil : lineText ntop brackets target ≠ [] := by
  simp [lineText, fieldsText, List.intercalate, List.intersperse]

/-- **A line is read back.** -/
theorem parseLine_lineText (hvalid : ∀ a ∈ target.addresses, a.isValid = true)
    (h : ∀ a ∈ target.addresses, Writable pton ntop a) :
    parseLine pton (lineText ntop brackets target) = .ok target := by
  have hsplit : splitStringWithRegex (lineText ntop brackets target) (· == comma) =
      fieldsText ntop brackets target := by
    rw [splitStringWithRegex_eq_iff]
    refine ⟨List.cons_ne_nil _ _, comma_notMem_fieldsText h, .inl ⟨rfl, fun hlast ↦ ?_⟩⟩
    exact absurd (Option.some.inj hlast) (format_ne_nil _)
  have haddress : ∀ {bracketed a}, a ∈ target.addresses →
      INetAddress.fromString pton (addressField ntop bracketed a) = a ∧ a.isValid = true :=
    fun ha ↦ ⟨fromString_addressField (h _ ha).toReadsBack (hvalid _ ha), hvalid _ ha⟩
  rw [parseLine_eq_ok_iff_parts]
  exact ⟨_, _, _, _, _, _, hsplit,
    ⟨haddress (by simp [UdpForwardTargetInfo.addresses]), parseUInt16_format _ _⟩,
    ⟨haddress (by simp [UdpForwardTargetInfo.addresses]), parseUInt16_format _ _⟩,
    haddress (by simp [UdpForwardTargetInfo.addresses]), parseUInt16_format _ _⟩

end Fields

/-! ### Lines and separators -/

section Lines

variable {run line rest : Bytes} {c : UInt8}

theorem segments_cons (hc : isSeparator c = true) : segments (c :: rest) = segments rest := by
  rw [segments, List.splitOnP_cons_eq_if_modifyHead, if_pos hc,
    List.filter_cons_of_neg (by simp)]
  rfl

theorem segments_run_append (hrun : ∀ c ∈ run, isSeparator c = true) :
    segments (run ++ rest) = segments rest := by
  induction run with
  | nil => rfl
  | cons c run ih =>
    rw [List.forall_mem_cons] at hrun
    rw [List.cons_append, segments_cons hrun.1, ih hrun.2]

theorem segments_line_append (hne : line ≠ []) (hline : ∀ c ∈ line, isSeparator c = false)
    (hrest : ∀ c ∈ rest.head?, isSeparator c = true) :
    segments (line ++ rest) = line :: segments rest := by
  cases rest with
  | nil =>
    rw [List.append_nil, segments, List.splitOnP_eq_singleton hline]
    simp [hne, segments]
  | cons c rest =>
    have hc := hrest c rfl
    rw [segments_cons hc, segments, List.splitOnP_append_cons_of_forall_mem hline c hc,
      List.filter_cons_of_pos (by simpa using hne)]
    rfl

end Lines

section Configurations

variable {pton : InetPton} {ntop : InetNtop} {targets : List UdpForwardTargetInfo}
  {cfgContent : Bytes}

/-- The lines of the text are those of the rules. -/
theorem ConfigText.forall₂_segments (htext : ConfigText ntop targets cfgContent)
    (hvalid : ∀ target ∈ targets, ∀ a ∈ target.addresses, a.isValid = true)
    (h : ∀ target ∈ targets, ∀ a ∈ target.addresses, Writable pton ntop a) :
    List.Forall₂ (fun line target ↦ parseLine pton line = .ok target) (segments cfgContent)
      targets := by
  induction htext with
  | nil run hrun =>
    have hsegments : segments (run ++ []) = [] := segments_run_append hrun
    rw [List.append_nil] at hsegments
    rw [hsegments]
    exact .nil
  | cons run brackets hrun hrest _ ih =>
    rw [List.forall_mem_cons] at hvalid h
    rw [List.append_assoc, segments_run_append hrun, segments_line_append lineText_ne_nil
      (fun c ↦ not_isSeparator_of_mem_lineText h.1) hrest]
    exact .cons (parseLine_lineText hvalid.1 h.1) (ih hvalid.2 h.2)

/-- **Configurations that are written are read back.** Take any list of rules with valid
addresses, write each on a line, the IPv6 addresses in brackets or not, and put any runs of
separators between the lines, before and after them. The loop accepts the text, and makes the
same list of it. -/
theorem parseConfig_configText
    (hvalid : ∀ target ∈ targets, ∀ a ∈ target.addresses, a.isValid = true)
    (h : ∀ target ∈ targets, ∀ a ∈ target.addresses, Writable pton ntop a)
    (htext : ConfigText ntop targets cfgContent) : parseConfig pton cfgContent = .ok targets := by
  have hsegments : (splitStringWithRegex cfgContent isSeparator).filter (· ≠ []) =
      segments cfgContent := filter_splitStringWithRegex cfgContent isSeparator
  rw [parseConfig, parseLines_eq_ok_iff, hsegments]
  exact ⟨targets, rfl, htext.forall₂_segments hvalid h⟩

end Configurations

/-! ### Two rules -/

/-- `inet_ntop` for IPv4, and for the IPv6 address `::`. -/
def sampleNtop : InetNtop where
  v4 mAddr4 := [dot].intercalate (mAddr4.toList.map fun octet ↦ format octet.toNat)
  v6 _ := [colon, colon]

theorem not_isSeparator_of_all {s : Bytes} (h : s.all (!isSeparator ·) = true) :
    ∀ c ∈ s, isSeparator c = false := by
  simpa using h

/-- The IPv4 addresses in the rules can be written. -/
theorem sampleNtop_writable {a : INetAddress}
    (ha : a = .ipv4 #v[192, 0, 2, 1] ∨ a = INetAddress.ipv4Any) :
    Writable samplePton sampleNtop a := by
  rcases ha with rfl | rfl <;>
    exact
      { v4 := by rintro b ⟨⟩; decide
        v6 := nofun
        colon_iff := by decide
        leftBracket_notMem := by decide
        comma_notMem := by decide
        not_isSeparator := not_isSeparator_of_all (by decide) }

theorem sampleNtop_writable6 : Writable samplePton sampleNtop INetAddress.ipv6Any where
  v4 := nofun
  v6 := by rintro b ⟨⟩; decide
  colon_iff := by decide
  leftBracket_notMem := by decide
  comma_notMem := by decide
  not_isSeparator := not_isSeparator_of_all (by decide)

theorem sampleTargets_writable : ∀ target ∈ sampleTargets, ∀ a ∈ target.addresses,
    Writable samplePton sampleNtop a := by
  have hserver := sampleNtop_writable (.inl rfl)
  have hany := sampleNtop_writable (.inr rfl)
  simp only [sampleTargets, UdpForwardTargetInfo.addresses, List.forall_mem_cons]
  exact ⟨⟨hany, hany, hserver, nofun⟩, ⟨sampleNtop_writable6, hany, hserver, nofun⟩, nofun⟩

/-- The two rules, with an empty line before them, a semicolon between them, and one address in
brackets. -/
def sampleText : Bytes :=
  ascii "\r\n0.0.0.0,5000,0.0.0.0,0,192.0.2.1,53;[::],5001,0.0.0.0,0,192.0.2.1,123\n"

theorem sampleText_configText : ConfigText sampleNtop sampleTargets sampleText :=
  .cons (ascii "\r\n") ⟨false, false, false⟩ (List.all_eq_true.1 (by decide))
    (by rintro c ⟨⟩; rfl)
    (.cons (ascii ";") ⟨true, false, false⟩ (List.all_eq_true.1 (by decide)) (by rintro c ⟨⟩; rfl)
      (.nil (ascii "\n") (List.all_eq_true.1 (by decide))))

theorem parse_sampleText : parseConfig samplePton sampleText = .ok sampleTargets :=
  parseConfig_configText (by decide) sampleTargets_writable sampleText_configText

end UdpForward
