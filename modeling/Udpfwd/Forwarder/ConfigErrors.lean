import Udpfwd.Forwarder.Config

/-!
# Configurations line by line

The loop of `RunUdpForwarder` reads a configuration from the start and gives up at the first line
that does not pass for a rule. So what it makes of two texts with a separator between them is what
it makes of the first and then of the second (`parseConfig_append`), and what it logs is the first
line that is wrong, with the expected format if the line has six fields
(`parseConfig_eq_error_iff`).
-/

open Net Text

namespace UdpForward

/-- What is logged of a line that does not pass for a rule. -/
def lineLog (line : Bytes) : List LogMessage :=
  if (splitStringWithRegex line (· == comma)).length = 6 then [.invalidLine line, .expectedFormat]
  else [.invalidLine line]

section Lines

variable {pton : InetPton} {line : Bytes} {lines lines₁ lines₂ : List Bytes}
variable {done : List UdpForwardTargetInfo} {log : List LogMessage}

/-- Empty lines are passed over. -/
theorem parseLines_filter :
    parseLines pton done (lines.filter (· ≠ [])) = parseLines pton done lines := by
  induction lines generalizing done with
  | nil => rfl
  | cons line lines ih =>
    by_cases hempty : line = []
    · rw [List.filter_cons_of_neg (by simpa using hempty), ih, parseLines, if_pos hempty]
    · rw [List.filter_cons_of_pos (by simpa using hempty), parseLines, parseLines, if_neg hempty,
        if_neg hempty]
      simp only [ih]

/-- The loop goes on where it has stopped. -/
theorem parseLines_append :
    parseLines pton done (lines₁ ++ lines₂) =
      (parseLines pton done lines₁).bind fun targets ↦ parseLines pton targets lines₂ := by
  induction lines₁ generalizing done with
  | nil => rfl
  | cons line lines ih =>
    rw [List.cons_append, parseLines, parseLines]
    split
    · exact ih
    · rcases parseLine pton line with log | target
      · rfl
      · exact ih

/-- What is there already stays in front. -/
theorem parseLines_eq_map :
    parseLines pton done lines = (parseLines pton [] lines).map (done ++ ·) := by
  induction lines generalizing done with
  | nil => simp [parseLines, Except.map]
  | cons line lines ih =>
    rw [parseLines, parseLines]
    split
    · exact ih
    · rcases parseLine pton line with log | target
      · rfl
      · show parseLines pton (done ++ [target]) lines =
          (parseLines pton ([] ++ [target]) lines).map (done ++ ·)
        have htarget : parseLines pton ([] ++ [target]) lines = _ := ih
        rw [ih, htarget]
        rcases parseLines pton [] lines with log | targets <;> simp [Except.map]

/-- The loop fails at the first line that it does not accept. -/
theorem parseLines_eq_error_iff (hlines : ∀ line ∈ lines, line ≠ []) :
    parseLines pton done lines = .error log ↔
      ∃ past line rest, lines = past ++ line :: rest ∧
        (∀ l ∈ past, ∃ target, parseLine pton l = .ok target) ∧
          parseLine pton line = .error log := by
  induction lines generalizing done with
  | nil => simp [parseLines]
  | cons line lines ih =>
    obtain ⟨hne, hlines⟩ := List.forall_mem_cons.1 hlines
    rw [parseLines, if_neg hne]
    rcases hline : parseLine pton line with log' | target
    · constructor
      · intro h
        obtain rfl := Except.error.inj h
        exact ⟨[], line, lines, rfl, List.forall_mem_nil _, hline⟩
      · rintro ⟨past, bad, rest, heq, hpast, hbad⟩
        rcases past with - | ⟨first, past⟩
        · obtain ⟨rfl, -⟩ := List.cons.inj heq
          rw [← hline, hbad]
        · obtain ⟨rfl, -⟩ := List.cons.inj heq
          obtain ⟨target, htarget⟩ := hpast line List.mem_cons_self
          rw [hline] at htarget
          exact absurd htarget (by simp)
    · show parseLines pton (done ++ [target]) lines = .error log ↔ _
      rw [ih hlines]
      constructor
      · rintro ⟨past, bad, rest, rfl, hpast, hbad⟩
        exact ⟨line :: past, bad, rest, rfl, List.forall_mem_cons.2 ⟨⟨target, hline⟩, hpast⟩, hbad⟩
      · rintro ⟨past, bad, rest, heq, hpast, hbad⟩
        rcases past with - | ⟨first, past⟩
        · obtain ⟨rfl, -⟩ := List.cons.inj heq
          rw [hline] at hbad
          exact absurd hbad (by simp)
        · obtain ⟨rfl, rfl⟩ := List.cons.inj heq
          exact ⟨past, bad, rest, rfl, (List.forall_mem_cons.1 hpast).2, hbad⟩

/-- What is logged of a line that is not accepted. -/
theorem parseLine_eq_error_iff :
    parseLine pton line = .error log ↔
      (¬∃ target, parseLine pton line = .ok target) ∧ log = lineLog line := by
  have hlog : ∀ {log}, parseLine pton line = .error log → log = lineLog line := by
    intro log h
    rw [parseLine] at h
    rw [lineLog]
    split at h
    · next hparts =>
      rw [hparts, if_pos (by rfl)]
      dsimp only at h
      split at h
      · split at h
        · exact absurd h (by simp)
        · exact (Except.error.inj h).symm
      · exact (Except.error.inj h).symm
    · next hparts =>
      rw [if_neg]
      · exact (Except.error.inj h).symm
      · intro hlength
        rcases hsplit : splitStringWithRegex line (· == comma) with - | ⟨a₁, - | ⟨p₁, - | ⟨a₂,
          - | ⟨p₂, - | ⟨a₃, - | ⟨p₃, - | ⟨_, _⟩⟩⟩⟩⟩⟩⟩ <;> simp [hsplit] at hlength
        exact hparts a₁ p₁ a₂ p₂ a₃ p₃ hsplit
  constructor
  · intro h
    refine ⟨?_, hlog h⟩
    rintro ⟨target, htarget⟩
    rw [h] at htarget
    exact absurd htarget (by simp)
  · rintro ⟨hnot, rfl⟩
    rcases hline : parseLine pton line with log | target
    · rw [hlog hline]
    · exact absurd ⟨target, hline⟩ hnot

end Lines

section Configurations

variable {pton : InetPton} {first second cfgContent : Bytes} {c : UInt8}
variable {log : List LogMessage}

/-- The loop sees the segments. -/
theorem parseConfig_eq :
    parseConfig pton cfgContent = parseLines pton [] (segments cfgContent) := by
  have hsegments : (splitStringWithRegex cfgContent isSeparator).filter (· ≠ []) =
      segments cfgContent := filter_splitStringWithRegex cfgContent isSeparator
  rw [parseConfig, ← parseLines_filter, hsegments]

/-- The lines that are accepted, one after the other. -/
theorem parseConfig_eq_ok_iff_lines {targets : List UdpForwardTargetInfo} :
    parseConfig pton cfgContent = .ok targets ↔
      List.Forall₂ (fun line target ↦ parseLine pton line = .ok target) (segments cfgContent)
        targets := by
  have hsegments : (splitStringWithRegex cfgContent isSeparator).filter (· ≠ []) =
      segments cfgContent := filter_splitStringWithRegex cfgContent isSeparator
  rw [parseConfig, parseLines_eq_ok_iff, hsegments]
  constructor
  · rintro ⟨parsed, rfl, hlines⟩
    exact hlines
  · exact fun h ↦ ⟨targets, rfl, h⟩

theorem ne_nil_of_mem_segments {line : Bytes} (h : line ∈ segments cfgContent) : line ≠ [] := by
  rw [segments, List.mem_filter] at h
  exact of_decide_eq_true h.2

theorem segments_append_cons (hc : isSeparator c = true) :
    segments (first ++ c :: second) = segments first ++ segments second := by
  rw [segments, List.splitOnP_append_cons first second hc, List.filter_append]
  rfl

/-- **Configurations compose.** What the loop makes of two texts with a separator between them is
what it makes of the first and, unless it gives up there, of the second: the targets of both, in
this order, or what is logged of the first one that is wrong. -/
theorem parseConfig_append (hc : isSeparator c = true) :
    parseConfig pton (first ++ c :: second) = do
      let targets ← parseConfig pton first
      let others ← parseConfig pton second
      return targets ++ others := by
  rw [parseConfig_eq, parseConfig_eq, parseConfig_eq, segments_append_cons hc, parseLines_append]
  rcases parseLines pton [] (segments first) with log | targets
  · rfl
  · show parseLines pton targets (segments second) = _
    rw [parseLines_eq_map]
    rcases parseLines pton [] (segments second) with log | others <;> rfl

/-- **The first line that is wrong is logged.** The loop gives up exactly when some line does not
pass for a rule, and then it logs the first such line, and what it expects if the line has six
fields. -/
theorem parseConfig_eq_error_iff (hpton : pton.Documented) :
    parseConfig pton cfgContent = .error log ↔
      ∃ past line rest, segments cfgContent = past ++ line :: rest ∧
        (∀ l ∈ past, ∃ target, LooseLine pton l target) ∧
        (¬∃ target, LooseLine pton line target) ∧ log = lineLog line := by
  rw [parseConfig_eq, parseLines_eq_error_iff (fun _ ↦ ne_nil_of_mem_segments)]
  simp only [parseLine_eq_error_iff, parseLine_eq_ok_iff hpton]

/-- Something is logged of a configuration that is not accepted. -/
theorem exists_log_eq_cons (h : parseConfig pton cfgContent = .error log) :
    ∃ message rest, log = message :: rest := by
  rw [parseConfig_eq, parseLines_eq_error_iff (fun _ ↦ ne_nil_of_mem_segments)] at h
  obtain ⟨past, line, rest, -, -, hline⟩ := h
  obtain ⟨-, rfl⟩ := parseLine_eq_error_iff.1 hline
  rw [lineLog]
  split <;> exact ⟨_, _, rfl⟩

end Configurations

/-- A rule. -/
def sampleRule : Bytes := ascii "0.0.0.0,5000,0.0.0.0,0,192.0.2.1,53"

/-- A line whose last field is no port. -/
def sampleMistake : Bytes := ascii "0.0.0.0,5000,0.0.0.0,0,192.0.2.1,dns"

theorem sampleMistake_logged :
    ∃ past line rest, segments (sampleRule ++ 0x0A :: (sampleMistake ++ 0x0A :: [])) =
        past ++ line :: rest ∧
      (∀ l ∈ past, ∃ target, LooseLine samplePton l target) ∧
      (¬∃ target, LooseLine samplePton line target) ∧
      [.invalidLine sampleMistake, .expectedFormat] = lineLog line := by
  have hparse : parseConfig samplePton (sampleRule ++ 0x0A :: (sampleMistake ++ 0x0A :: [])) =
    .error [.invalidLine sampleMistake, .expectedFormat] := by decide
  exact (parseConfig_eq_error_iff samplePton_documented).1 hparse

theorem sampleRules_append :
    parseConfig samplePton (sampleRule ++ 0x0A :: sampleRule) = do
      let targets ← parseConfig samplePton sampleRule
      let others ← parseConfig samplePton sampleRule
      return targets ++ others :=
  parseConfig_append (by decide)

end UdpForward
